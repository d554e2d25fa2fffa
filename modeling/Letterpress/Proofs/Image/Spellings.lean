/-
# Spellings of data URIs

A media type without commas and octets have one data URI, up to blanks in three places:
around the whole and behind the comma (`parse_eq_ok_iff_isSpelling`). Blanks anywhere else
belong to the media type or are no Base64. A media type may end like the mark behind it, as
only the last mark in front of the first comma is taken off.

This is about the splitting of sources. That a source is the data URI of an image is not
claimed, nor that its media type is the image's.
-/

import Letterpress.Proofs.Image.DataUris

namespace Letterpress

namespace Text

/-- Blanks are trimmed off one end as off both. -/
theorem trim_trimEnd (t : Text) : trim (trimEnd t) = trim t := by
  obtain ⟨w, hw, heq⟩ := exists_dropEndWhile_eq isBlank t
  conv => rhs; rw [heq]
  exact (trim_append_blank_right hw (trimEnd t)).symm

/-- A text that begins and ends with visible characters keeps what is behind it from being
trimmed at the start, and stays itself. -/
theorem trim_append_of_visible {first last : Char} {lead : Text} (hfirst : isBlank first = false)
    (hlast : isBlank last = false) (t : Text) :
    trim (first :: (lead ++ [last]) ++ t) = first :: (lead ++ [last]) ++ trimEnd t := by
  have hstart : trimStart (first :: (lead ++ [last]) ++ t) = first :: (lead ++ [last]) ++ t := by
    simp [trimStart, hfirst]
  have hend : (first :: (lead ++ [last])).reverse.dropWhile isBlank =
      (first :: (lead ++ [last])).reverse := by
    simp [hlast]
  rw [trim, hstart, trimEnd, dropEndWhile, List.reverse_append, List.dropWhile_append, hend]
  split
  · rename_i hnone
    rw [List.isEmpty_iff] at hnone
    simp [trimEnd, dropEndWhile, hnone]
  · simp [trimEnd, dropEndWhile]

end Text

namespace DataUri

variable {source mediaType : Text} {bytes : Octets}

/-- The source says the media type and the octets, with blanks at most around the whole and behind
the comma. -/
def IsSpelling (mediaType : Text) (bytes : Octets) (source : Text) : Prop :=
  ∃ before gap after : Text, before.all isBlank ∧ gap.all isBlank ∧ after.all isBlank ∧
    source = before ++ ("data:" ++ mediaType ++ ";base64,") ++ gap ++ Base64.encode bytes ++ after

/-- Sources are accepted with a result if they are spellings of it. -/
theorem parse_eq_ok_iff_isSpelling : parse source = .ok (mediaType, bytes) ↔
    ',' ∉ mediaType ∧ IsSpelling mediaType bytes source := by
  rw [parse_eq_ok_iff, and_congr_right_iff]
  intro hcomma
  constructor
  · rintro ⟨data, htrim, hdata⟩
    obtain ⟨before, after, hbefore, hafter, hsource⟩ := Text.exists_trim_eq source
    obtain ⟨gap, rest, hgap, hrest, hparts⟩ := Text.exists_trim_eq data
    refine ⟨before, gap, rest ++ after, hbefore, hgap, ?_, ?_⟩
    · rw [List.all_append, hrest, hafter]
      rfl
    · rw [hsource, htrim, hparts, hdata]
      simp
  · rintro ⟨before, gap, after, hbefore, hgap, hafter, rfl⟩
    have hlead : ("data:" ++ mediaType ++ ";base64," : Text) =
        'd' :: (("ata:" ++ mediaType ++ ";base64") ++ [',']) := by
      simp only [List.append_assoc]
      rfl
    rw [hlead]
    refine ⟨Text.trimEnd (gap ++ Base64.encode bytes), ?_, ?_⟩
    · rw [List.append_assoc, List.append_assoc, List.append_assoc,
        ← List.append_assoc gap, ← List.append_assoc _ _ after,
        Text.trim_append_blank hbefore hafter]
      exact Text.trim_append_of_visible (by decide) (by decide) _
    · have hgap := Text.trim_append_blank hgap List.all_nil (Base64.encode bytes)
      rw [List.append_nil] at hgap
      rw [Text.trim_trimEnd, hgap, trim_encode]

/-- An accepted source is, trimmed, a header with the data behind it, and the data, trimmed, is
what the octets are written with. The sources with the same result are the spellings of it, so
they differ in blanks around the whole and behind the comma only. -/
theorem parse_spelled_once (hparse : parse source = .ok (mediaType, bytes)) :
    (∃ data, Text.trim source = "data:" ++ mediaType ++ ";base64," ++ data ∧
      Text.trim data = Base64.encode bytes) ∧
    ∀ other, parse other = .ok (mediaType, bytes) ↔ IsSpelling mediaType bytes other := by
  obtain ⟨hcomma, hdata⟩ := parse_eq_ok_iff.mp hparse
  refine ⟨hdata, fun other => ?_⟩
  rw [parse_eq_ok_iff_isSpelling]
  exact and_iff_right hcomma

/-- A source with blanks in all three places, whose media type ends like the mark behind it. -/
def spacedSource : Text := "\n data:image/a;base64;base64, Zm8=\t"

theorem parse_spelled_once_spaced :
    parse spacedSource = .ok ("image/a;base64", [0x66, 0x6F]) ∧
      (∃ data, Text.trim spacedSource = "data:" ++ "image/a;base64" ++ ";base64," ++ data ∧
        Text.trim data = Base64.encode [0x66, 0x6F]) ∧
      parse "data:image/a;base64;base64,Zm8=" = .ok ("image/a;base64", [0x66, 0x6F]) := by
  have hparse : parse spacedSource = .ok ("image/a;base64", [0x66, 0x6F]) := by rfl
  obtain ⟨hdata, hothers⟩ := parse_spelled_once hparse
  exact ⟨hparse, hdata, (hothers _).mpr ⟨[], [], [], rfl, rfl, rfl, rfl⟩⟩

end DataUri

end Letterpress
