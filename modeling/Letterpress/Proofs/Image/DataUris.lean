/-
# Payloads describe themselves

The data URI of a payload holds all there is to know: it is split into the media type
and the octets that it was made of, and inspected it gives the payload again
(`parse_uri_of_ofImage_eq_ok`). Nothing in such a URI is blank, and the first comma is the
one behind `;base64`, since no media type of an image has either.
-/

import Letterpress.Image.Payload
import Letterpress.Proofs.Text.Base64
import Letterpress.Proofs.Text.Encoding
import Letterpress.Proofs.Text.Splitting
import Letterpress.Proofs.Text.Trimming

namespace Letterpress

namespace Utf8

/-- The octet of an ASCII character is its number. -/
theorem map_toNat_encode {t : Text} (hascii : ∀ c ∈ t, c.toNat < 0x80) :
    (encode t).map UInt8.toNat = t.map Char.toNat := by
  induction t with
  | nil => rfl
  | cons c t ih =>
      have hc := hascii c List.mem_cons_self
      have hrest := ih fun d hd => hascii d (List.mem_cons_of_mem c hd)
      rw [encode, List.flatMap_cons, List.map_append, List.map_cons, ← hrest, encodeChar,
        if_pos hc]
      simp only [List.map_cons, List.map_nil, List.cons_append, List.nil_append, encode,
        List.cons.injEq, and_true]
      exact UInt8.toNat_ofNat_of_lt' (Nat.lt_trans hc (by decide))

end Utf8

/-! ## What data URIs are written with -/

/-- Visible ASCII characters other than the comma, which ends the header. -/
def isUriChar (c : Char) : Bool := !isBlank c && c != ',' && c.toNat < 0x80

theorem isUriChar_of_mem_encode {bytes : Octets} {c : Char} (hc : c ∈ Base64.encode bytes) :
    isUriChar c = true := by
  have hsymbol : ∀ n < 64, isUriChar (Base64.symbol n) = true := by decide
  rcases Base64.mem_encode_cases hc with ⟨n, hn, rfl⟩ | rfl
  · exact hsymbol n hn
  · decide

theorem MeasuredFormat.isUriChar_of_mem_mediaType {format : MeasuredFormat} {c : Char}
    (hc : c ∈ format.mediaType) : isUriChar c = true := by
  have hall : format.mediaType.all isUriChar = true := by
    cases format with
    | _ => decide
  exact List.all_eq_true.mp hall c hc

namespace DataUri

variable {source mediaType : Text} {bytes : Octets}

theorem written_eq (mediaType : Text) (bytes : Octets) :
    written mediaType bytes =
      ("data:" : Text) ++ mediaType ++ (";base64," : Text) ++ Base64.encode bytes := rfl

/-- A data URI of octets has nothing to trim. -/
theorem trim_written (hmedia : ∀ c ∈ mediaType, isUriChar c = true) :
    Text.trim (written mediaType bytes) = written mediaType bytes := by
  apply Text.trim_eq_self
  intro c hc
  have hlead : ("data:" : Text).any isBlank = false := by decide
  have hmark : (";base64," : Text).any isBlank = false := by decide
  have hvisible (hchar : isUriChar c = true) : isBlank c = false := by
    simp only [isUriChar, Bool.and_eq_true, Bool.not_eq_true'] at hchar
    exact hchar.1.1
  simp only [written_eq, List.mem_append] at hc
  rcases hc with ((hc | hc) | hc) | hc
  · exact Bool.eq_false_iff.mpr (List.any_eq_false.mp hlead c hc)
  · exact hvisible (hmedia c hc)
  · exact Bool.eq_false_iff.mpr (List.any_eq_false.mp hmark c hc)
  · exact hvisible (isUriChar_of_mem_encode hc)

/-- Nothing that octets are written with is blank. -/
theorem trim_encode : Text.trim (Base64.encode bytes) = Base64.encode bytes := by
  apply Text.trim_eq_self
  intro c hc
  have hchar := isUriChar_of_mem_encode hc
  simp only [isUriChar, Bool.and_eq_true, Bool.not_eq_true'] at hchar
  exact hchar.1.1

theorem codes_encode : codes (Base64.encode bytes) = Base64.writtenCodes bytes := by
  apply Utf8.map_toNat_encode
  intro c hc
  have hchar := isUriChar_of_mem_encode hc
  simp only [isUriChar, Bool.and_eq_true, decide_eq_true_eq] at hchar
  exact hchar.2

/-- The comma is the first one if the media type has none. -/
theorem header_append (mediaType data : Text) :
    ("data:" ++ mediaType ++ ";base64," : Text) ++ data =
      "data:" ++ ((mediaType ++ ";base64") ++ ',' :: data) := by
  simp only [List.append_assoc]
  rfl

/-- Text that is decoded as octets is what they are written with. -/
theorem decode_codes_eq_ok_iff {t : Text} :
    Base64.decode (codes t) = .ok bytes ↔ t = Base64.encode bytes := by
  rw [Base64.decode_eq_ok_iff, ← codes_encode]
  constructor
  · intro hcodes
    have hoctets : Utf8.encode t = Utf8.encode (Base64.encode bytes) :=
      List.map_injective_iff.mpr (fun _ _ => UInt8.toNat_inj.mp) hcodes
    have hdecode := Utf8.decode_encode t
    rw [hoctets, Utf8.decode_encode] at hdecode
    cases hdecode
    rfl
  · rintro rfl
    rfl

/-- Sources are split at their first comma, and their data is what the octets are written with. -/
theorem parse_eq_ok_iff : parse source = .ok (mediaType, bytes) ↔
    ',' ∉ mediaType ∧ ∃ data, Text.trim source = "data:" ++ mediaType ++ ";base64," ++ data ∧
      Text.trim data = Base64.encode bytes := by
  constructor
  · intro hparse
    simp only [parse] at hparse
    split at hparse
    · cases hparse
    rename_i rest hlead
    split at hparse
    · cases hparse
    rename_i head data hsplit
    split at hparse
    · cases hparse
    rename_i media hmedia
    split at hparse
    · rename_i octets hdecode
      cases hparse
      rw [Text.after?_eq_some_iff] at hlead
      rw [Text.before?_eq_some_iff] at hmedia
      have hrest := Text.eq_of_splitAtFirst hsplit
      have hcomma := Text.not_mem_left_of_splitAtFirst hsplit
      refine ⟨fun hmem => hcomma (hmedia ▸ List.mem_append_left _ hmem), data, ?_, ?_⟩
      · rw [hlead, hrest, hmedia, header_append]
      · exact decode_codes_eq_ok_iff.mp hdecode
    · cases hparse
  · rintro ⟨hcomma, data, htrim, hdata⟩
    have hlead : Text.after? "data:" (Text.trim source) =
        some ((mediaType ++ ";base64") ++ ',' :: data) := by
      rw [Text.after?_eq_some_iff, htrim, header_append]
    have habsent : ',' ∉ mediaType ++ (";base64" : Text) := by
      rw [List.mem_append, not_or]
      exact ⟨hcomma, by decide⟩
    have hsplit : Text.splitAtFirst ',' ((mediaType ++ ";base64") ++ ',' :: data) =
        some (mediaType ++ ";base64", data) := by
      rw [Text.splitAtFirst_append habsent]
      simp [Text.splitAtFirst]
    have hmedia : Text.before? ";base64" (mediaType ++ ";base64") = some mediaType :=
      Text.before?_eq_some_iff.mpr rfl
    have hdecode : Base64.decode (codes (Text.trim data)) = .ok bytes :=
      decode_codes_eq_ok_iff.mpr hdata
    simp only [parse, hlead, hsplit, hmedia, hdecode]

/-- A written data URI is split into what it was written from. -/
theorem parse_written (hmedia : ∀ c ∈ mediaType, isUriChar c = true) :
    parse (written mediaType bytes) = .ok (mediaType, bytes) := by
  have hcomma : ',' ∉ mediaType := by
    intro hmem
    have hchar := hmedia _ hmem
    revert hchar
    decide
  exact parse_eq_ok_iff.mpr ⟨hcomma, Base64.encode bytes, trim_written hmedia, trim_encode⟩

end DataUri

/-! ## Payloads -/

namespace Payload

/-- The data URI of the payload of an image is split into the media type and the octets of the
image, and it is the data URI of the same payload. -/
theorem parse_uri_of_ofImage_eq_ok {bytes : Octets} {p : Payload} (himage : ofImage bytes = .ok p) :
    DataUri.parse p.uri = .ok (p.mediaType, bytes) ∧ ofUri p.uri = .ok p := by
  cases hmeasure : measure bytes with
  | error fault =>
      rw [ofImage, hmeasure] at himage
      cases himage
  | ok m =>
      rw [ofImage, hmeasure] at himage
      cases himage
      have hmedia : ∀ c ∈ m.format.mediaType, isUriChar c = true :=
        fun _ => MeasuredFormat.isUriChar_of_mem_mediaType
      have hparse : DataUri.parse (DataUri.written m.format.mediaType bytes) =
          .ok (m.format.mediaType, bytes) := DataUri.parse_written hmedia
      refine ⟨hparse, ?_⟩
      simp only [ofUri, hparse, DataUri.trim_written hmedia, bind, Except.bind, hmeasure]
      rfl

/-- A picture of 3 by 2 pixels with a comment, whose octets leave one over at the end. -/
def dotsSample : Octets :=
  ImageFormat.ascii "GIF89a" ++ [3, 0, 2, 0, 0, 0, 0, 0x21, 0xFE, 2, 0x68, 0x69, 0, 0x2C, 0x3B]

theorem parse_uri_of_ofImage_eq_ok_dots : ∃ p : Payload,
    ofImage dotsSample = .ok p ∧ p.width = 3 ∧ p.height = 2 ∧
      DataUri.parse p.uri = .ok (p.mediaType, dotsSample) ∧ ofUri p.uri = .ok p := by
  have himage : ofImage dotsSample =
      .ok ⟨DataUri.written "image/gif" dotsSample, "image/gif", 3, 2⟩ := by
    rfl
  exact ⟨_, himage, rfl, rfl, parse_uri_of_ofImage_eq_ok himage⟩

end Payload

end Letterpress
