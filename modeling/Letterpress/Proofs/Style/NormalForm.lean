/-
# Styles in normal form

What is read of a style text can be written and read again: joining the declarations of any
text gives a text with the same declarations (`declarations_joined_declarations`). Nothing is
assumed of the text. Only its last piece can leave something open, so whatever a declaration
leaves open when it is written has nothing behind it, and pieces that hold no declaration take
nothing along when they are dropped.
-/

import Letterpress.Proofs.Style.Values

namespace Letterpress

namespace Style

open Declaration

/-- A declaration is read in the form in which it is read again. -/
theorem isNamed_of_declaration? {p : Text} {d : Declaration} (hread : declaration? p = some d) :
    d.IsNamed ∧ d.trimmed = d := by
  obtain ⟨left, right, -, hcolon, hne, rfl⟩ := eq_of_declaration?_eq_some hread
  refine ⟨⟨?_, Text.lower_lower _, ?_, ?_⟩, ?_⟩
  · simpa [Text.lower] using hne
  · rw [Text.trim_lower, Text.trim_trim]
  · intro hmem
    obtain ⟨c, hc, hlower⟩ := List.mem_map.mp hmem
    rw [Text.toLower_eq_iff (.inl (by decide))] at hlower
    exact hcolon (hlower ▸ Text.mem_of_mem_trim hc)
  · rw [trimmed, Text.trim_trim]

/-- Trimming, small letters and the space behind the colon do not move a scan, so a declaration
is crossed as the piece is that holds it. -/
theorem crosses_written {p : Text} {d : Declaration} {s : Scan} (hread : declaration? p = some d)
    (hcrosses : Crosses .top p s) : Crosses .top d.written s := by
  obtain ⟨left, right, rfl, -, -, rfl⟩ := eq_of_declaration?_eq_some hread
  have hvalid : (Scan.top.run left).IsValid := Scan.isValid_top.run left
  obtain ⟨hleft, hrest⟩ := crosses_append.mp hcrosses
  have hright : Crosses (Scan.top.run left) right s := by
    have hstep := (crosses_cons.mp hrest).2
    rwa [Scan.step_of_not_isMark hvalid (by decide)] at hstep
  have hcolon : Crosses (Scan.top.run left) (": " : Text) (Scan.top.run left) :=
    crosses_of_not_isMark hvalid (by decide)
  have hproperty := crosses_lower Scan.isValid_top (crosses_trim Scan.isValid_top hleft)
  exact (hproperty.append hcolon).append (crosses_trim hvalid hright)

/-- What is read of a text that closes can be read again. -/
theorem isReadable_of_mem_declarations {t : Text} (hcloses : closes t = true) {d : Declaration}
    (hmem : d ∈ declarations t) : d.IsReadable ∧ d.trimmed = d := by
  rw [declarations_eq_filterMap, List.mem_filterMap] at hmem
  obtain ⟨p, hp, hread⟩ := hmem
  obtain ⟨hnamed, htrimmed⟩ := isNamed_of_declaration? hread
  have hwhole := crosses_written hread (isWhole_of_mem_pieces hcloses hp)
  exact ⟨⟨hnamed.property_ne_nil, hnamed.lower_property, hnamed.trim_property,
    hnamed.colon_not_mem, hwhole⟩, htrimmed⟩

/-- A single piece declares at most one thing, which can be read again behind others. -/
theorem declarations_joined_append_piece {p : Text} (hpiece : pieces .top p = [p])
    {ds : List Declaration} (hread : ∀ d ∈ ds, d.IsReadable ∧ d.trimmed = d) :
    declarations (joined (ds ++ declarations p)) = ds ++ declarations p := by
  have hreadable : ∀ d ∈ ds, d.IsReadable := fun d hd => (hread d hd).1
  have hsame : ds.map trimmed = ds :=
    (List.map_congr_left fun d hd => (hread d hd).2).trans (List.map_id ds)
  have hone : declarations p = (declaration? p).toList := by
    rw [declarations_eq_filterMap, hpiece]
    cases hp : declaration? p <;> simp [hp]
  cases hp : declaration? p with
  | none => rw [hone, hp, Option.toList_none, List.append_nil, declarations_joined hreadable, hsame]
  | some d =>
      obtain ⟨hnamed, htrimmed⟩ := isNamed_of_declaration? hp
      have hwritten := crosses_written hp ⟨rfl, hpiece⟩
      rw [hone, hp, Option.toList_some, declarations_joined_append hreadable, hsame,
        declarations_written hnamed hwritten.2, htrimmed]

/-- Declarations that are read, written and read again are the same, whatever the text that they
were read from leaves open. -/
theorem declarations_joined_declarations (t : Text) :
    declarations (joined (declarations t)) = declarations t := by
  rcases pieces_eq_singleton_or .top t with hpiece | ⟨u, p, rfl, hrun, hpiece⟩
  · have hnone : ∀ d ∈ ([] : List Declaration), d.IsReadable ∧ d.trimmed = d := nofun
    exact declarations_joined_append_piece hpiece hnone
  · have hcloses : closes u = true := beq_iff_eq.mpr hrun
    rw [declarations_append_semicolon hcloses]
    exact declarations_joined_append_piece hpiece fun d =>
      isReadable_of_mem_declarations hcloses

/-- An open quote keeps what is behind it in one declaration. -/
example : declarations "a : b;; ); Color: \"x; width: 1px" =
    [⟨"a", "b"⟩, ⟨"color", "\"x; width: 1px"⟩] := by decide

end Style

end Letterpress
