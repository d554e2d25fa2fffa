/-
# Styles read one after the other

Style texts are put together with a semicolon between them. Behind a text that closes its
quotes and parentheses the semicolon separates, and then both texts are read as if they stood
alone, whatever the second one is. Its declarations come last, so they are in force where it
declares a property.

No other text can stand first. A text that leaves something open swallows the semicolon, and
what its last piece declares holds the character that was left open. A declaration behind the
semicolon that holds no such character is then missing (`exists_declarations_ne`).
-/

import Letterpress.Proofs.Style.Unclosed

namespace Letterpress

namespace Style

open Declaration

/-- A text behind another and a semicolon is read as each of them is read alone. -/
structure ReadApart (t u : Text) : Prop where
  declared : declarations (t ++ ";" ++ u) = declarations t ++ declarations u
  inForce : ∀ property, value? (t ++ ";" ++ u) property =
    if ∃ d ∈ declarations u, Text.sameName d.property property = true then value? u property
    else value? t property

/-- The value of a property in declarations that follow others. -/
theorem lastValue?_append_eq_ite (ds es : List Declaration) (property : Text) :
    lastValue? (ds ++ es) property =
      if ∃ d ∈ es, Text.sameName d.property property = true then lastValue? es property
      else lastValue? ds property := by
  rw [lastValue?_append]
  split
  · rename_i hdeclared
    obtain ⟨value, hvalue⟩ := Option.isSome_iff_exists.mp (isSome_lastValue?_iff.mpr hdeclared)
    rw [hvalue, Option.some_or]
  · rename_i hother
    have hnone : lastValue? es property = none := by
      rw [← Option.not_isSome_iff_eq_none, isSome_lastValue?_iff]
      exact hother
    rw [hnone, Option.none_or]

theorem readApart_of_closes {t : Text} (hcloses : closes t = true) (u : Text) :
    ReadApart t u := by
  have hdeclared : declarations (t ++ ";" ++ u) = declarations t ++ declarations u := by
    rw [← declarations_append_semicolon hcloses, List.append_assoc]
    rfl
  refine ⟨hdeclared, fun property => ?_⟩
  rw [value?_eq_lastValue?, hdeclared]
  exact lastValue?_append_eq_ite (declarations t) (declarations u) property

/-! ## Texts that leave something open -/

/-- What opens something in a piece is neither dropped nor changed by reading the piece. -/
theorem mem_of_declaration?_eq_some {p : Text} {d : Declaration} {m : Char}
    (hopening : isOpening m = true) (hmem : m ∈ p) (hread : declaration? p = some d) :
    m ∈ d.property ∨ m ∈ d.value := by
  obtain ⟨⟨left, right⟩, hsplit, hnamed⟩ := Option.bind_eq_some_iff.mp hread
  dsimp only at hnamed
  split at hnamed
  · cases hnamed
  · cases hnamed
    have hchar : m ≠ ':' ∧ isBlank m = false := by
      rcases isOpening_cases hopening with rfl | rfl | rfl <;> decide
    rw [Text.eq_of_splitAtFirst hsplit, List.mem_append, List.mem_cons] at hmem
    rcases hmem with hleft | hcolon | hright
    · exact .inl (Text.mem_lower_trim hopening hleft)
    · exact absurd hcolon hchar.1
    · exact .inr (Text.mem_trim hright hchar.2)

/-- Behind a text that leaves something open a declaration is lost. -/
theorem exists_declarations_ne {t : Text} (hopen : closes t = false) :
    ∃ u : Text, declarations (t ++ ";" ++ u) ≠ declarations t ++ declarations u := by
  obtain ⟨ps, p, ⟨m, hmem, hopening⟩, hpieces⟩ := exists_open_piece hopen
  refine ⟨"c:d", fun hsame => ?_⟩
  have hbehind := hpieces ";c:d" (by simp [isBracket, isOpening])
  have halone := hpieces [] (by simp)
  have hu : declarations "c:d" = [⟨"c", "d"⟩] := by decide
  have htext : t ++ ";" ++ "c:d" = t ++ ";c:d" := by
    rw [List.append_assoc]
    rfl
  rw [List.append_nil, List.append_nil] at halone
  rw [htext, hu, declarations_eq_filterMap, declarations_eq_filterMap, hbehind, halone,
    List.filterMap_append, List.filterMap_append, List.append_assoc,
    List.append_cancel_left_eq] at hsame
  -- So the last piece alone declares what stands behind the semicolon.
  have hlast : declaration? (p ++ ";c:d") = some ⟨"c", "d"⟩ := by
    have hdeclared : ⟨"c", "d"⟩ ∈ [p ++ ";c:d"].filterMap declaration? := by
      rw [hsame]
      exact List.mem_append_right _ List.mem_cons_self
    obtain ⟨q, hq, hread⟩ := List.mem_filterMap.mp hdeclared
    rwa [List.mem_singleton.mp hq] at hread
  have hnot : m ∉ ("c" : Text) ∧ m ∉ ("d" : Text) := by
    rcases isOpening_cases hopening with rfl | rfl | rfl <;> decide
  rcases mem_of_declaration?_eq_some hopening (List.mem_append_left _ hmem) hlast with
    hproperty | hvalue
  · exact hnot.1 hproperty
  · exact hnot.2 hvalue

/-- The texts that close their quotes and parentheses are those behind which any text,
well-formed or not, is read as it is read alone. -/
theorem closes_iff_readApart (t : Text) : closes t = true ↔ ∀ u, ReadApart t u := by
  constructor
  · exact readApart_of_closes
  · intro hall
    rw [← Bool.not_eq_false]
    intro hopen
    obtain ⟨u, hne⟩ := exists_declarations_ne hopen
    exact hne (hall u).declared

/-- A parenthesis that closes nothing is no obstacle, and neither is a blank piece at the
seam. -/
example : declarations ("a: 1); " ++ ";" ++ " ;A: url(;b: 2") =
    [⟨"a", "1)"⟩, ⟨"a", "url(;b: 2"⟩] := by decide

end Style

end Letterpress
