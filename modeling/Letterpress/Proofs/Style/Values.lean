/-
# Values read from styles

A value that is read from a style which closes its quotes and parentheses
closes what it opens itself, if nothing in the property before it opens
anything. Such a value can be written into another style without moving a
separator, in small letters too.
-/

import Letterpress.Proofs.Style.Joining
import Letterpress.Proofs.Text.Letters

namespace Letterpress

namespace Style

open Text

namespace Scan

@[simp]
theorem isMark_toLower (c : Char) : isMark c.toLower = isMark c := by
  have hsame (d : Char) (hd : d.toNat < 65) : (c.toLower == d) = (c == d) := by
    rw [Bool.eq_iff_iff, beq_iff_eq, beq_iff_eq, toLower_eq_iff (.inl hd)]
  simp only [isMark, hsame '"' (by decide), hsame '\'' (by decide), hsame '(' (by decide),
    hsame ')' (by decide), hsame ';' (by decide)]

theorem toLower_eq_self_of_isMark {c : Char} (hmark : isMark c = true) : c.toLower = c := by
  simp only [isMark, Bool.or_eq_true, beq_iff_eq] at hmark
  rcases hmark with (((rfl | rfl) | rfl) | rfl) | rfl <;> decide

/-- The scan does not see the case of letters. -/
theorem step_toLower {s : Scan} (hvalid : s.IsValid) (c : Char) :
    s.step c.toLower = s.step c := by
  cases hmark : isMark c with
  | true => rw [toLower_eq_self_of_isMark hmark]
  | false =>
      rw [step_of_not_isMark hvalid hmark,
        step_of_not_isMark hvalid ((isMark_toLower c).trans hmark)]

theorem cuts_toLower (s : Scan) (c : Char) : s.cuts c.toLower = s.cuts c := by
  rw [Bool.eq_iff_iff, cuts_iff, cuts_iff, toLower_eq_iff (.inl (by decide))]

end Scan

theorem crosses_lower {s s' : Scan} {t : Text} (hvalid : s.IsValid) (hcrosses : Crosses s t s') :
    Crosses s (lower t) s' := by
  induction t generalizing s with
  | nil => exact hcrosses
  | cons c t ih =>
      obtain ⟨hcuts, hrest⟩ := crosses_cons.mp hcrosses
      refine crosses_cons.mpr ⟨(s.cuts_toLower c).trans hcuts, ?_⟩
      rw [Scan.step_toLower hvalid]
      exact ih (hvalid.step c) hrest

theorem isWhole_lower {t : Text} (hwhole : IsWhole t) : IsWhole (lower t) :=
  crosses_lower Scan.isValid_top hwhole

/-- A piece with a declaration holds the property before its first colon. -/
theorem eq_of_declaration?_eq_some {p : Text} {d : Declaration} (hread : declaration? p = some d) :
    ∃ left right, p = left ++ ':' :: right ∧ ':' ∉ left ∧ trim left ≠ [] ∧
      d = ⟨lower (trim left), trim right⟩ := by
  obtain ⟨⟨left, right⟩, hsplit, hsome⟩ := Option.bind_eq_some_iff.mp hread
  simp only [Option.ite_none_left_eq_some, Option.some.injEq, List.isEmpty_iff] at hsome
  exact ⟨left, right, eq_of_splitAtFirst hsplit, not_mem_left_of_splitAtFirst hsplit,
    hsome.1, hsome.2.symm⟩

/-- A declaration that is read comes from a piece: its property stands before the first colon,
and its value behind it. -/
theorem exists_piece_of_mem {t : Text} {d : Declaration} (hmem : d ∈ declarations t) :
    ∃ left right, left ++ ':' :: right ∈ pieces .top t ∧
      d = ⟨lower (trim left), trim right⟩ := by
  rw [declarations_eq_filterMap, List.mem_filterMap] at hmem
  obtain ⟨p, hp, hread⟩ := hmem
  obtain ⟨left, right, rfl, -, -, hd⟩ := eq_of_declaration?_eq_some hread
  exact ⟨left, right, hp, hd⟩

/-- Properties are read in small letters. -/
theorem lower_property_of_mem {t : Text} {d : Declaration} (hmem : d ∈ declarations t) :
    lower d.property = d.property := by
  obtain ⟨left, right, -, rfl⟩ := exists_piece_of_mem hmem
  exact lower_lower _

theorem lower_property_of_mem_declarationsOf {style : Option Text} {d : Declaration}
    (hmem : d ∈ declarationsOf style) : lower d.property = d.property := by
  cases style with
  | none => cases hmem
  | some t => exact lower_property_of_mem hmem

/-- Values are read without blanks around them. -/
theorem trim_value_of_mem {t : Text} {d : Declaration} (hmem : d ∈ declarations t) :
    trim d.value = d.value := by
  obtain ⟨left, right, -, rfl⟩ := exists_piece_of_mem hmem
  exact trim_trim _

/-- A value in a style that closes is whole, unless its property opens something. -/
theorem isWhole_value_of_mem {t : Text} {d : Declaration} (hcloses : closes t = true)
    (hmem : d ∈ declarations t) (hproperty : d.property.all fun c => !Scan.isMark c) :
    IsWhole d.value := by
  obtain ⟨left, right, hpiece, rfl⟩ := exists_piece_of_mem hmem
  have hwhole := isWhole_of_mem_pieces hcloses hpiece
  have hleft : left.all fun c => !Scan.isMark c := by
    obtain ⟨v, w, hv, hw, heq⟩ := exists_trim_eq left
    have htrim : (trim left).all fun c => !Scan.isMark c := by
      simpa [lower, List.all_map, Function.comp_def] using hproperty
    rw [heq, List.all_append, List.all_append, Scan.not_isMark_of_all_isBlank hv, htrim,
      Scan.not_isMark_of_all_isBlank hw, Bool.and_self, Bool.and_self]
  have hright : IsWhole right := by
    rw [IsWhole, crosses_append, Scan.run_of_not_isMark Scan.isValid_top hleft,
      crosses_cons] at hwhole
    exact hwhole.2.2
  exact isWhole_trim hright

/-- The value in force for a property is that of one of its declarations. -/
theorem exists_mem_of_value? {t property value : Text} (hvalue : value? t property = some value) :
    ∃ d ∈ declarations t, sameName d.property property = true ∧ d.value = value := by
  obtain ⟨d, hfind, rfl⟩ := Option.map_eq_some_iff.mp hvalue
  have hmem := List.mem_of_find?_eq_some hfind
  have hsame := List.find?_some hfind
  exact ⟨d, List.mem_reverse.mp hmem, hsame, rfl⟩

theorem mem_of_mem_consFirst {c d : Char} {piece : Text} {ps : List Text}
    (hpiece : piece ∈ consFirst d ps) (hc : c ∈ piece) : c = d ∨ ∃ p ∈ ps, c ∈ p := by
  cases ps with
  | nil =>
      obtain rfl := List.mem_singleton.mp hpiece
      exact .inl (List.mem_singleton.mp hc)
  | cons p ps =>
      rcases List.mem_cons.mp hpiece with rfl | hlater
      · rcases List.mem_cons.mp hc with hself | hin
        · exact .inl hself
        · exact .inr ⟨p, List.mem_cons_self, hin⟩
      · exact .inr ⟨piece, List.mem_cons_of_mem p hlater, hc⟩

theorem mem_of_mem_pieces {s : Scan} {t piece : Text} {c : Char} (hpiece : piece ∈ pieces s t)
    (hc : c ∈ piece) : c ∈ t := by
  induction t generalizing s piece with
  | nil =>
      rw [List.mem_singleton.mp hpiece] at hc
      cases hc
  | cons d t ih =>
      rw [pieces] at hpiece
      split at hpiece
      · rcases List.mem_cons.mp hpiece with rfl | hlater
        · cases hc
        · exact List.mem_cons_of_mem d (ih hlater hc)
      · rcases mem_of_mem_consFirst hpiece hc with rfl | ⟨p, hp, hin⟩
        · exact List.mem_cons_self
        · exact List.mem_cons_of_mem d (ih hp hin)

/-- The characters of a value are from the style. -/
theorem mem_of_mem_value? {t property value : Text} {c : Char}
    (hvalue : value? t property = some value) (hc : c ∈ value) : c ∈ t := by
  obtain ⟨d, hd, -, rfl⟩ := exists_mem_of_value? hvalue
  obtain ⟨left, right, hpiece, rfl⟩ := exists_piece_of_mem hd
  exact mem_of_mem_pieces hpiece
    (List.mem_append_right left (List.mem_cons_of_mem ':' (mem_of_mem_trim hc)))

end Style

end Letterpress
