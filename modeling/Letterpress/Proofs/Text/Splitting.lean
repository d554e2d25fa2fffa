/-
# Texts cut in two

A text is cut at its first mark, or at an end that it may have. What stands on either
side comes back, and more text on one side stays there.
-/

import Letterpress.Text.Basic

namespace Letterpress.Text

/-! ## At the first mark -/

theorem splitAtFirst_eq_none {mark : Char} {t : Text} (habsent : mark ∉ t) :
    splitAtFirst mark t = none := by
  induction t with
  | nil => rfl
  | cons c t ih =>
      simp only [List.mem_cons, not_or] at habsent
      rw [splitAtFirst, if_neg (Ne.symm habsent.1), ih habsent.2, Option.map_none]

/-- Text without the mark goes to the left of the first mark. -/
theorem splitAtFirst_append {mark : Char} {v : Text} (habsent : mark ∉ v) (t : Text) :
    splitAtFirst mark (v ++ t) =
      (splitAtFirst mark t).map fun (left, right) => (v ++ left, right) := by
  induction v with
  | nil => simp
  | cons c v ih =>
      simp only [List.mem_cons, not_or] at habsent
      rw [List.cons_append, splitAtFirst, if_neg (Ne.symm habsent.1), ih habsent.2,
        Option.map_map]
      rfl

/-- Text behind the first mark stays to its right. -/
theorem splitAtFirst_append_right {mark : Char} {w : Text} (habsent : mark ∉ w) (t : Text) :
    splitAtFirst mark (t ++ w) =
      (splitAtFirst mark t).map fun (left, right) => (left, right ++ w) := by
  induction t with
  | nil => simp [splitAtFirst, splitAtFirst_eq_none habsent]
  | cons c t ih =>
      rw [List.cons_append, splitAtFirst, splitAtFirst]
      split
      · simp
      · rw [ih, Option.map_map, Option.map_map]
        rfl

theorem eq_of_splitAtFirst {mark : Char} {t left right : Text}
    (hsplit : splitAtFirst mark t = some (left, right)) :
    t = left ++ mark :: right := by
  induction t generalizing left with
  | nil => simp [splitAtFirst] at hsplit
  | cons c t ih =>
      rw [splitAtFirst] at hsplit
      split at hsplit
      · rename_i hmark
        cases hsplit
        rw [hmark, List.nil_append]
      · obtain ⟨⟨l, r⟩, hrest, heq⟩ := Option.map_eq_some_iff.mp hsplit
        cases heq
        rw [ih hrest, List.cons_append]

theorem not_mem_left_of_splitAtFirst {mark : Char} {t left right : Text}
    (hsplit : splitAtFirst mark t = some (left, right)) : mark ∉ left := by
  induction t generalizing left with
  | nil => simp [splitAtFirst] at hsplit
  | cons c t ih =>
      rw [splitAtFirst] at hsplit
      split at hsplit
      · cases hsplit
        exact List.not_mem_nil
      · rename_i hmark
        obtain ⟨⟨l, r⟩, hrest, heq⟩ := Option.map_eq_some_iff.mp hsplit
        cases heq
        rw [List.mem_cons, not_or]
        exact ⟨Ne.symm hmark, ih hrest⟩

theorem splitAtFirst_append_of_some {mark : Char} {t left right : Text}
    (hsplit : splitAtFirst mark t = some (left, right)) (w : Text) :
    splitAtFirst mark (t ++ w) = some (left, right ++ w) := by
  induction t generalizing left with
  | nil => cases hsplit
  | cons c t ih =>
      rw [List.cons_append, splitAtFirst]
      rw [splitAtFirst] at hsplit
      split
      · rename_i hmark
        rw [if_pos hmark] at hsplit
        cases hsplit
        rfl
      · rename_i hmark
        rw [if_neg hmark] at hsplit
        obtain ⟨⟨l, r⟩, hrest, heq⟩ := Option.map_eq_some_iff.mp hsplit
        cases heq
        rw [ih hrest]
        rfl

theorem not_mem_of_splitAtFirst_eq_none {mark : Char} {t : Text}
    (hnone : splitAtFirst mark t = none) : mark ∉ t := by
  induction t with
  | nil => exact List.not_mem_nil
  | cons c t ih =>
      rw [splitAtFirst] at hnone
      split at hnone
      · cases hnone
      · rename_i hmark
        rw [List.mem_cons, not_or]
        exact ⟨Ne.symm hmark, ih (Option.map_eq_none_iff.mp hnone)⟩

/-! ## At an end -/

theorem before?_eq_some_iff {trail t rest : Text} :
    before? trail t = some rest ↔ t = rest ++ trail := by
  rw [before?, Option.map_eq_some_iff]
  constructor
  · rintro ⟨u, hafter, rfl⟩
    have heq := congrArg List.reverse (after?_eq_some_iff.mp hafter)
    simpa using heq
  · rintro rfl
    exact ⟨rest.reverse, after?_eq_some_iff.mpr List.reverse_append, List.reverse_reverse rest⟩

end Letterpress.Text
