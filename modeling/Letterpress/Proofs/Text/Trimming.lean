/-
# Trimmed texts

Trimming takes blank characters off both ends and nothing else. The statements
say what it takes away (`exists_trim_eq`) and that it does not see blanks put
around a text (`trim_append_blank`), which is all that the laws of styles need
of it.
-/

import Mathlib.Data.List.TakeWhile
import Letterpress.Text.Blank

namespace Letterpress

namespace Text

/-- What stands before the end that `drop` takes away, and that end. -/
theorem exists_dropEndWhile_eq (drop : Char → Bool) (t : Text) :
    ∃ w, w.all drop ∧ t = dropEndWhile drop t ++ w := by
  refine ⟨(t.reverse.takeWhile drop).reverse, ?_, ?_⟩
  · rw [List.all_reverse]
    exact List.all_takeWhile
  · rw [dropEndWhile, ← List.reverse_append, List.takeWhile_append_dropWhile,
      List.reverse_reverse]

theorem dropEndWhile_append {drop : Char → Bool} {w : Text} (hdropped : w.all drop)
    (t : Text) : dropEndWhile drop (t ++ w) = dropEndWhile drop t := by
  have hall : ∀ c ∈ w.reverse, drop c = true := by
    simpa [List.all_eq_true] using hdropped
  rw [dropEndWhile, dropEndWhile, List.reverse_append,
    List.dropWhile_append_of_pos hall]

/-- A trimmed text lacks blanks at both ends, and only those. -/
theorem exists_trim_eq (t : Text) :
    ∃ v w, v.all isBlank ∧ w.all isBlank ∧ t = v ++ (trim t ++ w) := by
  obtain ⟨w, hw, hend⟩ := exists_dropEndWhile_eq isBlank (trimStart t)
  refine ⟨t.takeWhile isBlank, w, List.all_takeWhile, hw, ?_⟩
  have hstart : t = t.takeWhile isBlank ++ trimStart t :=
    List.takeWhile_append_dropWhile.symm
  rw [trim, trimEnd, ← hend]
  exact hstart

theorem mem_of_mem_trim {c : Char} {t : Text} (hc : c ∈ trim t) : c ∈ t := by
  obtain ⟨v, w, -, -, heq⟩ := exists_trim_eq t
  rw [heq]
  exact List.mem_append_right v (List.mem_append_left w hc)

/-- Blanks before a text are trimmed away, unless they are the whole text. -/
theorem trimStart_append_blank {v : Text} (hv : v.all isBlank) (t : Text) :
    trimStart (v ++ t) = trimStart t := by
  rw [trimStart, trimStart, List.dropWhile_append_of_pos (by simpa using hv)]

/-- Blanks behind a text are trimmed away. -/
theorem trim_append_blank_right {w : Text} (hw : w.all isBlank) (t : Text) :
    trim (t ++ w) = trim t := by
  by_cases hblank : t.all isBlank
  · have hnil (u : Text) (hu : u.all isBlank) : trimStart u = [] := by
      simpa [trimStart] using trimStart_append_blank hu []
    rw [trim, trim, hnil t hblank, hnil (t ++ w) (by simp_all)]
  · have hsplit : trimStart (t ++ w) = trimStart t ++ w := by
      rw [trimStart, trimStart, List.dropWhile_append, if_neg]
      simpa [List.isEmpty_iff, List.dropWhile_eq_nil_iff] using hblank
    rw [trim, trim, hsplit, trimEnd, trimEnd, dropEndWhile_append hw]

/-- Blanks around a text are trimmed away. -/
theorem trim_append_blank {v w : Text} (hv : v.all isBlank) (hw : w.all isBlank) (t : Text) :
    trim (v ++ (t ++ w)) = trim t := by
  rw [trim, trimStart_append_blank hv, ← trim, trim_append_blank_right hw]

@[simp]
theorem trim_trim (t : Text) : trim (trim t) = trim t := by
  obtain ⟨v, w, hv, hw, heq⟩ := exists_trim_eq t
  conv => rhs; rw [heq]
  rw [trim_append_blank hv hw]

/-- A text without blanks is trimmed. -/
theorem trim_eq_self {t : Text} (hnone : ∀ c ∈ t, isBlank c = false) : trim t = t := by
  obtain ⟨v, w, hv, hw, heq⟩ := exists_trim_eq t
  have hnil (u : Text) (hmem : ∀ c ∈ u, c ∈ t) (hu : u.all isBlank) : u = [] := by
    cases u with
    | nil => rfl
    | cons c u =>
        have hblank := List.all_eq_true.mp hu c (by simp)
        rw [hnone c (hmem c (by simp))] at hblank
        contradiction
  rw [hnil v (fun c hc => by rw [heq]; simp [hc]) hv,
    hnil w (fun c hc => by rw [heq]; simp [hc]) hw, List.nil_append, List.append_nil] at heq
  exact heq.symm

end Text

end Letterpress
