/-
# Parts of a text in order

A text may hold other texts, one after another. That none of them is lost when a
text is put together from pieces is then a law about `++`: what two texts hold in
order, they hold in order side by side.
-/

import Letterpress.Text.Basic

namespace Letterpress.Text

/-- The parts occur in the text one after another, and none overlaps the one before. -/
def HoldsInOrder : List Text → Text → Prop
  | [], _ => True
  | part :: parts, t => ∃ before after, t = before ++ part ++ after ∧ HoldsInOrder parts after

variable {part t u : Text} {parts more : List Text}

theorem holdsInOrder_singleton (t : Text) : HoldsInOrder [t] t := ⟨[], [], by simp, trivial⟩

/-- What stands before a text takes nothing away. -/
theorem HoldsInOrder.after (hparts : HoldsInOrder parts t) (u : Text) :
    HoldsInOrder parts (u ++ t) := by
  cases parts with
  | nil => trivial
  | cons part parts =>
      obtain ⟨before, after, rfl, hrest⟩ := hparts
      exact ⟨u ++ before, after, by simp, hrest⟩

theorem HoldsInOrder.append (hparts : HoldsInOrder parts t) (hmore : HoldsInOrder more u) :
    HoldsInOrder (parts ++ more) (t ++ u) := by
  induction parts generalizing t with
  | nil => exact hmore.after t
  | cons part parts ih =>
      obtain ⟨before, after, rfl, hrest⟩ := hparts
      exact ⟨before, after ++ u, by simp, ih hrest⟩

/-- What stands after a text takes nothing away. -/
theorem HoldsInOrder.before (hparts : HoldsInOrder parts t) (u : Text) :
    HoldsInOrder parts (t ++ u) := by
  have hnone : HoldsInOrder [] u := trivial
  have hall := hparts.append hnone
  rwa [List.append_nil] at hall

/-- A text is searched for a part place by place. -/
theorem occursIn_iff : occursIn part t = true ↔ part <:+: t := by
  induction t with
  | nil => simp [occursIn]
  | cons c t ih =>
      rw [occursIn, Bool.or_eq_true, ih, List.isPrefixOf_iff_prefix, List.infix_cons_iff]

/-- A part that is held can be found. -/
theorem HoldsInOrder.occursIn (hparts : HoldsInOrder (part :: parts) t) :
    occursIn part t = true := by
  obtain ⟨before, after, rfl, -⟩ := hparts
  exact occursIn_iff.mpr (List.infix_append before part after)

end Letterpress.Text
