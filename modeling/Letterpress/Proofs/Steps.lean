/-
# Steps that may fail

Computations that stop at their first fault, taken apart: what comes of two steps
comes of the second one, unless the first has stopped.
-/

import Letterpress.Text.Basic

namespace Letterpress

variable {ε ε' α β : Type} {x : Except ε α} {f : α → Except ε β} {fault : ε}

theorem exists_of_bind_eq_ok {b : β} (h : x >>= f = .ok b) : ∃ a, x = .ok a ∧ f a = .ok b := by
  cases x with
  | error first => cases h
  | ok a => exact ⟨a, rfl, h⟩

theorem cases_of_bind_eq_error (h : x >>= f = .error fault) :
    x = .error fault ∨ ∃ a, x = .ok a ∧ f a = .error fault := by
  cases x with
  | error first =>
      cases h
      exact .inl rfl
  | ok a => exact .inr ⟨a, rfl, h⟩

/-- Wording a fault anew does not make a success of it. -/
theorem eq_ok_of_mapError_eq_ok {a : α} {word : ε → ε'} (h : x.mapError word = .ok a) :
    x = .ok a := by
  cases x with
  | error first => cases h
  | ok b =>
      cases h
      rfl

end Letterpress
