/-
# Texts

A text is the list of its characters. Every reader in this library is a
function on that list, so a law about a text followed by more text is a law
about `++`.
-/

namespace Letterpress

/-- A text, character by character. -/
abbrev Text := List Char

/-- A string literal stands for its characters. -/
instance : Coe String Text := ⟨String.toList⟩

namespace Text

/-- The text with ASCII capitals made small; other letters keep their case. -/
def lower (t : Text) : Text := t.map Char.toLower

/-- Only capitals have a small form of their own. -/
theorem toLower_eq_self {c : Char} (hsmall : ¬ (c.val ≥ 'A'.val ∧ c.val ≤ 'Z'.val)) :
    c.toLower = c := dif_neg hsmall

@[simp]
theorem toLower_toLower (c : Char) : c.toLower.toLower = c.toLower := by
  by_cases hcapital : c.val ≥ 'A'.val ∧ c.val ≤ 'Z'.val
  · refine toLower_eq_self fun hagain => ?_
    have hlow := UInt32.le_iff_toNat_le.mp hcapital.1
    have hhigh := UInt32.le_iff_toNat_le.mp hcapital.2
    have hsecond := UInt32.le_iff_toNat_le.mp hagain.2
    have hval : c.toLower.val = c.val + ('a'.val - 'A'.val) :=
      congrArg Char.val (dif_pos hcapital)
    rw [hval, UInt32.toNat_add] at hsecond
    simp at hsecond hlow hhigh
    omega
  · rw [toLower_eq_self hcapital, toLower_eq_self hcapital]

@[simp]
theorem lower_lower (t : Text) : lower (lower t) = lower t := by
  simp [lower]

/-- Two spellings of one name: equal up to the case of ASCII letters. -/
def sameName (s t : Text) : Bool := lower s == lower t

/-- The number of octets of the text in UTF-8. -/
def size (t : Text) : Nat := t.foldr (fun c n => c.utf8Size + n) 0

theorem size_append (t u : Text) : size (t ++ u) = size t + size u := by
  induction t with
  | nil => simp [size]
  | cons c t ih =>
      simp only [size, List.cons_append, List.foldr_cons] at ih ⊢
      omega

/-- A natural number in decimal notation. -/
def decimal (n : Nat) : Text := Nat.toDigits 10 n

/-- What follows `lead` in a text that begins with it. -/
def after? : Text → Text → Option Text
  | [], t => some t
  | _ :: _, [] => none
  | c :: lead, d :: t => if c = d then after? lead t else none

theorem after?_eq_some_iff {lead t rest : Text} :
    after? lead t = some rest ↔ t = lead ++ rest := by
  induction lead generalizing t with
  | nil => simp [after?, eq_comm]
  | cons c lead ih =>
      cases t with
      | nil => simp [after?]
      | cons d t =>
          by_cases heq : c = d
          · simp [after?, heq, ih]
          · simp [after?, heq, Ne.symm heq]

/-- What stands before `trail` in a text that ends with it. -/
def before? (trail t : Text) : Option Text :=
  (after? trail.reverse t.reverse).map List.reverse

/-- The texts before and after the first `mark`. -/
def splitAtFirst (mark : Char) : Text → Option (Text × Text)
  | [] => none
  | c :: t =>
    if c = mark then some ([], t)
    else (splitAtFirst mark t).map fun (left, right) => (c :: left, right)

/-- Whether `part` occurs in the text as a run of neighbouring characters. -/
def occursIn (part : Text) : Text → Bool
  | [] => part.isEmpty
  | c :: t => part.isPrefixOf (c :: t) || occursIn part t

/-- The texts one after another with `glue` between neighbours. -/
def joinWith (glue : Text) : List Text → Text
  | [] => []
  | [t] => t
  | t :: rest => t ++ glue ++ joinWith glue rest

end Text

end Letterpress
