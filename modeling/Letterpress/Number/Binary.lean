/-
# Binary floating point numbers

Which number of a binary floating point format a fraction is read as: the
nearest one, and of two equally near the one whose last bit is even. The
arithmetic is exact, on natural numbers.
-/

namespace Letterpress.Binary

/-- A format: how many bits a significand has, and the least and greatest exponents of its last
bit. -/
structure Format where
  bits : Nat
  least : Int
  greatest : Int

/-- Numbers of 32 bits. -/
def Format.single : Format := ⟨24, -149, 104⟩

/-- Numbers of 64 bits. -/
def Format.double : Format := ⟨53, -1074, 971⟩

/-- A number `significand * 2 ^ exponent`. -/
structure Value where
  significand : Nat
  exponent : Int
  deriving DecidableEq

/-- The natural number nearest to `num / den`; a half goes to the even neighbour. -/
def nearestNat (num den : Nat) : Nat :=
  let q := num / den
  let r := num % den
  if 2 * r < den then q
  else if den < 2 * r then q + 1
  else if q % 2 = 0 then q
  else q + 1

/-- The fraction `num / den` divided by `2 ^ k`. -/
def scaled (num den : Nat) (k : Int) : Nat × Nat :=
  if 0 ≤ k then (num, den * Nat.pow 2 k.toNat) else (num * Nat.pow 2 (-k).toNat, den)

/-- The exponent of the last bit that a format keeps of a positive fraction. -/
def Format.lastBit (f : Format) (num den : Nat) : Int :=
  let guess := (num.log2 : Int) - den.log2
  let (n, d) := scaled num den guess
  max f.least ((if d ≤ n then guess else guess - 1) - (f.bits - 1))

/-- The number that a fraction is read as, unless it is too large for the format. -/
def Format.nearest? (f : Format) (num den : Nat) : Option Value :=
  if num = 0 then some ⟨0, 0⟩
  else
    let k := f.lastBit num den
    let (n, d) := scaled num den k
    let m := nearestNat n d
    if f.greatest < k || (k = f.greatest && m = Nat.pow 2 f.bits) then none else some ⟨m, k⟩

/-- The value as a fraction. -/
def Value.fraction (v : Value) : Nat × Nat :=
  if 0 ≤ v.exponent then (v.significand * Nat.pow 2 v.exponent.toNat, 1)
  else (v.significand, Nat.pow 2 (-v.exponent).toNat)

/-- The whole number nearest to the value; a half goes up. -/
def Value.rounded (v : Value) : Nat :=
  let (n, d) := v.fraction
  (2 * n + d) / (2 * d)

/-- The number nearest to a product. -/
def Format.product? (f : Format) (v w : Value) : Option Value :=
  let (n, d) := v.fraction
  let (n', d') := w.fraction
  f.nearest? (n * n') (d * d')

/-- The number nearest to a quotient by a value other than zero. -/
def Format.quotient? (f : Format) (v w : Value) : Option Value :=
  let (n, d) := v.fraction
  let (n', d') := w.fraction
  f.nearest? (n * d') (d * n')

end Letterpress.Binary
