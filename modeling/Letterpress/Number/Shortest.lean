/-
# Shortest decimal digits

How a floating point number is written: with the fewest decimal digits that
are read back as the same number, and of those the nearest. Numbers of
moderate size are written with a point, others with an exponent.
-/

import Letterpress.Number.Binary
import Letterpress.Text.Basic

namespace Letterpress.Binary

/-- Decimal digits, read as a natural number, times a power of ten. -/
structure Digits where
  digits : Nat
  exponent : Int

namespace Digits

/-- The digits as a fraction. -/
def fraction (d : Digits) : Nat × Nat :=
  if 0 ≤ d.exponent then (d.digits * Nat.pow 10 d.exponent.toNat, 1)
  else (d.digits, Nat.pow 10 (-d.exponent).toNat)

/-- The distance to a fraction, over the product of both denominators. -/
def distance (d : Digits) (num den : Nat) : Nat :=
  let (n, m) := d.fraction
  (n * den - num * m) + (num * m - n * den)

end Digits

/-- The two neighbours of a fraction among the multiples of `10 ^ k`. -/
def neighbours (num den : Nat) (k : Int) : List Digits :=
  let below :=
    if 0 ≤ k then num / (den * Nat.pow 10 k.toNat) else num * Nat.pow 10 (-k).toNat / den
  [⟨below, k⟩, ⟨below + 1, k⟩]

/-- The nearest of the digits that a format reads as the value. -/
def readBack? (f : Format) (v : Value) (candidates : List Digits) : Option Digits :=
  let (num, den) := v.fraction
  let fitting := candidates.filter fun d =>
    let (n, m) := d.fraction
    (f.nearest? n m).any fun w => w.fraction == (num, den)
  match fitting with
  | [] => none
  | d :: rest =>
    some (rest.foldl (fun best d =>
      if d.distance num den < best.distance num den then d else best) d)

/-- The power of ten of the first digit of a positive fraction, found downwards from a bound. -/
def leading (num den : Nat) : Nat → Int → Int
  | 0, k => k
  | fuel + 1, k =>
    let reached :=
      if 0 ≤ k then den * Nat.pow 10 k.toNat ≤ num else den ≤ num * Nat.pow 10 (-k).toNat
    if reached then k else leading num den fuel (k - 1)

/-- The digits of a number, tried with one, two, and more of them. -/
def shortest (f : Format) (v : Value) : Digits :=
  let (num, den) := v.fraction
  let first := leading num den 700 309
  let tried := (List.range 20).findSome? fun (n : Nat) =>
    readBack? f v (neighbours num den (first - n))
  tried.getD ⟨0, 0⟩

/-- Takes zeros off the end of digits. -/
def dropZeros : Nat → Nat → Int → Digits
  | 0, digits, exponent => ⟨digits, exponent⟩
  | fuel + 1, digits, exponent =>
    if digits % 10 = 0 && digits != 0 then dropZeros fuel (digits / 10) (exponent + 1)
    else ⟨digits, exponent⟩

/-- A number as text. From `1e-5` to below `1e16` it is written with a point and at least one
digit on each side of it. -/
def written (f : Format) (negative : Bool) (v : Value) : Text :=
  let sign : Text := if negative then "-" else ""
  if v.significand = 0 then sign ++ "0.0"
  else
    let found := shortest f v
    let d := dropZeros 400 found.digits found.exponent
    let digits := Text.decimal d.digits
    let point : Int := digits.length + d.exponent
    sign ++
      if -5 < point && point ≤ 16 then
        if 0 ≤ d.exponent then digits ++ List.replicate d.exponent.toNat '0' ++ ".0"
        else if 0 < point then
          digits.take point.toNat ++ "." ++ digits.drop point.toNat
        else "0." ++ List.replicate (-point).toNat '0' ++ digits
      else
        let power : Int := point - 1
        let fraction : Text :=
          match digits.drop 1 with
          | [] => ""
          | rest => "." ++ rest
        digits.take 1 ++ fraction ++ "e" ++ (if power < 0 then "-" else "+") ++
          Text.decimal power.natAbs

end Letterpress.Binary
