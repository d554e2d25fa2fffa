/-
# Lengths in pixels

Reading a style value as a number of pixels: a decimal number, with or without
the unit `px`. The number is taken in 32 bit floating point, rounded to a whole
number, a half going up, and cut off at the largest number of 32 bits.
-/

import Letterpress.Number.Binary
import Letterpress.Text.Blank

namespace Letterpress

/-- A decimal number `digits * 10 ^ exponent` with its sign. -/
structure DecimalNumber where
  negative : Bool
  digits : Nat
  exponent : Int

namespace DecimalNumber

/-- Appends decimal digits to a number. -/
def withDigits (n : Nat) (digits : Text) : Nat :=
  digits.foldl (fun n c => 10 * n + (c.toNat - '0'.toNat)) n

/-- Whether a text consists of one or more decimal digits. -/
def areDigits (t : Text) : Bool := !t.isEmpty && t.all Char.isDigit

/-- The sign of a number and what follows it. -/
def sign : Text → Bool × Text
  | '-' :: t => (true, t)
  | '+' :: t => (false, t)
  | t => (false, t)

/-- The value of the part from `e` on, which may be missing. -/
def exponent? : Text → Option Int
  | [] => some 0
  | c :: t =>
    let (negative, digits) := sign t
    if c = 'e' && areDigits digits then
      let n := withDigits 0 digits
      some (if negative then -n else n)
    else none

/-- Reads a number: digits with at most one point among or around them, then perhaps an
exponent. -/
def parse? (t : Text) : Option DecimalNumber :=
  let (negative, unsigned) := sign t
  let whole := unsigned.takeWhile Char.isDigit
  let afterWhole := unsigned.dropWhile Char.isDigit
  let (places, rest) :=
    match afterWhole with
    | '.' :: r => (r.takeWhile Char.isDigit, r.dropWhile Char.isDigit)
    | r => ([], r)
  if whole.isEmpty && places.isEmpty then none
  else
    (exponent? rest).map fun exponent =>
      ⟨negative, withDigits 0 (whole ++ places), exponent - places.length⟩

/-- The floating point number nearest to the absolute value. Beyond forty digits before the
point there is none, and fifty zeros after the point leave nothing. -/
def magnitude? (d : DecimalNumber) : Option Binary.Value :=
  if d.digits = 0 then some ⟨0, 0⟩
  else
    let length := (Text.decimal d.digits).length
    if 40 < length + d.exponent then none
    else if length + d.exponent < -50 then some ⟨0, 0⟩
    else if 0 ≤ d.exponent then
      Binary.Format.single.nearest? (d.digits * Nat.pow 10 d.exponent.toNat) 1
    else Binary.Format.single.nearest? d.digits (Nat.pow 10 (-d.exponent).toNat)

end DecimalNumber

/-- The largest number of 32 bits. -/
def maxPixels : Nat := 0xFFFFFFFF

/-- The pixels that a style value stands for; a number below zero stands for none. -/
def pixels? (value : Text) : Option Nat :=
  let v := Text.lower (Text.trim value)
  let number := Text.trim ((Text.before? "px" v).getD v)
  (DecimalNumber.parse? number).bind fun d =>
    d.magnitude?.bind fun m =>
      if d.negative && m.significand != 0 then none else some (min maxPixels m.rounded)

end Letterpress
