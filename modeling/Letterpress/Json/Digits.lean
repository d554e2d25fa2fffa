/-
# JSON numbers

A number is read digit by digit into 64 bits. Whole digits beyond them only
raise the power of ten, and decimal places beyond them are dropped; a number
with a point, an exponent or too many digits is a floating point number.
-/

import Letterpress.Json.Cursor

namespace Letterpress.Json

namespace Number

/-- The largest significand. -/
def largest : Nat := 0xFFFFFFFFFFFFFFFF

/-- The largest exponent. -/
def largestExponent : Nat := 0x7FFFFFFF

/-- The absolute value of the lowest whole number. -/
def lowest : Nat := 0x8000000000000000

/-- The value of a digit. -/
def digit (c : Char) : Nat := c.toNat - '0'.toNat

/-- Appends digits to a number as long as it does not pass a limit, and counts them. -/
def gather (limit : Nat) : Text → Nat → Nat → Nat × Nat
  | [], n, count => (n, count)
  | c :: t, n, count =>
    if c.isDigit && 10 * n + digit c ≤ limit then gather limit t (10 * n + digit c) (count + 1)
    else (n, count)

/-- Ten to a power, as a floating point number. -/
def powerOfTen? (n : Nat) : Option Binary.Value := Binary.Format.double.nearest? (Nat.pow 10 n) 1

/-- A quotient by a power of ten. -/
def down? (v : Binary.Value) (n : Nat) : Option Binary.Value :=
  (powerOfTen? n).bind (Binary.Format.double.quotient? v)

/-- The floating point number for a significand and a power of ten. Small powers take two
steps, and below the smallest there is nothing left. -/
def floating? (significand : Nat) (exponent : Int) : Option Binary.Value :=
  (Binary.Format.double.nearest? significand 1).bind fun v =>
    if v.significand = 0 then some v
    else if 308 < exponent then none
    else if 0 ≤ exponent then
      (powerOfTen? exponent.toNat).bind (Binary.Format.double.product? v)
    else if -308 ≤ exponent then down? v exponent.natAbs
    else if -616 ≤ exponent then
      (down? v 308).bind fun w => down? w (exponent + 308).natAbs
    else some ⟨0, 0⟩

end Number

namespace Read

/-- Consumes digits that fit behind a number; how many they are, too. -/
def gather (limit n : Nat) : Read (Nat × Nat) := fun c =>
  let (n, count) := Number.gather limit c.rest n 0
  .ok ((n, count), ⟨c.offset + count, c.rest.drop count⟩)

/-- The floating point number that has been read. -/
def floating (negative : Bool) (significand : Nat) (exponent : Int) : Read Number :=
  match Number.floating? significand exponent with
  | some v => return .floating negative v
  | none => fail .hugeNumber

/-- The sign of an exponent. -/
def exponentSign : Read Bool := do
  match ← peek? with
  | some '+' => advance; return false
  | some '-' => advance; return true
  | _ => return false

/-- A number from its exponent on. -/
def exponent (negative : Bool) (significand : Nat) (power : Int) : Read Number := do
  advance
  let below ← exponentSign
  match ← peek? with
  | some c =>
    if !c.isDigit then failAfter .badNumber .endInValue
    let (n, _) ← gather Number.largestExponent 0
    if (← peek?).any Char.isDigit then
      if significand != 0 && !below then
        advance
        fail .hugeNumber
      let _ ← takeWhile Char.isDigit
      return .floating negative ⟨0, 0⟩
    else floating negative significand (if below then power - n else power + n)
  | none => fail .endInValue

/-- A floating point number behind its digits. -/
def afterPlaces (negative : Bool) (significand : Nat) (power : Int) : Read Number := do
  match ← peek? with
  | some 'e' | some 'E' => exponent negative significand power
  | _ => floating negative significand power

/-- A number from its point on. -/
def places (negative : Bool) (significand : Nat) (power : Int) : Read Number := do
  advance
  let (significand, count) ← gather Number.largest significand
  let dropped ← takeWhile Char.isDigit
  if count = 0 && dropped.isEmpty then
    if (← peek?).isSome then failNext .badNumber else failNext .endInValue
  else afterPlaces negative significand (power - count)

/-- A number behind its whole digits, of which the last ones may not have fitted. -/
def afterWhole (negative : Bool) (significand beyond : Nat) : Read Number := do
  match ← peek? with
  | some '.' => places negative significand beyond
  | some 'e' | some 'E' => exponent negative significand beyond
  | _ =>
    if beyond != 0 then floating negative significand beyond
    else if !negative then return .natural significand
    else if significand = 0 || Number.lowest < significand then floating true significand 0
    else return .negative significand

/-- A number behind its sign. -/
def number (negative : Bool) : Read Number := do
  match ← peek? with
  | some '0' =>
    advance
    if (← peek?).any Char.isDigit then failNext .badNumber
    else afterWhole negative 0 0
  | some c =>
    if c.isDigit then
      let (n, _) ← gather Number.largest 0
      let beyond ← takeWhile Char.isDigit
      afterWhole negative n beyond.length
    else failAfter .badNumber .endInValue
  | none => fail .endInValue

/-- A number with its sign. -/
def signed : Read Number := do
  if (← peek?) = some '-' then
    advance
    number true
  else number false

end Read

end Letterpress.Json
