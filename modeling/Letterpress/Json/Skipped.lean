/-
# Values that nobody looks at

Passing over the value of an unknown field. Its grammar is checked all the
same, except that numbers may be of any size and halves of surrogate pairs may
stand alone.
-/

import Letterpress.Json.Literal

namespace Letterpress.Json

/-- What a value stands in. -/
inductive Enclosing
  | list
  | object

namespace Enclosing

/-- The character that ends the enclosing value. -/
def closer : Enclosing → Char
  | list => ']'
  | object => '\x7d'

/-- What is missing where neither a comma nor the end follows a value. -/
def expectedEnd : Enclosing → Cause
  | list => .expectedListEnd
  | object => .expectedObjectEnd

/-- What is wrong where the text ends inside. -/
def atEnd : Enclosing → Cause
  | list => .endInList
  | object => .endInObject

end Enclosing

namespace Read

/-- Passes over digits. -/
def skipDigits : Read Unit := do
  let _ ← takeWhile Char.isDigit

/-- Passes over the sign of an exponent. -/
def skipSign : Read Unit := do
  match ← peek? with
  | some '+' | some '-' => advance
  | _ => return

/-- Passes over an exponent. -/
def skipExponent : Read Unit := do
  advance
  skipSign
  if (← peek?).any Char.isDigit then skipDigits else failAfter .badNumber .badNumber

/-- Passes over an exponent if there is one. -/
def skipExponentIfAny : Read Unit := do
  match ← peek? with
  | some 'e' | some 'E' => skipExponent
  | _ => return

/-- Passes over what follows the whole digits of a number. -/
def skipAfterWhole : Read Unit := do
  if (← peek?) = some '.' then
    advance
    let digits ← takeWhile Char.isDigit
    if digits.isEmpty then failNext .badNumber else skipExponentIfAny
  else skipExponentIfAny

/-- Passes over a number behind its sign. -/
def skipNumber : Read Unit := do
  match ← peek? with
  | some '0' =>
    advance
    if (← peek?).any Char.isDigit then failNext .badNumber else skipAfterWhole
  | some c =>
    if c.isDigit then
      skipDigits
      skipAfterWhole
    else failAfter .badNumber .badNumber
  | none => fail .badNumber

/-- Passes over a value that holds no others; what is opened by one that does. -/
def skipSimple : Read (Option Enclosing) := do
  match ← valueStart with
  | 'n' => advance; word "ull"; return none
  | 't' => advance; word "rue"; return none
  | 'f' => advance; word "alse"; return none
  | '"' => advance; skipText; return none
  | '-' => advance; skipNumber; return none
  | '[' => advance; return some .list
  | '\x7b' => advance; return some .object
  | c => if c.isDigit then skipNumber; return none else failNext .expectedValue

/-- Passes over the name of a member and its colon. -/
def skipName : Read Unit := do
  match ← token? with
  | some '"' => advance
  | some _ => failNext .keyNotText
  | none => failNext .endInObject
  skipText
  colon

/-- Passes over what stands before each value. -/
def skipLead : Enclosing → Read Unit
  | .list => return
  | .object => skipName

/-- Passes over what leads to the next value: the ends of enclosing values and a comma, or
nothing directly behind an opening bracket. The result is what still encloses. -/
def skipToNext (afterValue : Bool) : List Enclosing → Read (List Enclosing)
  | [] => return []
  | e :: outer => do
    match ← token? with
    | none => failNext e.atEnd
    | some c =>
      if c = e.closer then
        advance
        skipToNext true outer
      else
        if afterValue then
          if c = ',' then advance else failNext e.expectedEnd
        skipLead e
        return e :: outer

/-- Passes over a value inside others, taking so many steps at most. -/
def skipWithin : Nat → List Enclosing → Read Unit
  | 0, _ => failNext .endInValue
  | fuel + 1, enclosing => do
    let next ←
      match ← skipSimple with
      | some opened => skipToNext false (opened :: enclosing)
      | none => skipToNext true enclosing
    if next.isEmpty then return else skipWithin fuel next

/-- Passes over a value. -/
def skip : Read Unit := fun c => skipWithin (c.rest.length + 1) [] c

end Read

end Letterpress.Json
