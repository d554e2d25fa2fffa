/-
# Faults in JSON texts

What can be wrong with a JSON text, by itself or for its reader, and where. A
place is a line and a column; columns count octets.
-/

import Letterpress.Number.Shortest
import Letterpress.Text.Quoted

namespace Letterpress.Json

/-- A number as it is read: whole if it is written so and fits in 64 bits. -/
inductive Number
  | natural (n : Nat)
  /-- The number below zero with this absolute value. -/
  | negative (n : Nat)
  | floating (negative : Bool) (value : Binary.Value)

/-- What a reader finds in place of what it expects. -/
inductive Found
  | null
  | boolean (b : Bool)
  | number (n : Number)
  | text (t : Text)
  | list
  | object

namespace Found

/-- What was found, in words. -/
def words : Found → Text
  | null => "null"
  | boolean true => "boolean `true`"
  | boolean false => "boolean `false`"
  | number (.natural n) => "integer `" ++ Text.decimal n ++ "`"
  | number (.negative n) => "integer `-" ++ Text.decimal n ++ "`"
  | number (.floating negative v) =>
    "floating point `" ++ Binary.written .double negative v ++ "`"
  | text t => "string " ++ Text.quoted t
  | list => "sequence"
  | object => "map"

end Found

/-- What is wrong. -/
inductive Cause
  | endInValue
  | endInList
  | endInObject
  | endInText
  | expectedColon
  | expectedListEnd
  | expectedObjectEnd
  /-- One of the words `null`, `true` and `false` is begun and not finished. -/
  | expectedWord
  | expectedValue
  | keyNotText
  | badEscape
  | badNumber
  | hugeNumber
  | controlCharacter
  /-- Half of a surrogate pair stands alone. -/
  | loneSurrogate
  /-- The first half of a surrogate pair is not followed by an escape. -/
  | cutSurrogate
  | trailingComma
  | trailingCharacters
  | wrongType (found : Found) (expected : Text)
  | wrongValue (found : Found) (expected : Text)
  | unknownChoice (found first second : Text)
  | repeatedField (name : Text)

namespace Cause

/-- The cause in words. -/
def message : Cause → Text
  | endInValue => "EOF while parsing a value"
  | endInList => "EOF while parsing a list"
  | endInObject => "EOF while parsing an object"
  | endInText => "EOF while parsing a string"
  | expectedColon => "expected `:`"
  | expectedListEnd => "expected `,` or `]`"
  | expectedObjectEnd => "expected `,` or `\x7d`"
  | expectedWord => "expected ident"
  | expectedValue => "expected value"
  | keyNotText => "key must be a string"
  | badEscape => "invalid escape"
  | badNumber => "invalid number"
  | hugeNumber => "number out of range"
  | controlCharacter => "control character (\\u0000-\\u001F) found while parsing a string"
  | loneSurrogate => "lone leading surrogate in hex escape"
  | cutSurrogate => "unexpected end of hex escape"
  | trailingComma => "trailing comma"
  | trailingCharacters => "trailing characters"
  | wrongType found expected => "invalid type: " ++ found.words ++ ", expected " ++ expected
  | wrongValue found expected => "invalid value: " ++ found.words ++ ", expected " ++ expected
  | unknownChoice found first second =>
    "unknown variant `" ++ found ++ "`, expected `" ++ first ++ "` or `" ++ second ++ "`"
  | repeatedField name => "duplicate field `" ++ name ++ "`"

end Cause

/-- A cause with the number of octets before the place where it shows. -/
structure Fault where
  cause : Cause
  offset : Nat

namespace Fault

/-- The line and the column of an offset in a text, counted from those at its start. -/
def place : Text → Nat → Nat → Nat → Nat × Nat
  | [], _, line, column => (line, column)
  | c :: t, offset, line, column =>
    if offset < c.utf8Size then (line, column + offset)
    else if c = '\n' then place t (offset - 1) (line + 1) 0
    else place t (offset - c.utf8Size) line (column + c.utf8Size)

/-- The fault of a text in words. -/
def message (f : Fault) (t : Text) : Text :=
  let (line, column) := place t f.offset 1 0
  f.cause.message ++ " at line " ++ Text.decimal line ++ " column " ++ Text.decimal column

end Fault

end Letterpress.Json
