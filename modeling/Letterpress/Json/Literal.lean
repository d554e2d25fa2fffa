/-
# JSON texts in quotes

How a text is written between quotes, and how one is read. What is read must
be a sequence of characters, so halves of surrogate pairs come in pairs.
-/

import Letterpress.Json.Cursor

namespace Letterpress.Json

namespace Literal

/-- A character of a quoted text. -/
def writtenChar (c : Char) : Text :=
  match c with
  | '"' => "\\\""
  | '\\' => "\\\\"
  | '\x08' => "\\b"
  | '\x0C' => "\\f"
  | '\n' => "\\n"
  | '\r' => "\\r"
  | '\t' => "\\t"
  | c =>
    if c.toNat < 0x20 then
      "\\u00" ++ [Nat.digitChar (c.toNat / 16), Nat.digitChar (c.toNat % 16)]
    else [c]

/-- A text in quotes. -/
def written (t : Text) : Text := "\"" ++ t.flatMap writtenChar ++ "\""

/-- The value of a hexadecimal digit. -/
def hexDigit? (c : Char) : Option Nat :=
  if c.isDigit then some (c.toNat - '0'.toNat)
  else if 'a' ≤ c && c ≤ 'f' then some (c.toNat - 'a'.toNat + 10)
  else if 'A' ≤ c && c ≤ 'F' then some (c.toNat - 'A'.toNat + 10)
  else none

/-- The value of hexadecimal digits. -/
def hex? (t : Text) : Option Nat :=
  t.foldl (fun n? c => n?.bind fun n => (hexDigit? c).map (16 * n + ·)) (some 0)

/-- What the letter after a backslash stands for. -/
def escaped? : Char → Option Char
  | '"' => some '"'
  | '\\' => some '\\'
  | '/' => some '/'
  | 'b' => some '\x08'
  | 'f' => some '\x0C'
  | 'n' => some '\n'
  | 'r' => some '\r'
  | 't' => some '\t'
  | _ => none

/-- Whether a number is the first half of a surrogate pair. -/
def isLeading (n : Nat) : Bool := 0xD800 ≤ n && n ≤ 0xDBFF

/-- Whether a number is the second half of a surrogate pair. -/
def isTrailing (n : Nat) : Bool := 0xDC00 ≤ n && n ≤ 0xDFFF

/-- The character of a surrogate pair. -/
def paired (high low : Nat) : Char :=
  Char.ofNat (0x10000 + 0x400 * (high - 0xD800) + (low - 0xDC00))

end Literal

namespace Read

/-- Four hexadecimal digits. -/
def fourDigits : Read Nat := fun c =>
  let four := c.rest.take 4
  if Text.size four < 4 then .error ⟨.endInText, c.offset + Text.size four⟩
  else
    match Literal.hex? four with
    | some n => .ok (n, ⟨c.offset + 4, c.rest.drop 4⟩)
    | none => .error ⟨.badEscape, c.offset + 4⟩

/-- A character that must come between the halves of a pair. -/
def between (x : Char) : Read Unit := do
  if (← peek?) = some x then advance else failAfter .cutSurrogate .endInText

/-- The character of an escape by number. -/
def unicodeEscape : Read Char := do
  let n ← fourDigits
  if Literal.isTrailing n then fail .loneSurrogate
  else if Literal.isLeading n then
    between '\\'
    between 'u'
    let low ← fourDigits
    if Literal.isTrailing low then return Literal.paired n low else fail .loneSurrogate
  else return Char.ofNat n

/-- The character of an escape, behind its backslash. -/
def escape : Read Char := do
  match ← peek? with
  | some 'u' => advance; unicodeEscape
  | some c =>
    match Literal.escaped? c with
    | some x => advance; return x
    | none => failAfter .badEscape .endInText
  | none => fail .endInText

/-- A text behind its opening quote, of at most so many characters. -/
def textWithin : Nat → Read Text
  | 0 => fail .endInText
  | fuel + 1 => do
    match ← peek? with
    | none => fail .endInText
    | some '"' => advance; return []
    | some '\\' =>
      advance
      let x ← escape
      return x :: (← textWithin fuel)
    | some c =>
      if c.toNat < 0x20 then failAfter .controlCharacter .endInText
      else
        advance
        return c :: (← textWithin fuel)

/-- A text behind its opening quote. -/
def text : Read Text := fun c => textWithin (c.rest.length + 1) c

/-- An escape of a text that nobody looks at. -/
def skipEscape : Read Unit := do
  match ← peek? with
  | some 'u' =>
    advance
    let _ ← fourDigits
  | some c =>
    if (Literal.escaped? c).isSome then advance else failAfter .badEscape .endInText
  | none => fail .endInText

/-- Passes over a text of at most so many characters. -/
def skipTextWithin : Nat → Read Unit
  | 0 => fail .endInText
  | fuel + 1 => do
    match ← peek? with
    | none => fail .endInText
    | some '"' => advance
    | some '\\' =>
      advance
      skipEscape
      skipTextWithin fuel
    | some c =>
      if c.toNat < 0x20 then fail .controlCharacter
      else
        advance
        skipTextWithin fuel

/-- Passes over a text behind its opening quote. -/
def skipText : Read Unit := fun c => skipTextWithin (c.rest.length + 1) c

end Read

end Letterpress.Json
