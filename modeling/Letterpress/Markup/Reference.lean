/-
# Character references

A reference is read one character at a time from behind its ampersand until a
character settles what it stands for. That character belongs to the reference
only if it is the closing semicolon. Text that forms no reference stands for
itself.
-/

import Letterpress.Markup.Entity

namespace Letterpress

/-- What has been read of a reference; the latest character of a name comes first. -/
inductive Reference
  | ampersand
  | name (letters : Text)
  | hash
  | hexMark (mark : Char)
  | decimal (value : Nat)
  | hexadecimal (value : Nat)

namespace Reference

/-- The character of a code point written in a reference. Code points that are no characters
give U+FFFD, and those of the C1 range are read by the Windows-1252 table. -/
def character (code : Nat) : Char :=
  if code = 0 || code > 0x10FFFF || (0xD800 ≤ code && code ≤ 0xDFFF) then '\uFFFD'
  else if 0x80 ≤ code && code ≤ 0x9F then Char.ofNat ((windows[code - 0x80]?).getD code)
  else Char.ofNat code
where
  windows : List Nat :=
    [0x20AC, 0x81, 0x201A, 0x0192, 0x201E, 0x2026, 0x2020, 0x2021, 0x02C6, 0x2030, 0x0160,
     0x2039, 0x0152, 0x8D, 0x017D, 0x8F, 0x90, 0x2018, 0x2019, 0x201C, 0x201D, 0x2022,
     0x2013, 0x2014, 0x02DC, 0x2122, 0x0161, 0x203A, 0x0153, 0x9D, 0x017E, 0x0178]

/-- The value of a digit in either base. -/
def digit? (c : Char) : Option Nat :=
  if '0' ≤ c && c ≤ '9' then some (c.toNat - '0'.toNat) else none

/-- The value of a hexadecimal digit. -/
def hexDigit? (c : Char) : Option Nat :=
  if '0' ≤ c && c ≤ '9' then some (c.toNat - '0'.toNat)
  else if 'a' ≤ c && c ≤ 'f' then some (c.toNat - 'a'.toNat + 10)
  else if 'A' ≤ c && c ≤ 'F' then some (c.toNat - 'A'.toNat + 10)
  else none

/-- ASCII letters and digits, the characters of names. -/
def isNameChar (c : Char) : Bool := c.isAlphanum

/-- A settled reference: its text, whether it is a number that lacks its semicolon, and
whether the settling character belongs to it. -/
structure Meaning where
  text : Text
  unclosed : Bool
  takesNext : Bool

/-- Text that forms no reference. -/
def literal (t : Text) : Meaning := ⟨'&' :: t, false, false⟩

/-- Settles a name whose next character is `next`, or the end of the text. Inside an attribute
a name without its semicolon is left alone where a letter, a digit or an equals sign
follows. -/
def settleName (inAttribute : Bool) (name : Text) (next : Option Char) : Meaning :=
  match if next = some ';' then Entity.text? name else none with
  | some t => ⟨t, false, true⟩
  | none =>
    match Entity.longestLenient? name with
    | none => literal name
    | some (t, rest) =>
      if inAttribute && (!rest.isEmpty || next == some '=') then literal name
      else ⟨t ++ rest, false, false⟩

/-- Settles a number. -/
def settleNumber (value : Nat) (next : Option Char) : Meaning :=
  if next = some ';' then ⟨[character value], false, true⟩
  else ⟨[character value], true, false⟩

/-- Settles what has been read before a character that does not continue it. -/
def settle (inAttribute : Bool) (next : Option Char) : Reference → Meaning
  | ampersand => literal []
  | name letters => settleName inAttribute letters.reverse next
  | hash => literal ['#']
  | hexMark mark => literal ['#', mark]
  | decimal value => settleNumber value next
  | hexadecimal value => settleNumber value next

/-- The reference continued by a character, if that character continues it. -/
def continue? (c : Char) : Reference → Option Reference
  | ampersand =>
    if c = '#' then some hash else if isNameChar c then some (name [c]) else none
  | name letters => if isNameChar c then some (name (c :: letters)) else none
  | hash =>
    if c = 'x' || c = 'X' then some (hexMark c) else (digit? c).map decimal
  | hexMark _ => (hexDigit? c).map hexadecimal
  | decimal value => (digit? c).map fun d => decimal (10 * value + d)
  | hexadecimal value => (hexDigit? c).map fun d => hexadecimal (16 * value + d)

end Reference

end Letterpress
