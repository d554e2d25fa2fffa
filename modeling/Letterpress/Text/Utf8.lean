/-
# UTF-8

Texts as octets. Decoding goes through the octets one by one: an octet either
goes on with the character begun, or ends it as malformed and begins a new one.
-/

import Letterpress.Octets.Reading
import Letterpress.Text.Basic

namespace Letterpress.Utf8

/-- What a stretch of octets stands for. -/
inductive Piece
  | char (c : Char)
  /-- So many octets that begin a character and do not go on with it. -/
  | malformed (length : Nat)
  /-- So many octets that begin a character at the end of the text. -/
  | cut (length : Nat)

/-- A character of which some octets have been read. -/
structure Begun where
  /-- The bits read so far as a number. -/
  value : Nat
  /-- How many octets have been read. -/
  length : Nat
  /-- The octets that may come next: only those with which no shorter form, no surrogate and
  no number beyond Unicode arises. -/
  least : Nat
  greatest : Nat
  /-- How many more octets follow the next one. -/
  more : Nat

/-- What an octet at the start of a character begins. -/
def start (b : Nat) : Option Begun × List Piece :=
  if b < 0x80 then (none, [.char (Char.ofNat b)])
  else if b < 0xC2 then (none, [.malformed 1])
  else if b < 0xE0 then (some ⟨b - 0xC0, 1, 0x80, 0xBF, 0⟩, [])
  else if b < 0xF0 then
    let least := if b = 0xE0 then 0xA0 else 0x80
    let greatest := if b = 0xED then 0x9F else 0xBF
    (some ⟨b - 0xE0, 1, least, greatest, 1⟩, [])
  else if b < 0xF5 then
    let least := if b = 0xF0 then 0x90 else 0x80
    let greatest := if b = 0xF4 then 0x8F else 0xBF
    (some ⟨b - 0xF0, 1, least, greatest, 2⟩, [])
  else (none, [.malformed 1])

/-- What one more octet makes of the character begun. -/
def step : Option Begun → Nat → Option Begun × List Piece
  | none, b => start b
  | some begun, b =>
    if begun.least ≤ b && b ≤ begun.greatest then
      let value := 64 * begun.value + (b - 0x80)
      match begun.more with
      | 0 => (none, [.char (Char.ofNat value)])
      | more + 1 => (some ⟨value, begun.length + 1, 0x80, 0xBF, more⟩, [])
    else
      let (next, pieces) := start b
      (next, .malformed begun.length :: pieces)

/-- The pieces of octets that go on with a character begun. -/
def piecesFrom (begun : Option Begun) : Octets → List Piece
  | [] =>
    match begun with
    | none => []
    | some begun => [.cut begun.length]
  | b :: rest =>
    let (next, pieces) := step begun b.toNat
    pieces ++ piecesFrom next rest

/-- The pieces of octets. -/
def pieces (bytes : Octets) : List Piece := piecesFrom none bytes

/-- Why octets are not UTF-8. -/
inductive Fault
  | malformed (length offset : Nat)
  | cut (offset : Nat)

/-- The fault in words. -/
def Fault.message : Fault → Text
  | malformed length offset =>
    "invalid utf-8 sequence of " ++ Text.decimal length ++ " bytes from index " ++
      Text.decimal offset
  | cut offset => "incomplete utf-8 byte sequence from index " ++ Text.decimal offset

/-- The text of pieces behind so many octets, unless one of them is not a character. -/
def textOf (offset : Nat) : List Piece → Except Fault Text
  | [] => .ok []
  | .char c :: rest => do return c :: (← textOf (offset + c.utf8Size) rest)
  | .malformed length :: _ => .error (.malformed length offset)
  | .cut _ :: _ => .error (.cut offset)

/-- The text that octets stand for. -/
def decode (bytes : Octets) : Except Fault Text := textOf 0 (pieces bytes)

/-- The text that octets stand for, with a mark in place of each malformed piece. -/
def decodeLossy (bytes : Octets) : Text :=
  (pieces bytes).map fun
    | .char c => c
    | _ => '\uFFFD'

/-- The octets of a character. -/
def encodeChar (c : Char) : Octets :=
  let n := c.toNat
  if n < 0x80 then [n.toUInt8]
  else if n < 0x800 then [(0xC0 + n / 64).toUInt8, (0x80 + n % 64).toUInt8]
  else if n < 0x10000 then
    [(0xE0 + n / 4096).toUInt8, (0x80 + n / 64 % 64).toUInt8, (0x80 + n % 64).toUInt8]
  else
    [(0xF0 + n / 262144).toUInt8, (0x80 + n / 4096 % 64).toUInt8,
     (0x80 + n / 64 % 64).toUInt8, (0x80 + n % 64).toUInt8]

/-- The octets of a text. -/
def encode (t : Text) : Octets := t.flatMap encodeChar

end Letterpress.Utf8
