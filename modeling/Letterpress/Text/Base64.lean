/-
# Base64

Octets written with 64 characters, three octets as four of them. What is left
at the end is filled up with equals signs. A reader takes only what the writer
produces, so octets have one written form.
-/

import Letterpress.Octets.Reading
import Letterpress.Text.Basic

namespace Letterpress.Base64

/-- The character for a number below 64. -/
def symbol (n : Nat) : Char :=
  if n < 26 then Char.ofNat ('A'.toNat + n)
  else if n < 52 then Char.ofNat ('a'.toNat + (n - 26))
  else if n < 62 then Char.ofNat ('0'.toNat + (n - 52))
  else if n = 62 then '+'
  else '/'

/-- The number for the code of a character. -/
def value? (code : Nat) : Option Nat :=
  if 'A'.toNat ≤ code && code ≤ 'Z'.toNat then some (code - 'A'.toNat)
  else if 'a'.toNat ≤ code && code ≤ 'z'.toNat then some (code - 'a'.toNat + 26)
  else if '0'.toNat ≤ code && code ≤ '9'.toNat then some (code - '0'.toNat + 52)
  else if code = '+'.toNat then some 62
  else if code = '/'.toNat then some 63
  else none

/-- The code of the character that fills up. -/
def padding : Nat := '='.toNat

/-- Octets in Base64. -/
def encode : Octets → Text
  | [] => []
  | [a] =>
    let a := a.toNat
    [symbol (a / 4), symbol (a % 4 * 16), '=', '=']
  | [a, b] =>
    let (a, b) := (a.toNat, b.toNat)
    [symbol (a / 4), symbol (a % 4 * 16 + b / 16), symbol (b % 16 * 4), '=']
  | a :: b :: c :: rest =>
    let (a, b, c) := (a.toNat, b.toNat, c.toNat)
    symbol (a / 4) :: symbol (a % 4 * 16 + b / 16) :: symbol (b % 16 * 4 + c / 64) ::
      symbol (c % 64) :: encode rest

/-- Why octets are not Base64. -/
inductive Fault
  | badSymbol (code offset : Nat)
  | badLength (length : Nat)
  /-- The last symbol carries bits that belong to no octet. -/
  | badLastSymbol (code offset : Nat)
  | badPadding

/-- The fault in words. -/
def Fault.message : Fault → Text
  | badSymbol code offset =>
    "Invalid symbol " ++ Text.decimal code ++ ", offset " ++ Text.decimal offset ++ "."
  | badLength length => "Invalid input length: " ++ Text.decimal length
  | badLastSymbol code offset =>
    "Invalid last symbol " ++ Text.decimal code ++ ", offset " ++ Text.decimal offset ++ "."
  | badPadding => "Invalid padding"

/-- The numbers of symbols behind so many others. -/
def values (offset : Nat) : List Nat → Except Fault (List Nat)
  | [] => .ok []
  | code :: rest =>
    match value? code with
    | some v => do return v :: (← values (offset + 1) rest)
    | none => .error (.badSymbol code offset)

/-- The octets that begin with the bits of numbers below 64, as far as they are full. -/
def octets : List Nat → Octets
  | [a, b] => [(a * 4 + b / 16).toUInt8]
  | [a, b, c] => [(a * 4 + b / 16).toUInt8, (b % 16 * 16 + c / 4).toUInt8]
  | [a, b, c, d] =>
    [(a * 4 + b / 16).toUInt8, (b % 16 * 16 + c / 4).toUInt8, (c % 4 * 64 + d).toUInt8]
  | _ => []

/-- Whether numbers carry bits that belong to no octet. -/
def hasExtraBits : List Nat → Bool
  | [_, b] => b % 16 != 0
  | [_, _, c] => c % 4 != 0
  | _ => false

/-- The first symbol that comes after a filling character, or fills up too early. -/
def misplaced? (offset : Nat) (symbols filling : List Nat) : Option Fault :=
  if filling.isEmpty then none
  else if symbols.length < 2 || filling.any (· != padding) then
    some (.badSymbol padding (offset + symbols.length))
  else none

/-- The octets of at most four last symbols behind so many others. -/
def decodeLast (offset : Nat) (last : List Nat) : Except Fault Octets := do
  let symbols := last.takeWhile (· != padding)
  let filling := last.dropWhile (· != padding)
  let numbers ← values offset symbols
  if let some fault := misplaced? offset symbols filling then throw fault
  if symbols.length = 1 then throw (.badLength (offset + 1))
  if last.length % 4 != 0 then throw .badPadding
  if hasExtraBits numbers then
    throw (.badLastSymbol (symbols.getLast?.getD padding) (offset + symbols.length - 1))
  return octets numbers

/-- The octets of symbols behind so many others. -/
def decodeFrom (offset : Nat) : List Nat → Except Fault Octets
  | a :: b :: c :: d :: e :: rest => do
    let numbers ← values offset [a, b, c, d]
    return octets numbers ++ (← decodeFrom (offset + 4) (e :: rest))
  | last => decodeLast offset last

/-- A symbol too many at the end that is none. -/
def strayEnd? (codes : List Nat) : Option Fault :=
  if codes.length % 4 = 1 then
    codes.getLast?.bind fun code =>
      if code = padding || (value? code).isSome then none
      else some (.badSymbol code (codes.length - 1))
  else none

/-- The octets written as the codes of characters. -/
def decode (codes : List Nat) : Except Fault Octets :=
  match strayEnd? codes with
  | some fault => .error fault
  | none => decodeFrom 0 codes

end Letterpress.Base64
