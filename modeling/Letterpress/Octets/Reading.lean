/-
# Reading octets

Readers of binary formats. A reader fails where the octets end too early; what
is wrong with a malformed format is of no interest here, so there is one way
to fail.
-/

namespace Letterpress

/-- Octets of a file or of an encoded text. -/
abbrev Octets := List UInt8

namespace Octets

/-- Readers that may fail. -/
abbrev Read := StateT Octets Option

namespace Read

/-- The next octet as a number. -/
def octet : Read Nat := fun bytes =>
  match bytes with
  | [] => none
  | b :: rest => some (b.toNat, rest)

/-- So many octets. -/
def take (n : Nat) : Read Octets := fun bytes =>
  if (bytes.take n).length < n then none else some (bytes.take n, bytes.drop n)

/-- So many octets, which are not consumed. -/
def peek (n : Nat) : Read Octets := fun bytes =>
  if (bytes.take n).length < n then none else some (bytes.take n, bytes)

/-- Passes over octets, as many of them as there are. -/
def skip (n : Nat) : Read Unit := fun bytes => some ((), bytes.drop n)

/-- A number of 16 bits, the greater half first. -/
def bigEndian16 : Read Nat := do
  let high ← octet
  let low ← octet
  return 256 * high + low

/-- A number of 16 bits, the smaller half first. -/
def littleEndian16 : Read Nat := do
  let low ← octet
  let high ← octet
  return 256 * high + low

/-- A number of 32 bits, the greater half first. -/
def bigEndian32 : Read Nat := do
  let high ← bigEndian16
  let low ← bigEndian16
  return 65536 * high + low

/-- Goes on only if the condition holds. -/
def ensure (condition : Bool) : Read Unit := if condition then return else failure

end Read

/-- The octet of a small number has that number. -/
theorem toNat_toUInt8 {n : Nat} (hn : n < 256) : n.toUInt8.toNat = n :=
  UInt8.toNat_ofNat_of_lt' hn

/-- The octets in hexadecimal notation. -/
def hex (bytes : Octets) : List Char :=
  bytes.flatMap fun b => [Nat.digitChar (b.toNat / 16), Nat.digitChar (b.toNat % 16)]

end Octets

end Letterpress
