/-
# Sizes of GIF images

The size stands at the start of a file; a file counts as an image if the
extensions before its first picture are sound. A block that is no extension is
taken for a picture, as long as the file does not end with its first octet.
-/

import Letterpress.Octets.Reading

namespace Letterpress.Gif

open Octets.Read

/-- Passes over blocks of data up to one of length zero, in less than so many steps. The length of
the one before it; `last` is that of the block passed over last. -/
def dataBlocks : Nat → (last : Nat) → Octets.Read Nat
  | 0, _ => failure
  | fuel + 1, last => do
    let length ← octet
    if length = 0 then return last
    else
      let _ ← take length
      dataBlocks fuel length

/-- The label of an extension that controls a picture. -/
def control : Nat := 0xF9

/-- The labels of the other extensions: plain text, comments, applications. -/
def otherLabels : List Nat := [0x01, 0xFE, 0xFF]

/-- Passes over an extension. One that controls a picture ends with four octets. -/
def extension : Octets.Read Unit := do
  let label ← octet
  ensure (label = control || otherLabels.contains label)
  let last ← fun rest => dataBlocks (rest.length + 1) 0 rest
  ensure (label != control || last = 4)

/-- The octet that announces an extension. -/
def introducer : Nat := 0x21

/-- The octet that ends a file. -/
def trailer : Nat := 0x3B

/-- Passes over what precedes the first picture, at most so many extensions, once the octet that
announces the first block has been read. -/
def blocks : Nat → (announced : Nat) → Octets.Read Unit
  | 0, _ => failure
  | fuel + 1, announced => do
    if announced = introducer then
      extension
      let next ← octet
      if next = trailer then return else blocks fuel next
    else
      let _ ← peek 1

/-- Reads a file up to the first picture. -/
def file : Octets.Read (Nat × Nat) := do
  skip 6
  let width ← littleEndian16
  let height ← littleEndian16
  let flags ← octet
  let _ ← take 2
  if 0x80 ≤ flags then
    let _ ← take (3 * Nat.pow 2 (flags % 8 + 1))
  let announced ← octet
  fun rest => blocks (rest.length + 1) announced rest
  return (width, height)

/-- The width and the height of an image. -/
def size? (bytes : Octets) : Option (Nat × Nat) := (file bytes).map Prod.fst

end Letterpress.Gif
