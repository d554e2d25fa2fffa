/-
# Sizes of JPEG images

A file is a sequence of segments, each announced by a marker. The size stands
in the segment that describes the frame; a file counts as an image if its
segments are sound up to the first scan.
-/

import Letterpress.Octets.Reading

namespace Letterpress.Jpeg

open Octets.Read

/-- What the frame segment says: the size, and the names of the components. -/
structure Frame where
  width : Nat
  height : Nat
  components : List Nat

/-- The length of a segment without the two octets that give it. -/
def length : Octets.Read Nat := do
  let n ← bigEndian16
  ensure (2 ≤ n)
  return n - 2

/-- Passes over a segment. -/
def skipSegment : Octets.Read Unit := do skip (← length)

/-- The sampling factors along lines. -/
def lineFactors : List Nat := [1, 2, 4]

/-- The sampling factors along columns. -/
def columnFactors : List Nat := [1, 2, 3, 4]

/-- The name of a component with proper sampling factors. -/
def component : Octets.Read Nat := do
  let name ← octet
  let sampling ← octet
  let table ← octet
  ensure (lineFactors.contains (sampling / 16) && columnFactors.contains (sampling % 16))
  ensure (table < 4)
  return name

/-- So many components. -/
def components : Nat → Octets.Read (List Nat)
  | 0 => return []
  | n + 1 => do
    let c ← component
    return c :: (← components n)

/-- The frame segment: eight bits per sample, and one to four components. -/
def frame : Octets.Read Frame := do
  let length ← bigEndian16
  ensure ((← octet) = 8)
  let height ← bigEndian16
  let width ← bigEndian16
  ensure (width != 0 && height != 0)
  let count ← octet
  ensure (count != 0 && length = 8 + 3 * count && count ≤ 4)
  return ⟨width, height, ← components count⟩

/-- Quantization tables in so many octets, at most so many. -/
def quantization : Nat → Nat → Octets.Read Unit
  | _, 0 => return
  | 0, _ => failure
  | fuel + 1, left => do
    let info ← octet
    let size := 64 * (info / 16 + 1)
    ensure (size < left && info / 16 ≤ 1 && info % 16 < 4)
    let _ ← take size
    quantization fuel (left - size - 1)

/-- Whether code words of the lengths counted can be told apart, none being all ones. The
counts start with the words of one bit. -/
def distinguishable : List Nat → (code length : Nat) → Bool
  | [], _, _ => true
  | count :: rest, code, length =>
    let next := code + count
    let fits := if count = 0 then true else next < Nat.pow 2 length
    fits && distinguishable rest (2 * next) (length + 1)

/-- Huffman tables in so many octets, at most so many. -/
def huffman : Nat → Nat → Octets.Read Unit
  | 0, left => ensure (left = 0)
  | fuel + 1, left => do
    if left ≤ 16 then ensure (left = 0)
    else
      let info ← octet
      ensure (info % 16 < 4 && info / 16 ≤ 1)
      let counts := (← take 16).map UInt8.toNat
      let words := counts.foldl (· + ·) 0
      ensure (words ≤ 256 && words ≤ left - 17)
      let symbols ← take words
      ensure (distinguishable counts 0 1)
      ensure (info / 16 = 1 || symbols.all fun s => s.toNat ≤ 15)
      huffman fuel (left - 17 - words)

/-- The segment of the interchange format. If there is room for more than its name, the name is
taken whole, even where it goes on behind the segment. -/
def interchange : Octets.Read Unit := do
  let n ← length
  if 3 < n then
    let _ ← take 5
    skip (n - 5)
  else skip n

/-- The name in front of extended metadata: `http://ns.adobe.com/xmp/extension/` and an octet
zero. -/
def extendedMetadata : Octets :=
  [0x68, 0x74, 0x74, 0x70, 0x3A, 0x2F, 0x2F, 0x6E, 0x73, 0x2E, 0x61, 0x64, 0x6F, 0x62, 0x65,
   0x2E, 0x63, 0x6F, 0x6D, 0x2F, 0x78, 0x6D, 0x70, 0x2F, 0x65, 0x78, 0x74, 0x65, 0x6E, 0x73,
   0x69, 0x6F, 0x6E, 0x2F, 0x00]

/-- The segment of metadata. Extended metadata goes on with the digest of the whole, of 32
octets, its size and the place of this part. -/
def metadata : Octets.Read Unit := do
  let body ← take (← length)
  if extendedMetadata.length < body.length && extendedMetadata.isPrefixOf body then
    ensure (extendedMetadata.length + 40 ≤ body.length)

/-- The segment of an image editor, which may name a colour transformation. -/
def editor : Octets.Read Unit := do
  let n ← length
  if (← peek 5) = [0x41, 0x64, 0x6F, 0x62, 0x65] then
    ensure (12 ≤ n)
    skip 11
    ensure ((← octet) ≤ 2)
    skip (n - 12)
  else skip n

/-- The interval of scans between restarts. -/
def restart : Octets.Read Unit := do
  ensure ((← bigEndian16) = 4)
  let _ ← bigEndian16

/-- So many names of components of a scan, all different and known. -/
def scanComponents (known : List Nat) : Nat → List Nat → Octets.Read Unit
  | 0, _ => return
  | n + 1, seen => do
    let name ← octet
    ensure (!seen.contains name)
    let _ ← octet
    ensure (known.contains name)
    scanComponents known n (name :: seen)

/-- The segment that announces a scan of a frame. -/
def scan (f : Frame) : Octets.Read Unit := do
  let length ← bigEndian16
  let count ← octet
  ensure (length = 6 + 2 * count && 1 ≤ count && count ≤ 4)
  scanComponents f.components count []
  let first ← octet
  let last ← octet
  let approximation ← octet
  ensure (first ≤ 63 && last ≤ 63 && approximation / 16 ≤ 13 && approximation % 16 ≤ 13)

/-- The octet behind fill octets, and the one before it. -/
def behindFill : Nat → Nat → Octets.Read (Nat × Nat)
  | 0, _ => failure
  | fuel + 1, last => do
    let b ← octet
    if b = 0xFF || b = 0 then behindFill fuel b else return (last, b)

/-- Reads the segment of a marker; the frame, once it is known. -/
def segment (marker : Nat) (f : Option Frame) : Octets.Read (Option Frame) := do
  if 0xC0 ≤ marker && marker ≤ 0xC2 then
    ensure f.isNone
    return some (← frame)
  else if marker = 0xC4 then
    let left ← length
    huffman left left
    return f
  else if marker = 0xDB then
    let left ← length
    quantization left left
    return f
  else if marker = 0xDD then
    restart
    return f
  else if marker = 0xE0 then
    interchange
    return f
  else if marker = 0xE1 then
    metadata
    return f
  else if marker = 0xEE then
    editor
    return f
  else if marker = 0xCC || marker = 0xD9 || marker = 0xDC then failure
  else
    skipSegment
    return f

/-- Reads segments up to the first scan. `last` is the octet before the next one. -/
def segments : Nat → (last : Nat) → Option Frame → Octets.Read Frame
  | 0, _, _ => failure
  | fuel + 1, last, f => do
    let b ← octet
    let (last, b) ←
      if last = 0xFF && (b = 0xFF || b = 0) then
        fun rest => behindFill (rest.length + 1) b rest
      else pure (last, b)
    if last = 0xFF then
      if b = 0xDA then
        match f with
        | none => failure
        | some f =>
          scan f
          return f
      else segments fuel b (← segment b f)
    else segments fuel b f

/-- Reads a file up to the first scan. -/
def file : Octets.Read Frame := do
  ensure ((← take 2) = [0xFF, 0xD8])
  fun rest => segments rest.length 0 none rest

/-- The width and the height of an image. -/
def size? (bytes : Octets) : Option (Nat × Nat) :=
  (file bytes).map fun (f, _) => (f.width, f.height)

end Letterpress.Jpeg
