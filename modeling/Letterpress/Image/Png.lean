/-
# Sizes of PNG images

A file is a signature and a sequence of chunks, of which each has a name, its
content and a checksum. The size stands in the first chunk; a file counts as an
image if its chunks are sound up to the one where the image data begins. An
image takes up room for a line, and so do some of the chunks before it and the
buffer that holds their content.
-/

import Letterpress.Image.Inflate

namespace Letterpress.Png

open Octets.Read

/-- The octets that every file begins with. -/
def signature : Octets := [0x89, 0x50, 0x4E, 0x47, 0x0D, 0x0A, 0x1A, 0x0A]

/-- What the first chunk says. -/
structure Header where
  width : Nat
  height : Nat
  depth : Nat
  colour : Nat

/-- The kinds of chunks that matter. -/
inductive Kind
  | header
  | palette
  | data
  | finish
  /-- Announces a picture of an animation. -/
  | frame
  /-- Data of such a picture. -/
  | frameData
  | transparency
  | background
  /-- Code points for the colour space. -/
  | codePoints
  /-- A compressed description of the colour space. -/
  | profile
  /-- Text, of which there are so many octets at least. -/
  | text (least : Nat)
  /-- What a camera says about the image. -/
  | cameraData
  /-- Other chunks without which the image could not be shown. -/
  | critical
  | ancillary
  deriving DecidableEq

namespace Kind

/-- The names of kinds. -/
def names : List (Octets × Kind) :=
  [([0x49, 0x48, 0x44, 0x52], header),
   ([0x50, 0x4C, 0x54, 0x45], palette),
   ([0x49, 0x44, 0x41, 0x54], data),
   ([0x49, 0x45, 0x4E, 0x44], finish),
   ([0x66, 0x63, 0x54, 0x4C], frame),
   ([0x66, 0x64, 0x41, 0x54], frameData),
   ([0x74, 0x52, 0x4E, 0x53], transparency),
   ([0x62, 0x4B, 0x47, 0x44], background),
   ([0x63, 0x49, 0x43, 0x50], codePoints),
   ([0x69, 0x43, 0x43, 0x50], profile),
   ([0x74, 0x45, 0x58, 0x74], text 2),
   ([0x7A, 0x54, 0x58, 0x74], text 3),
   ([0x69, 0x54, 0x58, 0x74], text 6),
   ([0x65, 0x58, 0x49, 0x66], cameraData)]

/-- The kind of a chunk with a name. Other names with a small first letter may be passed over. -/
def ofName (name : Octets) : Kind :=
  match names.lookup name with
  | some kind => kind
  | none => if name.head?.any fun b => b.toNat / 32 % 2 = 1 then .ancillary else .critical

/-- The bounds of the length of the content; there need not be an upper one. -/
def bounds : Kind → Nat × Option Nat
  | header => (13, some 13)
  | palette => (3, some 768)
  | frame => (26, some 26)
  | frameData => (4, none)
  | transparency => (1, some 256)
  | background => (1, some 6)
  | codePoints => (4, some 4)
  | profile => (3, none)
  | text least => (least, none)
  | cameraData => (4, none)
  | _ => (0, none)

/-- Whether content may be of a length. -/
def admits (kind : Kind) (length : Nat) : Bool :=
  kind.bounds.1 ≤ length && kind.bounds.2.all fun greatest => length ≤ greatest

/-- Whether an image without such a chunk, or with another one, would be another image. -/
def isCritical (kind : Kind) : Bool :=
  [header, palette, data, finish, critical].contains kind

/-- Whether a file with such a chunk of a wrong length is no image. -/
def needsLength (kind : Kind) : Bool := kind.isCritical || kind == .frame

end Kind

/-- The numbers of bits per sample that go with a colour type. -/
def depths (colour : Nat) : List Nat :=
  match colour with
  | 0 => [1, 2, 4, 8, 16]
  | 2 => [8, 16]
  | 3 => [1, 2, 4, 8]
  | 4 => [8, 16]
  | 6 => [8, 16]
  | _ => []

/-- The samples per pixel once colours are looked up, without those for transparency that come
from a chunk of their own. -/
def samples (colour : Nat) : Nat :=
  match colour with
  | 0 => 1
  | 4 => 2
  | 6 => 4
  | _ => 3

/-- The room that there is for a line and for what is kept of chunks, in octets. -/
def room : Nat := 512 * 1024 * 1024

/-- The octets of content that can be held before any room is used. -/
def firstBuffer : Nat := 128

/-- What has been read in front of the image data. -/
structure Preface where
  header : Header
  /-- The octets that may still be used. -/
  room : Nat
  /-- The octets of content that can be held. -/
  buffer : Nat
  hasPalette : Bool
  hasTransparency : Bool
  hasCodePoints : Bool
  hasProfile : Bool
  hasCameraData : Bool
  /-- The pictures of an animation that have been announced. -/
  frames : Nat

namespace Preface

/-- The first chunk alone. -/
def ofHeader (h : Header) : Preface where
  header := h
  room := Png.room
  buffer := firstBuffer
  hasPalette := false
  hasTransparency := false
  hasCodePoints := false
  hasProfile := false
  hasCameraData := false
  frames := 0

/-- The length of a line in octets once samples have at least eight bits. -/
def line (p : Preface) : Nat :=
  let perPixel := samples p.header.colour + (if p.hasTransparency then 1 else 0)
  p.header.width * perPixel * (if p.header.depth = 16 then 2 else 1)

/-- Uses room. -/
def reserve? (p : Preface) (octets : Nat) : Option Preface :=
  if octets ≤ p.room then some { p with room := p.room - octets } else none

/-- Makes the buffer large enough for content, in less than so many steps. A step doubles it, or
uses all the room that is left. The buffer is kept for the chunks that follow. -/
def growWithin : Nat → Preface → (length : Nat) → Option Preface
  | 0, _, _ => none
  | fuel + 1, p, length =>
    let more := min p.buffer p.room
    if length ≤ p.buffer then some p
    else if more = 0 then none
    else growWithin fuel { p with buffer := p.buffer + more, room := p.room - more } length

/-- Makes the buffer large enough for content. -/
def grow? (p : Preface) (length : Nat) : Option Preface := growWithin (length + 1) p length

/-- Reads what a chunk says about a picture of an animation: its number, and that it takes the
place of the whole image. -/
def frame (p : Preface) : Octets.Read Unit := do
  ensure ((← bigEndian32) = p.frames)
  ensure ((← bigEndian32) = p.header.width)
  ensure ((← bigEndian32) = p.header.height)
  ensure ((← bigEndian32) = 0)
  ensure ((← bigEndian32) = 0)
  let _ ← bigEndian32
  let disposal ← octet
  let blending ← octet
  ensure (disposal ≤ 2 && blending ≤ 1)

/-- Whether content says which colours are transparent. Colours of a palette come after it. -/
def isTransparency (p : Preface) (body : Octets) : Bool :=
  match p.header.colour with
  | 0 => 2 ≤ body.length
  | 2 => 6 ≤ body.length
  | 3 => p.hasPalette
  | _ => false

/-- Reads code points for a colour space: of colours as they are, and in one of two ranges. -/
def codePoints : Octets.Read Unit := do
  let _ ← bigEndian16
  let matrix ← octet
  let range ← octet
  ensure (matrix = 0 && range ≤ 1)

/-- The greatest length of the name of a profile. -/
def longestName : Nat := 79

/-- A profile that has a name and is compressed by the one method there is. -/
def profile? (body : Octets) : Option Octets :=
  let name := body.takeWhile (· != 0)
  if name.isEmpty || longestName < name.length then none
  else
    match body.drop name.length with
    | 0 :: 0 :: stream => Inflate.inflate? stream
    | _ => none

/-- Keeps a profile if there is one and there is room for it. -/
def keepProfile (p : Preface) (body : Octets) : Preface :=
  let p := { p with hasProfile := true }
  ((profile? body).bind fun profile => p.reserve? profile.length).getD p

/-- Takes the content of a chunk. -/
def take? (p : Preface) (kind : Kind) (body : Octets) : Option Preface :=
  match kind with
  | .palette => if p.hasPalette then none else some { p with hasPalette := true }
  | .frame => (p.frame body).map fun _ => { p with frames := p.frames + 1 }
  | .transparency =>
    some { p with hasTransparency := p.hasTransparency || p.isTransparency body }
  | .background => if p.header.colour = 3 && !p.hasPalette then none else some p
  | .codePoints =>
    if p.hasCodePoints || p.hasPalette then some p
    else (codePoints body).map fun _ => { p with hasCodePoints := true }
  | .profile => some (if p.hasProfile then p else p.keepProfile body)
  | .text _ => p.reserve? body.length
  | .cameraData =>
    if p.hasCameraData then some p else { p with hasCameraData := true }.reserve? body.length
  | _ => if kind.isCritical then none else some p

/-- Takes a chunk, or passes over it if it may be missing and is malformed. The content is held
before its checksum is known. -/
def chunk? (p : Preface) (kind : Kind) (body : Octets) (sound : Bool) : Option Preface :=
  if kind = .ancillary then some p
  else if !kind.admits body.length then if kind.needsLength then none else some p
  else
    (p.grow? body.length).bind fun p =>
      if sound then p.take? kind body else if kind.isCritical then none else some p

/-- Whether a chunk begins image data. That of a picture of an animation is announced. -/
def beginsData (p : Preface) (kind : Kind) : Bool :=
  kind == .data || (kind == .frameData && p.frames != 0)

end Preface

/-- Reads the content of the first chunk. -/
def header : Octets.Read Header := do
  let width ← bigEndian32
  let height ← bigEndian32
  ensure (width != 0 && height != 0)
  let depth ← octet
  let colour ← octet
  ensure ((depths colour).contains depth)
  let compression ← octet
  let filter ← octet
  let interlace ← octet
  ensure (compression = 0 && filter = 0 && interlace ≤ 1)
  return ⟨width, height, depth, colour⟩

/-- The content of a chunk, and whether its checksum is right. -/
def content (name : Octets) (length : Nat) : Octets.Read (Octets × Bool) := do
  let body ← take length
  let checksum ← bigEndian32
  return (body, Checksum.crc32 (name ++ body) = checksum)

/-- Reads chunks up to the image data, at most so many. -/
def chunks : Nat → Preface → Octets.Read Preface
  | 0, _ => failure
  | fuel + 1, p => do
    let length ← bigEndian32
    let name ← take 4
    let kind := Kind.ofName name
    if p.beginsData kind then
      ensure (kind.admits length)
      return p
    else
      ensure (kind != .frameData)
      let (body, sound) ← content name length
      match p.chunk? kind body sound with
      | some p => chunks fuel p
      | none => failure

/-- Reads a file up to the image data, for which a line has to fit into the room left. -/
def file : Octets.Read Header := do
  ensure ((← take 8) = signature)
  let length ← bigEndian32
  let name ← take 4
  ensure (Kind.ofName name = .header && Kind.header.admits length)
  let (body, sound) ← content name length
  ensure sound
  match header body with
  | none => failure
  | some (h, _) =>
    let p ← fun rest => chunks rest.length (.ofHeader h) rest
    ensure (p.line ≤ p.room)
    return h

/-- The width and the height of an image. -/
def size? (bytes : Octets) : Option (Nat × Nat) :=
  (file bytes).map fun (h, _) => (h.width, h.height)

end Letterpress.Png
