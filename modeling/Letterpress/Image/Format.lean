/-
# Image formats

Formats are recognised by the octets that files begin with. Of most formats
no more is known than that; three can be measured.
-/

import Letterpress.Image.Gif
import Letterpress.Image.Jpeg
import Letterpress.Image.Png
import Letterpress.Text.Basic

namespace Letterpress

/-- An image format. -/
inductive ImageFormat
  | png
  | jpeg
  | gif
  | webP
  | tiff
  | dds
  | bmp
  | ico
  | hdr
  | avif
  | openExr
  | qoi
  | pnm
  | farbfeld
  deriving DecidableEq

namespace ImageFormat

/-- The name in messages. -/
def name : ImageFormat → Text
  | png => "Png"
  | jpeg => "Jpeg"
  | gif => "Gif"
  | webP => "WebP"
  | tiff => "Tiff"
  | dds => "Dds"
  | bmp => "Bmp"
  | ico => "Ico"
  | hdr => "Hdr"
  | avif => "Avif"
  | openExr => "OpenExr"
  | qoi => "Qoi"
  | pnm => "Pnm"
  | farbfeld => "Farbfeld"

/-- A signature is a list of octets of which some are open. -/
abbrev Signature := List (Option UInt8)

/-- Whether octets begin with a signature. -/
def matchesSignature : Signature → Octets → Bool
  | [], _ => true
  | _ :: _, [] => false
  | none :: signature, _ :: bytes => matchesSignature signature bytes
  | some a :: signature, b :: bytes => a == b && matchesSignature signature bytes

/-- A signature without open octets. -/
def fixed (octets : Octets) : Signature := octets.map some

/-- The codes of ASCII characters. -/
def ascii (s : String) : Octets := s.toList.map fun c => c.toNat.toUInt8

/-- The signatures in the order in which they are tried. -/
def signatures : List (Signature × ImageFormat) :=
  [(fixed Png.signature, png),
   (fixed [0xFF, 0xD8, 0xFF], jpeg),
   (fixed (ascii "GIF89a"), gif),
   (fixed (ascii "GIF87a"), gif),
   (fixed (ascii "RIFF") ++ [none, none, none, none] ++ fixed (ascii "WEBP"), webP),
   (fixed [0x4D, 0x4D, 0x00, 0x2A], tiff),
   (fixed [0x49, 0x49, 0x2A, 0x00], tiff),
   (fixed (ascii "DDS "), dds),
   (fixed (ascii "BM"), bmp),
   (fixed [0x00, 0x00, 0x01, 0x00], ico),
   (fixed (ascii "#?RADIANCE"), hdr),
   ([some 0x00, some 0x00, none, none] ++ fixed (ascii "ftypavif"), avif),
   (fixed [0x76, 0x2F, 0x31, 0x01], openExr),
   (fixed (ascii "qoif"), qoi),
   (fixed (ascii "P1"), pnm),
   (fixed (ascii "P2"), pnm),
   (fixed (ascii "P3"), pnm),
   (fixed (ascii "P4"), pnm),
   (fixed (ascii "P5"), pnm),
   (fixed (ascii "P6"), pnm),
   (fixed (ascii "P7"), pnm),
   (fixed (ascii "farbfeld"), farbfeld)]

/-- The format that octets seem to be of. -/
def guess? (bytes : Octets) : Option ImageFormat :=
  (signatures.find? fun s => matchesSignature s.1 bytes).map Prod.snd

end ImageFormat

/-- A format that can be measured. -/
inductive MeasuredFormat
  | png
  | jpeg
  | gif
  deriving DecidableEq

namespace MeasuredFormat

/-- The format among all formats. -/
def format : MeasuredFormat → ImageFormat
  | png => .png
  | jpeg => .jpeg
  | gif => .gif

/-- The media type. -/
def mediaType : MeasuredFormat → Text
  | png => "image/png"
  | jpeg => "image/jpeg"
  | gif => "image/gif"

/-- The width and the height of an image. -/
def size? : MeasuredFormat → Octets → Option (Nat × Nat)
  | png => Png.size?
  | jpeg => Jpeg.size?
  | gif => Gif.size?

/-- The format as one that can be measured. -/
def ofFormat? : ImageFormat → Option MeasuredFormat
  | .png => some png
  | .jpeg => some jpeg
  | .gif => some gif
  | _ => none

end MeasuredFormat

end Letterpress
