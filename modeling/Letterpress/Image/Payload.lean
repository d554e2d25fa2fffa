/-
# Image payloads

Images travel inside the email as data URIs that name their media type. A
payload is such a URI with what is known of the image in it.
-/

import Letterpress.Image.Format
import Letterpress.Text.Base64
import Letterpress.Text.Blank
import Letterpress.Text.Quoted
import Letterpress.Text.Utf8

namespace Letterpress

/-- Why there is no image. -/
inductive ImageFault
  /-- The text, of which this is the start, is no data URI. -/
  | notDataUri (start : Text)
  | noComma
  | notBase64
  | badBase64 (fault : Base64.Fault)
  | empty
  | unrecognised
  | unsupported (format : ImageFormat)
  | malformed (format : MeasuredFormat)

namespace ImageFault

/-- The fault in words. -/
def message : ImageFault → Text
  | notDataUri start => "expected a data URI, got " ++ Text.quoted start
  | noComma => "data URI has no `,` separator"
  | notBase64 => "only base64 data URIs are supported"
  | badBase64 fault => "base64 decode error: " ++ fault.message
  | empty => "file is empty"
  | unrecognised => "not a recognised image: The image format could not be determined"
  | unsupported format =>
    "cannot decode " ++ format.name ++ ": The image format " ++ format.name ++
      " is not supported"
  | malformed format => "cannot decode " ++ format.format.name

end ImageFault

/-- An image that has been measured. -/
structure Measured where
  format : MeasuredFormat
  width : Nat
  height : Nat

/-- Recognises and measures an image. -/
def measure (bytes : Octets) : Except ImageFault Measured :=
  if bytes.isEmpty then .error .empty
  else
    match ImageFormat.guess? bytes with
    | none => .error .unrecognised
    | some format =>
      match MeasuredFormat.ofFormat? format with
      | none => .error (.unsupported format)
      | some measured =>
        match measured.size? bytes with
        | some (width, height) => .ok ⟨measured, width, height⟩
        | none => .error (.malformed measured)

/-- An image inside a data URI. -/
structure Payload where
  uri : Text
  mediaType : Text
  width : Nat
  height : Nat
  deriving DecidableEq

namespace DataUri

/-- A data URI with octets in Base64. -/
def written (mediaType : Text) (bytes : Octets) : Text :=
  "data:" ++ mediaType ++ ";base64," ++ Base64.encode bytes

/-- How many characters of a text a message shows. -/
def previewLength : Nat := 40

/-- The codes that the octets of a text are. -/
def codes (t : Text) : List Nat := (Utf8.encode t).map UInt8.toNat

/-- The media type and the octets of a data URI, around which and in front of whose data there
may be white space. -/
def parse (source : Text) : Except ImageFault (Text × Octets) :=
  match Text.after? "data:" (Text.trim source) with
  | none => .error (.notDataUri (source.take previewLength))
  | some rest =>
    match Text.splitAtFirst ',' rest with
    | none => .error .noComma
    | some (header, data) =>
      match Text.before? ";base64" header with
      | none => .error .notBase64
      | some mediaType =>
        match Base64.decode (codes (Text.trim data)) with
        | .ok bytes => .ok (mediaType, bytes)
        | .error fault => .error (.badBase64 fault)

end DataUri

namespace Payload

/-- The payload of an image. -/
def ofImage (bytes : Octets) : Except ImageFault Payload :=
  (measure bytes).map fun m =>
    ⟨DataUri.written m.format.mediaType bytes, m.format.mediaType, m.width, m.height⟩

/-- The payload that a data URI is. The media type is that of the image and not the one
declared. -/
def ofUri (source : Text) : Except ImageFault Payload := do
  let (_, bytes) ← DataUri.parse source
  let m ← measure bytes
  return ⟨Text.trim source, m.format.mediaType, m.width, m.height⟩

end Payload

end Letterpress
