/-
# Imported documents

Bodies from files: fragments are taken as they are, and of whole documents
only the body is kept. Nothing is imported from word processor files.
-/

import Letterpress.Failure
import Letterpress.Log
import Letterpress.Markup.Parsing
import Letterpress.Markup.Written

namespace Letterpress

/-- What a reader of an import should know. -/
inductive ImportNote
  /-- The octets are not UTF-8 and have been read with replacements. -/
  | replaced (fault : Utf8.Fault)
  | wholeDocument

/-- The note in words. -/
def ImportNote.message : ImportNote → Text
  | replaced fault =>
    "input is not valid UTF-8 (" ++ fault.message ++ "); invalid bytes were replaced"
  | wholeDocument => "full HTML document detected; only the body was kept"

/-- An imported body. -/
structure Imported where
  html : Text
  notes : List ImportNote

/-- The record of a document without a body. -/
def bodyRecords (document : Text) : List LogRecord :=
  if (parseBody? document).isSome then []
  else [⟨.warn, "parsed document has no <body>; returning an empty root"⟩]

namespace Import

/-- The text of octets, and what is wrong with them. -/
def textOf (bytes : Octets) : Text × List ImportNote :=
  match Utf8.decode bytes with
  | .ok t => (t, [])
  | .error fault => (Utf8.decodeLossy bytes, [.replaced fault])

/-- The text without byte order marks at its start. -/
def withoutMarks (t : Text) : Text := t.dropWhile (· == '\uFEFF')

/-- Whether a text is a whole document: it contains what the tag of one begins with. -/
def isDocument (t : Text) : Bool :=
  let small := Text.lower t
  Text.occursIn "<html" small || Text.occursIn "<body" small

/-- The body of a text. -/
def bodyOf (t : Text) : Text :=
  Text.trim (if isDocument t then (parseBody t).innerMarkup else t)

/-- Imports octets. -/
def ofOctets (bytes : Octets) : Except Failure Imported :=
  let (decoded, notes) := textOf bytes
  let t := withoutMarks decoded
  if Text.isBlankText t then .error .emptyDocument
  else .ok ⟨bodyOf t, notes ++ if isDocument t then [.wholeDocument] else []⟩

/-- What importing octets reports. -/
def records (bytes : Octets) : List LogRecord :=
  let (decoded, notes) := textOf bytes
  let t := withoutMarks decoded
  notes.map (fun note => ⟨.warn, note.message⟩) ++
    if !Text.isBlankText t && isDocument t then bodyRecords t else []

/-- Whether a path names a file of a word processor. -/
def isWordDocument (path : Text) : Bool :=
  let extension := Text.lower ((Path.extension? path).getD [])
  extension = ("docx".toList) || extension = ("doc".toList)

/-- Imports a file. -/
def ofFile (fs : FileSystem) (path : Text) : Except Failure Imported :=
  if isWordDocument path then .error (.wordDocument path)
  else
    match fs.read path with
    | .ok bytes => ofOctets bytes
    | .error fault => .error (.documentFile path fault)

/-- What importing a file reports. -/
def fileRecords (fs : FileSystem) (path : Text) : List LogRecord :=
  if isWordDocument path then []
  else
    match fs.read path with
    | .ok bytes => records bytes
    | .error _ => []

end Import

namespace Payload

/-- The payload of an image file. -/
def ofFile (fs : FileSystem) (path : Text) : Except Failure Payload :=
  match fs.read path with
  | .ok bytes =>
    match ofImage bytes with
    | .ok payload => .ok payload
    | .error fault => .error (.imageIn path fault)
  | .error fault => .error (.imageFile path fault)

/-- What reading an image file reports. -/
def fileRecords (fs : FileSystem) (path : Text) : List LogRecord :=
  match ofFile fs path with
  | .error (.imageIn _ fault) =>
    [⟨.warn, "skipping image " ++ path ++ ": " ++ (Failure.image fault).message⟩]
  | _ => []

end Payload

end Letterpress
