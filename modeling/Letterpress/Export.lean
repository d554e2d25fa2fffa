/-
# Exported documents

How exported files are named, and writing them.
-/

import Letterpress.Email.Config
import Letterpress.Failure
import Letterpress.Log
import Letterpress.Text.Utf8

namespace Letterpress.Export

/-- The stem of files that are named after no other. -/
def defaultStem : Text := "email-template"

/-- The name of the file that a document made from a source is exported to. -/
def fileName (source : Option Text) (dialect : Dialect) : Text :=
  ((source.bind Path.stem?).getD defaultStem) ++ dialect.fileSuffix ++ ".html"

/-- A file that has been written. -/
structure Written where
  path : Text
  size : Nat

/-- Writes a document to a file in a directory, which is made if it is missing. -/
def write (fs : FileSystem) (directory name html : Text) :
    FileSystem × Except Failure Written :=
  match if directory.isEmpty then (fs, none) else fs.makeDirectories directory with
  | (fs, some fault) => (fs, .error (.output fault))
  | (fs, none) =>
    let path := Path.join directory name
    match fs.write path (Utf8.encode html) with
    | .ok fs => (fs, .ok ⟨path, Text.size html⟩)
    | .error fault => (fs, .error (.output fault))

/-- What writing a file reports. -/
def record (w : Written) : LogRecord :=
  ⟨.info, "wrote " ++ w.path ++ " (" ++ Text.decimal w.size ++ " bytes)"⟩

end Letterpress.Export
