/-
# The program

Loads what the command line names, runs the command, and stores what has
changed. Other programs cannot be started from here, so nothing is printed.
-/

import Letterpress.Command.Run

namespace Letterpress.Machine

/-- What stands at a path of the machine, if anything does. -/
def entryAt (path : Text) : IO (Option Entry) := do
  let name := String.ofList path
  try
    if ← (← IO.FS.realPath name).isDir then return some .directory
    return some (.file (← IO.FS.readBinFile name).toList)
  catch _ => return none

/-- The paths on the way to a path, and the path itself. -/
def waypoints (path : Text) : List Text :=
  let parts := Path.parts path
  (List.range parts.length).map fun n => Text.joinWith "/" (parts.take (n + 1))

/-- The file system with what stands at the paths. -/
def load (fs : FileSystem) (paths : List Text) : IO FileSystem :=
  (paths.flatMap waypoints).foldlM
    (fun fs path => do
      match ← entryAt path with
      | some entry => return fs.add path entry
      | none => return fs)
    fs

/-- The path of a place from the root. -/
def pathOf (location : Location) : String :=
  String.ofList ("/" ++ Text.joinWith "/" location.reverse)

/-- Stores the entries that are not among those known. -/
def store (known fs : FileSystem) : IO Unit :=
  for (location, entry) in fs.entries.reverse do
    unless known.at? location = some entry do
      match entry with
      | .directory => IO.FS.createDirAll (pathOf location)
      | .file content => IO.FS.writeBinFile (pathOf location) ⟨content.toArray⟩

/-- The file system of a process that has not read anything. -/
def unread : IO FileSystem := do
  let here := Path.parts (← IO.currentDir).toString.toList
  return FileSystem.atWork (here.filter fun p => !p.isEmpty).reverse

end Letterpress.Machine

open Letterpress

/-- Runs the command on the arguments of the process. -/
def main (args : List String) : IO UInt32 := do
  let arguments := args.map String.toList
  let files ← Machine.load (← Machine.unread) arguments
  let outcome := Command.run ⟨files, fun _ _ _ _ => .error .unsupported⟩ arguments
  Machine.store files outcome.files
  for line in outcome.messages do
    IO.eprintln (String.ofList line)
  return outcome.code.toUInt32
