/-
# File systems

A tree of directories with files, as a list of its places. Paths are followed
part by part; every way to fail has the number that the operating system gives
it.
-/

import Letterpress.Files.Path
import Letterpress.Octets.Reading

namespace Letterpress

/-- Why an operation on files failed. -/
inductive FileFault
  | notFound
  | denied
  | alreadyExists
  | notDirectory
  | isDirectory
  | longName
  /-- There is no way to do this here. -/
  | unsupported
  /-- A path with the character that ends paths. -/
  | nulInPath
  deriving DecidableEq

namespace FileFault

/-- The fault in words. -/
def message : FileFault → Text
  | notFound => "No such file or directory (os error 2)"
  | denied => "Permission denied (os error 13)"
  | alreadyExists => "File exists (os error 17)"
  | notDirectory => "Not a directory (os error 20)"
  | isDirectory => "Is a directory (os error 21)"
  | longName => "File name too long (os error 36)"
  | unsupported => "Function not implemented (os error 38)"
  | nulInPath => "file name contained an unexpected NUL byte"

end FileFault

/-- A place in the tree: the names that lead to it, the last one first. -/
abbrev Location := List Text

/-- What stands at a place. -/
inductive Entry
  | file (content : Octets)
  | directory
  deriving DecidableEq

/-- The tree, and the directory that relative paths start from. -/
structure FileSystem where
  entries : List (Location × Entry)
  workingDirectory : Location

namespace FileSystem

/-- What stands at a place. The root is a directory. -/
def at? (fs : FileSystem) : Location → Option Entry
  | [] => some .directory
  | location => (fs.entries.find? fun e => e.1 == location).map Prod.snd

/-- Puts an entry at a place. -/
def put (fs : FileSystem) (location : Location) (entry : Entry) : FileSystem :=
  { fs with entries := (location, entry) :: fs.entries.filter fun e => e.1 != location }

/-- The longest name in octets. -/
def longestName : Nat := 255

/-- The longest path in octets. -/
def longestPath : Nat := 4095

/-- The place that parts of a path lead to from another place. All places on the way must be
directories; nothing needs to stand at the end of it. -/
def follow (fs : FileSystem) : Location → List Text → Except FileFault Location
  | location, [] => .ok location
  | location, part :: rest =>
    match fs.at? location with
    | none => .error .notFound
    | some (.file _) => .error .notDirectory
    | some .directory =>
      if Path.isSilent part then fs.follow location rest
      else if part = ("..".toList) then fs.follow location.tail rest
      else if longestName < Text.size part then .error .longName
      else fs.follow (part :: location) rest

/-- The parts of a path and where they start from. -/
def start (fs : FileSystem) (path : Text) : Except FileFault (Location × List Text) :=
  if path.contains '\x00' then .error .nulInPath
  else if path.isEmpty then .error .notFound
  else if longestPath < Text.size path then .error .longName
  else .ok (if Path.isAbsolute path then [] else fs.workingDirectory, Path.parts path)

/-- What a path leads to. -/
def lookUp (fs : FileSystem) (path : Text) : Except FileFault Entry := do
  let (location, parts) ← fs.start path
  match fs.at? (← fs.follow location parts) with
  | some entry => return entry
  | none => throw .notFound

/-- The content of a file. -/
def read (fs : FileSystem) (path : Text) : Except FileFault Octets := do
  match ← fs.lookUp path with
  | .file content => return content
  | .directory => throw .isDirectory

/-- Whether a path leads to a directory. -/
def isDirectory (fs : FileSystem) (path : Text) : Bool :=
  match fs.lookUp path with
  | .ok .directory => true
  | _ => false

/-- Where the last part of a path, which names what is to be made, would stand. `unnamed` is
the fault if it names nothing new. -/
def newPlace (fs : FileSystem) (path : Text) (slashAllowed : Bool) (unnamed : FileFault) :
    Except FileFault Location := do
  let (location, parts) ← fs.start path
  match parts.reverse.dropWhile List.isEmpty with
  | [] => throw unnamed
  | last :: before =>
    let directory ← fs.follow location before.reverse
    let _ ← fs.follow directory [[]]
    if Path.isSilent last || last = ("..".toList) then throw unnamed
    if !slashAllowed && path.getLast? = some '/' then throw unnamed
    fs.follow directory [last]

/-- Makes a file, or replaces the content of one. -/
def write (fs : FileSystem) (path : Text) (content : Octets) :
    Except FileFault FileSystem := do
  let location ← fs.newPlace path false .isDirectory
  match fs.at? location with
  | some .directory => throw .isDirectory
  | _ => return fs.put location (.file content)

/-- Makes a directory. -/
def makeDirectory (fs : FileSystem) (path : Text) : Except FileFault FileSystem := do
  let location ← fs.newPlace path true .alreadyExists
  match fs.at? location with
  | some _ => throw .alreadyExists
  | none => return fs.put location .directory

/-- Makes a directory unless it is there already. -/
def ensureDirectory (fs : FileSystem) (path : Text) : Except FileFault FileSystem :=
  match fs.makeDirectory path with
  | .error .notFound => .error .notFound
  | .error fault => if fs.isDirectory path then .ok fs else .error fault
  | made => made

/-- Makes a directory and those it stands in, as far as they are missing, going outwards so
many steps. Directories made before a fault stay. -/
def makeDirectoriesWithin : Nat → FileSystem → Text → FileSystem × Option FileFault
  | 0, fs, _ => (fs, none)
  | fuel + 1, fs, path =>
    if path.isEmpty then (fs, none)
    else
      match fs.ensureDirectory path, Path.parent? path with
      | .ok fs, _ => (fs, none)
      | .error .notFound, some parent =>
        match makeDirectoriesWithin fuel fs parent with
        | (fs, some fault) => (fs, some fault)
        | (fs, none) =>
          match fs.ensureDirectory path with
          | .ok fs => (fs, none)
          | .error fault => (fs, some fault)
      | .error fault, _ => (fs, some fault)

/-- Makes a directory and those it stands in, as far as they are missing. -/
def makeDirectories (fs : FileSystem) (path : Text) : FileSystem × Option FileFault :=
  makeDirectoriesWithin (path.length + 1) fs path

/-- The places around a place, the outermost first. -/
def around : Location → List Location
  | [] => []
  | name :: outer => around outer ++ [name :: outer]

/-- A file system with one working directory and nothing in it. -/
def atWork (workingDirectory : Location) : FileSystem :=
  ⟨(around workingDirectory).map fun location => (location, .directory), workingDirectory⟩

/-- The place that a path names if every directory on the way is there. -/
def named (fs : FileSystem) (path : Text) : Location :=
  (Path.parts path).foldl
    (fun location part =>
      if Path.isSilent part then location
      else if part = ("..".toList) then location.tail
      else part :: location)
    (if Path.isAbsolute path then [] else fs.workingDirectory)

/-- Puts an entry where a path names a place, with the directories around it. -/
def add (fs : FileSystem) (path : Text) (entry : Entry) : FileSystem :=
  let location := fs.named path
  let missing := (around location.tail).filter fun l => (fs.at? l).isNone
  (missing.foldl (fun fs l => fs.put l .directory) fs).put location entry

/-- The path to a place inside the working directory. -/
def relative? (fs : FileSystem) (location : Location) : Option Text :=
  let depth := location.length - fs.workingDirectory.length
  if location.drop depth = fs.workingDirectory && depth != 0 then
    some (Text.joinWith "/" (location.take depth).reverse)
  else none

/-- The files in the working directory and inside it, with their paths. -/
def files (fs : FileSystem) : List (Text × Octets) :=
  fs.entries.filterMap fun (location, entry) =>
    match entry with
    | .file content => (fs.relative? location).map fun path => (path, content)
    | .directory => none

end FileSystem

end Letterpress
