/-
# Paths

The names that lead to a file, with slashes between them. Repeated slashes and
dots that stand for the place reached mean nothing, but paths keep the
spelling they were given.
-/

import Letterpress.Text.Basic

namespace Letterpress.Path

/-- The parts between slashes. -/
def parts : Text → List Text
  | [] => [[]]
  | '/' :: t => [] :: parts t
  | c :: t =>
    match parts t with
    | [] => [[c]]
    | p :: ps => (c :: p) :: ps

/-- Whether a path begins at the root. -/
def isAbsolute (path : Text) : Bool := path.head? == some '/'

/-- Whether a part means nothing where others stand before it. -/
def isSilent (part : Text) : Bool := part.isEmpty || part == (".".toList)

/-- Parts in reverse without silent ones at the end. A dot that a path begins with is not
silent. -/
def dropSilent : List Text → List Text
  | [] => []
  | [first] => if first.isEmpty then [] else [first]
  | last :: before => if isSilent last then dropSilent before else last :: before

/-- The last part that means something, and those before it, in reverse. -/
def lastPart? (path : Text) : Option (Text × List Text) :=
  match dropSilent (parts path).reverse with
  | [] => none
  | last :: before => some (last, before)

/-- Where the last part of a path is looked for, if there is one. -/
def parent? (path : Text) : Option Text :=
  (lastPart? path).map fun (_, before) =>
    match (dropSilent before).reverse with
    | [] => if isAbsolute path then "/" else []
    | parts => Text.joinWith "/" parts

/-- The name of the file, unless the path ends with the way to an outer directory. -/
def fileName? (path : Text) : Option Text :=
  (lastPart? path).bind fun (last, _) =>
    if last = (".".toList) || last = ("..".toList) then none else some last

/-- A file name before and after its last dot, unless it has none behind its first
character. -/
def splitAtLastDot (name : Text) : Text × Option Text :=
  match Text.splitAtFirst '.' name.reverse with
  | none => (name, none)
  | some (after, before) =>
    if before.isEmpty then (name, none) else (before.reverse, some after.reverse)

/-- The file name without its extension. -/
def stem? (path : Text) : Option Text := (fileName? path).map fun n => (splitAtLastDot n).1

/-- The extension of the file name. -/
def extension? (path : Text) : Option Text :=
  (fileName? path).bind fun n => (splitAtLastDot n).2

/-- A path from the place that another one leads to. -/
def join (directory path : Text) : Text :=
  if isAbsolute path || directory.isEmpty then path
  else if directory.getLast? = some '/' then directory ++ path
  else directory ++ "/" ++ path

/-- The path with another file name in place of its own. -/
def withFileName (path name : Text) : Text :=
  match fileName? path with
  | some _ => join ((parent? path).getD []) name
  | none => join path name

/-- The path with another extension. -/
def withExtension (path extension : Text) : Text :=
  match fileName? path with
  | none => path
  | some name =>
    match Text.before? name path with
    | some lead => lead ++ (splitAtLastDot name).1 ++ "." ++ extension
    | none => path

end Letterpress.Path
