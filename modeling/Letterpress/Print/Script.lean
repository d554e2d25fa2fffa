/-
# Scripted browsers

Stand-ins for a browser: programs whose runs are known beforehand.
-/

import Letterpress.Print.Browser

namespace Letterpress.Browser

/-- What a stand-in does. -/
inductive Script
  /-- There is no such file. -/
  | missing
  /-- The file is not executable. -/
  | notExecutable
  /-- Writes the page behind a PDF signature. -/
  | page
  /-- Writes its arguments behind a PDF signature. -/
  | arguments
  /-- Ends in a known way and writes a known file. -/
  | fixed (ending : Ending) (output : Option Text)

namespace Script

/-- The text from its last slash on, without that slash. -/
def afterLastSlash (t : Text) : Text := (t.reverse.takeWhile (· != '/')).reverse

/-- An argument without the directory of the first path in it. A path begins at a slash behind
an equals sign or behind two slashes, and has another slash. -/
def withoutDirectory : Text → Text
  | '=' :: '/' :: t =>
    if t.contains '/' then '=' :: afterLastSlash t else '=' :: withoutDirectory ('/' :: t)
  | '/' :: '/' :: '/' :: t =>
    if t.contains '/' then '/' :: '/' :: afterLastSlash t
    else '/' :: withoutDirectory ('/' :: '/' :: t)
  | c :: t => c :: withoutDirectory t
  | [] => []

/-- What a run with arguments on a page comes to. -/
def run (s : Script) (arguments : List Text) (page : Octets) : Except FileFault Run :=
  match s with
  | missing => .error .notFound
  | notExecutable => .error .denied
  | .page => .ok ⟨.exited 0, some (Utf8.encode "%PDF-1.7\n" ++ page)⟩
  | .arguments =>
    let lines : Text := arguments.flatMap fun a => withoutDirectory a ++ ['\n']
    .ok ⟨.exited 0, some (Utf8.encode "%PDF-args\n" ++ Utf8.encode lines)⟩
  | fixed ending output => .ok ⟨ending, output.map Utf8.encode⟩

end Script

/-- Running programs of a file system in which one place holds a stand-in. A program without
a slash in its name is looked for elsewhere and not found. -/
def launcher (fs : FileSystem) (place : Location) (script : Script) : Launcher :=
  fun program arguments page =>
    if !program.contains '/' then .error .notFound
    else do
      let (location, parts) ← fs.start program
      let location ← fs.follow location parts
      match fs.at? location with
      | none => throw .notFound
      | some .directory => throw .denied
      | some (.file _) => if location = place then script.run arguments page else throw .denied

end Letterpress.Browser
