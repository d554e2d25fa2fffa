/-
# Printing with a browser

A browser without a window prints a page to a file. The page is put into a
directory of its own; the print counts if the browser ends well and what it
wrote begins like a PDF file.
-/

import Letterpress.Files.System
import Letterpress.Print.Session

namespace Letterpress.Browser

/-- How a process ended. -/
inductive Ending
  | exited (status : Nat)
  | killed (signal : Nat) (name : Text)
  deriving DecidableEq

namespace Ending

/-- Whether the process ended well. -/
def isSuccess (e : Ending) : Bool := e == .exited 0

/-- The ending in words. -/
def words : Ending → Text
  | exited status => "exit status: " ++ Text.decimal status
  | killed signal name => "signal: " ++ Text.decimal signal ++ " (" ++ name ++ ")"

end Ending

/-- One run of a browser: how it ended, and the file it wrote, if any. -/
structure Run where
  ending : Ending
  output : Option Octets

/-- What running a program with arguments on a page comes to. -/
abbrev Launcher := (program : Text) → (arguments : List Text) → (page : Octets) →
  Except FileFault Run

/-- The directory of the page and the print. -/
def scratch : Text := "/tmp/letterpress"

/-- The arguments that keep a browser to printing a bare page without a window. -/
def fixedArguments : List Text :=
  ["--headless", "--disable-gpu", "--no-sandbox", "--disable-setuid-sandbox",
   "--no-pdf-header-footer"]

/-- The arguments with which a browser prints. -/
def arguments (extra : List Text) : List Text :=
  let print : Text := "--print-to-pdf=" ++ Path.join scratch "email.pdf"
  let page : Text := "file://" ++ Path.join scratch "email.html"
  fixedArguments ++ print :: extra ++ [page]

/-- What every PDF file begins with. -/
def signature : Octets := Utf8.encode "%PDF-"

/-- The print that a run has made. -/
def outcome (r : Run) : Except Text Octets :=
  if !r.ending.isSuccess then .error ("renderer exited with " ++ r.ending.words)
  else
    match r.output with
    | none => .error ("no PDF produced: " ++ FileFault.notFound.message)
    | some pdf =>
      if signature.isPrefixOf pdf then .ok pdf else .error "renderer output is not a PDF"

/-- Sessions that run a browser. -/
def backend (launch : Launcher) (program : Text) (extra : List Text) : Print.Backend where
  launch := .ok ⟨fun html =>
    match launch program (arguments extra) (Utf8.encode html) with
    | .error fault => .error (.failed ("cannot launch " ++ program ++ ": " ++ fault.message))
    | .ok run => (outcome run).mapError .failed⟩

end Letterpress.Browser
