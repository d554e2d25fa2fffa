/-
# Printing

A document is printed in a session of its own, which is closed whether the
printing succeeds or not. Blank documents are refused before a session begins.
-/

import Letterpress.Log
import Letterpress.Text.Blank
import Letterpress.Text.Utf8

namespace Letterpress

/-- Why there is no print. -/
inductive PrintFault
  | noContent
  | failed (reason : Text)
  deriving DecidableEq

namespace PrintFault

/-- The fault in words. -/
def message : PrintFault → Text
  | noContent => "no HTML content provided"
  | failed reason => "PDF generation failed: " ++ reason

/-- The status that a service answers with. -/
def status : PrintFault → Nat
  | noContent => 400
  | failed _ => 500

end PrintFault

namespace Print

/-- A session prints one document, or says why it cannot. -/
structure Session where
  print : Text → Except PrintFault Octets

/-- What begins sessions, or says why it cannot. -/
structure Backend where
  launch : Except PrintFault Session

/-- What happens to sessions, which are numbered in the order of their launches. -/
inductive Event
  | launched (session : Nat)
  | printed (session : Nat)
  | closed (session : Nat)
  deriving DecidableEq

/-- What has happened so far. -/
abbrev History := List Event

namespace History

/-- How many sessions have been launched. -/
def launches (h : History) : Nat :=
  h.countP fun
    | .launched _ => true
    | _ => false

/-- How many sessions have been closed. -/
def closes (h : History) : Nat :=
  h.countP fun
    | .closed _ => true
    | _ => false

end History

/-- Work on sessions. It stops at a fault, and what has happened until then has happened. -/
abbrev Work := ExceptT PrintFault (StateM History)

namespace Work

/-- Adds an event to what has happened. -/
def note (e : Event) : Work Unit := modify (· ++ [e])

/-- Begins a session of a backend, and numbers it. -/
def launch (b : Backend) : Work (Nat × Session) := do
  let session ← b.launch
  let number := (← get).launches
  note (.launched number)
  return (number, session)

/-- Prints a document in a session. A fault is handed on as a value, since the session has still
to be closed. -/
def print (number : Nat) (session : Session) (html : Text) :
    Work (Except PrintFault Octets) := do
  note (.printed number)
  return session.print html

/-- Ends a session. -/
def close (number : Nat) : Work Unit := note (.closed number)

/-- Prints a document in a session of its own. -/
def inOwnSession (b : Backend) (html : Text) : Work Octets := do
  if Text.isBlankText html then
    throw .noContent
  let (number, session) ← launch b
  let result ← print number session html
  close number
  MonadExcept.ofExcept result

end Work

/-- Prints a document in a session of a backend. -/
def document (b : Backend) (html : Text) (h : History) :
    Except PrintFault Octets × History :=
  (Work.inOwnSession b html).run.run h

/-- Prints documents one after another, each in a session of its backend. -/
def documents : List (Backend × Text) → History →
    List (Except PrintFault Octets × History)
  | [], _ => []
  | (b, html) :: rest, h =>
    let (result, h) := document b html h
    (result, h) :: documents rest h

/-- What printing a document reports: nothing unless a session was launched. -/
def records (b : Backend) (html : Text) : List LogRecord :=
  match document b html [] with
  | (_, []) => []
  | (.ok pdf, _) => [⟨.debug, "rendered " ++ Text.decimal pdf.length ++ " bytes of PDF"⟩]
  | (.error fault, _) => [⟨.warn, fault.message⟩]

/-- Outcomes that are laid down beforehand. -/
def scripted (launchFault printFault : Option Text) (pdf : Text → Octets) : Backend where
  launch :=
    match launchFault with
    | some reason => .error (.failed reason)
    | none =>
      .ok ⟨fun html =>
        match printFault with
        | some reason => .error (.failed reason)
        | none => .ok (pdf html)⟩

end Print

end Letterpress
