/-
# Reading JSON

A reader walks through a text and stops at the first fault. It knows how many
octets lie behind it, since that is how faults are placed.
-/

import Letterpress.Json.Fault

namespace Letterpress.Json

/-- A place in a text: the octets before it, and what follows. -/
structure Cursor where
  offset : Nat
  rest : Text

/-- Readers of a value. -/
abbrev Read := StateT Cursor (Except Fault)

namespace Read

/-- Stops at the place reached. -/
def fail (cause : Cause) : Read α := fun c => .error ⟨cause, c.offset⟩

/-- Stops at the octet that would be next, behind it if there is one. -/
def failNext (cause : Cause) : Read α := fun c =>
  .error ⟨cause, if c.rest.isEmpty then c.offset else c.offset + 1⟩

/-- Stops behind the next octet, at the end of the text for another reason. -/
def failAfter (cause atEnd : Cause) : Read α := fun c =>
  if c.rest.isEmpty then .error ⟨atEnd, c.offset⟩ else .error ⟨cause, c.offset + 1⟩

/-- The next character, which is not consumed. -/
def peek? : Read (Option Char) := fun c => .ok (c.rest.head?, c)

/-- Consumes a character. -/
def advance : Read Unit := fun c =>
  match c.rest with
  | [] => .ok ((), c)
  | x :: t => .ok ((), ⟨c.offset + x.utf8Size, t⟩)

/-- Consumes the characters in front that have a property. -/
def takeWhile (p : Char → Bool) : Read Text := fun c =>
  let taken := c.rest.takeWhile p
  .ok (taken, ⟨c.offset + Text.size taken, c.rest.dropWhile p⟩)

/-- The characters between tokens. -/
def isSpace (c : Char) : Bool := c == ' ' || c == '\n' || c == '\t' || c == '\r'

/-- The character that the next token begins with. -/
def token? : Read (Option Char) := do
  let _ ← takeWhile isSpace
  peek?

/-- The character that the next value begins with. -/
def valueStart : Read Char := do
  match ← token? with
  | some c => return c
  | none => failNext .endInValue

/-- The rest of a word of which the first letter is read. -/
def word : Text → Read Unit
  | [] => return
  | x :: rest => do
    if (← peek?) = some x then
      advance
      word rest
    else failAfter .expectedWord .endInValue

/-- The colon after a name. -/
def colon : Read Unit := do
  match ← token? with
  | some ':' => advance
  | some _ => failNext .expectedColon
  | none => failNext .endInObject

/-- The end of the text. -/
def finish : Read Unit := do
  match ← token? with
  | some _ => failNext .trailingCharacters
  | none => return

/-- Reads a whole text. -/
def run (r : Read α) (t : Text) : Except Fault α :=
  match (do let a ← r; finish; return a : Read α) ⟨0, t⟩ with
  | .ok (a, _) => .ok a
  | .error f => .error f

end Read

end Letterpress.Json
