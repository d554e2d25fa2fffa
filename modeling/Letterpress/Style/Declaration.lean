/-
# Style texts

A style attribute is an ordered list of declarations. It is cut at semicolons
that stand outside quotes and parentheses; a property that occurs twice has the
value of its last declaration. Styles are combined by joining texts, so an
author's text is kept as it was written.
-/

import Letterpress.Text.Blank

namespace Letterpress

/-- A property and its value. -/
structure Declaration where
  property : Text
  value : Text
  deriving DecidableEq

namespace Declaration

/-- The declaration as styles write it. -/
def written (d : Declaration) : Text := d.property ++ ": " ++ d.value

/-- Declarations as a style text without a closing semicolon. -/
def joined (ds : List Declaration) : Text := Text.joinWith "; " (ds.map written)

end Declaration

namespace Style

/-- Where a scan of a style text stands: inside which quotes, if any, and how deep in
parentheses. -/
structure Scan where
  quote : Option Char
  depth : Nat
  deriving DecidableEq

namespace Scan

/-- Outside quotes and parentheses. -/
def top : Scan := ⟨none, 0⟩

/-- The scan after one character. A closing parenthesis without an opening one means
nothing. -/
def step (s : Scan) (c : Char) : Scan :=
  match s.quote with
  | some q => if c = q then { s with quote := none } else s
  | none =>
    if c = '"' || c = '\'' then { s with quote := some c }
    else if c = '(' then { s with depth := s.depth + 1 }
    else if c = ')' then { s with depth := s.depth - 1 }
    else s

/-- The scan after a text. -/
def run (s : Scan) (t : Text) : Scan := t.foldl step s

/-- Whether a character separates declarations. -/
def cuts (s : Scan) (c : Char) : Bool := s.quote.isNone && s.depth == 0 && c == ';'

end Scan

/-- Whether a style text closes its quotes and parentheses. -/
def closes (t : Text) : Bool := Scan.top.run t == Scan.top

/-- Puts a character in front of the first piece. -/
def consFirst (c : Char) : List Text → List Text
  | [] => [[c]]
  | p :: ps => (c :: p) :: ps

/-- The pieces between separators; the first goes on with a piece that the scan is inside
of. -/
def pieces (s : Scan) : Text → List Text
  | [] => [[]]
  | c :: t =>
    if s.cuts c then [] :: pieces s t else consFirst c (pieces (s.step c) t)

/-- The pieces of a style text that are not blank. -/
def split (t : Text) : List Text := (pieces .top t).filter fun p => !Text.isBlankText p

/-- The declaration that a piece holds, if it has a colon and a property before it. -/
def declaration? (piece : Text) : Option Declaration :=
  (Text.splitAtFirst ':' piece).bind fun (property, value) =>
    let name := Text.trim property
    if name.isEmpty then none else some ⟨Text.lower name, Text.trim value⟩

/-- The declarations of a style text. -/
def declarations (t : Text) : List Declaration := (split t).filterMap declaration?

/-- The value in force for a property. -/
def value? (t : Text) (property : Text) : Option Text :=
  ((declarations t).reverse.find? fun d => Text.sameName d.property property).map (·.value)

/-- Declarations before an author's style, which overrides them. Without declarations there is
nothing to write. -/
def prepend (ds : List Declaration) (author : Option Text) : Option Text :=
  if ds.isEmpty then none
  else
    match author with
    | some style =>
      if Text.isBlankText style then some (Declaration.joined ds)
      else some (Declaration.joined ds ++ "; " ++ style)
    | none => some (Declaration.joined ds)

/-- An author's style without the semicolons and white space that end it. -/
def bare (style : Text) : Text :=
  Text.trimEnd (Text.dropEndWhile (· == ';') (Text.trim style))

/-- Declarations after an author's style. Without declarations there is nothing to write. -/
def append (author : Option Text) (ds : List Declaration) : Option Text :=
  if ds.isEmpty then none
  else
    match author with
    | some style =>
      if Text.isBlankText style then some (Declaration.joined ds)
      else some (bare style ++ "; " ++ Declaration.joined ds)
    | none => some (Declaration.joined ds)

end Style

end Letterpress
