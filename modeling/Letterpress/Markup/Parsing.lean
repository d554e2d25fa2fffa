/-
# Reading markup

From a text to the content tree. Reading never fails: whatever the text, the
rules of tree construction make a tree of it. A reader holds the state of the
lexer and the tree built so far, and takes one character after another.
-/

import Letterpress.Markup.Tree.Rules

namespace Letterpress

/-- Line ends written with a carriage return become line feeds. -/
def normalizeNewlines : Text → Text
  | '\r' :: '\n' :: t => '\n' :: normalizeNewlines t
  | '\r' :: t => '\n' :: normalizeNewlines t
  | c :: t => c :: normalizeNewlines t
  | [] => []

/-- The state between two characters. -/
structure Reader where
  lexer : Lexer.State
  builder : Builder
  /-- Whether a byte order mark that comes next is dropped. -/
  atStart : Bool

namespace Reader

/-- The state before the first character. -/
def start (b : Builder) : Reader := ⟨.text .data, b, true⟩

/-- Takes one token. -/
def take (r : Reader) (token : Token) : Reader :=
  match r.builder.take token with
  | (b, .read content) => { r with builder := b, lexer := .text content }
  | (b, .scriptEnded) => { r with builder := b, atStart := true }
  | (b, _) => { r with builder := b }

/-- Takes one character. -/
def feed (r : Reader) (c : Char) : Reader :=
  if r.atStart && c = '\uFEFF' then { r with atStart := false }
  else
    let foreign := r.builder.current.vocabulary != .html
    let (lexer, tokens) := Lexer.step foreign r.lexer c
    tokens.foldl take ⟨lexer, r.builder, false⟩

/-- Takes the characters of a text. -/
def feedAll (r : Reader) (t : Text) : Reader := t.foldl feed r

/-- The tree at the end of the markup. -/
def finish (r : Reader) : Forest :=
  ((Lexer.finish r.lexer ++ [Token.done]).foldl take r).builder.tree

/-- Reads a whole text. -/
def read (b : Builder) (t : Text) : Forest := ((start b).feedAll (normalizeNewlines t)).finish

end Reader

/-- The tree of a text that is the content of a body. -/
def parseFragment (t : Text) : Element :=
  match (Reader.read .content t).childNamed? .html with
  | some (_, children) => ⟨.body, .empty, children.nodes⟩
  | none => .ofTag .body

/-- The body of a document, unless the document has none. -/
def parseBody? (t : Text) : Option Element :=
  ((Reader.read .document t).childNamed? .html).bind fun (_, children) =>
    (children.childNamed? .body).map fun (attributes, children) =>
      ⟨.body, .ofList attributes, children.nodes⟩

/-- The body of a document, empty if the document has none. -/
def parseBody (t : Text) : Element := (parseBody? t).getD (.ofTag .body)

end Letterpress
