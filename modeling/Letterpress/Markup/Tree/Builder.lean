/-
# The state of tree construction

What a reader of markup knows between two tokens, and the elementary steps
from which its rules are composed: adding content at the right place, opening
and closing elements, and choosing the rules for what follows.
-/

import Letterpress.Markup.Lexer
import Letterpress.Markup.Tree.Stack

namespace Letterpress

/-- Which rules apply to the next token. -/
inductive Mode
  | initial
  | beforeHtml
  | beforeHead
  | inHead
  | afterHead
  | inBody
  | text
  | inTable
  | inTableText
  | inCaption
  | inColumnGroup
  | inTableBody
  | inRow
  | inCell
  | inSelect
  | inSelectInTable
  | inTemplate
  | afterBody
  | afterDocument
  /-- The document is a set of frames: it has no body, and nothing gives it one. -/
  | frames
  deriving DecidableEq

/-- An entry in the list of formatting elements. -/
inductive Formatting
  /-- Formatting from before a marker does not reach behind it. -/
  | marker
  | element (id : Nat) (tag : Tag) (attributes : List Attribute)

/-- The state between two tokens. -/
structure Builder where
  /-- What has been built: nothing, or the root element. -/
  tree : Forest
  /-- The number of the next element; the root has number zero. -/
  nextId : Nat
  stack : Stack
  /-- The formatting in force, latest first. -/
  formatting : List Formatting
  mode : Mode
  /-- The rules to return to after text. -/
  returnMode : Mode
  /-- The rules inside each open template, innermost first. -/
  templateModes : List Mode
  /-- The head of the document, once there is one. -/
  head : Option OpenElement
  /-- The form that is open. -/
  form : Option Nat
  framesAllowed : Bool
  /-- Whether content that a table cannot hold goes before the table. -/
  fostering : Bool
  /-- Text in a table whose place is not known yet, latest first. -/
  tableText : Text
  /-- Whether a line feed that comes next is dropped. -/
  dropsNewline : Bool
  /-- Whether the document type is from before the standards. -/
  old : Bool
  /-- Whether the content of a body is read rather than a document. -/
  fragment : Bool

/-- What follows the application of a rule. -/
inductive Next
  /-- The token is used up. -/
  | done
  /-- The token is for the rules of the mode that is now set. -/
  | again
  /-- The token is used up, and what follows is read as `content`. -/
  | read (content : Lexer.Content)
  /-- The token was the end of a script. -/
  | scriptEnded

/-- Where content is added. -/
inductive Place
  /-- At the end of an element. -/
  | inside (id : Nat)
  /-- Before a table, or at the end of an element if the table is not in the tree. -/
  | beforeTable (table instead : Nat)

namespace Builder

/-- The start of a document. -/
def document : Builder where
  tree := .empty
  nextId := 0
  stack := []
  formatting := []
  mode := .initial
  returnMode := .inBody
  templateModes := []
  head := none
  form := none
  framesAllowed := true
  fostering := false
  tableText := []
  dropsNewline := false
  old := false
  fragment := false

/-- White space between elements: what separates the parts of a tag, and carriage returns, which
only references write. -/
def isWhite (c : Char) : Bool := Lexer.isSpace c || c == '\r'

/-- The root element as an open element. -/
def root : OpenElement := ⟨0, .html, .html, false⟩

/-- Opens the root element. -/
def openRoot (b : Builder) (attributes : List Attribute) : Builder :=
  { b with
    tree := .element 0 .html .html attributes .empty .empty
    nextId := 1
    stack := [root] }

/-- The start of the content of a body. -/
def content : Builder := { document.openRoot [] with mode := .inBody, fragment := true }

/-- The innermost open element. -/
def current (b : Builder) : OpenElement := b.stack.head?.getD root

/-- Whether the innermost open element has this tag. -/
def currentIs (b : Builder) (tag : Tag) : Bool := b.stack.currentIs (·.is tag)

/-- Whether an element with this tag is open in the scope. -/
def has (b : Builder) (scope : Scope) (tag : Tag) : Bool := b.stack.hasInScope scope (·.is tag)

/-- The result of a rule that uses the token up. -/
def done (b : Builder) : Builder × Next := (b, .done)

/-- Sets the rules for the next token. -/
def setMode (b : Builder) (mode : Mode) : Builder := { b with mode }

/-- Hands the token to the rules of another mode. -/
def again (b : Builder) (mode : Mode) : Builder × Next := (b.setMode mode, .again)

/-- Applies a change to the stack. -/
def onStack (b : Builder) (change : Stack → Stack) : Builder := { b with stack := change b.stack }

/-- Closes the innermost element. -/
def close (b : Builder) : Builder := b.onStack List.tail

/-- Closes the innermost element if it has this tag. -/
def closeIf (b : Builder) (tag : Tag) : Builder := if b.currentIs tag then b.close else b

/-- Closes elements up to and including the innermost one with this tag. -/
def closeThrough (b : Builder) (tag : Tag) : Builder := b.onStack (·.closeThrough (·.is tag))

/-- Closes elements down to the innermost one that satisfies `p`. -/
def closeTo (b : Builder) (p : OpenElement → Bool) : Builder := b.onStack (·.closeTo p)

/-- Closes what may be left open. -/
def closeImplied (b : Builder) : Builder := b.onStack (·.closeImplied none)

/-- Closes what may be left open, but not elements with this tag. -/
def closeImpliedBut (b : Builder) (tag : Tag) : Builder := b.onStack (·.closeImplied (some tag))

/-- Closes the paragraph that is open, if one is. -/
def closeParagraph (b : Builder) : Builder :=
  if b.has .button .p then (b.closeImpliedBut .p).closeThrough .p else b

/-- No set of frames can follow. -/
def forbidFrames (b : Builder) : Builder := { b with framesAllowed := false }

/-- Where content displaced by a table goes. -/
def fosterPlace : Stack → Place
  | [] => .inside root.id
  | e :: outer =>
    if e.is .template then .inside e.id
    else if e.is .table then .beforeTable e.id (outer.head?.getD root).id
    else fosterPlace outer

/-- Where content for an element goes: into it, except that a table displaces content. -/
def placeFor (b : Builder) (target : OpenElement) : Place :=
  if b.fostering && target.satisfies Tag.isTablePart then fosterPlace b.stack
  else .inside target.id

/-- Changes the siblings that end at a place. -/
def editAt (b : Builder) (place : Place) (edit : Forest → Forest) : Builder :=
  match place with
  | .inside id => { b with tree := (b.tree.editInside? id edit).getD b.tree }
  | .beforeTable table instead =>
    match b.tree.editBefore? table edit with
    | some tree => { b with tree }
    | none => { b with tree := (b.tree.editInside? instead edit).getD b.tree }

/-- Adds to the innermost element. -/
def add (b : Builder) (edit : Forest → Forest) : Builder := b.editAt (b.placeFor b.current) edit

/-- Adds a character. -/
def addChar (b : Builder) (c : Char) : Builder := b.add (·.pushChar c)

/-- Adds a comment. -/
def addComment (b : Builder) (content : Text) : Builder := b.add (.comment content ·)

/-- Whether the attributes of an annotation say that it is written in markup. -/
def annotatesMarkup (vocabulary : Vocabulary) (tag : Tag) (attributes : List Attribute) : Bool :=
  vocabulary == .math && tag == .annotationXml &&
    attributes.any fun a =>
      a.name == ("encoding" : Text) &&
        (Text.sameName a.value "text/html" || Text.sameName a.value "application/xhtml+xml")

/-- Adds an element and opens it. -/
def openIn (b : Builder) (vocabulary : Vocabulary) (tag : Tag) (attributes : List Attribute) :
    Builder :=
  let b' := b.add (.element b.nextId vocabulary tag attributes .empty ·)
  { b' with
    nextId := b.nextId + 1
    stack := ⟨b.nextId, vocabulary, tag, annotatesMarkup vocabulary tag attributes⟩ :: b.stack }

/-- Adds the element of a start tag and opens it. -/
def openElement (b : Builder) (t : StartTag) : Builder := b.openIn .html t.tag t.attributes

/-- Adds an element that no tag wrote, and opens it. -/
def openImplied (b : Builder) (tag : Tag) : Builder := b.openIn .html tag []

/-- Adds the element of a start tag, which has no content. -/
def addEmpty (b : Builder) (t : StartTag) : Builder := (b.openElement t).close

/-- Opens an element and reads its text as `content`. -/
def openText (b : Builder) (t : StartTag) (content : Lexer.Content) : Builder × Next :=
  ({ b.openElement t with returnMode := b.mode, mode := .text }, .read content)

/-- Puts a marker into the formatting. -/
def mark (b : Builder) : Builder := { b with formatting := .marker :: b.formatting }

/-- Drops the formatting down to the latest marker, which goes too. -/
def clearToMarker (b : Builder) : Builder :=
  { b with
    formatting :=
      (b.formatting.dropWhile fun
        | .marker => false
        | .element .. => true).tail }

/-- The second outermost open element if it is the body. -/
def body? (b : Builder) : Option OpenElement :=
  match b.stack.reverse with
  | _ :: e :: _ => if e.is .body then some e else none
  | _ => none

/-- The rules that the open elements call for. -/
def modeOfStack (b : Builder) : Mode := go b.stack
where
  go : Stack → Mode
    | [] => .inBody
    | e :: outer =>
      let last := outer.isEmpty
      if e.vocabulary != .html then go outer
      else
        match e.tag with
        | .select => selectMode outer
        | .td | .th => if last then go outer else .inCell
        | .tr => .inRow
        | .tbody | .thead | .tfoot => .inTableBody
        | .caption => .inCaption
        | .colgroup => .inColumnGroup
        | .table => .inTable
        | .template => b.templateModes.headD .inBody
        | .head => if last then go outer else .inHead
        | .body => .inBody
        | .html =>
          if last && b.fragment then .inBody
          else if b.head.isNone then .beforeHead
          else .afterHead
        | _ => go outer
  selectMode : Stack → Mode
    | [] => .inSelect
    | e :: outer =>
      if e.is .template then .inSelect
      else if e.is .table then .inSelectInTable
      else selectMode outer

/-- Returns to the rules that the open elements call for. -/
def resetMode (b : Builder) : Builder := b.setMode b.modeOfStack

end Builder

end Letterpress
