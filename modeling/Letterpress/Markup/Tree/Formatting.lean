/-
# Formatting

Formatting elements may end in another order than they began. The list of
formatting in force remembers them with their attributes: text that follows a
block reopens the formatting that the block's end closed, and an end tag that
crosses a block splits the formatting around it.
-/

import Letterpress.Markup.Tree.Builder

namespace Letterpress

namespace Formatting

/-- An entry for this element. -/
def isElement (id : Nat) : Formatting → Bool
  | .marker => false
  | .element i _ _ => i == id

/-- An entry for an element with this tag. -/
def hasTag (tag : Tag) : Formatting → Bool
  | .marker => false
  | .element _ t _ => t == tag

/-- The same attributes in any order; the names in each list are distinct. -/
def sameAttributes (as bs : List Attribute) : Bool :=
  as.length == bs.length && as.all (bs.contains ·)

/-- An entry written by an equal start tag. -/
def isWrittenBy (t : StartTag) : Formatting → Bool
  | .marker => false
  | .element _ tag attributes => tag == t.tag && sameAttributes attributes t.attributes

/-- The entries after the latest marker. -/
def sinceMarker (fs : List Formatting) : List Formatting :=
  fs.takeWhile fun
    | .marker => false
    | .element .. => true

/-- Makes room for one more entry of a start tag: of three equal ones the earliest goes. -/
def makeRoom (t : StartTag) (fs : List Formatting) : List Formatting :=
  let recent := sinceMarker fs
  if 3 ≤ recent.countP (isWrittenBy t) then
    (recent.reverse.eraseP (isWrittenBy t)).reverse ++ fs.drop recent.length
  else fs

/-- Puts an entry in the place of that of an element. -/
def replace (id : Nat) (entry : Formatting) (fs : List Formatting) : List Formatting :=
  fs.map fun f => if f.isElement id then entry else f

/-- Puts an entry right after that of an element, in the order in which they began. -/
def insertAfter (id : Nat) (entry : Formatting) : List Formatting → List Formatting
  | [] => []
  | f :: fs => if f.isElement id then entry :: f :: fs else f :: insertAfter id entry fs

/-- Drops the entry of an element. -/
def drop (id : Nat) (fs : List Formatting) : List Formatting := fs.eraseP (·.isElement id)

end Formatting

namespace Builder

/-- Whether an entry needs no reopening. -/
def isInForce (b : Builder) : Formatting → Bool
  | .marker => true
  | .element id _ _ => b.stack.any fun e => e.id == id

/-- Reopens the element of an entry. -/
def reopen (b : Builder) : Formatting → Builder
  | .marker => b
  | .element id tag attributes =>
    let entry := .element b.nextId tag attributes
    let opened := b.openIn .html tag attributes
    { opened with formatting := Formatting.replace id entry opened.formatting }

/-- Reopens the formatting that was closed since the latest entry in force. -/
def reopenFormatting (b : Builder) : Builder :=
  (b.formatting.takeWhile fun f => !b.isInForce f).reverse.foldl reopen b

/-- Opens a formatting element. -/
def openFormatting (b : Builder) (t : StartTag) : Builder :=
  let entry := .element b.nextId t.tag t.attributes
  let opened := b.openElement t
  { opened with formatting := entry :: Formatting.makeRoom t b.formatting }

/-- Ends an element by the general rule: the innermost element of that tag closes, unless an
element with rules of its own stands in between. -/
def endElement (b : Builder) (tag : Tag) : Builder :=
  match go b.stack with
  | none => b
  | some rest => { b with stack := rest }
where
  go : Stack → Option Stack
    | [] => none
    | e :: outer =>
      if e.is tag then some outer
      else if e.satisfies Tag.isSpecial then none
      else go outer

/-- What splitting formatting around a block has done so far: the elements kept between the
formatting element and the block, outermost first, and the block with copies of them around
it. -/
structure Splitting where
  formatting : List Formatting
  nextId : Nat
  kept : Stack
  part : Forest
  /-- The innermost copy. -/
  bookmark : Option Nat

/-- Takes the next element outwards from the block: of the three next to the block, those in
force are copied around it, all others close. -/
def Splitting.step (s : Splitting) (count : Nat) (e : OpenElement) : Splitting :=
  match s.formatting.find? (·.isElement e.id) with
  | some (.element _ tag attributes) =>
    if 3 < count then { s with formatting := Formatting.drop e.id s.formatting }
    else
      { formatting :=
          Formatting.replace e.id (.element s.nextId tag attributes) s.formatting
        nextId := s.nextId + 1
        kept := ⟨s.nextId, .html, tag, false⟩ :: s.kept
        part := .element s.nextId .html tag attributes s.part .empty
        bookmark := s.bookmark.or (some s.nextId) }
  | _ => s

/-- Takes the elements between the block and the formatting element, innermost first. -/
def Splitting.run (s : Splitting) (count : Nat) : Stack → Splitting
  | [] => s
  | e :: outer => (s.step (count + 1) e).run (count + 1) outer

/-- Moves a detached part to the place for content of an element. -/
def attach (b : Builder) (target : OpenElement) (part : Forest) : Builder :=
  b.editAt (b.placeFor target) part.onto

/-- Splits the formatting element `id` around a block inside it. `inner` are the open elements
inside the block, `between` those between the two, and `outer` those around. -/
def splitAround (b : Builder) (id : Nat) (tag : Tag) (attributes : List Attribute)
    (inner : Stack) (block : OpenElement) (between outer : Stack) : Builder :=
  match b.tree.detach? block.id with
  | none => b
  | some (part, tree) =>
    let s : Splitting :=
      Splitting.run ⟨b.formatting, b.nextId, [], part, none⟩ 0 between
    let moved := { b with tree }.attach (outer.head?.getD root) s.part
    let copy := s.nextId
    let entry := .element copy tag attributes
    let wrap (children : Forest) : Forest :=
      .element copy .html tag attributes children .empty
    { moved with
      tree := (moved.tree.editInside? block.id wrap).getD moved.tree
      nextId := copy + 1
      formatting :=
        match s.bookmark with
        | none => Formatting.replace id entry s.formatting
        | some innermost =>
          Formatting.drop id (Formatting.insertAfter innermost entry s.formatting)
      stack := inner ++ ⟨copy, .html, tag, false⟩ :: block :: (s.kept.reverse ++ outer) }

/-- One round of ending formatting: the state after it, and whether another round follows. -/
def endFormattingOnce (b : Builder) (tag : Tag) : Builder × Bool :=
  match (Formatting.sinceMarker b.formatting).find? (·.hasTag tag) with
  | some (.element id tag attributes) =>
    let isIt (e : OpenElement) : Bool := e.id == id
    if !b.stack.any isIt then
      ({ b with formatting := Formatting.drop id b.formatting }, false)
    else if !b.stack.hasInScope .content isIt then (b, false)
    else
      let inside := b.stack.takeWhile fun e => !isIt e
      let outer := b.stack.closeThrough isIt
      match inside.reverse.dropWhile (fun e => !e.satisfies Tag.isSpecial) with
      | [] =>
        ({ b with stack := outer, formatting := Formatting.drop id b.formatting }, false)
      | block :: inner =>
        let between := inside.drop (inner.length + 1)
        (b.splitAround id tag attributes inner.reverse block between outer, true)
  | _ => (b.endElement tag, false)

/-- At most `rounds` rounds of ending formatting. -/
def endFormattingRounds : Nat → Builder → Tag → Builder
  | 0, b, _ => b
  | rounds + 1, b, tag =>
    match b.endFormattingOnce tag with
    | (b, false) => b
    | (b, true) => endFormattingRounds rounds b tag

/-- Ends the latest formatting element with a tag, splitting it around the blocks in it. -/
def endFormatting (b : Builder) (tag : Tag) : Builder :=
  let id := b.current.id
  if b.currentIs tag && !b.formatting.any (·.isElement id) then b.close
  else endFormattingRounds 8 b tag

/-- Ends an anchor that is still in force, for anchors do not nest. -/
def endOpenAnchor (b : Builder) : Builder :=
  match (Formatting.sinceMarker b.formatting).find? (·.hasTag .a) with
  | some (.element id _ _) =>
    let ended := b.endFormatting .a
    { ended with
      formatting := Formatting.drop id ended.formatting
      stack := ended.stack.without id }
  | _ => b

end Builder

end Letterpress
