/-
# Trees that fit

An element fits its place if its start tag, read there, opens the element and ends
nothing. What the tag does depends on the rules that apply (`Mode`) and on the open
elements (the path); `Mode.interior?` answers what may then stand between the tags.
The rules ask the path the same questions as the reader asks its open elements, so
nothing is said here about which element may be the child of which.

Text fits where the reader keeps it in place, and the text of a script or a style sheet
fits if what is written between the tags is read as that text. A tree fits
(`Element.fits`) if everything in it does.

The path is a stack of open elements without their numbers.
-/

import Letterpress.Proofs.Markup.TableSpine

namespace Letterpress

/-! ## What the open elements decide -/

/-- Elements at whose start a marker goes into the formatting. -/
def Tag.setsMarker : Tag → Bool
  | .applet | .caption | .marquee | .object | .td | .template | .th => true
  | _ => false

namespace Stack

/-- Whether the start of a block ends a paragraph. -/
def inParagraph (path : Stack) : Bool := path.hasInScope .button (·.is .p)

/-- Whether the start of an item ends another. -/
def endsItem (isItem : Tag → Bool) (path : Stack) : Bool :=
  (path.find? fun e => e.satisfies isItem || Builder.closeItem.bounds e).any (·.satisfies isItem)

/-- Whether the start of an anchor ends another. -/
def inAnchor (path : Stack) : Bool :=
  (path.takeWhile fun e => !e.satisfies Tag.setsMarker).any (·.is .a)

/-- Whether the start of a form is ignored. -/
def inForm (path : Stack) : Bool := path.any (·.is .form) && !path.inTemplate

/-- Whether the start of a part of a ruby ends another. -/
def endsRuby (keep : Option Tag) (path : Stack) : Bool :=
  path.hasInScope .content (·.is .ruby) &&
    path.currentIs (·.satisfies fun t => t.hasImpliedEnd && some t != keep)

/-- Whether the start of a group of options, or a rule between options, ends an option or a
group. -/
def endsOptions (path : Stack) : Bool := path.currentIs fun e => e.is .option || e.is .optgroup

/-- Whether an end tag closes an element outside plain markup. -/
def endsForeign (tag : Tag) (path : Stack) : Bool :=
  (path.takeWhile fun e => e.vocabulary != .html).any (·.tag == tag)

/-- Whether the innermost element is a part of a table that holds no content itself. -/
def atTablePart (path : Stack) : Bool := path.currentIs (·.satisfies Tag.isTablePart)

end Stack

/-- A builder inside these elements. -/
def Builder.inside (path : Stack) : Builder := { Builder.content with stack := path }

namespace Stack

/-- Whether a start tag opens an element of the vocabulary around it, which is not that of plain
markup. -/
def isForeignTo (path : Stack) (t : StartTag) : Bool := (Builder.inside path).isForeign (.startTag t)

/-- The vocabulary of the element that a start tag opens. -/
def vocabularyOf (path : Stack) (t : StartTag) : Vocabulary :=
  if path.isForeignTo t then (Builder.inside path).current.vocabulary
  else
    match t.tag with
    | .math => .math
    | .svg => .svg
    | _ => .html

/-- The path inside the element that a start tag opens. -/
def enter (path : Stack) (t : StartTag) : Stack :=
  let vocabulary := path.vocabularyOf t
  ⟨0, vocabulary, t.tag, Builder.annotatesMarkup vocabulary t.tag t.attributes⟩ :: path

end Stack

/-! ## What start tags open -/

/-- What stands between the tags of an element. -/
inductive Interior
  /-- The reader gives the element no content. -/
  | nothing
  /-- Text up to the end tag. -/
  | text (content : Lexer.Content)
  /-- Nodes that are read by the rules of a mode. -/
  | nodes (mode : Mode)
  deriving DecidableEq

/-- The interior, unless the start tag ends something else or is ignored. -/
def Interior.unless (i : Interior) (ends : Bool) : Option Interior := if ends then none else some i

/-- What may stand in an element that belongs into the head. -/
def Tag.headInterior? : Tag → Option Interior
  | .base | .basefont | .bgsound | .link | .metaData => some .nothing
  | .title => some (.text (.escapable .title))
  | .noframes => some (.text (.verbatim .noframes))
  | .style => some (.text (.verbatim .style))
  | .script => some (.text (.script .plain))
  | .template => some (.nodes .inTemplate)
  | _ => none

namespace Mode

/-- What may stand in an element of running content. -/
def bodyInterior? (mode : Mode) (path : Stack) (tag : Tag) : Option Interior :=
  let nodes := Interior.nodes mode
  match tag.startGroup with
  | .headContent => tag.headInterior?
  | .block | .preformatted => nodes.unless path.inParagraph
  | .heading =>
    nodes.unless (path.inParagraph || path.currentIs (·.satisfies Tag.isHeadingLevel))
  | .form => nodes.unless (path.inParagraph || path.inForm)
  | .listItem => nodes.unless (path.endsItem (· == .li) || path.inParagraph)
  | .definition =>
    nodes.unless (path.endsItem (fun tag => tag == .dd || tag == .dt) || path.inParagraph)
  | .button => nodes.unless (path.hasInScope .content (·.is .button))
  | .anchor => nodes.unless path.inAnchor
  | .nobr => nodes.unless (path.hasInScope .content (·.is .nobr))
  | .formatting | .bounded | .math | .svg | .ordinary => some nodes
  | .option => nodes.unless (path.currentIs (·.is .option))
  | .rubyBase => nodes.unless (path.endsRuby none)
  | .rubyText => nodes.unless (path.endsRuby (some .rtc))
  | .table => (Interior.nodes .inTable).unless path.inParagraph
  | .select => some (.nodes .inSelect)
  | .inlineVoid | .input | .belonging => some .nothing
  | .rule => Interior.nothing.unless path.inParagraph
  | .textarea => some (.text (.escapable .textarea))
  | .listingText => (Interior.text (.verbatim .xmp)).unless path.inParagraph
  | .frame => some (.text (.verbatim .iframe))
  | .hiddenText => some (.text (.verbatim tag))
  | _ => none

/-- What may stand in an element between the parts of a table. Where the innermost element is
no part of a table, as it may be in a template, running content goes on. -/
def tableInterior? (mode : Mode) (path : Stack) (t : StartTag) : Option Interior :=
  match t.tag with
  | .style | .script | .template => t.tag.headInterior?
  | .form => Interior.nothing.unless (path.any (·.is .form) || path.inTemplate)
  | .table => none
  | .input => Interior.nothing.unless (path.atTablePart && !Builder.isHidden t)
  | tag => if path.atTablePart then none else mode.bodyInterior? path tag

/-- What may stand in an element of a selection. -/
def selectInterior? (path : Stack) : Tag → Option Interior
  | .option => (Interior.nodes .inSelect).unless (path.currentIs (·.is .option))
  | .optgroup => (Interior.nodes .inSelect).unless path.endsOptions
  | .hr => Interior.nothing.unless path.endsOptions
  | .script => Tag.headInterior? .script
  | .template => Tag.headInterior? .template
  | _ => none

/-- What may stand in an element of plain markup. -/
def htmlInterior? (mode : Mode) (path : Stack) (t : StartTag) : Option Interior :=
  match mode with
  | .inBody | .inCell | .inCaption => mode.bodyInterior? path t.tag
  | .inTable =>
    match t.tag with
    | .caption => (Interior.nodes .inCaption).unless (!path.currentIs Builder.boundsTable)
    | .colgroup => (Interior.nodes .inColumnGroup).unless (!path.currentIs Builder.boundsTable)
    | .tbody | .tfoot | .thead =>
      (Interior.nodes .inTableBody).unless (!path.currentIs Builder.boundsTable)
    | _ => mode.tableInterior? path t
  | .inTableBody =>
    if t.tag = .tr then (Interior.nodes .inRow).unless (!path.currentIs Builder.holdsRows)
    else mode.tableInterior? path t
  | .inRow =>
    if t.tag.isCell then (Interior.nodes .inCell).unless (!path.currentIs Builder.holdsCells)
    else mode.tableInterior? path t
  | .inColumnGroup =>
    match t.tag with
    | .col => some .nothing
    | .template => Tag.headInterior? .template
    | _ => none
  | .inSelect => selectInterior? path t.tag
  | .inTemplate => t.tag.headInterior?
  | _ => none

/-- What may stand in an element, if its start tag opens it and ends nothing. -/
def interior? (mode : Mode) (path : Stack) (t : StartTag) : Option Interior :=
  if path.isForeignTo t then
    (Interior.nodes mode).unless (Builder.breaksForeign t || t.tag.isVoid)
  else mode.htmlInterior? path t

/-- The rules of a template from an element on: the first that belongs nowhere else decides. -/
def followedFrom (mode : Mode) (tag : Tag) : Mode :=
  if mode = .inTemplate then
    match tag with
    | .base | .basefont | .bgsound | .link | .metaData | .noframes | .script | .style
    | .template | .title => .inTemplate
    | .caption | .colgroup | .tbody | .tfoot | .thead => .inTable
    | .col => .inColumnGroup
    | .tr => .inTableBody
    | .td | .th => .inRow
    | _ => .inBody
  else mode

/-- Whether text stays where it stands. -/
def keepsText (mode : Mode) (path : Stack) (t : Text) : Bool :=
  match mode with
  | .inTable | .inTableBody | .inRow => !path.atTablePart || t.all Builder.isWhite
  | .inColumnGroup => t.all Builder.isWhite
  | _ => true

end Mode

/-! ## Text that is read as it stands -/

/-- Whether text that is written as it is between two tags is read as the text. -/
def Lexer.readsPlain (t : Text) : Bool :=
  match pass (.text .data) t with
  | some (.text .data, tokens) => tokens == chars t
  | _ => false

/-- Whether references are read in the text, so that any text can be written. -/
def Lexer.Content.isEscapable : Content → Bool
  | .escapable _ => true
  | _ => false

/-- Whether what is written between the tags of an element is read as the text, and then as the
end tag. -/
def Lexer.readsBack (content : Content) (tag : Tag) (written shown : Text) : Bool :=
  match pass (.text content) (written ++ ("</" ++ tag.name)) with
  | none => false
  | some (s, tokens) =>
    tokens == chars shown &&
      match step false s '>' with
      | (.text .data, ended) => ended == [.endTag tag]
      | _ => false

/-! ## Trees -/

namespace Node

mutual

/-- The text of a node without its tags and comments. -/
def textContent : Node → Text
  | .element _ _ children => textContentOfAll children
  | .text t => t
  | .comment _ => []

/-- The text of neighbouring nodes. -/
def textContentOfAll : List Node → Text
  | [] => []
  | n :: rest => n.textContent ++ textContentOfAll rest

end

/-- The start tag of an element as it is read where the element is written. -/
def startTag (tag : Tag) (attributes : Attributes) : StartTag :=
  ⟨tag, attributes.toList.map Attribute.read, false⟩

/-- The rules for a node and those after it. -/
def modeFrom (mode : Mode) (path : Stack) : Node → Mode
  | .element tag attributes _ =>
    if path.isForeignTo (startTag tag attributes) then mode else mode.followedFrom tag
  | _ => mode

/-- Whether the node is a script of plain markup, behind which a byte order mark is dropped. -/
def isScript (path : Stack) : Node → Bool
  | .element tag attributes _ => tag == .script && !path.isForeignTo (startTag tag attributes)
  | _ => false

/-- Whether a line feed is dropped behind the start tag. -/
def dropsNewline (path : Stack) (t : StartTag) : Bool :=
  !path.isForeignTo t && (t.tag == .pre || t.tag == .listing || t.tag == .textarea)

mutual

/-- Whether the node is read where it is written, with the children of elements where they are;
`raw` says whether its text is written as it is. -/
def fits (mode : Mode) (path : Stack) (raw : Bool) : Node → Bool
  | .element tag attributes children =>
    let t := startTag tag attributes
    let written := markupOfAll tag.isRawText children
    (match mode.interior? path t with
      | none => false
      | some .nothing => children.isEmpty && (tag.isVoid || !path.endsForeign tag)
      | some (.text content) =>
        children.all isText && (content.isEscapable ||
          Lexer.readsBack content tag written (textContentOfAll children))
      | some (.nodes inside) => allFit inside (path.enter t) tag.isRawText children) &&
      !(dropsNewline path t && written.head? == some '\n')
  | .text t =>
    mode.keepsText path t && (!raw || Lexer.readsPlain t)
  | .comment _ => true

/-- Whether neighbouring nodes are read where they are written. -/
def allFit (mode : Mode) (path : Stack) (raw : Bool) : List Node → Bool
  | [] => true
  | n :: rest =>
    n.fits (n.modeFrom mode path) path raw &&
      !(n.isScript path && (markupOfAll raw rest).head? == some '\uFEFF') &&
      allFit (n.modeFrom mode path) path raw rest

end

end Node

namespace Element

/-- The text of the element without tags and comments. -/
def textContent (e : Element) : Text := Node.textContentOfAll e.children

/-- Whether the tree is read again as it is written: everything in it fits, and the markup has no
carriage return and does not begin with a byte order mark, which readers of text change. -/
def fits (e : Element) : Bool :=
  Node.allFit .inBody [Builder.root] false e.children && !e.innerMarkup.contains '\r' &&
    e.innerMarkup.head? != some '\uFEFF'

end Element

end Letterpress
