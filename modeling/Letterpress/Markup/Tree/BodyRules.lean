/-
# Rules of the body

How tokens are taken in running content. Start tags fall into groups that are
treated alike; a group's rule says which elements end before the new one and
how its content is read.
-/

import Letterpress.Markup.Tree.HeadRules

namespace Letterpress

/-- The groups of start tags in running content. -/
inductive StartGroup
  | root
  /-- Elements that may also stand in the head. -/
  | headContent
  | body
  | frames
  | block
  | heading
  /-- Blocks that drop a line feed right after their tag. -/
  | preformatted
  | form
  | listItem
  | definition
  | plaintext
  | button
  | anchor
  | formatting
  | nobr
  /-- Elements that formatting does not leave. -/
  | bounded
  | table
  /-- Elements without content that stand in a line. -/
  | inlineVoid
  | input
  /-- Elements without content that belong to another. -/
  | belonging
  | rule
  | image
  | textarea
  | listingText
  | frame
  | hiddenText
  | select
  | option
  | rubyBase
  | rubyText
  | math
  | svg
  /-- Tags that mean nothing here. -/
  | misplaced
  | ordinary

/-- The groups of end tags in running content. -/
inductive EndGroup
  | template
  | body
  | root
  | block
  | form
  | paragraph
  | listItem
  | definition
  | heading
  | formatting
  | bounded
  | lineBreak
  | ordinary

namespace Tag

/-- The group of a start tag. -/
def startGroup : Tag → StartGroup
  | .html => .root
  | .base | .basefont | .bgsound | .link | .metaData | .noframes | .script | .style
  | .template | .title => .headContent
  | .body => .body
  | .frameset => .frames
  | .address | .article | .aside | .blockquote | .center | .details | .dialog | .dir | .div
  | .dl | .fieldset | .figcaption | .figure | .footer | .header | .hgroup | .main | .menu
  | .nav | .ol | .p | .search | .sectionBlock | .summary | .ul => .block
  | .h1 | .h2 | .h3 | .h4 | .h5 | .h6 => .heading
  | .pre | .listing => .preformatted
  | .form => .form
  | .li => .listItem
  | .dd | .dt => .definition
  | .plaintext => .plaintext
  | .button => .button
  | .a => .anchor
  | .b | .big | .code | .em | .font | .i | .s | .small | .strike | .strong | .tt
  | .u => .formatting
  | .nobr => .nobr
  | .applet | .marquee | .object => .bounded
  | .table => .table
  | .area | .br | .embed | .img | .keygen | .wbr => .inlineVoid
  | .input => .input
  | .param | .source | .track => .belonging
  | .hr => .rule
  | .image => .image
  | .textarea => .textarea
  | .xmp => .listingText
  | .iframe => .frame
  | .noembed | .noscript => .hiddenText
  | .select => .select
  | .optgroup | .option => .option
  | .rb | .rtc => .rubyBase
  | .rp | .rt => .rubyText
  | .math => .math
  | .svg => .svg
  | .caption | .col | .colgroup | .frame | .head | .tbody | .td | .tfoot | .th | .thead
  | .tr => .misplaced
  | _ => .ordinary

/-- The group of an end tag. -/
def endGroup : Tag → EndGroup
  | .template => .template
  | .body => .body
  | .html => .root
  | .address | .article | .aside | .blockquote | .button | .center | .details | .dialog
  | .dir | .div | .dl | .fieldset | .figcaption | .figure | .footer | .header | .hgroup
  | .listing | .main | .menu | .nav | .ol | .pre | .search | .sectionBlock | .summary
  | .ul => .block
  | .form => .form
  | .p => .paragraph
  | .li => .listItem
  | .dd | .dt => .definition
  | .h1 | .h2 | .h3 | .h4 | .h5 | .h6 => .heading
  | .a | .b | .big | .code | .em | .font | .i | .nobr | .s | .small | .strike | .strong
  | .tt | .u => .formatting
  | .applet | .marquee | .object => .bounded
  | .br => .lineBreak
  | _ => .ordinary

end Tag

namespace Builder

/-- Names of attributes that exist in more than one vocabulary, without the vocabulary. -/
def localName (name : Text) : Text :=
  ((qualified.find? fun entry => entry.1.toList == name).map (·.2.toList)).getD name
where
  qualified : List (String × String) :=
    [("xlink:actuate", "actuate"), ("xlink:arcrole", "arcrole"), ("xlink:href", "href"),
     ("xlink:role", "role"), ("xlink:show", "show"), ("xlink:title", "title"),
     ("xlink:type", "type"), ("xml:lang", "lang"), ("xml:space", "space"),
     ("xmlns:xlink", "xlink")]

/-- Adds the element of a start tag in a foreign vocabulary. -/
def openForeign (b : Builder) (vocabulary : Vocabulary) (t : StartTag) : Builder :=
  let attributes := t.attributes.map fun a => { a with name := localName a.name }
  let opened := b.openIn vocabulary t.tag attributes
  if t.selfClosing then opened.close else opened

/-- A character of running content. -/
def bodyChar (b : Builder) (c : Char) : Builder :=
  let placed := b.reopenFormatting.addChar c
  if isWhite c then placed else placed.forbidFrames

/-- Closes the list item that a new one ends: the innermost, unless a block other than an
address, a division or a paragraph stands in between. -/
def closeItem (b : Builder) (isItem : Tag → Bool) : Builder :=
  match b.stack.find? fun e => e.satisfies isItem || bounds e with
  | some e =>
    if e.satisfies isItem then (b.closeImpliedBut e.tag).closeThrough e.tag else b
  | none => b
where
  bounds (e : OpenElement) : Bool :=
    e.satisfies fun
      | .address | .div | .p => false
      | t => t.isSpecial

/-- Opens a list item. -/
def openItem (b : Builder) (isItem : Tag → Bool) (t : StartTag) : Builder :=
  ((b.forbidFrames.closeItem isItem).closeParagraph).openElement t

/-- Whether an input is not shown. -/
def isHidden (t : StartTag) : Bool :=
  (t.attribute? "type").any fun value => Text.sameName value "hidden"

/-- Takes the body out of the document. -/
def dropBody (b : Builder) (body : OpenElement) : Builder :=
  match b.tree.detach? body.id with
  | some (_, tree) => { b with tree }
  | none => b

/-- A start tag in running content. -/
def bodyStart (b : Builder) (t : StartTag) : Builder × Next :=
  match t.tag.startGroup with
  | .root => (b.extendRoot t).done
  | .headContent => b.inHeadRule (.startTag t)
  | .body =>
    match b.body? with
    | some body =>
      if b.stack.inTemplate then b.done
      else { b.forbidFrames with tree := b.tree.addAttributes body.id t.attributes }.done
    | none => b.done
  | .frames =>
    match b.body? with
    | some body => if b.framesAllowed then (b.dropBody body).setMode .frames |>.done else b.done
    | none => b.done
  | .block => (b.closeParagraph.openElement t).done
  | .heading =>
    let closed := b.closeParagraph
    let ended :=
      if closed.stack.currentIs (·.satisfies Tag.isHeadingLevel) then closed.close else closed
    (ended.openElement t).done
  | .preformatted =>
    { (b.closeParagraph.openElement t).forbidFrames with dropsNewline := true }.done
  | .form =>
    if b.form.isSome && !b.stack.inTemplate then b.done
    else
      let opened := b.closeParagraph.openElement t
      if b.stack.inTemplate then opened.done
      else { opened with form := some opened.current.id }.done
  | .listItem => (b.openItem (· == .li) t).done
  | .definition => (b.openItem (fun tag => tag == .dd || tag == .dt) t).done
  | .plaintext => (b.closeParagraph.openElement t, .read .plaintext)
  | .button =>
    let ended :=
      if b.has .content .button then b.closeImplied.closeThrough .button else b
    (ended.reopenFormatting.openElement t).forbidFrames.done
  | .anchor => (b.endOpenAnchor.reopenFormatting.openFormatting t).done
  | .formatting => (b.reopenFormatting.openFormatting t).done
  | .nobr =>
    let reopened := b.reopenFormatting
    let ended :=
      if reopened.has .content .nobr then (reopened.endFormatting .nobr).reopenFormatting
      else reopened
    (ended.openFormatting t).done
  | .bounded => ((b.reopenFormatting.openElement t).mark.forbidFrames).done
  | .table =>
    let closed := if b.old then b else b.closeParagraph
    ((closed.openElement t).forbidFrames.setMode .inTable).done
  | .inlineVoid => (b.reopenFormatting.addEmpty t).forbidFrames.done
  | .input =>
    let added := b.reopenFormatting.addEmpty t
    if isHidden t then added.done else added.forbidFrames.done
  | .belonging => (b.addEmpty t).done
  | .rule => (b.closeParagraph.addEmpty t).forbidFrames.done
  | .image => (b.reopenFormatting.addEmpty { t with tag := .img }).forbidFrames.done
  | .textarea =>
    { b with dropsNewline := true }.forbidFrames.openText t (.escapable .textarea)
  | .listingText => b.closeParagraph.reopenFormatting.forbidFrames.openText t (.verbatim .xmp)
  | .frame => b.forbidFrames.openText t (.verbatim .iframe)
  | .hiddenText => b.openText t (.verbatim t.tag)
  | .select =>
    let opened := (b.reopenFormatting.openElement t).forbidFrames
    match b.mode with
    | .inTable | .inCaption | .inTableBody | .inRow | .inCell =>
      (opened.setMode .inSelectInTable).done
    | _ => (opened.setMode .inSelect).done
  | .option => ((b.closeIf .option).reopenFormatting.openElement t).done
  | .rubyBase =>
    let ended := if b.has .content .ruby then b.closeImplied else b
    (ended.openElement t).done
  | .rubyText =>
    let ended := if b.has .content .ruby then b.closeImpliedBut .rtc else b
    (ended.openElement t).done
  | .math => (b.openForeign .math t).done
  | .svg => (b.openForeign .svg t).done
  | .misplaced => b.done
  | .ordinary => (b.reopenFormatting.openElement t).done

/-- The end tag of a form, which may close while elements in it stay open. -/
def endForm (b : Builder) : Builder :=
  if b.stack.inTemplate then
    if b.has .content .form then b.closeImplied.closeThrough .form else b
  else
    match b.form with
    | none => b
    | some id =>
      let released := { b with form := none }
      if b.stack.hasInScope .content (fun e => e.id == id) then
        released.closeImplied.onStack (·.without id)
      else released

/-- An end tag in running content. -/
def bodyEnd (b : Builder) (tag : Tag) : Builder × Next :=
  match tag.endGroup with
  | .template => b.endTemplate.done
  | .body => if b.has .content .body then (b.setMode .afterBody).done else b.done
  | .root => if b.has .content .body then b.again .afterBody else b.done
  | .block =>
    if b.has .content tag then (b.closeImplied.closeThrough tag).done else b.done
  | .form => b.endForm.done
  | .paragraph =>
    let opened := if b.has .button .p then b else b.openImplied .p
    ((opened.closeImpliedBut .p).closeThrough .p).done
  | .listItem =>
    if b.has .listItem tag then ((b.closeImpliedBut tag).closeThrough tag).done else b.done
  | .definition =>
    if b.has .content tag then ((b.closeImpliedBut tag).closeThrough tag).done else b.done
  | .heading =>
    let isHeading (e : OpenElement) : Bool := e.satisfies Tag.isHeadingLevel
    if b.stack.hasInScope .content isHeading then
      (b.closeImplied.onStack (·.closeThrough isHeading)).done
    else b.done
  | .formatting => (b.endFormatting tag).done
  | .bounded =>
    if b.has .content tag then (b.closeImplied.closeThrough tag).clearToMarker.done
    else b.done
  | .lineBreak => b.bodyStart ⟨.br, [], false⟩
  | .ordinary => (b.endElement tag).done

/-- The end of the markup inside a template closes it. -/
def templateDone (b : Builder) : Builder × Next :=
  if b.stack.inTemplate then (b.leaveTemplate, .again) else b.done

/-- Running content. -/
def inBodyRule (b : Builder) : Token → Builder × Next
  | .char c => (b.bodyChar c).done
  | .comment content => (b.addComment content).done
  | .startTag t => b.bodyStart t
  | .endTag tag => b.bodyEnd tag
  | .done => if b.templateModes.isEmpty then b.done else b.templateDone
  | _ => b.done

/-- The text of an element whose text is read in one way up to its end. -/
def textRule (b : Builder) : Token → Builder × Next
  | .char c => (b.addChar c).done
  | .done => b.close.again b.returnMode
  | .endTag tag =>
    let ended := b.close.setMode b.returnMode
    if tag = .script then (ended, .scriptEnded) else ended.done
  | _ => b.done

/-- After the body; anything but a comment or the end goes on with it. -/
def afterBodyRule (b : Builder) (token : Token) : Builder × Next :=
  match token with
  | .char c => if isWhite c then b.inBodyRule token else b.again .inBody
  | .comment _ => b.done
  | .startTag t => if t.tag = .html then b.inBodyRule token else b.again .inBody
  | .endTag tag =>
    if tag = .html then (if b.fragment then b.done else (b.setMode .afterDocument).done)
    else b.again .inBody
  | .done => b.done
  | _ => b.again .inBody

/-- After the root. -/
def afterDocumentRule (b : Builder) (token : Token) : Builder × Next :=
  match token with
  | .char c => if isWhite c then b.inBodyRule token else b.again .inBody
  | .comment _ => b.done
  | .startTag t => if t.tag = .html then b.inBodyRule token else b.again .inBody
  | .done => b.done
  | _ => b.again .inBody

end Builder

end Letterpress
