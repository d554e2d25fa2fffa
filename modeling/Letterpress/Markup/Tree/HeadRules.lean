/-
# Rules before the body

How tokens are taken up to the start of the body: the root and the head come
into being even where no tag writes them.
-/

import Letterpress.Markup.Tree.Formatting

namespace Letterpress.Builder

/-- Before the document type. White space is dropped; without a document type the document is
old. -/
def initialRule (b : Builder) : Token → Builder × Next
  | .char c => if isWhite c then b.done else { b with old := true }.again .beforeHtml
  | .comment _ => b.done
  | .doctype d => ({ b with old := d.isOld }.setMode .beforeHtml).done
  | _ => { b with old := true }.again .beforeHtml

/-- Before the root. -/
def beforeHtmlRule (b : Builder) (token : Token) : Builder × Next :=
  let otherwise := (b.openRoot []).again .beforeHead
  match token with
  | .char c => if isWhite c then b.done else otherwise
  | .comment _ => b.done
  | .startTag t =>
    if t.tag = .html then ((b.openRoot t.attributes).setMode .beforeHead).done else otherwise
  | .endTag tag =>
    match tag with
    | .head | .body | .html | .br => otherwise
    | _ => b.done
  | _ => otherwise

/-- A root tag where the root is open already gives it further attributes. -/
def extendRoot (b : Builder) (t : StartTag) : Builder :=
  if b.stack.inTemplate then b
  else { b with tree := b.tree.addAttributes root.id t.attributes }

/-- Remembers the innermost element as the head. -/
def rememberHead (b : Builder) : Builder := { b with head := b.stack.head? }

/-- Before the head. -/
def beforeHeadRule (b : Builder) (token : Token) : Builder × Next :=
  let otherwise := (b.openImplied .head).rememberHead.again .inHead
  match token with
  | .char c => if isWhite c then b.done else otherwise
  | .comment content => (b.addComment content).done
  | .startTag t =>
    match t.tag with
    | .html => (b.extendRoot t).done
    | .head => ((b.openElement t).rememberHead.setMode .inHead).done
    | _ => otherwise
  | .endTag tag =>
    match tag with
    | .head | .body | .html | .br => otherwise
    | _ => b.done
  | _ => otherwise

/-- Opens a template, which has formatting and rules of its own. -/
def openTemplate (b : Builder) (t : StartTag) : Builder :=
  let marked := (b.mark.forbidFrames).setMode .inTemplate
  { marked with templateModes := .inTemplate :: b.templateModes }.openElement t

/-- Leaves the innermost template, which must be open. -/
def leaveTemplate (b : Builder) : Builder :=
  let left := (b.closeThrough .template).clearToMarker
  { left with templateModes := b.templateModes.tail }.resetMode

/-- The end tag of a template. -/
def endTemplate (b : Builder) : Builder :=
  if b.stack.inTemplate then
    (b.onStack (·.dropWhile (·.satisfies Tag.hasEndImpliedByTemplate))).leaveTemplate
  else b

/-- In the head; content that belongs elsewhere ends it. -/
def inHeadRule (b : Builder) (token : Token) : Builder × Next :=
  let otherwise := b.close.again .afterHead
  match token with
  | .char c => if isWhite c then (b.addChar c).done else otherwise
  | .comment content => (b.addComment content).done
  | .startTag t =>
    match t.tag with
    | .html => (b.extendRoot t).done
    | .base | .basefont | .bgsound | .link | .metaData => (b.addEmpty t).done
    | .title => b.openText t (.escapable .title)
    | .noframes | .style | .noscript => b.openText t (.verbatim t.tag)
    | .script => b.openText t (.script .plain)
    | .template => (b.openTemplate t).done
    | .head => b.done
    | _ => otherwise
  | .endTag tag =>
    match tag with
    | .head => (b.close.setMode .afterHead).done
    | .body | .html | .br => otherwise
    | .template => b.endTemplate.done
    | _ => b.done
  | _ => otherwise

/-- Between the head and the body. What belongs into the head still goes there. -/
def afterHeadRule (b : Builder) (token : Token) : Builder × Next :=
  let otherwise := (b.openImplied .body).again .inBody
  match token with
  | .char c => if isWhite c then (b.addChar c).done else otherwise
  | .comment content => (b.addComment content).done
  | .startTag t =>
    match t.tag with
    | .html => (b.extendRoot t).done
    | .body => ((b.openElement t).forbidFrames.setMode .inBody).done
    | .frameset => (b.setMode .frames).done
    | .base | .basefont | .bgsound | .link | .metaData | .noframes | .script | .style
    | .template | .title =>
      let head := b.head.getD root
      let (taken, next) := (b.onStack (head :: ·)).inHeadRule token
      (taken.onStack (·.without head.id), next)
    | .head => b.done
    | _ => otherwise
  | .endTag tag =>
    match tag with
    | .template => b.inHeadRule token
    | .body | .html | .br => otherwise
    | _ => b.done
  | _ => otherwise

end Letterpress.Builder
