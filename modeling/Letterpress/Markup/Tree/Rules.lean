/-
# Taking tokens

The rules of selections, templates and foreign content, and the choice among
all rules. A rule may hand its token on to the rules of another mode; each time
it closes an element or moves inwards, so the number of open elements bounds
how often that happens.
-/

import Letterpress.Markup.Tree.TableRules

namespace Letterpress.Builder

/-- In a selection, which holds options, groups of options and text. -/
def inSelectRule (b : Builder) (token : Token) : Builder × Next :=
  let leaveFor (next : Builder → Builder × Next) : Builder × Next :=
    if b.has .select .select then next (b.closeThrough .select).resetMode else b.done
  match token with
  | .char c => (b.addChar c).done
  | .comment content => (b.addComment content).done
  | .startTag t =>
    match t.tag with
    | .html => b.inBodyRule token
    | .option => ((b.closeIf .option).openElement t).done
    | .optgroup => (((b.closeIf .option).closeIf .optgroup).openElement t).done
    | .hr => (((b.closeIf .option).closeIf .optgroup).addEmpty t).done
    | .select => leaveFor done
    | .input | .keygen | .textarea => leaveFor fun left => (left, .again)
    | .script | .template => b.inHeadRule token
    | _ => b.done
  | .endTag tag =>
    match tag with
    | .optgroup =>
      let ended :=
        if b.currentIs .option && Stack.currentIs (·.is .optgroup) b.stack.tail then b.close else b
      (ended.closeIf .optgroup).done
    | .option => (b.closeIf .option).done
    | .select => leaveFor done
    | .template => b.inHeadRule token
    | _ => b.done
  | .done => b.inBodyRule token
  | _ => b.done

/-- In a selection in a table: parts of the table end the selection. -/
def inSelectInTableRule (b : Builder) (token : Token) : Builder × Next :=
  let leave : Builder × Next := ((b.closeThrough .select).resetMode, .again)
  match token with
  | .startTag t =>
    match t.tag with
    | .caption | .table | .tbody | .tfoot | .thead | .tr | .td | .th => leave
    | _ => b.inSelectRule token
  | .endTag tag =>
    match tag with
    | .caption | .table | .tbody | .tfoot | .thead | .tr | .td | .th =>
      if b.has .table tag then leave else b.done
    | _ => b.inSelectRule token
  | _ => b.inSelectRule token

/-- In a template: its first element decides which rules it follows. -/
def inTemplateRule (b : Builder) (token : Token) : Builder × Next :=
  let follow (mode : Mode) : Builder × Next :=
    { b with templateModes := mode :: b.templateModes.tail }.again mode
  match token with
  | .char _ => b.inBodyRule token
  | .comment _ => b.inBodyRule token
  | .startTag t =>
    match t.tag with
    | .base | .basefont | .bgsound | .link | .metaData | .noframes | .script | .style
    | .template | .title => b.inHeadRule token
    | .caption | .colgroup | .tbody | .tfoot | .thead => follow .inTable
    | .col => follow .inColumnGroup
    | .tr => follow .inTableBody
    | .td | .th => follow .inRow
    | _ => follow .inBody
  | .endTag tag => if tag = .template then b.inHeadRule token else b.done
  | .done => b.templateDone
  | _ => b.done

/-- Takes a token by the rules of the mode that is set. -/
def modeRule (b : Builder) (token : Token) : Builder × Next :=
  match b.mode with
  | .initial => b.initialRule token
  | .beforeHtml => b.beforeHtmlRule token
  | .beforeHead => b.beforeHeadRule token
  | .inHead => b.inHeadRule token
  | .afterHead => b.afterHeadRule token
  | .inBody => b.inBodyRule token
  | .text => b.textRule token
  | .inTable => b.inTableRule token
  | .inTableText => b.inTableTextRule token
  | .inCaption => b.inCaptionRule token
  | .inColumnGroup => b.inColumnGroupRule token
  | .inTableBody => b.inTableBodyRule token
  | .inRow => b.inRowRule token
  | .inCell => b.inCellRule token
  | .inSelect => b.inSelectRule token
  | .inSelectInTable => b.inSelectInTableRule token
  | .inTemplate => b.inTemplateRule token
  | .afterBody => b.afterBodyRule token
  | .afterDocument => b.afterDocumentRule token
  | .frames => b.done

/-- Start tags of plain markup that break foreign content off. -/
def breaksForeign (t : StartTag) : Bool :=
  match t.tag with
  | .b | .big | .blockquote | .body | .br | .center | .code | .dd | .div | .dl | .dt | .em
  | .embed | .h1 | .h2 | .h3 | .h4 | .h5 | .h6 | .head | .hr | .i | .img | .li | .listing
  | .menu | .metaData | .nobr | .ol | .p | .pre | .ruby | .s | .small | .span | .strong
  | .strike | .sub | .sup | .table | .tt | .u | .ul | .var => true
  | .font => t.attributes.any fun a =>
      a.name == ("color" : Text) || a.name == ("face" : Text) || a.name == ("size" : Text)
  | _ => false

/-- An end tag in foreign content closes the innermost element of its name; once plain markup
is met, its rules decide. -/
def foreignEnd (b : Builder) (tag : Tag) : Builder × Next :=
  match b.stack with
  | [] => b.done
  | e :: outer =>
    if outer.isEmpty then b.done
    else if e.tag = tag then { b with stack := outer }.done
    else go outer
where
  go : Stack → Builder × Next
    | [] => b.done
    | e :: outer =>
      if outer.isEmpty then b.done
      else if e.vocabulary == .html then b.modeRule (.endTag tag)
      else if e.tag = tag then { b with stack := outer }.done
      else go outer

/-- Foreign content. -/
def foreignRule (b : Builder) (token : Token) : Builder × Next :=
  let breakOff := (b.closeTo (·.endsForeign)).modeRule token
  match token with
  | .null => (b.addChar '\uFFFD').done
  | .char c =>
    let added := b.addChar c
    if isWhite c then added.done else added.forbidFrames.done
  | .comment content => (b.addComment content).done
  | .startTag t =>
    if breaksForeign t then breakOff else (b.openForeign b.current.vocabulary t).done
  | .endTag tag => if tag = .br || tag = .p then breakOff else b.foreignEnd tag
  | _ => b.done

/-- Whether a token is taken by the rules of foreign content. -/
def isForeign (b : Builder) (token : Token) : Bool :=
  let e := b.current
  if e.vocabulary == .html then false
  else
    match token with
    | .done => false
    | .char _ | .null =>
      !(e.holdsFormulaText || e.holdsDrawingMarkup || e.holdsMarkup)
    | .startTag t =>
      !((e.holdsFormulaText && t.tag != .mglyph && t.tag != .malignmark) ||
        e.holdsDrawingMarkup || e.holdsMarkup ||
        (e.vocabulary == .math && e.tag == .annotationXml && t.tag == .svg))
    | _ => true

/-- Takes a token once. -/
def takeOnce (b : Builder) (token : Token) : Builder × Next :=
  if b.isForeign token then b.foreignRule token else b.modeRule token

/-- Takes a token, which may be handed on at most `hops` times. -/
def takeWithin : Nat → Builder → Token → Builder × Next
  | 0, b, _ => b.done
  | hops + 1, b, token =>
    match b.takeOnce token with
    | (b, .again) => takeWithin hops b token
    | result => result

/-- Takes a token. -/
def take (b : Builder) (token : Token) : Builder × Next :=
  let ready := { b with dropsNewline := false }
  if b.dropsNewline && token = .char '\n' then ready.done
  else
    match token with
    | .flaw => ready.done
    | .doctype _ => if b.mode = .initial then ready.initialRule token else ready.done
    | _ => ready.takeWithin (4 * b.stack.length + 16) token

end Letterpress.Builder
