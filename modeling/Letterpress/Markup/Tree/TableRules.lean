/-
# Rules of tables

How tokens are taken inside a table. Each part of a table hands what it does
not know to the rules around it; what no part can hold goes before the table.
-/

import Letterpress.Markup.Tree.BodyRules

namespace Letterpress.Builder

/-- Takes a token by the rules of running content, with displaced content going before the
table. -/
def fosterRule (b : Builder) (token : Token) : Builder × Next :=
  let (taken, next) := { b with fostering := true }.inBodyRule token
  ({ taken with fostering := false }, next)

/-- Whether a table can hold the element itself. -/
def boundsTable (e : OpenElement) : Bool := e.is .table || e.is .template || e.is .html

/-- Whether a row can stand in the element. -/
def holdsRows (e : OpenElement) : Bool :=
  e.satisfies fun
    | .tbody | .tfoot | .thead | .template | .html => true
    | _ => false

/-- Whether a cell can stand in the element. -/
def holdsCells (e : OpenElement) : Bool :=
  e.satisfies fun
    | .tr | .template | .html => true
    | _ => false

/-- A character or U+0000 in a table: its place is decided when the text is complete. -/
def tableChar (b : Builder) (token : Token) : Builder × Next :=
  if b.stack.currentIs (·.satisfies Tag.isTablePart) then
    { b with returnMode := b.mode }.again .inTableText
  else b.fosterRule token

/-- Places the collected text: blank text stays, other text goes before the table. -/
def placeTableText (b : Builder) : Builder :=
  let text := b.tableText.reverse
  let taken := { b with tableText := [] }
  if text.all isWhite then text.foldl addChar taken
  else text.foldl (fun b c => (b.fosterRule (.char c)).1) taken

/-- Text in a table. -/
def inTableTextRule (b : Builder) : Token → Builder × Next
  | .null => b.done
  | .char c => { b with tableText := c :: b.tableText }.done
  | _ => b.placeTableText.again b.returnMode

/-- In a table, outside its parts. -/
def inTableRule (b : Builder) (token : Token) : Builder × Next :=
  let toTable := b.closeTo boundsTable
  match token with
  | .null => b.tableChar token
  | .char _ => b.tableChar token
  | .comment content => (b.addComment content).done
  | .startTag t =>
    match t.tag with
    | .caption => ((toTable.mark.openElement t).setMode .inCaption).done
    | .colgroup => ((toTable.openElement t).setMode .inColumnGroup).done
    | .col => (toTable.openImplied .colgroup).again .inColumnGroup
    | .tbody | .tfoot | .thead => ((toTable.openElement t).setMode .inTableBody).done
    | .td | .th | .tr => (toTable.openImplied .tbody).again .inTableBody
    | .table =>
      if b.has .table .table then ((b.closeThrough .table).resetMode, .again) else b.done
    | .style | .script | .template => b.inHeadRule token
    | .input => if isHidden t then (b.addEmpty t).done else b.fosterRule token
    | .form =>
      if b.form.isNone && !b.stack.inTemplate then
        let opened := b.openElement t
        { opened.close with form := some opened.current.id }.done
      else b.done
    | _ => b.fosterRule token
  | .endTag tag =>
    match tag with
    | .table => if b.has .table .table then (b.closeThrough .table).resetMode.done else b.done
    | .body | .caption | .col | .colgroup | .html | .tbody | .td | .tfoot | .th | .thead
    | .tr => b.done
    | .template => b.inHeadRule token
    | _ => b.fosterRule token
  | .done => b.inBodyRule token
  | _ => b.fosterRule token

/-- Ends a caption if one is open, then goes on by `next`. -/
def endCaption (b : Builder) (next : Builder → Builder × Next) : Builder × Next :=
  if b.has .table .caption then
    next (b.closeImplied.closeThrough .caption).clearToMarker
  else b.done

/-- In a caption. -/
def inCaptionRule (b : Builder) (token : Token) : Builder × Next :=
  match token with
  | .startTag t =>
    match t.tag with
    | .caption | .col | .colgroup | .tbody | .td | .tfoot | .th | .thead | .tr =>
      b.endCaption (·.again .inTable)
    | _ => b.inBodyRule token
  | .endTag tag =>
    match tag with
    | .caption => b.endCaption fun ended => (ended.setMode .inTable).done
    | .table => b.endCaption (·.again .inTable)
    | .body | .col | .colgroup | .html | .tbody | .td | .tfoot | .th | .thead | .tr => b.done
    | _ => b.inBodyRule token
  | _ => b.inBodyRule token

/-- In a group of columns. -/
def inColumnGroupRule (b : Builder) (token : Token) : Builder × Next :=
  let otherwise := if b.currentIs .colgroup then b.close.again .inTable else b.done
  match token with
  | .char c => if isWhite c then (b.addChar c).done else otherwise
  | .comment content => (b.addComment content).done
  | .startTag t =>
    match t.tag with
    | .html => b.inBodyRule token
    | .col => (b.addEmpty t).done
    | .template => b.inHeadRule token
    | _ => otherwise
  | .endTag tag =>
    match tag with
    | .colgroup => if b.currentIs .colgroup then (b.close.setMode .inTable).done else b.done
    | .col => b.done
    | .template => b.inHeadRule token
    | _ => otherwise
  | .done => b.inBodyRule token
  | _ => otherwise

/-- In a group of rows. -/
def inTableBodyRule (b : Builder) (token : Token) : Builder × Next :=
  let toRows := b.closeTo holdsRows
  let isGroup (e : OpenElement) : Bool := e.is .table || e.is .tbody || e.is .tfoot
  let leave :=
    if b.stack.hasInScope .table isGroup then toRows.close.again .inTable else b.done
  match token with
  | .startTag t =>
    match t.tag with
    | .tr => ((toRows.openElement t).setMode .inRow).done
    | .th | .td => (toRows.openImplied .tr).again .inRow
    | .caption | .col | .colgroup | .tbody | .tfoot | .thead => leave
    | _ => b.inTableRule token
  | .endTag tag =>
    match tag with
    | .tbody | .tfoot | .thead =>
      if b.has .table tag then (toRows.close.setMode .inTable).done else b.done
    | .table => leave
    | .body | .caption | .col | .colgroup | .html | .td | .th | .tr => b.done
    | _ => b.inTableRule token
  | _ => b.inTableRule token

/-- In a row. -/
def inRowRule (b : Builder) (token : Token) : Builder × Next :=
  let toCells := b.closeTo holdsCells
  let leave := if b.has .table .tr then toCells.close.again .inTableBody else b.done
  match token with
  | .startTag t =>
    match t.tag with
    | .th | .td => ((toCells.openElement t).setMode .inCell).mark.done
    | .caption | .col | .colgroup | .tbody | .tfoot | .thead | .tr => leave
    | _ => b.inTableRule token
  | .endTag tag =>
    match tag with
    | .tr => if b.has .table .tr then (toCells.close.setMode .inTableBody).done else b.done
    | .table => leave
    | .tbody | .tfoot | .thead => if b.has .table tag then leave else b.done
    | .body | .caption | .col | .colgroup | .html | .td | .th => b.done
    | _ => b.inTableRule token
  | _ => b.inTableRule token

/-- Closes the cell that is open. -/
def closeCell (b : Builder) : Builder :=
  (b.closeImplied.onStack (·.closeThrough (·.satisfies Tag.isCell))).clearToMarker

/-- In a cell. -/
def inCellRule (b : Builder) (token : Token) : Builder × Next :=
  match token with
  | .startTag t =>
    match t.tag with
    | .caption | .col | .colgroup | .tbody | .td | .tfoot | .th | .thead | .tr =>
      if b.stack.hasInScope .table (·.satisfies Tag.isCell) then b.closeCell.again .inRow
      else b.done
    | _ => b.inBodyRule token
  | .endTag tag =>
    match tag with
    | .td | .th =>
      if b.has .table tag then
        ((b.closeImplied.closeThrough tag).clearToMarker.setMode .inRow).done
      else b.done
    | .body | .caption | .col | .colgroup | .html => b.done
    | .table | .tbody | .tfoot | .thead | .tr =>
      if b.has .table tag then b.closeCell.again .inRow else b.done
    | _ => b.inBodyRule token
  | _ => b.inBodyRule token

end Letterpress.Builder
