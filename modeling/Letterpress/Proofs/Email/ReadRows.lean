/-
# Rows read again

The rows of an editor tree, put in a table and read again, are one row for each
block: `parseFragment_rowsMarkup`. Each has one cell, with the style that was chosen
for it, and the cell holds the block between white space and nothing else. So no
markup of a block leaks out of its cell.

What a cell holds is said in terms of trees (`Node.cell`). A heading gives its
children to strong text, a division that holds an image gives way to that image, and
text is trimmed.
-/

import Letterpress.Proofs.Email.Content
import Letterpress.Proofs.Markup.TableSpine

namespace Letterpress

open Lexer

/-! ## What a row is read as -/

namespace Row

/-- White space in front of a row, and behind its cell. -/
def rowGap : Text := "\n                "

/-- White space in front of a cell, and behind its content. -/
def cellGap : Text := "\n                    "

/-- White space in front of the content of a cell. -/
def contentGap : Text := "\n                        "

end Row

/-- The image that an element gives way to, which only a division does. -/
def Element.rowImage? (e : Element) : Option ImageRef :=
  if e.tag = .div then ImageRef.ofContainer? e else none

/-- What the row of an element shows of it. -/
def Element.shown (e : Element) : Node :=
  match headingSize? e.tag, e.rowImage? with
  | some _, _ => .element .strong .empty e.children
  | none, some image => .element .img (.ofList (Row.imageAttributes image)) []
  | none, none => e.toNode

namespace Node

/-- The content of the cell of a node. -/
def cell : Node → List Node
  | .element tag attributes children =>
    [.text Row.contentGap, (Element.mk tag attributes children).shown, .text Row.cellGap]
  | .text t => [.text (Row.contentGap ++ Text.trim t ++ Row.cellGap)]
  | .comment _ => []

/-- The row of a node as a node itself: one cell with the style of the row. -/
def row? (font : Text) (n : Node) : Option Node :=
  (Row.ofNode? font n).map fun row =>
    .element .tr .empty
      [.text Row.cellGap, .element .td (.ofList [⟨"style", row.cellStyle⟩]) n.cell,
        .text Row.rowGap]

/-- Whether the node is text that is not blank. -/
def isShownText : Node → Bool
  | .text t => !Text.isBlankText t
  | _ => false

/-- Whether the node is an element. -/
def isElement : Node → Bool
  | .element _ _ _ => true
  | _ => false

end Node

/-! ## The content of a cell -/

theorem escapeText_append (t u : Text) : escapeText (t ++ u) = escapeText t ++ escapeText u :=
  List.flatMap_append

theorem Row.escapeText_contentGap : escapeText contentGap = contentGap := by decide

theorem Row.escapeText_cellGap : escapeText cellGap = cellGap := by decide

/-- The row is read again as a cell with such content. -/
structure Row.GivesCell (row : Row) (content : List Node) : Prop where
  isKept_cellStyle : row.cellStyle.all isKept = true
  return_not_mem_content : '\r' ∉ row.content
  exists_tokens : ∃ tokens,
    Reads (fun _ => none) (.text .data) (contentGap ++ row.content ++ cellGap) tokens
      (.text .data) ∧
    Builder.GivesCell tokens content

namespace Row

variable {row : Row} {font : Text}

/-- Content that an editor could have written comes back as it was. -/
theorem givesCell_of_areEditable {content : List Node}
    (hstyle : row.cellStyle.all isKept = true)
    (hmarkup : contentGap ++ row.content ++ cellGap = Node.markupOfAll false content)
    (heditable : Node.areEditable .flow content = true) : row.GivesCell content where
  isKept_cellStyle := hstyle
  return_not_mem_content := by
    intro hreturn
    apply Node.return_not_mem_markupOfAll content heditable
    rw [← hmarkup]
    exact List.mem_append_left _ (List.mem_append_right _ hreturn)
  exists_tokens := by
    refine ⟨Node.tokensOfAll content, hmarkup ▸ Node.reads_areEditable heditable, ?_⟩
    intro f outer b hblocks hstands
    exact Node.takes_tokensOfAll content heditable hblocks hstands (fun _ => rfl)

theorem isEditable_of_mem_imageAttributes {image : ImageRef}
    (hsource : image.source.all isKept = true) (halternative : image.alternative.all isKept = true)
    {a : Attribute} (ha : a ∈ imageAttributes image) : a.isEditable = true := by
  have hwidth : (Text.decimal image.width).all isKept = true := by
    rw [List.all_eq_true]
    intro c hc
    have hnull : c ≠ '\x00' := ne_of_mem_decimal hc rfl
    have hreturn : c ≠ '\r' := ne_of_mem_decimal hc rfl
    simp [isKept, hnull, hreturn]
  unfold imageAttributes at ha
  split at ha
  · rcases ha with _ | ⟨_, _ | ⟨_, _ | ⟨_, _ | _⟩⟩⟩
    · exact Attribute.isEditable_mk (by decide) hsource
    · exact Attribute.isEditable_mk (by decide) (by decide)
    · exact Attribute.isEditable_mk (by decide) halternative
  · rcases ha with _ | ⟨_, _ | ⟨_, _ | ⟨_, _ | ⟨_, _ | _⟩⟩⟩⟩
    · exact Attribute.isEditable_mk (by decide) hsource
    · exact Attribute.isEditable_mk (by decide) hwidth
    · exact Attribute.isEditable_mk (by decide) (by decide)
    · exact Attribute.isEditable_mk (by decide) halternative

/-- An image comes back as one element between white space. -/
theorem givesCell_ofImage {image : ImageRef} (hsource : image.source.all isKept = true)
    (halternative : image.alternative.all isKept = true) :
    (ofImage image).GivesCell
      [.text contentGap, .element .img (.ofList (imageAttributes image)) [], .text cellGap] where
  isKept_cellStyle := by
    have hname : image.alignment.name.all isKept = true := by
      cases image.alignment with
      | _ => decide
    show ("padding: 10px 0; text-align: " ++ image.alignment.name ++ ";" : Text).all isKept = true
    rw [List.all_append, List.all_append, hname]
    decide
  return_not_mem_content := by
    have hname : '\r' ∉ Tag.img.name := by decide
    have hattributes : '\r' ∉ (imageAttributes image).flatMap Attribute.markup := by
      intro hmem
      obtain ⟨a, ha, hin⟩ := List.mem_flatMap.mp hmem
      exact Attribute.return_not_mem_markup
        (isEditable_of_mem_imageAttributes hsource halternative ha) hin
    have hclose : '\r' ∉ (" />" : Text) := by decide
    rw [content_ofImage]
    simp only [List.cons_append, List.mem_cons, List.mem_append, hname, hattributes, hclose]
    decide
  exists_tokens := by
    have hread : (imageAttributes image).map Attribute.read = imageAttributes image :=
      Attribute.map_read_of_isEditable fun _ ha =>
        isEditable_of_mem_imageAttributes hsource halternative ha
    have hbefore : Reads (fun _ => none) (.text .data) contentGap (chars contentGap)
        (.text .data) := reads_plain _ (by decide)
    have himage := reads_ofImage (fun _ => none) image
    have hafter : Reads (fun _ => none) (.text .data) cellGap (chars cellGap) (.text .data) :=
      reads_plain _ (by decide)
    rw [hread] at himage
    have heditor : Tag.img.isEditor = true := rfl
    have hvoid : Tag.img.isVoid = true := rfl
    refine ⟨_, (hbefore.append himage).append hafter, ?_⟩
    intro f outer b hblocks hstands
    obtain ⟨b₁, htakes₁, hstands₁⟩ := hstands.takes_text (t := contentGap) (by decide) rfl
    obtain ⟨b₂, htake₂, hstands₂⟩ :=
      hstands₁.take_voidTag heditor hvoid (imageAttributes image) true
    obtain ⟨b₃, htakes₃, hstands₃⟩ := hstands₂.takes_text (t := cellGap) (by decide) rfl
    refine ⟨b₃, _, (htakes₁.append (.single htake₂ hstands₂.current_html)).append htakes₃,
      hstands₃, ?_⟩
    rw [Forest.nodes_text, Forest.nodes_element, Forest.nodes_text, List.reverse_reverse,
      List.reverse_reverse]
    rfl

/-- The styles of all cells but those of images. -/
theorem isKept_textStyle (hfont : font.all isKept = true) {size middle rest : Text}
    (hsize : size.all isKept = true) (hmiddle : middle.all isKept = true)
    (hrest : rest.all isKept = true) :
    ("font-family: " ++ font ++ "; font-size: " ++ size ++ middle ++ textColour ++
      rest).all isKept = true := by
  have hfirst : ("font-family: " : Text).all isKept = true := by decide
  have hsecond : ("; font-size: " : Text).all isKept = true := by decide
  have hcolour : textColour.all isKept = true := by decide
  simp only [List.all_append, hfont, hsize, hmiddle, hrest, hfirst, hsecond, hcolour,
    Bool.and_self]

theorem isKept_plainStyle (hfont : font.all isKept = true) :
    (plainStyle font).all isKept = true :=
  isKept_textStyle hfont (by decide) (by decide) (by decide)

/-- An element that an editor could have written comes back between white space. -/
theorem givesCell_of_isEditable {n : Node} {markup : Text} {style : Text}
    (hstyle : style.all isKept = true) (hmarkup : markup = n.markup false)
    (htext : n.isText = false) (heditable : n.isEditable .flow = true) :
    Row.GivesCell ⟨style, markup⟩ [.text contentGap, n, .text cellGap] := by
  apply givesCell_of_areEditable hstyle
  · show contentGap ++ markup ++ cellGap = _
    rw [Node.markupOfAll, Node.markupOfAll, Node.markupOfAll, Node.markupOfAll, Node.markup,
      Node.markup, hmarkup]
    simp [escapeText_contentGap, escapeText_cellGap]
  · have hgap (t : Text) (ht : (!t.isEmpty && t.all isKept) = true) :
        (Node.text t).isEditable .flow = true := by
      rw [Node.isEditable, Bool.and_assoc, ht]
      rfl
    have hbefore := hgap contentGap (by decide)
    have hafter := hgap cellGap (by decide)
    simp [Node.areEditable, hbefore, hafter, heditable, htext]

theorem isKept_of_attribute? {e : Element} {name value : Text}
    (hattributes : ∀ a ∈ e.attributes.toList, a.isEditable = true)
    (hvalue : e.attribute? name = some value) : value.all isKept = true := by
  obtain ⟨a, ha, rfl⟩ := Option.map_eq_some_iff.mp hvalue
  have heditable := hattributes a (List.mem_of_find?_eq_some ha)
  simp only [Attribute.isEditable, Bool.and_eq_true] at heditable
  exact heditable.2

/-- The image that a division of an editor tree gives way to comes back. -/
theorem givesCell_ofContainer {e : Element} {image : ImageRef} {holding : Holding}
    (himage : ImageRef.ofContainer? e = some image)
    (heditable : Node.areEditable holding e.children = true) :
    (ofImage image).GivesCell
      [.text contentGap, .element .img (.ofList (imageAttributes image)) [], .text cellGap] := by
  obtain ⟨img, hfind, rfl⟩ := Option.map_eq_some_iff.mp himage
  have hspelled := Node.allSpelled_of_areEditable (fun _ ha => ha) e.children heditable
  have hattributes := Node.attributes_of_findAmong? e.children hspelled hfind
  apply givesCell_ofImage
  · show ((img.attribute? "src").getD []).all isKept = true
    cases hsource : img.attribute? "src" with
    | none => rfl
    | some source => exact isKept_of_attribute? hattributes hsource
  · show (((img.attribute? "alt").filter fun a => !Text.isBlankText a).getD
      ImageRef.defaultAlternative).all isKept = true
    cases halternative : (img.attribute? "alt").filter fun a => !Text.isBlankText a with
    | none => decide
    | some alternative =>
        exact isKept_of_attribute? hattributes (Option.filter_eq_some_iff.mp halternative).1

/-- A heading of an editor tree holds what strong text may hold. -/
theorem isEditable_strong {tag : Tag} {attributes : Attributes} {children : List Node}
    (hheading : (headingSize? tag).isSome = true)
    (heditable : (Node.element tag attributes children).isEditable .flow = true) :
    (Node.element .strong .empty children).isEditable .flow = true := by
  unfold headingSize? at hheading
  split at hheading
  case h_4 => cases hheading
  all_goals
    simp only [Node.isEditable, Holding.child?, Bool.and_eq_true] at heditable
    exact heditable.2

/-- The row of an element of an editor tree. -/
theorem givesCell_ofElement (hfont : font.all isKept = true) {tag : Tag} {attributes : Attributes}
    {children : List Node}
    (heditable : (Node.element tag attributes children).isEditable .flow = true) :
    (ofElement font ⟨tag, attributes, children⟩).GivesCell
      (Node.element tag attributes children).cell := by
  have hkept (style : Text) (hstyle : style.all isKept = true) :
      Row.GivesCell ⟨style, (Element.mk tag attributes children).outerMarkup⟩
        [.text contentGap, .element tag attributes children, .text cellGap] :=
    givesCell_of_isEditable hstyle rfl rfl heditable
  unfold Node.cell Element.shown ofElement
  dsimp only
  cases hsize : headingSize? tag with
  | some size =>
      have hkeptSize : size.all isKept = true := by
        unfold headingSize? at hsize
        split at hsize
        all_goals cases hsize
        all_goals decide
      have hheading : (headingSize? tag).isSome = true := by rw [hsize]; rfl
      have hraw := (kept_of_headingSize? hheading).2.1
      refine givesCell_of_isEditable (isKept_textStyle hfont hkeptSize (by decide) (by decide))
        ?_ rfl (isEditable_strong hheading heditable)
      have hopen : ("<strong>" : Text) = startTagMarkup .strong .empty := by decide
      have hclose : ("</strong>" : Text) = endTagMarkup .strong := by decide
      rw [Element.innerMarkup, hraw, hopen, hclose, List.append_assoc]
      rfl
  | none =>
      have hplain := hkept (plainStyle font) (isKept_plainStyle hfont)
      dsimp only
      split
      · exact hkept _ (isKept_textStyle hfont (by decide) (by decide) (by decide))
      · exact hkept _ (isKept_textStyle hfont (by decide) (by decide) (by decide))
      · split
        · rename_i image himage
          have hrow : (Element.mk .div attributes children).rowImage? = some image := himage
          simp only [Node.isEditable, Holding.child?, Bool.and_eq_true] at heditable
          rw [hrow]
          exact givesCell_ofContainer himage heditable.2
        · rename_i hnone
          have hrow : (Element.mk .div attributes children).rowImage? = none := hnone
          rw [hrow]
          exact hplain
      · rename_i hdiv
        have hrow : (Element.mk tag attributes children).rowImage? = none := if_neg hdiv
        rw [hrow]
        exact hplain

/-- The row of a node of an editor tree. -/
theorem givesCell_ofNode? (hfont : font.all isKept = true) {n : Node}
    (heditable : n.isEditable .flow = true) (hrow : ofNode? font n = some row) :
    row.GivesCell n.cell := by
  cases n with
  | element tag attributes children =>
      cases hrow
      exact givesCell_ofElement hfont heditable
  | text t =>
      rw [ofNode?] at hrow
      split at hrow
      · cases hrow
      · cases hrow
        simp only [Node.isEditable, Bool.and_eq_true] at heditable
        have htrim : (Text.trim t).all isKept = true := by
          obtain ⟨v, w, -, -, heq⟩ := Text.exists_trim_eq t
          have hall := heditable.2
          rw [heq, List.all_append, List.all_append] at hall
          simp only [Bool.and_eq_true] at hall
          exact hall.2.1
        have hgaps : contentGap.all isKept = true ∧ cellGap.all isKept = true ∧
            contentGap ≠ [] := by
          decide
        apply givesCell_of_areEditable (isKept_plainStyle hfont)
        · show contentGap ++ escapeText (Text.trim t) ++ cellGap = _
          rw [Node.cell, Node.markupOfAll, Node.markupOfAll, Node.markup, List.append_nil,
            if_neg Bool.false_ne_true, escapeText_append, escapeText_append,
            escapeText_contentGap, escapeText_cellGap]
        · simp [Node.cell, Node.areEditable, Node.isEditable, Holding.holdsText, htrim, hgaps]
  | comment t => cases hrow

end Row

/-! ## Rows -/

/-- The start tag of a cell with a style is read with that style. -/
theorem Row.reads_cellStart {style : Text} (hstyle : style.all isKept = true) :
    Reads (fun _ => none) (.text .data) (startTagMarkup .td (.ofList [⟨"style", style⟩]))
        [.startTag ⟨.td, [⟨"style", style⟩], false⟩] (.text .data) ∧
      '\r' ∉ startTagMarkup .td (.ofList [⟨"style", style⟩]) := by
  have htd : Tag.td.IsWritable := Tag.isWritable_of_supplied (by decide)
  have hlist : (Attributes.ofList [⟨"style", style⟩]).toList = [⟨"style", style⟩] := rfl
  have hstyled : Attribute.isEditable ⟨"style", style⟩ = true :=
    Attribute.isEditable_mk (by decide) hstyle
  have heditable : ∀ a ∈ (Attributes.ofList [⟨"style", style⟩]).toList,
      a.isEditable = true := by
    intro a ha
    rw [hlist] at ha
    rwa [List.mem_singleton.mp ha]
  have hreads := reads_startTagMarkup (fun _ => none) htd fun a ha =>
    (Attribute.isWritable_of_isEditable (heditable a ha)).isAttributeName_name
  rw [Attribute.map_read_of_isEditable heditable, hlist] at hreads
  exact ⟨hreads, return_not_mem_startTagMarkup (by decide) heditable⟩

/-- A row is read as the tokens of a row with such a cell. -/
theorem Row.GivesCell.exists_rowTokens {row : Row} {content : List Node}
    (h : row.GivesCell content) :
    ∃ r : RowTokens, r.style = row.cellStyle ∧ r.content = content ∧
      Reads (fun _ => none) (.text .data) row.markup (r.tokens rowGap cellGap) (.text .data) ∧
      '\r' ∉ row.markup := by
  obtain ⟨hstyle, hreturn, cell, hreads, hgives⟩ := h
  have hmarkup : row.markup = rowGap ++ startTagMarkup .tr .empty ++
      (cellGap ++ startTagMarkup .td (.ofList [⟨"style", row.cellStyle⟩]) ++
        (contentGap ++ row.content ++ cellGap) ++ endTagMarkup .td ++
          (rowGap ++ endTagMarkup .tr)) := by
    refine row.markup_eq.trans ?_
    simp only [List.append_assoc]
    rfl
  obtain ⟨hcellStart, hstartReturn⟩ := reads_cellStart hstyle
  rw [hmarkup]
  refine ⟨⟨row.cellStyle, cell, content, hgives⟩, rfl, rfl, ?_, ?_⟩
  · have htr : Tag.tr.IsWritable := Tag.isWritable_of_supplied (by decide)
    have htd : Tag.td.IsWritable := Tag.isWritable_of_supplied (by decide)
    have hrowGap : Reads (fun _ => none) (.text .data) rowGap (chars rowGap) (.text .data) :=
      reads_plain _ (by decide)
    have hcellGap : Reads (fun _ => none) (.text .data) cellGap (chars cellGap) (.text .data) :=
      reads_plain _ (by decide)
    have hrowStart : Reads (fun _ => none) (.text .data) (startTagMarkup .tr .empty)
        [.startTag ⟨.tr, [], false⟩] (.text .data) :=
      reads_startTagMarkup _ htr (by simp [Attributes.empty])
    exact (hrowGap.append hrowStart).append
      ((((hcellGap.append hcellStart).append hreads).append
        (reads_endTagMarkup _ htd)).append (hrowGap.append (reads_endTagMarkup _ htr)))
  · have hfixed : '\r' ∉ rowGap ∧ '\r' ∉ cellGap ∧ '\r' ∉ contentGap ∧
        '\r' ∉ startTagMarkup .tr .empty ∧ '\r' ∉ endTagMarkup .td ∧ '\r' ∉ endTagMarkup .tr := by
      decide
    obtain ⟨hrowGap, hcellGap, hcontentGap, hrowStart, hcellEnd, hrowEnd⟩ := hfixed
    simp only [List.mem_append, not_or]
    exact ⟨⟨hrowGap, hrowStart⟩, ⟨⟨⟨hcellGap, hstartReturn⟩, ⟨hcontentGap, hreturn⟩, hcellGap⟩,
      hcellEnd⟩, hrowGap, hrowEnd⟩

/-- The rows of nodes that an editor could have written are read as one row for each. -/
theorem Row.exists_rowTokens {font : Text} (hfont : font.all isKept = true) {ns : List Node}
    (heditable : ∀ n ∈ ns, n.isEditable .flow = true) :
    ∃ rs : List RowTokens, rs.map (·.node rowGap cellGap) = ns.filterMap (Node.row? font) ∧
      Reads (fun _ => none) (.text .data) ((ns.filterMap (ofNode? font)).flatMap markup)
        (rs.flatMap (·.tokens rowGap cellGap)) (.text .data) ∧
      '\r' ∉ (ns.filterMap (ofNode? font)).flatMap markup := by
  induction ns with
  | nil => exact ⟨[], rfl, .nil, List.not_mem_nil⟩
  | cons n ns ih =>
      obtain ⟨rs, hnodes, hreads, hreturn⟩ := ih fun m hm => heditable m (List.mem_cons_of_mem n hm)
      cases hrow : ofNode? font n with
      | none =>
          have hnone : n.row? font = none := by rw [Node.row?, hrow]; rfl
          rw [List.filterMap_cons_none hrow, List.filterMap_cons_none hnone]
          exact ⟨rs, hnodes, hreads, hreturn⟩
      | some row =>
          have hcell := givesCell_ofNode? hfont (heditable n List.mem_cons_self) hrow
          obtain ⟨r, hstyle, hcontent, hfirst, hfirstReturn⟩ := hcell.exists_rowTokens
          have hnode : n.row? font = some (r.node rowGap cellGap) := by
            rw [Node.row?, hrow, RowTokens.node, RowTokens.cells, hstyle, hcontent]
            rfl
          rw [List.filterMap_cons_some hrow, List.filterMap_cons_some hnode]
          refine ⟨r :: rs, congrArg (_ :: ·) hnodes, hfirst.append hreads, ?_⟩
          rw [List.flatMap_cons, List.mem_append, not_or]
          exact ⟨hfirstReturn, hreturn⟩

theorem Node.isEditable_of_mem {holding : Holding} {ns : List Node}
    (heditable : areEditable holding ns = true) : ∀ n ∈ ns, n.isEditable holding = true := by
  induction ns with
  | nil => nofun
  | cons m rest ih =>
      simp only [areEditable, Bool.and_eq_true] at heditable
      exact List.forall_mem_cons.mpr ⟨heditable.1.1, ih heditable.2⟩

/-- Elements and text that is not blank have rows, and comments have none. -/
theorem Node.length_rows (font : Text) (ns : List Node) :
    (ns.filterMap (row? font)).length = ns.countP isElement + ns.countP isShownText := by
  induction ns with
  | nil => rfl
  | cons n ns ih =>
      have hrow : (n.row? font).toList.length = (if n.isElement then 1 else 0) +
          (if n.isShownText then 1 else 0) := by
        cases n with
        | element tag attributes children => rfl
        | text t =>
            rw [row?, Row.ofNode?, isShownText]
            cases hblank : Text.isBlankText t with
            | true => rfl
            | false => rfl
        | comment t => rfl
      have hcons : ((n :: ns).filterMap (row? font)).length =
          (n.row? font).toList.length + (ns.filterMap (row? font)).length := by
        cases hfirst : n.row? font with
        | none => rw [List.filterMap_cons_none hfirst, Option.toList_none, List.length_nil,
            Nat.zero_add]
        | some row => rw [List.filterMap_cons_some hfirst, Option.toList_some,
            List.length_singleton, List.length_cons, Nat.add_comm]
      rw [hcons, hrow, ih, List.countP_cons, List.countP_cons]
      omega

/-- The rows of an editor tree, put in a table and read again, are one row for each block and each
text between blocks that is not blank, in their order. -/
theorem parseFragment_rowsMarkup {t : Element} {font : Text} (htree : t.isEditorTree = true)
    (hfont : font.all isKept = true) :
    parseFragment ("<table>" ++ rowsMarkup font t ++ "</table>") =
        ⟨.body, .empty, [.table Row.rowGap (t.children.filterMap (Node.row? font))]⟩ ∧
      (t.children.filterMap (Node.row? font)).length =
        t.children.countP Node.isElement + t.children.countP Node.isShownText := by
  refine ⟨?_, Node.length_rows font t.children⟩
  simp only [Element.isEditorTree, Bool.and_eq_true] at htree
  obtain ⟨rs, hnodes, hreads, hreturn⟩ :=
    Row.exists_rowTokens hfont (Node.isEditable_of_mem htree.2)
  have htable : Tag.table.IsWritable := ⟨rfl, rfl⟩
  have hopen : ("<table>" : Text) = startTagMarkup .table .empty := by decide
  have hclose : ("</table>" : Text) = endTagMarkup .table := by decide
  have hstart : Reads (fun _ => none) (.text .data) "<table>"
      [.startTag ⟨.table, [], false⟩] (.text .data) :=
    hopen ▸ reads_startTagMarkup _ htable (by simp [Attributes.empty])
  have hend : Reads (fun _ => none) (.text .data) "</table>" [.endTag .table] (.text .data) :=
    hclose ▸ reads_endTagMarkup _ htable
  have hrowGap : IsGap Row.rowGap := ⟨by decide, by decide⟩
  have hcellGap : IsGap Row.cellGap := ⟨by decide, by decide⟩
  obtain ⟨b, inner, htakes, hstands, htableNodes⟩ :=
    Builder.stands_content.takes_table hrowGap hcellGap rs
  have hall : '\r' ∉ ("<table>" ++ rowsMarkup font t ++ "</table>" : Text) := by
    have hends : '\r' ∉ ("<table>" : Text) ∧ '\r' ∉ ("</table>" : Text) := by decide
    simp only [List.mem_append, not_or]
    exact ⟨⟨hends.1, hreturn⟩, hends.2⟩
  refine (parseFragment_eq ((hstart.append hreads).append hend) htakes hstands hall
    (by rintro ⟨⟩)).trans ?_
  rw [htableNodes, hnodes]

/-- A heading, blank text, a division with a caption and an image, a list, and text. -/
def blocksSample : Element :=
  ⟨.body, .empty,
    [.element .h2 .empty [.text "A < B"], .text "\n",
     .element .div .empty
       [.text "caption", .element .img (.ofList [⟨"src", "a?b&c"⟩, ⟨"width", "40"⟩]) []],
     .element .ul .empty [.element .li .empty [.element .p .empty [.text "one"]]],
     .text " two "]⟩

theorem parseFragment_rowsMarkup_blocks :
    blocksSample.isEditorTree = true ∧ ("Arial" : Text).all isKept = true ∧
      parseFragment ("<table>" ++ rowsMarkup "Arial" blocksSample ++ "</table>") =
        ⟨.body, .empty,
          [.table Row.rowGap (blocksSample.children.filterMap (Node.row? "Arial"))]⟩ ∧
      (blocksSample.children.filterMap (Node.row? "Arial")).length = 4 := by
  have htree : blocksSample.isEditorTree = true := by decide
  have hfont : ("Arial" : Text).all isKept = true := by decide
  have hread := parseFragment_rowsMarkup htree hfont
  have hcount : blocksSample.children.countP Node.isElement +
      blocksSample.children.countP Node.isShownText = 4 := by
    decide
  exact ⟨htree, hfont, hread.1, hread.2.trans hcount⟩

end Letterpress
