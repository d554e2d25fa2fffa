/-
# Reading an editor tree again

What an editor wrote comes back from its markup unchanged:
`parseFragment_innerMarkup`. The markup is read as the tokens of the tree, and each
node's tokens, taken on a spine, add that node to the innermost element and leave
the spine as it was; the induction over the tree needs only that a text never
follows a text, for the two would run together.
-/

import Letterpress.Proofs.Markup.EditorRules
import Letterpress.Proofs.Markup.Feeding
import Letterpress.Proofs.Markup.Restyling

namespace Letterpress

/-! ## Finished content -/

namespace Forest

/-- Whether a text stands last. -/
def endsInText : Forest → Bool
  | .text _ _ => true
  | _ => false

theorem pushChar_eq {siblings : Forest} (hlast : siblings.endsInText = false) (c : Char) :
    siblings.pushChar c = .text [c] siblings := by
  cases siblings with
  | text _ _ => cases hlast
  | empty => rfl
  | element => rfl
  | comment => rfl

theorem nodesBefore_eq (siblings : Forest) (later : List Node) :
    siblings.nodesBefore later = siblings.nodes ++ later := by
  induction siblings generalizing later with
  | empty => rfl
  | element id vocabulary tag attributes children older _ ih =>
      rw [nodes, nodesBefore, nodesBefore, ih, ih [_], List.append_assoc]
      rfl
  | text t older ih =>
      rw [nodes, nodesBefore, nodesBefore, ih, ih [_], List.append_assoc]
      rfl
  | comment t older ih =>
      rw [nodes, nodesBefore, nodesBefore, ih, ih [_], List.append_assoc]
      rfl

theorem nodes_element (id : Nat) (vocabulary : Vocabulary) (tag : Tag)
    (attributes : List Attribute) (children older : Forest) :
    (Forest.element id vocabulary tag attributes children older).nodes =
      older.nodes ++ [.element tag (.ofList attributes) children.nodes] := by
  rw [nodes, nodesBefore, nodesBefore_eq]
  rfl

theorem nodes_text (t : Text) (older : Forest) :
    (Forest.text t older).nodes = older.nodes ++ [.text t.reverse] := by
  rw [nodes, nodesBefore, nodesBefore_eq]

end Forest

/-! ## Taking the tokens of a tree -/

namespace Builder.Stands

variable {f : Frame} {outer : List Frame} {inner : Forest} {ground : Ground} {b : Builder}

/-- Characters that follow a text continue it. -/
theorem takes_chars_of_text (t : Text) {before : Text} {older : Forest}
    (h : Stands (f :: outer) (.text before older) ground b) :
    ∃ b', b.Takes (Lexer.chars t) b' ∧
      Stands (f :: outer) (.text (t.reverse ++ before) older) ground b' := by
  induction t generalizing b before with
  | nil => exact ⟨b, .nil b, h⟩
  | cons c t ih =>
      obtain ⟨b₁, htake, hstands⟩ := h.take_char c
      obtain ⟨b₂, hrest, hend⟩ := ih hstands
      refine ⟨b₂, .cons htake hstands.current_html hrest, ?_⟩
      simpa using hend

/-- The characters of a text make one text. -/
theorem takes_text (h : Stands (f :: outer) inner ground b) {t : Text} (hne : t ≠ [])
    (hlast : inner.endsInText = false) :
    ∃ b', b.Takes (Lexer.chars t) b' ∧
      Stands (f :: outer) (.text t.reverse inner) ground b' := by
  cases t with
  | nil => exact absurd rfl hne
  | cons c t =>
      obtain ⟨b₁, htake, hstands⟩ := h.take_char c
      rw [Forest.pushChar_eq hlast] at hstands
      obtain ⟨b₂, hrest, hend⟩ := hstands.takes_chars_of_text t
      refine ⟨b₂, .cons htake hstands.current_html hrest, ?_⟩
      simpa using hend

end Builder.Stands

namespace Node

open Builder

variable {ground : Ground}

mutual

/-- The tokens of a node add the node. -/
theorem takes_tokens :
    ∀ (n : Node) {holding : Holding} {f : Frame} {outer : List Frame} {inner : Forest}
      {b : Builder}, n.isEditable holding = true → holding.Fits (f :: outer) →
      b.Stands (f :: outer) inner ground → (n.isText = true → inner.endsInText = false) →
      ∃ b' inner', b.Takes n.tokens b' ∧ Stands (f :: outer) inner' ground b' ∧
        inner'.nodes = inner.nodes ++ [n] ∧ inner'.endsInText = n.isText
  | .element tag attributes children, holding, f, outer, inner, b, heditable, hfits, h, _ => by
      rw [isEditable] at heditable
      split at heditable
      · rename_i within hchild
        simp only [Bool.and_eq_true] at heditable
        have heditor := Holding.isEditor_of_child? hchild
        rw [tokens, Attribute.map_read_of_isEditable (List.all_eq_true.mp heditable.1)]
        cases hvoid : tag.isVoid with
        | true =>
            obtain ⟨b₁, htake, hstands⟩ := h.take_voidTag heditor hvoid attributes.toList false
            have hempty : children = [] := by
              rw [Holding.eq_nothing_of_isVoid hchild hvoid] at heditable
              exact eq_nil_of_areEditable_nothing heditable.2
            refine ⟨b₁, _, .single htake hstands.current_html, hstands, ?_, rfl⟩
            rw [Forest.nodes_element, Attributes.ofList_toList, hempty]
            rfl
        | false =>
            obtain ⟨b₁, hopen, hstands⟩ := h.take_startTag hfits hchild hvoid attributes.toList
            obtain ⟨b₂, inner₂, hinside, hstands₂, hnodes⟩ :=
              takes_tokensOfAll children heditable.2 (hfits.child hchild rfl) hstands
                (by simp [Forest.endsInText])
            obtain ⟨b₃, hclose, hstands₃⟩ := hstands₂.take_endTag heditor hvoid
            refine ⟨b₃, _, .cons hopen hstands.current_html
              (hinside.append (.single hclose hstands₃.current_html)), hstands₃, ?_, rfl⟩
            rw [Frame.wrap, Forest.nodes_element, hnodes]
            simp only [Stands.opening, Attributes.ofList_toList]
            rfl
      · cases heditable
  | .text t, holding, f, outer, inner, b, heditable, _, h, hlast => by
      simp only [isEditable, Bool.and_eq_true] at heditable
      obtain ⟨b', htakes, hstands⟩ :=
        h.takes_text (t := t) (by simpa using heditable.1.2) (hlast rfl)
      refine ⟨b', _, htakes, hstands, ?_, rfl⟩
      rw [Forest.nodes_text, List.reverse_reverse]
  | .comment t, _, _, _, _, _, heditable, _, _, _ => by simp [isEditable] at heditable

/-- The tokens of neighbouring nodes add the nodes. -/
theorem takes_tokensOfAll :
    ∀ (ns : List Node) {holding : Holding} {f : Frame} {outer : List Frame} {inner : Forest}
      {b : Builder}, areEditable holding ns = true → holding.Fits (f :: outer) →
      b.Stands (f :: outer) inner ground →
      (ns.head?.any isText = true → inner.endsInText = false) →
      ∃ b' inner', b.Takes (tokensOfAll ns) b' ∧ Stands (f :: outer) inner' ground b' ∧
        inner'.nodes = inner.nodes ++ ns
  | [], _, _, _, inner, b, _, _, h, _ => ⟨b, inner, .nil b, h, by simp⟩
  | n :: rest, holding, f, outer, inner, b, heditable, hfits, h, hlast => by
      simp only [areEditable, Bool.and_eq_true, Bool.not_eq_true', Bool.and_eq_false_iff]
        at heditable
      obtain ⟨⟨hfirst, happart⟩, hrest⟩ := heditable
      obtain ⟨b₁, inner₁, htakes, hstands, hnodes, hends⟩ :=
        takes_tokens n hfirst hfits h (fun htext => hlast (by simpa using htext))
      obtain ⟨b₂, inner₂, htakes₂, hstands₂, hnodes₂⟩ :=
        takes_tokensOfAll rest hrest hfits hstands (by
          intro hnext
          rw [hends]
          rcases happart with hno | hno
          · exact hno
          · rw [hno] at hnext
            cases hnext)
      refine ⟨b₂, inner₂, htakes.append htakes₂, hstands₂, ?_⟩
      rw [hnodes₂, hnodes, List.append_assoc]
      rfl

end

end Node

/-! ## Reading the markup of a tree -/

/-- The markup of what an editor wrote is read as its tokens. -/
theorem Node.reads_areEditable {holding : Holding} {ns : List Node}
    (heditable : areEditable holding ns = true) :
    Lexer.Reads (fun _ => none) (.text .data) (markupOfAll false ns) (tokensOfAll ns)
      (.text .data) := by
  have hspelled := allSpelled_of_areEditable (fun _ => Attribute.isWritable_of_isEditable) ns
    heditable
  refine reads_markupOfAll (fun _ _ => rfl) (fun a ha => ha.isAttributeName_name) ns hspelled
    fun e he hraw => ?_
  have hmem := (writtenElementsOfAll_sublist ns).subset he
  rw [Tag.isRawText_of_isEditor (isEditor_of_mem_elementsOfAll ns heditable e hmem)] at hraw
  cases hraw

/-- The root that the content of a body is read into. -/
def Frame.root : Frame := ⟨0, .html, [], .empty⟩

theorem Builder.stands_content : Builder.content.Stands [.root] .empty .content where
  tree_eq := rfl
  stack_eq := rfl
  mode_eq := rfl
  fostering_eq := rfl
  dropsNewline_eq := rfl
  templateModes_eq := rfl
  tableText_eq := rfl
  fragment_eq := rfl
  nodup_ids := List.nodup_singleton 0
  id_lt := by simp [Frame.root, Builder.content, Builder.openRoot]
  exists_entries := ⟨[], List.nil_sublist _, by simp, rfl⟩

/-- The end of the markup changes nothing. -/
theorem Builder.Stands.take_done {frames : List Frame} {inner : Forest} {ground : Ground}
    {b : Builder} (h : b.Stands frames inner ground) : b.take .done = (b, .done) := by
  have hrule : b.inBodyRule .done = (b, .done) := by
    show (if b.templateModes.isEmpty then b.done else b.templateDone) = _
    rw [h.templateModes_eq]
    rfl
  exact h.take_eq ⟨nofun, nofun⟩ rfl hrule

/-- Markup whose tokens are used up and leave nothing open is parsed into what they gave. -/
theorem parseFragment_eq {h : Text} {tokens : List Token} {b : Builder} {inner : Forest}
    {ground : Ground}
    (hreads : Lexer.Reads (fun _ => none) (.text .data) h tokens (.text .data))
    (htakes : Builder.content.Takes tokens b) (hend : b.Stands [.root] inner ground)
    (hreturn : '\r' ∉ h) (hmark : h.head? ≠ some '\uFEFF') :
    parseFragment h = ⟨.body, .empty, inner.nodes⟩ := by
  have hread : Reader.read .content h = b.tree := by
    rw [Reader.read_eq hreads htakes Builder.stands_content.current_html hreturn hmark,
      hend.take_done]
  have htree : b.tree.childNamed? .html = some ([], inner) := by
    rw [hend.tree_eq]
    rfl
  rw [parseFragment, hread, htree]

/-- What an editor wrote comes back from its markup as it was. -/
theorem parseFragment_innerMarkup {t : Element} (htree : t.isEditorTree = true)
    (hmark : t.innerMarkup.head? ≠ some '\uFEFF') : parseFragment t.innerMarkup = t := by
  obtain ⟨tag, attributes, children⟩ := t
  simp only [Element.isEditorTree, Bool.and_eq_true, beq_iff_eq] at htree
  obtain ⟨⟨rfl, hnone⟩, hchildren⟩ := htree
  have hfits : Holding.flow.Fits [.root] := by
    simp [Holding.Fits, Frame.AreBlocks, Frame.root, Tag.isHeadingLevel]
  obtain ⟨b, inner, htakes, hend, hnodes⟩ :=
    Node.takes_tokensOfAll children hchildren hfits Builder.stands_content (fun _ => rfl)
  have hempty : attributes = .empty := Attributes.eq_of_toList (List.isEmpty_iff.mp hnone)
  have hparse := parseFragment_eq (Node.reads_areEditable hchildren) htakes hend
    (Node.return_not_mem_markupOfAll _ hchildren) hmark
  rw [Element.innerMarkup, show Tag.isRawText .body = false from rfl, hparse, hempty, hnodes]
  rfl

/-- Five equal formatting elements inside each other, an anchor, a list and an image. -/
def nestedSample : Element :=
  let strong (inside : Node) : Node := .element .strong .empty [inside]
  let link : Node :=
    .element .a (.ofList [⟨"href", "?a=1&b=\"2\""⟩]) [.element .em .empty [.text "x < y"]]
  ⟨.body, .empty,
    [.text "\n",
     .element .p .empty [strong (strong (strong (strong (strong link)))), .text " & z"],
     .element .ul .empty
       [.element .li .empty [.text "one", .element .div .empty [.element .img .empty []]]],
     .element .h1 .empty []]⟩

theorem parseFragment_innerMarkup_nested :
    nestedSample.isEditorTree = true ∧
      nestedSample.innerMarkup.head? ≠ some '\uFEFF' ∧
      parseFragment nestedSample.innerMarkup = nestedSample := by
  have htree : nestedSample.isEditorTree = true := by decide
  have hmark : nestedSample.innerMarkup.head? ≠ some '\uFEFF' := by decide
  exact ⟨htree, hmark, parseFragment_innerMarkup htree hmark⟩

end Letterpress
