/-
# A body inside a document

The content of a body may come as a fragment or between the tags of a whole document,
and an editor tree is read from both alike: `parseBody_wrapped`. A document is read by
more rules than a fragment. The tags in front open the root and the body and add a head
that no tag wrote; the tags behind only change which rules would apply next. In between
the builder stands on a spine as it does in a fragment, one element deeper, so what is
known about the tokens of an editor tree carries over.

An import takes such a document as a whole one and keeps the body
(`ofOctets_encode_wrapped`).
-/

import Letterpress.Import
import Letterpress.Proofs.Markup.RoundTrip
import Letterpress.Proofs.Text.Encoding

namespace Letterpress

open Lexer

/-- A document with this markup as its body. -/
def wrapped (body : Text) : Text := "<html><body>" ++ body ++ "</body></html>"

theorem wrapped_eq (body : Text) :
    wrapped body = ("<html><body>" : Text) ++ body ++ ("</body></html>" : Text) := rfl

/-! ## The tags of the document -/

/-- The tokens of the tags in front of the body. -/
def documentStart : List Token := [.startTag ⟨.html, [], false⟩, .startTag ⟨.body, [], false⟩]

/-- The tokens of the tags behind the body. -/
def documentEnd : List Token := [.endTag .body, .endTag .html]

theorem reads_wrapped {body : Text} {tokens : List Token}
    (hbody : Reads (fun _ => none) (.text .data) body tokens (.text .data)) :
    Reads (fun _ => none) (.text .data) (wrapped body) (documentStart ++ tokens ++ documentEnd)
      (.text .data) := by
  have hhtml : Tag.html.IsWritable := Tag.isWritable_of_supplied (by decide)
  have hbodyTag : Tag.body.IsWritable := Tag.isWritable_of_supplied (by decide)
  have hnone : ∀ a ∈ Attributes.empty.toList, isAttributeName a.name = true :=
    fun _ ha => nomatch ha
  have hfront : Reads (fun _ => none) (.text .data)
      (startTagMarkup .html .empty ++ startTagMarkup .body .empty) documentStart
      (.text .data) :=
    (reads_startTagMarkup _ hhtml hnone).append (reads_startTagMarkup _ hbodyTag hnone)
  have hback : Reads (fun _ => none) (.text .data) (endTagMarkup .body ++ endTagMarkup .html)
      documentEnd (.text .data) :=
    (reads_endTagMarkup _ hbodyTag).append (reads_endTagMarkup _ hhtml)
  exact (hfront.append hbody).append hback

/-- The body of a document, behind a head that no tag wrote. -/
def Frame.body : Frame := ⟨2, .body, [], .element 1 .html .head [] .empty .empty⟩

namespace Builder

/-- The tags in front leave the body open and empty. -/
theorem takes_documentStart : ∃ b : Builder, document.Takes documentStart b ∧
    b.Stands [.body, .root] .empty .document := by
  refine ⟨_, .cons rfl rfl (.cons rfl rfl (.nil _)), ?_⟩
  exact
    { tree_eq := rfl
      stack_eq := rfl
      mode_eq := rfl
      fostering_eq := rfl
      dropsNewline_eq := rfl
      templateModes_eq := rfl
      tableText_eq := rfl
      fragment_eq := rfl
      nodup_ids := by decide
      id_lt := by decide
      exists_entries := ⟨[], List.nil_sublist _, nofun, rfl⟩ }

namespace Stands

variable {inner : Forest} {b : Builder}

/-- In the body of a document the rules of running content apply. -/
theorem takeOnce_document {frames : List Frame} (h : Stands frames inner .document b)
    (token : Token) : b.takeOnce token = b.inBodyRule token := by
  have hmode : b.mode = .inBody := h.mode_eq
  rw [takeOnce_eq h.current_html, modeRule, hmode]

/-- The tags behind leave the tree as it is, and so does the end of the document. -/
theorem takes_documentEnd (h : Stands [.body, .root] inner .document b) :
    ∃ b' : Builder, b.Takes documentEnd b' ∧ (b'.take .done).1.tree = b.tree := by
  have hbody : (b.setMode .afterBody).current.vocabulary = .html := h.current_html
  have hhtml : (b.setMode .afterDocument).current.vocabulary = .html := h.current_html
  have hfirst : b.take (.endTag .body) = (b.setMode .afterBody, .done) := by
    have hhas : b.has .content .body = true := h.has_current .content
    have honce : b.takeOnce (.endTag .body) = (b.setMode .afterBody, .done) := by
      rw [h.takeOnce_document]
      show (if b.has .content .body then (b.setMode .afterBody).done else b.done) = _
      rw [hhas]
      rfl
    exact (Settles.of_done honce).take_eq (by decide) h.dropsNewline_eq ⟨nofun, nofun⟩
  have hsecond : (b.setMode .afterBody).take (.endTag .html) =
      (b.setMode .afterDocument, .done) := by
    have honce : (b.setMode .afterBody).takeOnce (.endTag .html) =
        (b.setMode .afterDocument, .done) := by
      have hfragment : b.fragment = false := h.fragment_eq
      rw [takeOnce_eq hbody]
      show (if b.fragment then (b.setMode .afterBody).done
        else (b.setMode .afterDocument).done) = _
      rw [hfragment]
      rfl
    exact (Settles.of_done honce).take_eq (by decide) h.dropsNewline_eq ⟨nofun, nofun⟩
  have hend : (b.setMode .afterDocument).take .done = (b.setMode .afterDocument, .done) := by
    have honce : (b.setMode .afterDocument).takeOnce .done =
        (b.setMode .afterDocument, .done) := by
      rw [takeOnce_eq hhtml]
      rfl
    exact (Settles.of_done honce).take_eq (by decide) h.dropsNewline_eq ⟨nofun, nofun⟩
  refine ⟨b.setMode .afterDocument, .cons hfirst hbody (.single hsecond hhtml), ?_⟩
  rw [hend]
  rfl

end Stands

end Builder

/-! ## Reading the document -/

/-- A spine in the body of a document holds what that body is parsed into. -/
theorem Builder.Stands.childNamed?_body {inner : Forest} {b : Builder}
    (h : b.Stands [.body, .root] inner .document) :
    ((b.tree.childNamed? .html).bind fun (_, children) => children.childNamed? .body) =
      some ([], inner) := by
  rw [h.tree_eq]
  simp [Frame.nest, Frame.wrap, Frame.body, Frame.root, Forest.childNamed?]

theorem return_not_mem_wrapped {body : Text} (hreturn : '\r' ∉ body) : '\r' ∉ wrapped body := by
  have hfront : '\r' ∉ ("<html><body>" : Text) := by decide
  have hback : '\r' ∉ ("</body></html>" : Text) := by decide
  rw [wrapped_eq, List.mem_append, List.mem_append, not_or, not_or]
  exact ⟨⟨hfront, hreturn⟩, hback⟩

/-- An editor tree comes back from a document with its markup as the body. -/
theorem parseBody_wrapped_innerMarkup {t : Element} (htree : t.isEditorTree = true) :
    parseBody (wrapped t.innerMarkup) = t := by
  obtain ⟨tag, attributes, children⟩ := t
  simp only [Element.isEditorTree, Bool.and_eq_true, beq_iff_eq] at htree
  obtain ⟨⟨rfl, hnone⟩, hchildren⟩ := htree
  have hempty : attributes = .empty := Attributes.eq_of_toList (List.isEmpty_iff.mp hnone)
  subst hempty
  show parseBody (wrapped (Node.markupOfAll false children)) = _
  have hfits : Holding.flow.Fits [.body, .root] := by
    simp [Holding.Fits, Frame.AreBlocks, Frame.root, Frame.body, Tag.isHeadingLevel]
  obtain ⟨b₁, hfront, hstands₁⟩ := Builder.takes_documentStart
  obtain ⟨b₂, inner, hinside, hstands₂, hnodes⟩ :=
    Node.takes_tokensOfAll children hchildren hfits hstands₁ (fun _ => rfl)
  obtain ⟨b₃, hback, htree⟩ := hstands₂.takes_documentEnd
  have hreads := reads_wrapped (Node.reads_areEditable hchildren)
  have htakes := (hfront.append hinside).append hback
  have hreturn := return_not_mem_wrapped (Node.return_not_mem_markupOfAll children hchildren)
  have hmark : (wrapped (Node.markupOfAll false children)).head? ≠ some '\uFEFF' := by
    rw [wrapped_eq, List.append_assoc]
    exact fun h => absurd (Option.some.inj h) (by decide)
  have hread : Reader.read .document (wrapped (Node.markupOfAll false children)) = b₂.tree := by
    rw [Reader.read_eq hreads htakes rfl hreturn hmark, htree]
  have hbody := hstands₂.childNamed?_body
  obtain ⟨⟨rootAttributes, content⟩, hroot, hinner⟩ := Option.bind_eq_some_iff.mp hbody
  rw [parseBody, parseBody?, hread, hroot]
  simp only [Option.bind_some] at hinner ⊢
  simp only [hinner, hnodes, Option.map_some, Option.getD_some]
  rfl

/-! ## Importing the document -/

namespace Import

theorem isDocument_wrapped (body : Text) : isDocument (wrapped body) = true := by
  rfl

end Import

/-- The octets of a document with the markup of an editor tree as its body are imported as that
markup without blanks around it, with the one note that only the body was kept, and the body of
the document is the tree. -/
theorem ofOctets_encode_wrapped {t : Element} (htree : t.isEditorTree = true) :
    Import.ofOctets (Utf8.encode (wrapped t.innerMarkup)) =
        .ok ⟨Text.trim t.innerMarkup, [.wholeDocument]⟩ ∧
      parseBody (wrapped t.innerMarkup) = t := by
  have hparse := parseBody_wrapped_innerMarkup htree
  refine ⟨?_, hparse⟩
  have htext : Import.textOf (Utf8.encode (wrapped t.innerMarkup)) =
      (wrapped t.innerMarkup, []) := by
    rw [Import.textOf, Utf8.decode_encode]
  have hmarks : Import.withoutMarks (wrapped t.innerMarkup) = wrapped t.innerMarkup := rfl
  have hblank : Text.isBlankText (wrapped t.innerMarkup) = false := rfl
  have hbody : Import.bodyOf (wrapped t.innerMarkup) = Text.trim t.innerMarkup := by
    rw [Import.bodyOf, Import.isDocument_wrapped, if_pos rfl, hparse]
  simp only [Import.ofOctets, htext, hmarks, hblank, hbody, Import.isDocument_wrapped]
  rfl

/-- A byte order mark in front, white space at the end, and in between a list and an anchor. -/
def blankEndsSample : Element :=
  ⟨.body, .empty,
    [.text "\uFEFF \n",
     .element .ul .empty
       [.element .li .empty [.text "\n", .element .p .empty [.text "</body> & more"]]],
     .element .a (.ofList [⟨"href", "?a=1&b=\"2\""⟩]) [.element .img .empty []],
     .text " \n"]⟩

theorem ofOctets_encode_wrapped_blankEnds :
    blankEndsSample.isEditorTree = true ∧
      Import.ofOctets (Utf8.encode (wrapped blankEndsSample.innerMarkup)) =
        .ok ⟨Text.trim blankEndsSample.innerMarkup, [.wholeDocument]⟩ ∧
      parseBody (wrapped blankEndsSample.innerMarkup) = blankEndsSample := by
  have htree : blankEndsSample.isEditorTree = true := by decide
  exact ⟨htree, ofOctets_encode_wrapped htree⟩

end Letterpress
