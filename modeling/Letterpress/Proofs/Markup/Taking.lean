/-
# Every rule treats alike what is alike

Whichever rule takes the next token, states that are alike stay so, tokens that are
alike are handed on alike, and a token that is no start of a text leaves alone how
text is read on. Each rule is followed once, from the elementary steps; `take` then
has all of this, however often a rule hands its token on to another.
-/

import Letterpress.Proofs.Markup.Likeness

namespace Letterpress

/-- The groups of start tags of elements whose text is read in another way. -/
def StartGroup.startsText : StartGroup → Bool
  | .plaintext | .textarea | .listingText | .frame | .hiddenText => true
  | _ => false

theorem Tag.startsText_of_startGroup {tag : Tag} (hgroup : tag.startGroup.startsText = true) :
    tag.startsText = true := by
  cases tag
  all_goals first | rfl | exact nomatch hgroup

theorem Tag.eq_image_of_startGroup {tag : Tag} (hgroup : tag.startGroup = .image) :
    tag = .image := by
  cases tag
  all_goals first | rfl | exact nomatch hgroup

/-- Whether text is read on as before. -/
def Next.isPlain : Next → Bool
  | .done | .again => true
  | .read _ | .scriptEnded => false

namespace Likeness

/-- Results of a rule that are alike, for a token that is plain or not. -/
structure Outcomes (L : Likeness) (plain : Bool) (r s : Builder × Next) : Prop where
  builders : L.Builders r.1 s.1
  next_eq : s.2 = r.2
  isPlain_next : plain = true → r.2.isPlain = true

variable {L : Likeness} {b c : Builder} {t u : StartTag} {tag : Tag} {token token' : Token}
  {plain : Bool}

/-- Whether a start tag breaks foreign content off. -/
theorem Starts.breaksForeign_eq (ht : L.Starts t u) :
    Builder.breaksForeign u = Builder.breaksForeign t := by
  by_cases hread : t.tag.isReadWithAttributes = true
  · rw [ht.eq_of_isReadWithAttributes hread]
  · have hfont : t.tag ≠ .font := by
      intro hfont
      exact hread (by rw [hfont]; rfl)
    unfold Builder.breaksForeign
    rw [ht.tag_eq]
    split
    all_goals first | rfl | exact absurd ‹t.tag = .font› hfont

theorem Tokens.isNewline_eq (htoken : L.Tokens token token') :
    decide (token' = .char '\n') = decide (token = .char '\n') := by
  cases htoken with
  | startTag ht => rfl
  | comment hxy => rfl
  | _ => rfl

namespace Builders

theorem done (h : L.Builders b c) : L.Outcomes plain b.done c.done := ⟨h, rfl, fun _ => rfl⟩

theorem again (h : L.Builders b c) (mode : Mode) :
    L.Outcomes plain (b.again mode) (c.again mode) :=
  ⟨h.setMode mode, rfl, fun _ => rfl⟩

theorem handOn (h : L.Builders b c) : L.Outcomes plain (b, .again) (c, .again) :=
  ⟨h, rfl, fun _ => rfl⟩

theorem startText (h : L.Builders b c) (ht : L.Starts t u) (content : Lexer.Content)
    (htag : t.tag.startsText = true) :
    L.Outcomes (!t.tag.startsText) (b.openText t content) (c.openText u content) := by
  refine ⟨h.openText ht content, rfl, ?_⟩
  intro hplain
  rw [htag] at hplain
  cases hplain

/-! ## Before the body -/

theorem initialRule (h : L.Builders b c) (htoken : L.Tokens token token') :
    L.Outcomes plain (b.initialRule token) (c.initialRule token') := by
  have hold (old : Bool) : L.Builders { b with old := old } { c with old := old } :=
    h.update (fun d => { d with old := old }) (fun _ _ => rfl) rfl rfl
  unfold Builder.initialRule
  cases htoken with
  | char hc =>
      dsimp only
      split
      · exact h.done
      · exact (hold true).again .beforeHtml
  | comment hxy => exact h.done
  | doctype d => exact ((hold d.isOld).setMode .beforeHtml).done
  | _ => exact (hold true).again .beforeHtml

theorem beforeHtmlRule (h : L.Builders b c) (htoken : L.Tokens token token') :
    L.Outcomes plain (b.beforeHtmlRule token) (c.beforeHtmlRule token') := by
  have hroot : L.Outcomes plain ((b.openRoot []).again .beforeHead)
      ((c.openRoot []).again .beforeHead) :=
    (h.openRoot (L.attributes_nil .html)).again .beforeHead
  unfold Builder.beforeHtmlRule
  cases htoken with
  | char hc =>
      dsimp only
      split
      · exact h.done
      · exact hroot
  | comment hxy => exact h.done
  | @startTag t u ht =>
      dsimp only
      rw [ht.tag_eq]
      split
      · rename_i htag
        exact ((h.openRoot (htag ▸ ht.attributes)).setMode .beforeHead).done
      · exact hroot
  | endTag tag =>
      dsimp only
      split
      case h_5 => exact h.done
      all_goals exact hroot
  | _ => exact hroot

theorem extendRoot (h : L.Builders b c) (ht : L.Starts t u) :
    L.Builders (b.extendRoot t) (c.extendRoot u) := by
  unfold Builder.extendRoot
  rw [h.inTemplate_eq]
  split
  · exact h
  · exact h.setTree (L.trees_addAttributes Builder.root.id ht.attributes h.trees)

theorem rememberHead (h : L.Builders b c) : L.Builders b.rememberHead c.rememberHead :=
  h.update Builder.rememberHead (fun _ _ => rfl) rfl rfl

theorem beforeHeadRule (h : L.Builders b c) (htoken : L.Tokens token token') :
    L.Outcomes plain (b.beforeHeadRule token) (c.beforeHeadRule token') := by
  have hhead : L.Outcomes plain ((b.openImplied .head).rememberHead.again .inHead)
      ((c.openImplied .head).rememberHead.again .inHead) :=
    (h.openImplied (by decide)).rememberHead.again .inHead
  unfold Builder.beforeHeadRule
  cases htoken with
  | char hc =>
      dsimp only
      split
      · exact h.done
      · exact hhead
  | comment hxy => exact (h.addComment hxy).done
  | @startTag t u ht =>
      dsimp only
      rw [ht.tag_eq]
      split
      · exact (h.extendRoot ht).done
      · exact ((h.openElement ht).rememberHead.setMode .inHead).done
      · exact hhead
  | endTag tag =>
      dsimp only
      split
      case h_5 => exact h.done
      all_goals exact hhead
  | _ => exact hhead

theorem openTemplate (h : L.Builders b c) (ht : L.Starts t u) :
    L.Builders (b.openTemplate t) (c.openTemplate u) := by
  have hready := ((h.mark.forbidFrames).setMode .inTemplate).update
    (fun d => { d with templateModes := .inTemplate :: b.templateModes }) (fun _ _ => rfl) rfl rfl
  unfold Builder.openTemplate
  rw [h.templateModes_eq]
  exact hready.openElement ht

theorem leaveTemplate (h : L.Builders b c) : L.Builders b.leaveTemplate c.leaveTemplate := by
  have hleft := (h.closeThrough .template).clearToMarker.update
    (fun d => { d with templateModes := b.templateModes.tail }) (fun _ _ => rfl) rfl rfl
  unfold Builder.leaveTemplate
  rw [h.templateModes_eq]
  exact hleft.resetMode

theorem endTemplate (h : L.Builders b c) : L.Builders b.endTemplate c.endTemplate := by
  unfold Builder.endTemplate
  rw [h.inTemplate_eq]
  split
  · exact (h.onStack _).leaveTemplate
  · exact h

theorem inHeadRule (h : L.Builders b c) (htoken : L.Tokens token token') :
    L.Outcomes token.isPlain (b.inHeadRule token) (c.inHeadRule token') := by
  have hafter : L.Outcomes token.isPlain (b.close.again .afterHead) (c.close.again .afterHead) :=
    h.close.again .afterHead
  unfold Builder.inHeadRule
  cases htoken with
  | char hc =>
      dsimp only
      split
      · exact (h.addChar hc).done
      · exact hafter
  | comment hxy => exact (h.addComment hxy).done
  | @startTag t u ht =>
      dsimp only
      rw [ht.tag_eq]
      split
      case h_1 => exact (h.extendRoot ht).done
      case h_2 | h_3 | h_4 | h_5 | h_6 => exact (h.addEmpty ht).done
      case h_7 | h_8 | h_9 | h_10 | h_11 =>
        rename_i htag
        exact h.startText ht _ (by rw [htag]; rfl)
      case h_12 => exact (h.openTemplate ht).done
      case h_13 => exact h.done
      case h_14 => exact hafter
  | endTag tag =>
      dsimp only
      split
      · exact (h.close.setMode .afterHead).done
      · exact hafter
      · exact hafter
      · exact hafter
      · exact h.endTemplate.done
      · exact h.done
  | _ => exact hafter

theorem afterHeadRule (h : L.Builders b c) (htoken : L.Tokens token token') :
    L.Outcomes token.isPlain (b.afterHeadRule token) (c.afterHeadRule token') := by
  have hbody : L.Outcomes token.isPlain ((b.openImplied .body).again .inBody)
      ((c.openImplied .body).again .inBody) :=
    (h.openImplied (by decide)).again .inBody
  unfold Builder.afterHeadRule
  cases htoken with
  | char hc =>
      dsimp only
      split
      · exact (h.addChar hc).done
      · exact hbody
  | comment hxy => exact (h.addComment hxy).done
  | @startTag t u ht =>
      have htaken := (h.onStack (b.head.getD Builder.root :: ·)).inHeadRule (.startTag ht)
      have hhead := htaken.builders.onStack (·.without (b.head.getD Builder.root).id)
      dsimp only
      rw [ht.tag_eq, h.head_eq]
      split
      case h_1 => exact (h.extendRoot ht).done
      case h_2 => exact ((h.openElement ht).forbidFrames.setMode .inBody).done
      case h_3 => exact (h.setMode .frames).done
      case h_14 => exact h.done
      case h_15 => exact hbody
      all_goals exact ⟨hhead, htaken.next_eq, htaken.isPlain_next⟩
  | endTag tag =>
      dsimp only
      split
      · exact h.inHeadRule (.endTag .template)
      · exact hbody
      · exact hbody
      · exact hbody
      · exact h.done
  | _ => exact hbody

/-! ## Running content -/

theorem openForeign (h : L.Builders b c) (vocabulary : Vocabulary) (ht : L.Starts t u) :
    L.Builders (b.openForeign vocabulary t) (c.openForeign vocabulary u) := by
  have hopened := h.openIn vocabulary ht.name (L.attributes_localName ht.attributes)
  unfold Builder.openForeign
  dsimp only
  rw [ht.selfClosing_eq, ht.tag_eq]
  split
  · exact hopened.close
  · exact hopened

theorem bodyChar (h : L.Builders b c) {ch : Char} (hch : L.chars ch) :
    L.Builders (b.bodyChar ch) (c.bodyChar ch) := by
  have hplaced := h.reopenFormatting.addChar hch
  unfold Builder.bodyChar
  dsimp only
  split
  · exact hplaced
  · exact hplaced.forbidFrames

theorem closeItem (h : L.Builders b c) (isItem : Tag → Bool) :
    L.Builders (b.closeItem isItem) (c.closeItem isItem) := by
  unfold Builder.closeItem
  rw [h.stack_eq]
  split
  · split
    · exact (h.closeImpliedBut _).closeThrough _
    · exact h
  · exact h

theorem openItem (h : L.Builders b c) (isItem : Tag → Bool) (ht : L.Starts t u) :
    L.Builders (b.openItem isItem t) (c.openItem isItem u) :=
  ((h.forbidFrames.closeItem isItem).closeParagraph).openElement ht

theorem dropBody (h : L.Builders b c) (body : OpenElement) :
    L.Builders (b.dropBody body) (c.dropBody body) := by
  have hdetached := L.trees_detach body.id h.trees
  unfold Builder.dropBody
  generalize b.tree.detach? body.id = x, c.tree.detach? body.id = y at hdetached
  cases hdetached with
  | some hparts => exact h.setTree hparts.2
  | none => exact h

/-- A start tag in running content. -/
theorem bodyStart (h : L.Builders b c) (ht : L.Starts t u) :
    L.Outcomes (!t.tag.startsText) (b.bodyStart t) (c.bodyStart u) := by
  have hreopened := h.reopenFormatting
  have hclosed := h.closeParagraph
  have hstarts (hgroup : t.tag.startGroup.startsText = true) :=
    Tag.startsText_of_startGroup hgroup
  have hread (hgroup : t.tag.startGroup.isReadWithAttributes = true) :=
    Tag.isReadWithAttributes_of_startGroup hgroup
  unfold Builder.bodyStart
  rw [ht.tag_eq]
  cases hgroup : t.tag.startGroup with
  | root => exact (h.extendRoot ht).done
  | headContent => exact h.inHeadRule (.startTag ht)
  | body =>
      dsimp only
      rw [h.body?_eq, h.inTemplate_eq]
      split
      · split
        · exact h.done
        · exact (h.forbidFrames.setTree
            (L.trees_addAttributes _ ht.attributes h.trees)).done
      · exact h.done
  | frames =>
      dsimp only
      rw [h.body?_eq, h.framesAllowed_eq]
      split
      · split
        · exact ((h.dropBody _).setMode .frames).done
        · exact h.done
      · exact h.done
  | block => exact (hclosed.openElement ht).done
  | heading =>
      dsimp only
      rw [hclosed.stack_eq]
      split
      · exact (hclosed.close.openElement ht).done
      · exact (hclosed.openElement ht).done
  | preformatted =>
      exact ((hclosed.openElement ht).forbidFrames.update (fun d => { d with dropsNewline := true })
        (fun _ _ => rfl) rfl rfl).done
  | form =>
      have hopened := hclosed.openElement ht
      dsimp only
      rw [h.form_eq, h.inTemplate_eq]
      split
      · exact h.done
      · split
        · exact hopened.done
        · rw [hopened.current_eq]
          exact (hopened.update (fun d => { d with
            form := some (b.closeParagraph.openElement t).current.id }) (fun _ _ => rfl) rfl
              rfl).done
  | listItem => exact (h.openItem _ ht).done
  | definition => exact (h.openItem _ ht).done
  | plaintext =>
      have htext : t.tag.startsText = true := hstarts (by rw [hgroup]; rfl)
      exact ⟨hclosed.openElement ht, rfl, by simp [htext]⟩
  | button =>
      dsimp only
      rw [h.has_eq]
      split
      · exact ((h.closeImplied.closeThrough .button).reopenFormatting.openElement
          ht).forbidFrames.done
      · exact (hreopened.openElement ht).forbidFrames.done
  | anchor =>
      exact (h.endOpenAnchor.reopenFormatting.openFormatting ht
        (hread (by rw [hgroup]; rfl))).done
  | formatting => exact (hreopened.openFormatting ht (hread (by rw [hgroup]; rfl))).done
  | nobr =>
      dsimp only
      rw [hreopened.has_eq]
      split
      · exact ((hreopened.endFormatting .nobr).reopenFormatting.openFormatting ht
          (hread (by rw [hgroup]; rfl))).done
      · exact (hreopened.openFormatting ht (hread (by rw [hgroup]; rfl))).done
  | bounded => exact (hreopened.openElement ht).mark.forbidFrames.done
  | table =>
      dsimp only
      rw [h.old_eq]
      split
      · exact ((h.openElement ht).forbidFrames.setMode .inTable).done
      · exact ((hclosed.openElement ht).forbidFrames.setMode .inTable).done
  | inlineVoid => exact (hreopened.addEmpty ht).forbidFrames.done
  | input =>
      obtain rfl := ht.eq_of_isReadWithAttributes (hread (by rw [hgroup]; rfl))
      dsimp only
      split
      · exact (hreopened.addEmpty ht).done
      · exact (hreopened.addEmpty ht).forbidFrames.done
  | belonging => exact (h.addEmpty ht).done
  | rule => exact (hclosed.addEmpty ht).forbidFrames.done
  | image =>
      have himage : t.tag = .image := Tag.eq_image_of_startGroup hgroup
      have himg : L.names .img := L.names_supplied (by decide)
      have hrenamed : L.Starts { t with tag := .img } { u with tag := .img } :=
        ⟨rfl, ht.selfClosing_eq, himg, L.attributes_image (himage ▸ ht.attributes)⟩
      exact (hreopened.addEmpty hrenamed).forbidFrames.done
  | textarea =>
      have hready := h.update (fun d => { d with dropsNewline := true }) (fun _ _ => rfl) rfl rfl
      exact hready.forbidFrames.startText ht _ (hstarts (by rw [hgroup]; rfl))
  | listingText =>
      exact hclosed.reopenFormatting.forbidFrames.startText ht _ (hstarts (by rw [hgroup]; rfl))
  | frame => exact h.forbidFrames.startText ht _ (hstarts (by rw [hgroup]; rfl))
  | hiddenText => exact h.startText ht _ (hstarts (by rw [hgroup]; rfl))
  | select =>
      have hopened := (hreopened.openElement ht).forbidFrames
      dsimp only
      rw [h.mode_eq]
      split
      all_goals exact (hopened.setMode _).done
  | option => exact ((h.closeIf .option).reopenFormatting.openElement ht).done
  | rubyBase =>
      dsimp only
      rw [h.has_eq]
      split
      · exact (h.closeImplied.openElement ht).done
      · exact (h.openElement ht).done
  | rubyText =>
      dsimp only
      rw [h.has_eq]
      split
      · exact ((h.closeImpliedBut .rtc).openElement ht).done
      · exact (h.openElement ht).done
  | math => exact (h.openForeign .math ht).done
  | svg => exact (h.openForeign .svg ht).done
  | misplaced => exact h.done
  | ordinary => exact (hreopened.openElement ht).done

theorem endForm (h : L.Builders b c) : L.Builders b.endForm c.endForm := by
  unfold Builder.endForm
  rw [h.inTemplate_eq, h.form_eq, h.has_eq]
  split
  · split
    · exact h.closeImplied.closeThrough .form
    · exact h
  · split
    · exact h
    · have hreleased := h.update (fun d => { d with form := none }) (fun _ _ => rfl) rfl rfl
      have hscope (p : OpenElement → Bool) :
          c.stack.hasInScope .content p = b.stack.hasInScope .content p := by
        rw [h.stack_eq]
      dsimp only
      rw [hscope]
      split
      · exact hreleased.closeImplied.onStack _
      · exact hreleased

/-- An end tag in running content. -/
theorem bodyEnd (h : L.Builders b c) (tag : Tag) :
    L.Outcomes plain (b.bodyEnd tag) (c.bodyEnd tag) := by
  have hclosed := (h.closeImpliedBut tag).closeThrough tag
  unfold Builder.bodyEnd
  cases tag.endGroup with
  | template => exact h.endTemplate.done
  | body =>
      dsimp only
      rw [h.has_eq]
      split
      · exact (h.setMode .afterBody).done
      · exact h.done
  | root =>
      dsimp only
      rw [h.has_eq]
      split
      · exact h.again .afterBody
      · exact h.done
  | block =>
      dsimp only
      rw [h.has_eq]
      split
      · exact (h.closeImplied.closeThrough tag).done
      · exact h.done
  | form => exact h.endForm.done
  | paragraph =>
      dsimp only
      rw [h.has_eq]
      split
      · exact ((h.closeImpliedBut .p).closeThrough .p).done
      · exact (((h.openImplied (by decide)).closeImpliedBut .p).closeThrough .p).done
  | listItem =>
      dsimp only
      rw [h.has_eq]
      split
      · exact hclosed.done
      · exact h.done
  | definition =>
      dsimp only
      rw [h.has_eq]
      split
      · exact hclosed.done
      · exact h.done
  | heading =>
      dsimp only
      rw [h.stack_eq]
      split
      · exact (h.closeImplied.onStack _).done
      · exact h.done
  | formatting => exact (h.endFormatting tag).done
  | bounded =>
      dsimp only
      rw [h.has_eq]
      split
      · exact (h.closeImplied.closeThrough tag).clearToMarker.done
      · exact h.done
  | lineBreak =>
      have hbreak : L.Starts ⟨.br, [], false⟩ ⟨.br, [], false⟩ :=
        ⟨rfl, rfl, L.names_supplied (by decide), L.attributes_nil .br⟩
      have htaken := h.bodyStart hbreak
      exact ⟨htaken.builders, htaken.next_eq, fun _ => htaken.isPlain_next rfl⟩
  | ordinary => exact (h.endElement tag).done

theorem templateDone (h : L.Builders b c) : L.Outcomes plain b.templateDone c.templateDone := by
  unfold Builder.templateDone
  rw [h.inTemplate_eq]
  split
  · exact h.leaveTemplate.handOn
  · exact h.done

theorem inBodyRule (h : L.Builders b c) (htoken : L.Tokens token token') :
    L.Outcomes token.isPlain (b.inBodyRule token) (c.inBodyRule token') := by
  unfold Builder.inBodyRule
  cases htoken with
  | char hc => exact (h.bodyChar hc).done
  | comment hxy => exact (h.addComment hxy).done
  | startTag ht => exact h.bodyStart ht
  | endTag tag => exact h.bodyEnd tag
  | done =>
      dsimp only
      rw [h.templateModes_eq]
      split
      · exact h.done
      · exact h.templateDone
  | _ => exact h.done

theorem textRule (h : L.Builders b c) (htoken : L.Tokens token token') :
    L.Outcomes token.isPlain (b.textRule token) (c.textRule token') := by
  unfold Builder.textRule
  rw [h.returnMode_eq]
  cases htoken with
  | char hc => exact (h.addChar hc).done
  | done => exact h.close.again _
  | endTag tag =>
      dsimp only
      split
      · rename_i htag
        exact ⟨h.close.setMode _, rfl, by simp [Token.isPlain, htag]⟩
      · exact (h.close.setMode _).done
  | _ => exact h.done

theorem afterBodyRule (h : L.Builders b c) (htoken : L.Tokens token token') :
    L.Outcomes token.isPlain (b.afterBodyRule token) (c.afterBodyRule token') := by
  unfold Builder.afterBodyRule
  cases htoken with
  | char hc =>
      dsimp only
      split
      · exact h.inBodyRule (.char hc)
      · exact h.again .inBody
  | comment hxy => exact h.done
  | @startTag t u ht =>
      dsimp only
      rw [ht.tag_eq]
      split
      · exact h.inBodyRule (.startTag ht)
      · exact h.again .inBody
  | endTag tag =>
      dsimp only
      rw [h.fragment_eq]
      split
      · split
        · exact h.done
        · exact (h.setMode .afterDocument).done
      · exact h.again .inBody
  | done => exact h.done
  | _ => exact h.again .inBody

theorem afterDocumentRule (h : L.Builders b c) (htoken : L.Tokens token token') :
    L.Outcomes token.isPlain (b.afterDocumentRule token) (c.afterDocumentRule token') := by
  unfold Builder.afterDocumentRule
  cases htoken with
  | char hc =>
      dsimp only
      split
      · exact h.inBodyRule (.char hc)
      · exact h.again .inBody
  | comment hxy => exact h.done
  | @startTag t u ht =>
      dsimp only
      rw [ht.tag_eq]
      split
      · exact h.inBodyRule (.startTag ht)
      · exact h.again .inBody
  | done => exact h.done
  | _ => exact h.again .inBody

/-! ## Tables -/

theorem fosterRule (h : L.Builders b c) (htoken : L.Tokens token token') :
    L.Outcomes token.isPlain (b.fosterRule token) (c.fosterRule token') := by
  have hready := h.update (fun d => { d with fostering := true }) (fun _ _ => rfl) rfl rfl
  have htaken := hready.inBodyRule htoken
  exact ⟨htaken.builders.update (fun d => { d with fostering := false }) (fun _ _ => rfl) rfl rfl,
    htaken.next_eq, htaken.isPlain_next⟩

theorem tableChar (h : L.Builders b c) (htoken : L.Tokens token token') :
    L.Outcomes token.isPlain (b.tableChar token) (c.tableChar token') := by
  have hready := h.update (fun d => { d with returnMode := b.mode }) (fun _ _ => rfl) rfl rfl
  have hpart : c.stack.currentIs (·.satisfies Tag.isTablePart) =
      b.stack.currentIs (·.satisfies Tag.isTablePart) := by
    rw [h.stack_eq]
  unfold Builder.tableChar
  rw [hpart, h.mode_eq]
  split
  · exact hready.again .inTableText
  · exact h.fosterRule htoken

/-- Text that a table held back is placed as text that comes now. -/
theorem placeTableText (h : L.Builders b c) :
    L.Builders b.placeTableText c.placeTableText := by
  have hready : L.Builders { b with tableText := [] } { c with tableText := [] } :=
    h.setTableText nofun
  have hchar : ∀ ch ∈ b.tableText.reverse, L.chars ch := by
    intro ch hch
    exact h.tableText ch (List.mem_reverse.mp hch)
  unfold Builder.placeTableText
  dsimp only
  rw [h.tableText_eq]
  split
  · apply foldl _ hready
    intro ch hch b' c' h'
    exact h'.addChar (hchar ch hch)
  · apply foldl _ hready
    intro ch hch b' c' h'
    exact (h'.fosterRule (.char (hchar ch hch))).builders

theorem inTableTextRule (h : L.Builders b c) (htoken : L.Tokens token token') :
    L.Outcomes plain (b.inTableTextRule token) (c.inTableTextRule token') := by
  have hplaced : L.Outcomes plain (b.placeTableText.again b.returnMode)
      (c.placeTableText.again c.returnMode) := by
    rw [h.returnMode_eq]
    exact h.placeTableText.again _
  unfold Builder.inTableTextRule
  cases htoken with
  | null => exact h.done
  | char hc =>
      dsimp only
      rw [h.tableText_eq]
      exact (h.setTableText (List.forall_mem_cons.mpr ⟨hc, h.tableText⟩)).done
  | _ => exact hplaced

theorem inTableRule (h : L.Builders b c) (htoken : L.Tokens token token') :
    L.Outcomes token.isPlain (b.inTableRule token) (c.inTableRule token') := by
  have htable := h.closeTo Builder.boundsTable
  have hleft := (h.closeThrough .table).resetMode
  unfold Builder.inTableRule
  cases htoken with
  | null => exact h.tableChar .null
  | char hc => exact h.tableChar (.char hc)
  | comment hxy => exact (h.addComment hxy).done
  | @startTag t u ht =>
      dsimp only
      rw [ht.tag_eq, h.has_eq, h.form_eq, h.inTemplate_eq]
      split
      case h_1 => exact ((htable.mark.openElement ht).setMode .inCaption).done
      case h_2 => exact ((htable.openElement ht).setMode .inColumnGroup).done
      case h_3 => exact (htable.openImplied (by decide)).again .inColumnGroup
      case h_4 | h_5 | h_6 => exact ((htable.openElement ht).setMode .inTableBody).done
      case h_7 | h_8 | h_9 => exact (htable.openImplied (by decide)).again .inTableBody
      case h_10 =>
        split
        · exact hleft.handOn
        · exact h.done
      case h_11 | h_12 | h_13 => exact h.inHeadRule (.startTag ht)
      case h_14 =>
        rename_i htag
        obtain rfl := ht.eq_of_isReadWithAttributes (by rw [htag]; rfl)
        split
        · exact (h.addEmpty ht).done
        · exact h.fosterRule (.startTag ht)
      case h_15 =>
        have hopened := h.openElement ht
        split
        · rw [hopened.current_eq]
          exact (hopened.close.update (fun d => { d with
            form := some (b.openElement t).current.id }) (fun _ _ => rfl) rfl rfl).done
        · exact h.done
      case h_16 => exact h.fosterRule (.startTag ht)
  | endTag tag =>
      dsimp only
      rw [h.has_eq]
      split
      case h_1 =>
        split
        · exact hleft.done
        · exact h.done
      case h_13 => exact h.inHeadRule (.endTag .template)
      case h_14 => exact h.fosterRule (.endTag _)
      all_goals exact h.done
  | done => exact h.inBodyRule .done
  | doctype d => exact h.fosterRule (.doctype d)
  | flaw => exact h.fosterRule .flaw

theorem endCaption (h : L.Builders b c) {next : Builder → Builder × Next}
    (hnext : ∀ {b c : Builder}, L.Builders b c → L.Outcomes plain (next b) (next c)) :
    L.Outcomes plain (b.endCaption next) (c.endCaption next) := by
  unfold Builder.endCaption
  rw [h.has_eq]
  split
  · exact hnext (h.closeImplied.closeThrough .caption).clearToMarker
  · exact h.done

theorem inCaptionRule (h : L.Builders b c) (htoken : L.Tokens token token') :
    L.Outcomes token.isPlain (b.inCaptionRule token) (c.inCaptionRule token') := by
  have hended : L.Outcomes token.isPlain (b.endCaption (·.again .inTable))
      (c.endCaption (·.again .inTable)) :=
    h.endCaption fun h' => h'.again .inTable
  unfold Builder.inCaptionRule
  cases htoken with
  | @startTag t u ht =>
      dsimp only
      rw [ht.tag_eq]
      split
      case h_10 => exact h.inBodyRule (.startTag ht)
      all_goals exact hended
  | endTag tag =>
      dsimp only
      split
      case h_1 => exact h.endCaption fun h' => (h'.setMode .inTable).done
      case h_2 => exact hended
      case h_13 => exact h.inBodyRule (.endTag _)
      all_goals exact h.done
  | comment hxy => exact h.inBodyRule (.comment hxy)
  | char hc => exact h.inBodyRule (.char hc)
  | doctype d => exact h.inBodyRule (.doctype d)
  | null => exact h.inBodyRule .null
  | flaw => exact h.inBodyRule .flaw
  | done => exact h.inBodyRule .done

theorem inColumnGroupRule (h : L.Builders b c) (htoken : L.Tokens token token') :
    L.Outcomes token.isPlain (b.inColumnGroupRule token) (c.inColumnGroupRule token') := by
  have hother : L.Outcomes token.isPlain
      (if b.currentIs .colgroup then b.close.again .inTable else b.done)
      (if c.currentIs .colgroup then c.close.again .inTable else c.done) := by
    rw [h.currentIs_eq]
    split
    · exact h.close.again .inTable
    · exact h.done
  unfold Builder.inColumnGroupRule
  cases htoken with
  | char hc =>
      dsimp only
      split
      · exact (h.addChar hc).done
      · exact hother
  | comment hxy => exact (h.addComment hxy).done
  | @startTag t u ht =>
      dsimp only
      rw [ht.tag_eq]
      split
      · exact h.inBodyRule (.startTag ht)
      · exact (h.addEmpty ht).done
      · exact h.inHeadRule (.startTag ht)
      · exact hother
  | endTag tag =>
      dsimp only
      split
      · rw [h.currentIs_eq]
        split
        · exact (h.close.setMode .inTable).done
        · exact h.done
      · exact h.done
      · exact h.inHeadRule (.endTag .template)
      · exact hother
  | done => exact h.inBodyRule .done
  | _ => exact hother

theorem inTableBodyRule (h : L.Builders b c) (htoken : L.Tokens token token') :
    L.Outcomes token.isPlain (b.inTableBodyRule token) (c.inTableBodyRule token') := by
  have hrows := h.closeTo Builder.holdsRows
  have hleave : L.Outcomes token.isPlain
      (if b.stack.hasInScope .table (fun e => e.is .table || e.is .tbody || e.is .tfoot) then
        (b.closeTo Builder.holdsRows).close.again .inTable else b.done)
      (if c.stack.hasInScope .table (fun e => e.is .table || e.is .tbody || e.is .tfoot) then
        (c.closeTo Builder.holdsRows).close.again .inTable else c.done) := by
    rw [h.stack_eq]
    split
    · exact hrows.close.again .inTable
    · exact h.done
  unfold Builder.inTableBodyRule
  cases htoken with
  | @startTag t u ht =>
      dsimp only
      rw [ht.tag_eq]
      split
      case h_1 => exact ((hrows.openElement ht).setMode .inRow).done
      case h_2 | h_3 => exact (hrows.openImplied (by decide)).again .inRow
      case h_10 => exact h.inTableRule (.startTag ht)
      all_goals exact hleave
  | endTag tag =>
      dsimp only
      split
      case h_1 | h_2 | h_3 =>
        rw [h.has_eq]
        split
        · exact (hrows.close.setMode .inTable).done
        · exact h.done
      case h_4 => exact hleave
      case h_13 => exact h.inTableRule (.endTag _)
      all_goals exact h.done
  | comment hxy => exact h.inTableRule (.comment hxy)
  | char hc => exact h.inTableRule (.char hc)
  | doctype d => exact h.inTableRule (.doctype d)
  | null => exact h.inTableRule .null
  | flaw => exact h.inTableRule .flaw
  | done => exact h.inTableRule .done

theorem inRowRule (h : L.Builders b c) (htoken : L.Tokens token token') :
    L.Outcomes token.isPlain (b.inRowRule token) (c.inRowRule token') := by
  have hcells := h.closeTo Builder.holdsCells
  have hleave : L.Outcomes token.isPlain
      (if b.has .table .tr then (b.closeTo Builder.holdsCells).close.again .inTableBody else b.done)
      (if c.has .table .tr then (c.closeTo Builder.holdsCells).close.again .inTableBody
        else c.done) := by
    rw [h.has_eq]
    split
    · exact hcells.close.again .inTableBody
    · exact h.done
  unfold Builder.inRowRule
  cases htoken with
  | @startTag t u ht =>
      dsimp only
      rw [ht.tag_eq]
      split
      case h_1 | h_2 => exact ((hcells.openElement ht).setMode .inCell).mark.done
      case h_10 => exact h.inTableRule (.startTag ht)
      all_goals exact hleave
  | endTag tag =>
      dsimp only
      split
      case h_1 =>
        rw [h.has_eq]
        split
        · exact (hcells.close.setMode .inTableBody).done
        · exact h.done
      case h_2 => exact hleave
      case h_3 | h_4 | h_5 =>
        split
        · rename_i hopen
          rw [if_pos ((h.has_eq .table _).trans hopen)]
          exact hleave
        · rename_i hopen
          rw [if_neg fun hopen' => hopen ((h.has_eq .table _).symm.trans hopen')]
          exact h.done
      case h_13 => exact h.inTableRule (.endTag _)
      all_goals exact h.done
  | comment hxy => exact h.inTableRule (.comment hxy)
  | char hc => exact h.inTableRule (.char hc)
  | doctype d => exact h.inTableRule (.doctype d)
  | null => exact h.inTableRule .null
  | flaw => exact h.inTableRule .flaw
  | done => exact h.inTableRule .done

theorem closeCell (h : L.Builders b c) : L.Builders b.closeCell c.closeCell :=
  (h.closeImplied.onStack _).clearToMarker

theorem inCellRule (h : L.Builders b c) (htoken : L.Tokens token token') :
    L.Outcomes token.isPlain (b.inCellRule token) (c.inCellRule token') := by
  have hclosed : L.Outcomes token.isPlain (b.closeCell.again .inRow) (c.closeCell.again .inRow) :=
    h.closeCell.again .inRow
  unfold Builder.inCellRule
  cases htoken with
  | @startTag t u ht =>
      have hscope : c.stack.hasInScope .table (·.satisfies Tag.isCell) =
          b.stack.hasInScope .table (·.satisfies Tag.isCell) := by
        rw [h.stack_eq]
      dsimp only
      rw [ht.tag_eq, hscope]
      split
      case h_10 => exact h.inBodyRule (.startTag ht)
      all_goals
        split
        · exact hclosed
        · exact h.done
  | endTag tag =>
      dsimp only
      rw [h.has_eq]
      split
      case h_1 | h_2 =>
        split
        · exact ((h.closeImplied.closeThrough _).clearToMarker.setMode .inRow).done
        · exact h.done
      case h_8 | h_9 | h_10 | h_11 | h_12 =>
        split
        · exact hclosed
        · exact h.done
      case h_13 => exact h.inBodyRule (.endTag _)
      all_goals exact h.done
  | comment hxy => exact h.inBodyRule (.comment hxy)
  | char hc => exact h.inBodyRule (.char hc)
  | doctype d => exact h.inBodyRule (.doctype d)
  | null => exact h.inBodyRule .null
  | flaw => exact h.inBodyRule .flaw
  | done => exact h.inBodyRule .done

/-! ## Selections, templates and foreign content -/

theorem inSelectRule (h : L.Builders b c) (htoken : L.Tokens token token') :
    L.Outcomes token.isPlain (b.inSelectRule token) (c.inSelectRule token') := by
  have hleft := (h.closeThrough .select).resetMode
  have hoption := h.closeIf .option
  have hgroup := hoption.closeIf .optgroup
  unfold Builder.inSelectRule
  dsimp only
  rw [h.has_eq]
  cases htoken with
  | char hc => exact (h.addChar hc).done
  | comment hxy => exact (h.addComment hxy).done
  | @startTag t u ht =>
      dsimp only
      rw [ht.tag_eq]
      split
      case h_1 => exact h.inBodyRule (.startTag ht)
      case h_2 => exact (hoption.openElement ht).done
      case h_3 => exact (hgroup.openElement ht).done
      case h_4 => exact (hgroup.addEmpty ht).done
      case h_5 =>
        split
        · exact hleft.done
        · exact h.done
      case h_9 | h_10 => exact h.inHeadRule (.startTag ht)
      case h_11 => exact h.done
      all_goals
        split
        · exact hleft.handOn
        · exact h.done
  | endTag tag =>
      have htail : Stack.currentIs (·.is .optgroup) c.stack.tail =
          Stack.currentIs (·.is .optgroup) b.stack.tail := by
        rw [h.stack_eq]
      dsimp only
      rw [h.currentIs_eq, htail]
      split
      · split
        · exact (h.close.closeIf .optgroup).done
        · exact (h.closeIf .optgroup).done
      · exact hoption.done
      · split
        · exact hleft.done
        · exact h.done
      · exact h.inHeadRule (.endTag .template)
      · exact h.done
  | done => exact h.inBodyRule .done
  | _ => exact h.done

theorem inSelectInTableRule (h : L.Builders b c) (htoken : L.Tokens token token') :
    L.Outcomes token.isPlain (b.inSelectInTableRule token) (c.inSelectInTableRule token') := by
  have hleft : L.Outcomes token.isPlain ((b.closeThrough .select).resetMode, .again)
      ((c.closeThrough .select).resetMode, .again) :=
    (h.closeThrough .select).resetMode.handOn
  unfold Builder.inSelectInTableRule
  cases htoken with
  | @startTag t u ht =>
      dsimp only
      rw [ht.tag_eq]
      split
      case h_9 => exact h.inSelectRule (.startTag ht)
      all_goals exact hleft
  | endTag tag =>
      dsimp only
      rw [h.has_eq]
      split
      case h_9 => exact h.inSelectRule (.endTag _)
      all_goals
        split
        · exact hleft
        · exact h.done
  | comment hxy => exact h.inSelectRule (.comment hxy)
  | char hc => exact h.inSelectRule (.char hc)
  | doctype d => exact h.inSelectRule (.doctype d)
  | null => exact h.inSelectRule .null
  | flaw => exact h.inSelectRule .flaw
  | done => exact h.inSelectRule .done

theorem inTemplateRule (h : L.Builders b c) (htoken : L.Tokens token token') :
    L.Outcomes token.isPlain (b.inTemplateRule token) (c.inTemplateRule token') := by
  have hfollow (mode : Mode) : L.Outcomes token.isPlain
      ({ b with templateModes := mode :: b.templateModes.tail }.again mode)
      ({ c with templateModes := mode :: c.templateModes.tail }.again mode) := by
    rw [h.templateModes_eq]
    exact (h.update (fun d => { d with templateModes := mode :: b.templateModes.tail })
      (fun _ _ => rfl) rfl rfl).again mode
  unfold Builder.inTemplateRule
  cases htoken with
  | char hc => exact h.inBodyRule (.char hc)
  | comment hxy => exact h.inBodyRule (.comment hxy)
  | @startTag t u ht =>
      dsimp only
      rw [ht.tag_eq]
      split
      case h_1 | h_2 | h_3 | h_4 | h_5 | h_6 | h_7 | h_8 | h_9 | h_10 =>
        exact h.inHeadRule (.startTag ht)
      all_goals exact hfollow _
  | endTag tag =>
      dsimp only
      split
      · exact h.inHeadRule (.endTag tag)
      · exact h.done
  | done => exact h.templateDone
  | _ => exact h.done

/-- Whatever rules the mode calls for. -/
theorem modeRule (h : L.Builders b c) (htoken : L.Tokens token token') :
    L.Outcomes token.isPlain (b.modeRule token) (c.modeRule token') := by
  unfold Builder.modeRule
  rw [h.mode_eq]
  cases b.mode with
  | initial => exact h.initialRule htoken
  | beforeHtml => exact h.beforeHtmlRule htoken
  | beforeHead => exact h.beforeHeadRule htoken
  | inHead => exact h.inHeadRule htoken
  | afterHead => exact h.afterHeadRule htoken
  | inBody => exact h.inBodyRule htoken
  | text => exact h.textRule htoken
  | inTable => exact h.inTableRule htoken
  | inTableText => exact h.inTableTextRule htoken
  | inCaption => exact h.inCaptionRule htoken
  | inColumnGroup => exact h.inColumnGroupRule htoken
  | inTableBody => exact h.inTableBodyRule htoken
  | inRow => exact h.inRowRule htoken
  | inCell => exact h.inCellRule htoken
  | inSelect => exact h.inSelectRule htoken
  | inSelectInTable => exact h.inSelectInTableRule htoken
  | inTemplate => exact h.inTemplateRule htoken
  | afterBody => exact h.afterBodyRule htoken
  | afterDocument => exact h.afterDocumentRule htoken
  | frames => exact h.done

theorem foreignEnd (h : L.Builders b c) (tag : Tag) :
    L.Outcomes (tag != .script) (b.foreignEnd tag) (c.foreignEnd tag) := by
  have hstack (stack : Stack) : L.Builders { b with stack } { c with stack } :=
    h.onStack fun _ => stack
  have hgo (stack : Stack) : L.Outcomes (tag != .script) (Builder.foreignEnd.go b tag stack)
      (Builder.foreignEnd.go c tag stack) := by
    induction stack with
    | nil => exact h.done
    | cons e outer ih =>
        rw [Builder.foreignEnd.go, Builder.foreignEnd.go]
        split
        · exact h.done
        · split
          · exact h.modeRule (.endTag tag)
          · split
            · exact (hstack outer).done
            · exact ih
  unfold Builder.foreignEnd
  rw [h.stack_eq]
  split
  · exact h.done
  · split
    · exact h.done
    · split
      · exact (hstack _).done
      · exact hgo _

theorem foreignRule (h : L.Builders b c) (htoken : L.Tokens token token') :
    L.Outcomes token.isPlain (b.foreignRule token) (c.foreignRule token') := by
  have hbroken := (h.closeTo (·.endsForeign)).modeRule htoken
  unfold Builder.foreignRule
  cases htoken with
  | null => exact (h.addChar L.chars_replacement).done
  | char hc =>
      have hadded := h.addChar hc
      dsimp only
      split
      · exact hadded.done
      · exact hadded.forbidFrames.done
  | comment hxy => exact (h.addComment hxy).done
  | @startTag t u ht =>
      dsimp only
      rw [ht.breaksForeign_eq, h.current_eq]
      split
      · exact hbroken
      · exact (h.openForeign _ ht).done
  | endTag tag =>
      dsimp only
      split
      · exact hbroken
      · exact h.foreignEnd tag
  | _ => exact h.done

/-! ## Taking a token -/

theorem isForeign_eq (h : L.Builders b c) (htoken : L.Tokens token token') :
    c.isForeign token' = b.isForeign token := by
  unfold Builder.isForeign
  rw [h.current_eq]
  cases htoken with
  | startTag ht =>
      dsimp only
      rw [ht.tag_eq]
  | _ => rfl

theorem takeOnce (h : L.Builders b c) (htoken : L.Tokens token token') :
    L.Outcomes token.isPlain (b.takeOnce token) (c.takeOnce token') := by
  unfold Builder.takeOnce
  rw [h.isForeign_eq htoken]
  split
  · exact h.foreignRule htoken
  · exact h.modeRule htoken

theorem takeWithin (h : L.Builders b c) (htoken : L.Tokens token token') (hops : Nat) :
    L.Outcomes token.isPlain (b.takeWithin hops token) (c.takeWithin hops token') := by
  induction hops generalizing b c with
  | zero => exact h.done
  | succ hops ih =>
      obtain ⟨honce, hnext, hplain⟩ := h.takeOnce htoken
      rw [Builder.takeWithin, Builder.takeWithin]
      generalize b.takeOnce token = r, c.takeOnce token' = s at honce hnext hplain
      obtain ⟨b', next⟩ := r
      obtain ⟨c', next'⟩ := s
      cases hnext
      cases next with
      | again => exact ih honce
      | _ => exact ⟨honce, rfl, hplain⟩

/-- States that are alike stay so whatever token they take. -/
theorem take (h : L.Builders b c) (htoken : L.Tokens token token') :
    L.Outcomes token.isPlain (b.take token) (c.take token') := by
  have hready := h.update (fun d => { d with dropsNewline := false }) (fun _ _ => rfl) rfl rfl
  have hhops : 4 * c.stack.length + 16 = 4 * b.stack.length + 16 := by rw [h.stack_eq]
  unfold Builder.take
  rw [h.dropsNewline_eq, hhops, htoken.isNewline_eq]
  dsimp only
  split
  · exact hready.done
  · cases htoken with
    | flaw => exact hready.done
    | doctype d =>
        dsimp only
        split
        · rename_i hinitial
          rw [if_pos (h.mode_eq.trans hinitial)]
          exact hready.initialRule (.doctype d)
        · rename_i hinitial
          rw [if_neg fun hinitial' => hinitial (h.mode_eq.symm.trans hinitial')]
          exact hready.done
    | startTag ht => exact hready.takeWithin (.startTag ht) _
    | comment hxy => exact hready.takeWithin (.comment hxy) _
    | char hc => exact hready.takeWithin (.char hc) _
    | endTag tag => exact hready.takeWithin (.endTag tag) _
    | null => exact hready.takeWithin .null _
    | done => exact hready.takeWithin .done _

end Builders

end Likeness

end Letterpress
