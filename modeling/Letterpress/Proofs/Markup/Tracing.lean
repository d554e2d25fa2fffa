/-
# What each rule adds to a tree

Every rule for the content of a body is followed once, from the elementary steps. A start
tag is either handed on or dropped, and then only elements that markup leaves out have
come in; or its own element comes in, and that element is the last to do so
(`Builder.Opened`). All other tokens bring in copies of formatting and elements that markup
leaves out.

Text in a table is placed when a later token comes. If that is a start tag, formatting may
be reopened for the text before the tag is taken (`Builder.Pending`).
-/

import Letterpress.Proofs.Markup.Lineage
import Letterpress.Proofs.Markup.TableSpine
import Letterpress.Proofs.Markup.Taking

namespace Letterpress

/-! ## Start tags and their elements -/

namespace StartTag

/-- The tags that the element of a start tag may have: the tag's own, and that of images. -/
def Names (t : StartTag) (tag : Tag) : Prop := tag = t.tag ∨ t.tag = .image ∧ tag = .img

/-- The attributes that the element of a start tag gets. -/
def attributesIn (t : StartTag) : Vocabulary → List Attribute
  | .html => t.attributes
  | _ => t.attributes.map fun a => { a with name := Builder.localName a.name }

theorem attributesIn_foreign (t : StartTag) {vocabulary : Vocabulary}
    (hforeign : vocabulary ≠ .html) : t.attributesIn vocabulary =
      t.attributes.map fun a => { a with name := Builder.localName a.name } := by
  cases vocabulary with
  | html => exact absurd rfl hforeign
  | _ => rfl

/-- The element is one that the start tag writes. -/
structure Writes (t : StartTag) (h : Held) : Prop where
  names : t.Names h.tag
  attributes_eq : h.attributes = t.attributesIn h.vocabulary

/-- What formatting remembers of the start tag. -/
def entries (t : StartTag) : List (Tag × List Attribute) :=
  if t.tag.startGroup.isFormatting then [(t.tag, t.attributes)] else []

variable {t : StartTag} {tag : Tag}

/-- No start tag names an element that is left out, other than its own. -/
theorem not_names_of_implied (himplied : tag ∈ Supply.implied) (hne : tag ≠ t.tag) :
    ¬ t.Names tag := by
  rintro (heq | ⟨-, rfl⟩)
  · exact hne heq
  · exact absurd himplied (by decide)

end StartTag

namespace Supply

/-- Nothing comes in that the start tag names. -/
def but (p : Supply) (t : StartTag) : Supply :=
  { p with allows := fun h => p.allows h ∧ ¬ t.Names h.tag }

/-- Formatting is reopened under names of its own. -/
theorem Reopens.but {p : Supply} (hp : p.Reopens) {t : StartTag}
    (hformatting : ¬ t.tag.startGroup.isFormatting = true) : (p.but t).Reopens where
  copies id entry hentry := by
    refine ⟨hp.copies id entry hentry, ?_⟩
    have hcopied := hp.isFormatting entry hentry
    rintro (hself | ⟨-, himg⟩)
    · exact hformatting (hself ▸ hcopied)
    · dsimp only at himg
      rw [himg] at hcopied
      cases hcopied
  isFormatting := hp.isFormatting

/-- What may come in before the token's own element. -/
def before (p : Supply) : Token → Supply
  | .startTag t => p.but t
  | _ => p

/-- The element of the start tag comes in last. -/
def after (p : Supply) (t : StartTag) (nextId : Nat) : Supply :=
  { p with
    entries := p.entries ++ t.entries
    allows := fun h => h.id + 1 = nextId ∧ t.Writes h ∨ h.id + 1 < nextId ∧ p.allows h }

theorem Knows.after {p : Supply} {f : Formatting} (hknown : p.Knows f) (t : StartTag)
    (nextId : Nat) : (p.after t nextId).Knows f := by
  cases f with
  | marker => trivial
  | element id tag attributes => exact List.mem_append_left _ hknown

end Supply

namespace Builder

/-- The element of a start tag is the one that came into the tree last. -/
abbrev Opened (p : Supply) (t : StartTag) (b : Builder) : Prop := b.KeepsTo (p.after t b.nextId)

/-- Text of a table waits for its place, and the rules to return to are those of the table. -/
structure Pending (p : Supply) (b : Builder) : Prop where
  mode_eq : b.mode = .inTableText
  isTable_returnMode : b.returnMode.isTable = true
  current_html : b.current.vocabulary = .html
  keeps : (b.setMode b.returnMode).KeepsTo p

/-- Plain markup is not foreign. -/
theorem isForeign_eq_false {b : Builder} {token : Token} (hhtml : b.current.vocabulary = .html) :
    b.isForeign token = false :=
  if_pos (beq_iff_eq.mpr hhtml)

/-- What a rule does with a token. -/
inductive Taken (p : Supply) (token : Token) (r : Builder × Next) : Prop
  /-- The token has brought in no element of its own so far. -/
  | idle (h : r.1.KeepsTo (p.before token))
  /-- The token has brought in its own element and is used up. -/
  | opened (t : StartTag) (htoken : token = .startTag t) (h : Opened p t r.1)
    (hnext : r.2 ≠ .again)
  /-- Text waits for its place. -/
  | pending (htext : ∀ t, token ≠ .startTag t) (h : Pending p r.1)

variable {p : Supply} {b : Builder} {t : StartTag} {token : Token} {tag : Tag}

namespace Opened

theorem taken (h : Opened p t b) : Taken p (.startTag t) b.done :=
  .opened t rfl h (by rintro ⟨⟩)

theorem close (h : Opened p t b) : Opened p t b.close := KeepsTo.close h

theorem forbidFrames (h : Opened p t b) : Opened p t b.forbidFrames := KeepsTo.forbidFrames h

theorem mark (h : Opened p t b) : Opened p t b.mark := KeepsTo.mark h

theorem setMode (h : Opened p t b) (mode : Mode) (hmode : mode.isContent = true) :
    Opened p t (b.setMode mode) :=
  KeepsTo.setMode h mode hmode

end Opened

/-- Where displaced content goes is for the next token to say. -/
theorem Taken.unfostered {r : Builder × Next} (hr : Taken p token r) :
    Taken p token ({ r.1 with fostering := false }, r.2) := by
  cases hr with
  | idle h => exact .idle { h with }
  | opened t htoken h hnext => exact .opened t htoken { h with } hnext
  | pending htext h => exact .pending htext { h with keeps := { h.keeps with } }

namespace KeepsTo

/-- The token is handed on to the rules of another mode. -/
theorem again (h : b.KeepsTo (p.before token)) {mode : Mode} (hmode : mode.isContent = true) :
    Taken p token (b.again mode) :=
  .idle (h.setMode mode hmode)

theorem of_but (h : b.KeepsTo (p.but t)) : b.KeepsTo p := by
  refine h.mono h.first_pos h.first_le (fun x hx => hx.imp_right ?_) fun _ hentry => hentry
  rintro ⟨hfirst, hlt, hallowed, -⟩
  exact ⟨hfirst, hlt, hallowed⟩

theorem of_before (h : b.KeepsTo (p.before token)) : b.KeepsTo p := by
  cases token with
  | startTag t => exact h.of_but
  | _ => exact h

/-! ## Opening elements -/

/-- The element that a start tag writes is added and opened. -/
theorem opened_openIn (h : b.KeepsTo p) (vocabulary : Vocabulary) (tag : Tag)
    {attributes : List Attribute} (hwrites : t.Writes ⟨b.nextId, vocabulary, tag, attributes⟩)
    (hinner : vocabulary = .html → tag.isOuter = false) :
    Opened p t (b.openIn vocabulary tag attributes) := by
  -- What came in before the tag's own element is no longer the last to do so.
  have hready : b.KeepsTo (p.after t (b.nextId + 1)) := by
    refine h.mono h.first_pos h.first_le (fun x hx => hx.imp_right ?_)
      fun entry => List.mem_append_left _
    rintro ⟨hfirst, hlt, hallowed⟩
    exact ⟨hfirst, hlt, .inr ⟨Nat.succ_lt_succ hlt, hallowed⟩⟩
  exact hready.openIn (.inl ⟨rfl, hwrites⟩) hinner

theorem opened_openElement (h : b.KeepsTo p) (hinner : t.tag.isOuter = false) :
    Opened p t (b.openElement t) :=
  h.opened_openIn .html t.tag ⟨.inl rfl, rfl⟩ fun _ => hinner

theorem opened_addEmpty (h : b.KeepsTo p) (hinner : t.tag.isOuter = false) :
    Opened p t (b.addEmpty t) :=
  (h.opened_openElement hinner).close

theorem opened_openForeign (h : b.KeepsTo p) {vocabulary : Vocabulary}
    (hforeign : vocabulary ≠ .html) : Opened p t (b.openForeign vocabulary t) := by
  have hopened := h.opened_openIn (t := t) vocabulary t.tag
    ⟨.inl rfl, (t.attributesIn_foreign hforeign).symm⟩ fun hhtml => absurd hhtml hforeign
  unfold Builder.openForeign
  dsimp only
  split
  · exact hopened.close
  · exact hopened

/-- Formatting remembers its start tag. -/
theorem opened_openFormatting (h : b.KeepsTo p) (hgroup : t.tag.startGroup.isFormatting = true) :
    Opened p t (b.openFormatting t) := by
  have hopened := h.opened_openElement (Tag.isOuter_eq_false_of_isFormatting hgroup)
  have hentry : (t.tag, t.attributes) ∈ p.entries ++ t.entries := by
    simp [StartTag.entries, hgroup]
  have hroom : ∀ f ∈ Formatting.makeRoom t b.formatting, f ∈ b.formatting := by
    intro f hf
    unfold Formatting.makeRoom at hf
    dsimp only at hf
    split at hf
    · rcases List.mem_append.mp hf with hrecent | hearlier
      · have hmem := List.mem_of_mem_eraseP (List.mem_reverse.mp hrecent)
        exact (List.takeWhile_sublist _).subset (List.mem_reverse.mp hmem)
      · exact List.mem_of_mem_drop hearlier
    · exact hf
  exact { hopened with
    formatting := by
      intro f hf
      rcases List.mem_cons.mp hf with rfl | hold
      · exact hentry
      · exact (h.formatting f (hroom f hold)).after t _ }

theorem taken_openText (h : b.KeepsTo p) (hinner : t.tag.isOuter = false)
    (content : Lexer.Content) : Taken p (.startTag t) (b.openText t content) := by
  refine .opened t rfl ?_ (by rintro ⟨⟩)
  exact { h.opened_openElement hinner with
    returnMode := h.mode
    mode := rfl }

/-! ## Templates and the head -/

theorem extendRoot (h : b.KeepsTo p) (t : StartTag) : (b.extendRoot t).KeepsTo p := by
  unfold Builder.extendRoot
  split
  · exact h
  · exact { h with tree := h.tree.addAttributes t.attributes }

theorem opened_openTemplate (h : b.KeepsTo p) (hinner : t.tag.isOuter = false) :
    Opened p t (b.openTemplate t) := by
  have hmarked : ((b.mark.forbidFrames).setMode .inTemplate).KeepsTo p :=
    h.mark.forbidFrames.setMode _ rfl
  have hready : KeepsTo p { (b.mark.forbidFrames).setMode .inTemplate with
      templateModes := .inTemplate :: b.templateModes } :=
    { hmarked with templateModes := List.forall_mem_cons.mpr ⟨rfl, h.templateModes⟩ }
  exact hready.opened_openElement hinner

theorem leaveTemplate (h : b.KeepsTo p) : b.leaveTemplate.KeepsTo p := by
  have hclosed := (h.closeThrough .template).clearToMarker
  have hleft : KeepsTo p { (b.closeThrough .template).clearToMarker with
      templateModes := b.templateModes.tail } :=
    { hclosed with
      templateModes := fun mode hmode => h.templateModes mode (List.mem_of_mem_tail hmode) }
  exact hleft.resetMode

theorem endTemplate (h : b.KeepsTo p) : b.endTemplate.KeepsTo p := by
  unfold Builder.endTemplate
  split
  · exact (h.onStack (List.dropWhile_sublist _)).leaveTemplate
  · exact h

/-- The tags of head content. -/
theorem mem_of_headContent {tag : Tag} (hgroup : tag.startGroup = .headContent) :
    tag ∈ [Tag.base, .basefont, .bgsound, .link, .metaData, .noframes, .script, .style, .template,
      .title] := by
  cases tag
  all_goals first | decide | cases hgroup

/-- Head content in running content. -/
theorem inHeadRule (h : b.KeepsTo (p.but t)) (hgroup : t.tag.startGroup = .headContent) :
    Taken p (.startTag t) (b.inHeadRule (.startTag t)) := by
  have hinner : t.tag.isOuter = false := Tag.isOuter_eq_false (by rw [hgroup]; rfl)
  have hready := h.of_but
  have hmem := mem_of_headContent hgroup
  unfold Builder.inHeadRule
  dsimp only
  split
  case h_2 | h_3 | h_4 | h_5 | h_6 => exact (hready.opened_addEmpty hinner).taken
  case h_7 | h_8 | h_9 | h_10 | h_11 => exact hready.taken_openText hinner _
  case h_12 => exact (hready.opened_openTemplate hinner).taken
  case h_1 | h_13 =>
    rename_i htag
    rw [htag] at hgroup
    exact nomatch hgroup
  case h_14 => simp_all

theorem templateDone (h : b.KeepsTo p) (hbefore : p.before token = p) :
    Taken p token b.templateDone := by
  have hkept : b.templateDone.1.KeepsTo (p.before token) := by
    rw [hbefore]
    unfold Builder.templateDone
    split
    · exact h.leaveTemplate
    · exact h
  exact .idle hkept

/-! ## Running content -/

theorem bodyChar (h : b.KeepsTo p) (hp : p.Reopens) (c : Char) : (b.bodyChar c).KeepsTo p := by
  have hplaced := (h.reopenFormatting hp).addChar c
  unfold Builder.bodyChar
  dsimp only
  split
  · exact hplaced
  · exact hplaced.forbidFrames

theorem closeItem (h : b.KeepsTo p) (isItem : Tag → Bool) : (b.closeItem isItem).KeepsTo p := by
  unfold Builder.closeItem
  split
  · split
    · exact (h.closeImpliedBut _).closeThrough _
    · exact h
  · exact h

theorem opened_openItem (h : b.KeepsTo p) (isItem : Tag → Bool) (hinner : t.tag.isOuter = false) :
    Opened p t (b.openItem isItem t) :=
  (h.forbidFrames.closeItem isItem).closeParagraph.opened_openElement hinner

/-- Start tags of formatting always bring in their element. -/
theorem opened_formatting (h : b.KeepsTo p) (hp : p.Reopens)
    (hformatting : t.tag.startGroup.isFormatting = true) :
    Opened p t (b.bodyStart t).1 ∧ (b.bodyStart t).2 = .done := by
  unfold Builder.bodyStart
  cases hgroup : t.tag.startGroup with
  | anchor =>
      exact ⟨((h.endOpenAnchor hp).reopenFormatting hp).opened_openFormatting hformatting, rfl⟩
  | formatting => exact ⟨(h.reopenFormatting hp).opened_openFormatting hformatting, rfl⟩
  | nobr =>
      have hreopened := h.reopenFormatting hp
      refine ⟨?_, rfl⟩
      dsimp only [Builder.done]
      split
      · exact ((hreopened.endFormatting hp .nobr).reopenFormatting hp).opened_openFormatting
          hformatting
      · exact hreopened.opened_openFormatting hformatting
  | _ =>
      rw [hgroup] at hformatting
      cases hformatting

/-- A start tag in running content brings in its own element or nothing. -/
theorem bodyStart (h : b.KeepsTo (p.but t)) (hp : p.Reopens) :
    Taken p (.startTag t) (b.bodyStart t) := by
  have hready := h.of_but
  have hclosed := hready.closeParagraph
  have hreopened := hready.reopenFormatting hp
  have hinner (hgroup : t.tag.startGroup.isInner = true) := Tag.isOuter_eq_false hgroup
  have hignored : Taken p (.startTag t) b.done := .idle h
  by_cases hformatting : t.tag.startGroup.isFormatting = true
  · obtain ⟨hopened, hnext⟩ := hready.opened_formatting hp hformatting
    exact .opened t rfl hopened (by rw [hnext]; rintro ⟨⟩)
  unfold Builder.bodyStart
  cases hgroup : t.tag.startGroup with
  | anchor | formatting | nobr =>
      rw [hgroup] at hformatting
      exact absurd rfl hformatting
  | root => exact .idle (h.extendRoot t)
  | headContent => exact h.inHeadRule hgroup
  | body | frames =>
      rw [h.body?_eq_none]
      exact hignored
  | block => exact (hclosed.opened_openElement (hinner (by rw [hgroup]; rfl))).taken
  | heading =>
      dsimp only
      split
      · exact (hclosed.close.opened_openElement (hinner (by rw [hgroup]; rfl))).taken
      · exact (hclosed.opened_openElement (hinner (by rw [hgroup]; rfl))).taken
  | preformatted =>
      have hopened := (hclosed.opened_openElement (hinner (by rw [hgroup]; rfl))).forbidFrames
      have hready' : Opened p t { (b.closeParagraph.openElement t).forbidFrames with
          dropsNewline := true } := { hopened with }
      exact hready'.taken
  | form =>
      have hopened := hclosed.opened_openElement (hinner (by rw [hgroup]; rfl))
      dsimp only
      split
      · exact hignored
      · split
        · exact hopened.taken
        · have hready' : Opened p t { b.closeParagraph.openElement t with
              form := some (b.closeParagraph.openElement t).current.id } := { hopened with }
          exact hready'.taken
  | listItem | definition =>
      exact (hready.opened_openItem _ (hinner (by rw [hgroup]; rfl))).taken
  | plaintext =>
      exact .opened t rfl (hclosed.opened_openElement (hinner (by rw [hgroup]; rfl)))
        (by rintro ⟨⟩)
  | button =>
      dsimp only
      split
      · exact (((hready.closeImplied.closeThrough .button).reopenFormatting hp).opened_openElement
          (hinner (by rw [hgroup]; rfl))).forbidFrames.taken
      · exact (hreopened.opened_openElement (hinner (by rw [hgroup]; rfl))).forbidFrames.taken
  | bounded =>
      exact (hreopened.opened_openElement (hinner (by rw [hgroup]; rfl))).mark.forbidFrames.taken
  | table =>
      dsimp only
      split
      · have hopened := hready.opened_openElement (hinner (by rw [hgroup]; rfl))
        exact (hopened.forbidFrames.setMode .inTable rfl).taken
      · have hopened := hclosed.opened_openElement (hinner (by rw [hgroup]; rfl))
        exact (hopened.forbidFrames.setMode .inTable rfl).taken
  | inlineVoid =>
      exact (hreopened.opened_addEmpty (hinner (by rw [hgroup]; rfl))).forbidFrames.taken
  | input =>
      have hadded := hreopened.opened_addEmpty (hinner (by rw [hgroup]; rfl))
      dsimp only
      split
      · exact hadded.taken
      · exact hadded.forbidFrames.taken
  | belonging => exact (hready.opened_addEmpty (hinner (by rw [hgroup]; rfl))).taken
  | rule => exact (hclosed.opened_addEmpty (hinner (by rw [hgroup]; rfl))).forbidFrames.taken
  | image =>
      have himage : t.tag = .image := Tag.eq_image_of_startGroup hgroup
      have hopened := hreopened.opened_openIn (t := t) .html .img
        ⟨.inr ⟨himage, rfl⟩, rfl⟩ fun _ => rfl
      exact hopened.close.forbidFrames.taken
  | textarea =>
      have hready' : KeepsTo p { b with dropsNewline := true } := { hready with }
      exact hready'.forbidFrames.taken_openText (hinner (by rw [hgroup]; rfl)) _
  | listingText =>
      exact (hclosed.reopenFormatting hp).forbidFrames.taken_openText
        (hinner (by rw [hgroup]; rfl)) _
  | frame => exact hready.forbidFrames.taken_openText (hinner (by rw [hgroup]; rfl)) _
  | hiddenText => exact hready.taken_openText (hinner (by rw [hgroup]; rfl)) _
  | select =>
      have hopened := (hreopened.opened_openElement (hinner (by rw [hgroup]; rfl))).forbidFrames
      dsimp only
      split
      all_goals exact Opened.taken (hopened.setMode _ rfl)
  | option =>
      exact (((hready.closeIf .option).reopenFormatting hp).opened_openElement
        (hinner (by rw [hgroup]; rfl))).taken
  | rubyBase =>
      dsimp only
      split
      · exact (hready.closeImplied.opened_openElement (hinner (by rw [hgroup]; rfl))).taken
      · exact (hready.opened_openElement (hinner (by rw [hgroup]; rfl))).taken
  | rubyText =>
      dsimp only
      split
      · exact ((hready.closeImpliedBut .rtc).opened_openElement
          (hinner (by rw [hgroup]; rfl))).taken
      · exact (hready.opened_openElement (hinner (by rw [hgroup]; rfl))).taken
  | math | svg => exact (hready.opened_openForeign (by rintro ⟨⟩)).taken
  | misplaced => exact hignored
  | ordinary => exact (hreopened.opened_openElement (hinner (by rw [hgroup]; rfl))).taken

/-! ### End tags -/

theorem endForm (h : b.KeepsTo p) : b.endForm.KeepsTo p := by
  unfold Builder.endForm
  split
  · split
    · exact h.closeImplied.closeThrough .form
    · exact h
  · split
    · exact h
    · have hreleased : KeepsTo p { b with form := none } := { h with }
      dsimp only
      split
      · exact hreleased.closeImplied.onStack List.filter_sublist
      · exact hreleased

theorem bodyEnd (h : b.KeepsTo p) (hp : p.IsOpen) (tag : Tag) : (b.bodyEnd tag).1.KeepsTo p := by
  have himplied {tag : Tag} (htag : tag ∈ Supply.implied) {c : Builder} (hc : c.KeepsTo p) :
      (c.openImplied tag).KeepsTo p :=
    hc.openImplied (hp.implied _ tag htag) (Supply.not_isOuter_of_implied htag)
  unfold Builder.bodyEnd
  cases tag.endGroup with
  | template => exact h.endTemplate
  | body | root =>
      dsimp only
      split
      · exact h.setMode _ rfl
      · exact h
  | block =>
      dsimp only
      split
      · exact h.closeImplied.closeThrough tag
      · exact h
  | form => exact h.endForm
  | paragraph =>
      dsimp only
      split
      · exact (h.closeImpliedBut .p).closeThrough .p
      · exact ((himplied (by decide) h).closeImpliedBut .p).closeThrough .p
  | listItem | definition =>
      dsimp only
      split
      · exact (h.closeImpliedBut tag).closeThrough tag
      · exact h
  | heading =>
      dsimp only
      split
      · exact h.closeImplied.onStack (sublist_closeThrough _ _)
      · exact h
  | formatting => exact h.endFormatting hp.toReopens tag
  | bounded =>
      dsimp only
      split
      · exact (h.closeImplied.closeThrough tag).clearToMarker
      · exact h
  | lineBreak => exact (himplied (by decide) (h.reopenFormatting hp.toReopens)).close.forbidFrames
  | ordinary => exact h.endElement tag

/-! ### Rules of running content -/

theorem inBodyRule (h : b.KeepsTo (p.before token)) (hp : p.IsOpen) :
    Taken p token (b.inBodyRule token) := by
  unfold Builder.inBodyRule
  cases token with
  | char c => exact .idle (bodyChar h hp.toReopens c)
  | comment content => exact .idle (addComment h content)
  | startTag t => exact bodyStart h hp.toReopens
  | endTag tag => exact .idle (bodyEnd h hp tag)
  | done =>
      dsimp only
      split
      · exact .idle h
      · exact templateDone h rfl
  | _ => exact .idle h

theorem textRule (h : b.KeepsTo (p.before token)) : Taken p token (b.textRule token) := by
  have hended : (b.close.setMode b.returnMode).KeepsTo (p.before token) :=
    h.close.setMode b.returnMode h.returnMode
  unfold Builder.textRule
  cases token with
  | char c => exact .idle (h.addChar c)
  | endTag tag =>
      dsimp only
      split
      · exact .idle hended
      · exact .idle hended
  | done => exact .idle hended
  | _ => exact .idle h

theorem afterBodyRule (h : b.KeepsTo (p.before token)) (hp : p.IsOpen) :
    Taken p token (b.afterBodyRule token) := by
  have hbody := h.inBodyRule hp
  have hback : Taken p token (b.again .inBody) := h.again rfl
  unfold Builder.afterBodyRule
  cases token with
  | char c =>
      dsimp only
      split
      · exact hbody
      · exact hback
  | startTag t =>
      dsimp only
      split
      · exact hbody
      · exact hback
  | endTag tag =>
      dsimp only
      split
      · split
        · exact .idle h
        · exact .idle (h.setMode _ rfl)
      · exact hback
  | comment content => exact .idle h
  | done => exact .idle h
  | _ => exact hback

theorem afterDocumentRule (h : b.KeepsTo (p.before token)) (hp : p.IsOpen) :
    Taken p token (b.afterDocumentRule token) := by
  have hbody := h.inBodyRule hp
  have hback : Taken p token (b.again .inBody) := h.again rfl
  unfold Builder.afterDocumentRule
  cases token with
  | char c =>
      dsimp only
      split
      · exact hbody
      · exact hback
  | startTag t =>
      dsimp only
      split
      · exact hbody
      · exact hback
  | comment content => exact .idle h
  | done => exact .idle h
  | _ => exact hback

/-! ## Tables -/

theorem fosterRule (h : b.KeepsTo (p.before token)) (hp : p.IsOpen) :
    Taken p token (b.fosterRule token) := by
  have hready : KeepsTo (p.before token) { b with fostering := true } := { h with }
  have htaken := hready.inBodyRule hp
  unfold Builder.fosterRule
  generalize Builder.inBodyRule { b with fostering := true } token = r at htaken
  exact htaken.unfostered

/-- Text in a table waits for its place. -/
theorem tableChar (h : b.KeepsTo (p.before token)) (hp : p.IsOpen) (hmode : b.mode.isTable = true)
    (htext : ∀ t, token ≠ .startTag t) : Taken p token (b.tableChar token) := by
  have hready := h.of_before
  unfold Builder.tableChar
  split
  · rename_i hcurrent
    have hhtml : b.current.vocabulary = .html := by
      cases hstack : b.stack with
      | nil => simp [hstack, Stack.currentIs] at hcurrent
      | cons e outer =>
          simp only [hstack, Stack.currentIs, List.head?_cons, Option.any_some,
            OpenElement.satisfies, Bool.and_eq_true, beq_iff_eq] at hcurrent
          rw [current, hstack]
          exact hcurrent.1
    exact .pending htext ⟨rfl, hmode, hhtml, { hready with returnMode := hready.mode }⟩
  · exact h.fosterRule hp

/-- An element that markup leaves out comes in before the token's own, under another name. -/
theorem supplied (h : b.KeepsTo (p.but t)) (hp : p.IsOpen) (tag : Tag)
    (himplied : tag ∈ Supply.implied) (hne : tag ≠ t.tag) {mode : Mode}
    (hmode : mode.isContent = true) : Taken p (.startTag t) ((b.openImplied tag).again mode) := by
  have hopened : (b.openImplied tag).KeepsTo (p.before (.startTag t)) :=
    h.openImplied ⟨hp.implied _ tag himplied, StartTag.not_names_of_implied himplied hne⟩
      (Supply.not_isOuter_of_implied himplied)
  exact hopened.again hmode

/-- The end tag of a template, or head content. -/
theorem headRule (h : b.KeepsTo (p.before token))
    (htoken : token = .endTag .template ∨
      ∃ t, token = .startTag t ∧ t.tag.startGroup = .headContent) :
    Taken p token (b.inHeadRule token) := by
  rcases htoken with rfl | ⟨t, rfl, hgroup⟩
  · exact .idle (endTemplate h)
  · exact inHeadRule h hgroup

theorem inTableRule (h : b.KeepsTo (p.before token)) (hp : p.IsOpen)
    (hmode : b.mode.isTable = true) : Taken p token (b.inTableRule token) := by
  have hfoster := h.fosterRule hp
  have hignored : Taken p token b.done := .idle h
  unfold Builder.inTableRule
  cases token with
  | char c => exact h.tableChar hp hmode (by rintro t ⟨⟩)
  | null => exact h.tableChar hp hmode (by rintro t ⟨⟩)
  | comment content => exact .idle (h.addComment content)
  | startTag t =>
      have htable := h.closeTo boundsTable
      have hready := h.of_but
      have hopened (houter : t.tag.isOuter = false) := (htable.of_but).opened_openElement houter
      dsimp only
      split
      all_goals rename_i htag
      case h_1 =>
        have hcaption := htable.of_but.mark.opened_openElement (t := t) (by rw [htag]; rfl)
        exact (hcaption.setMode .inCaption rfl).taken
      case h_2 => exact ((hopened (by rw [htag]; rfl)).setMode .inColumnGroup rfl).taken
      case h_3 =>
        exact supplied htable hp .colgroup (by decide) (by rw [htag]; decide) rfl
      case h_4 | h_5 | h_6 =>
        exact ((hopened (by rw [htag]; rfl)).setMode .inTableBody rfl).taken
      case h_7 | h_8 | h_9 =>
        exact supplied htable hp .tbody (by decide) (by rw [htag]; decide) rfl
      case h_10 =>
        split
        · exact .idle (h.closeThrough .table).resetMode
        · exact hignored
      case h_11 | h_12 | h_13 => exact inHeadRule h (by rw [htag]; rfl)
      case h_14 =>
        split
        · exact (hready.opened_addEmpty (by rw [htag]; rfl)).taken
        · exact hfoster
      case h_15 =>
        split
        · have hform := (hready.opened_openElement (t := t) (by rw [htag]; rfl)).close
          have hready' : Opened p t { (b.openElement t).close with
              form := some (b.openElement t).current.id } := { hform with }
          exact hready'.taken
        · exact hignored
      case h_16 => exact hfoster
  | endTag tag =>
      dsimp only
      split
      case h_1 =>
        split
        · exact .idle (h.closeThrough .table).resetMode
        · exact hignored
      case h_13 => exact h.headRule (.inl rfl)
      case h_14 => exact hfoster
      all_goals exact hignored
  | done => exact h.inBodyRule hp
  | _ => exact hfoster

theorem endCaption (h : b.KeepsTo (p.before token)) {next : Builder → Builder × Next}
    (hnext : ∀ {c : Builder}, c.KeepsTo (p.before token) → Taken p token (next c)) :
    Taken p token (b.endCaption next) := by
  unfold Builder.endCaption
  split
  · exact hnext (h.closeImplied.closeThrough .caption).clearToMarker
  · exact .idle h

theorem inCaptionRule (h : b.KeepsTo (p.before token)) (hp : p.IsOpen) :
    Taken p token (b.inCaptionRule token) := by
  have hbody := h.inBodyRule hp
  have hleave : Taken p token (b.endCaption (·.again .inTable)) :=
    h.endCaption fun hended => hended.again rfl
  unfold Builder.inCaptionRule
  split
  · split
    case h_10 => exact hbody
    all_goals exact hleave
  · split
    case h_1 => exact h.endCaption fun hended => .idle (hended.setMode _ rfl)
    case h_2 => exact hleave
    case h_13 => exact hbody
    all_goals exact .idle h
  · exact hbody

theorem inColumnGroupRule (h : b.KeepsTo (p.before token)) (hp : p.IsOpen) :
    Taken p token (b.inColumnGroupRule token) := by
  have hotherwise : Taken p token
      (if b.currentIs .colgroup then b.close.again .inTable else b.done) := by
    split
    · exact h.close.again rfl
    · exact .idle h
  unfold Builder.inColumnGroupRule
  cases token with
  | char c =>
      dsimp only
      split
      · exact .idle (h.addChar c)
      · exact hotherwise
  | comment content => exact .idle (h.addComment content)
  | startTag t =>
      dsimp only
      split
      all_goals rename_i htag
      · exact h.inBodyRule hp
      · exact (h.of_but.opened_addEmpty (by rw [htag]; rfl)).taken
      · exact inHeadRule h (by rw [htag]; rfl)
      · exact hotherwise
  | endTag tag =>
      dsimp only
      split
      · split
        · exact .idle (h.close.setMode _ rfl)
        · exact .idle h
      · exact .idle h
      · exact h.headRule (.inl rfl)
      · exact hotherwise
  | done => exact h.inBodyRule hp
  | _ => exact hotherwise

theorem inTableBodyRule (h : b.KeepsTo (p.before token)) (hp : p.IsOpen)
    (hmode : b.mode.isTable = true) : Taken p token (b.inTableBodyRule token) := by
  have htable := h.inTableRule hp hmode
  have hrows := h.closeTo holdsRows
  have hleave : Taken p token (if b.stack.hasInScope .table
      (fun e => e.is .table || e.is .tbody || e.is .tfoot)
      then (b.closeTo holdsRows).close.again .inTable else b.done) := by
    split
    · exact hrows.close.again rfl
    · exact .idle h
  unfold Builder.inTableBodyRule
  cases token with
  | startTag t =>
      dsimp only
      split
      all_goals rename_i htag
      case h_1 =>
        have hopened := hrows.of_but.opened_openElement (t := t) (by rw [htag]; rfl)
        exact (hopened.setMode .inRow rfl).taken
      case h_2 | h_3 =>
        exact supplied hrows hp .tr (by decide) (by rw [htag]; decide) rfl
      case h_10 => exact htable
      all_goals exact hleave
  | endTag tag =>
      dsimp only
      split
      case h_1 | h_2 | h_3 =>
        split
        · exact .idle (hrows.close.setMode _ rfl)
        · exact .idle h
      case h_4 => exact hleave
      case h_13 => exact htable
      all_goals exact .idle h
  | _ => exact htable

theorem inRowRule (h : b.KeepsTo (p.before token)) (hp : p.IsOpen)
    (hmode : b.mode.isTable = true) : Taken p token (b.inRowRule token) := by
  have htable := h.inTableRule hp hmode
  have hcells := h.closeTo holdsCells
  have hleave : Taken p token
      (if b.has .table .tr then (b.closeTo holdsCells).close.again .inTableBody else b.done) := by
    split
    · exact hcells.close.again rfl
    · exact .idle h
  unfold Builder.inRowRule
  cases token with
  | startTag t =>
      dsimp only
      split
      all_goals rename_i htag
      case h_1 | h_2 =>
        have hopened := hcells.of_but.opened_openElement (t := t) (by rw [htag]; rfl)
        exact (hopened.setMode .inCell rfl).mark.taken
      case h_10 => exact htable
      all_goals exact hleave
  | endTag tag =>
      dsimp only
      split
      case h_1 =>
        split
        · exact .idle (hcells.close.setMode _ rfl)
        · exact .idle h
      case h_2 => exact hleave
      case h_3 | h_4 | h_5 =>
        split
        · exact hleave
        · exact .idle h
      case h_13 => exact htable
      all_goals exact .idle h
  | _ => exact htable

theorem closeCell (h : b.KeepsTo p) : b.closeCell.KeepsTo p :=
  (h.closeImplied.onStack (sublist_closeThrough _ _)).clearToMarker

theorem inCellRule (h : b.KeepsTo (p.before token)) (hp : p.IsOpen) :
    Taken p token (b.inCellRule token) := by
  have hbody := h.inBodyRule hp
  have hleave : Taken p token (b.closeCell.again .inRow) := h.closeCell.again rfl
  unfold Builder.inCellRule
  split
  · split
    case h_10 => exact hbody
    all_goals
      split
      · exact hleave
      · exact .idle h
  · split
    case h_1 | h_2 =>
      split
      · exact .idle ((h.closeImplied.closeThrough _).clearToMarker.setMode _ rfl)
      · exact .idle h
    case h_8 | h_9 | h_10 | h_11 | h_12 =>
      split
      · exact hleave
      · exact .idle h
    case h_13 => exact hbody
    all_goals exact .idle h
  · exact hbody

/-! ## Selections and templates -/

theorem inSelectRule (h : b.KeepsTo (p.before token)) (hp : p.IsOpen) :
    Taken p token (b.inSelectRule token) := by
  have hbody := h.inBodyRule hp
  have hignored : Taken p token b.done := .idle h
  have hleave (next : Builder → Builder × Next) (hnext : ∀ c, (next c).1 = c) :
      Taken p token (if b.has .select .select then next (b.closeThrough .select).resetMode
        else b.done) := by
    split
    · refine .idle ?_
      rw [hnext]
      exact (h.closeThrough .select).resetMode
    · exact hignored
  have hdone := hleave Builder.done fun _ => rfl
  unfold Builder.inSelectRule
  cases token with
  | char c => exact .idle (h.addChar c)
  | comment content => exact .idle (h.addComment content)
  | startTag t =>
      have hclosed := h.of_but.closeIf .option
      dsimp only
      split
      all_goals rename_i htag
      case h_1 => exact hbody
      case h_2 => exact (hclosed.opened_openElement (by rw [htag]; rfl)).taken
      case h_3 => exact ((hclosed.closeIf .optgroup).opened_openElement (by rw [htag]; rfl)).taken
      case h_4 => exact ((hclosed.closeIf .optgroup).opened_addEmpty (by rw [htag]; rfl)).taken
      case h_5 => exact hdone
      case h_6 | h_7 | h_8 => exact hleave (fun left => (left, .again)) fun _ => rfl
      case h_9 | h_10 => exact inHeadRule h (by rw [htag]; rfl)
      case h_11 => exact hignored
  | endTag tag =>
      dsimp only
      split
      · refine .idle (KeepsTo.closeIf ?_ .optgroup)
        split
        · exact h.close
        · exact h
      · exact .idle (h.closeIf .option)
      · exact hdone
      · exact h.headRule (.inl rfl)
      · exact hignored
  | done => exact hbody
  | _ => exact hignored

theorem inSelectInTableRule (h : b.KeepsTo (p.before token)) (hp : p.IsOpen) :
    Taken p token (b.inSelectInTableRule token) := by
  have hselect := h.inSelectRule hp
  have hleave : Taken p token ((b.closeThrough .select).resetMode, .again) :=
    .idle (h.closeThrough .select).resetMode
  unfold Builder.inSelectInTableRule
  cases token with
  | startTag t =>
      dsimp only
      split
      case h_9 => exact hselect
      all_goals exact hleave
  | endTag tag =>
      dsimp only
      split
      case h_9 => exact hselect
      all_goals
        split
        · exact hleave
        · exact .idle h
  | _ => exact hselect

theorem inTemplateRule (h : b.KeepsTo (p.before token)) (hp : p.IsOpen) :
    Taken p token (b.inTemplateRule token) := by
  have hbody := h.inBodyRule hp
  have hfollow {mode : Mode} (hmode : mode.isContent = true) : Taken p token
      (Builder.again { b with templateModes := mode :: b.templateModes.tail } mode) := by
    have hready : KeepsTo (p.before token)
        { b with templateModes := mode :: b.templateModes.tail } :=
      { h with
        templateModes := List.forall_mem_cons.mpr
          ⟨hmode, fun other hother => h.templateModes other (List.mem_of_mem_tail hother)⟩ }
    exact hready.again hmode
  unfold Builder.inTemplateRule
  cases token with
  | char c => exact hbody
  | comment content => exact hbody
  | startTag t =>
      dsimp only
      split
      all_goals rename_i htag
      case h_1 | h_2 | h_3 | h_4 | h_5 | h_6 | h_7 | h_8 | h_9 | h_10 =>
        exact inHeadRule h (by rw [htag]; rfl)
      all_goals exact hfollow rfl
  | endTag tag =>
      dsimp only
      split
      · rename_i htag
        exact h.headRule (.inl (by rw [htag]))
      · exact .idle h
  | done => exact h.templateDone rfl
  | _ => exact .idle h

/-! ## All rules -/

/-- Whichever mode is set, a token brings in nothing but what the supply allows. -/
theorem modeRule (h : b.KeepsTo (p.before token)) (hp : p.IsOpen) :
    Taken p token (b.modeRule token) := by
  have hmode := h.mode
  unfold Builder.modeRule
  cases hset : b.mode with
  | initial | beforeHtml | beforeHead | inHead | afterHead | inTableText =>
      rw [hset] at hmode
      cases hmode
  | inBody => exact h.inBodyRule hp
  | text => exact h.textRule
  | inTable => exact h.inTableRule hp (by rw [hset]; rfl)
  | inCaption => exact h.inCaptionRule hp
  | inColumnGroup => exact h.inColumnGroupRule hp
  | inTableBody => exact h.inTableBodyRule hp (by rw [hset]; rfl)
  | inRow => exact h.inRowRule hp (by rw [hset]; rfl)
  | inCell => exact h.inCellRule hp
  | inSelect => exact h.inSelectRule hp
  | inSelectInTable => exact h.inSelectInTableRule hp
  | inTemplate => exact h.inTemplateRule hp
  | afterBody => exact h.afterBodyRule hp
  | afterDocument => exact h.afterDocumentRule hp
  | frames => exact .idle h

theorem foreignEnd (h : b.KeepsTo (p.before (.endTag tag))) (hp : p.IsOpen) :
    Taken p (.endTag tag) (b.foreignEnd tag) := by
  have hgo (s : Stack) (hsub : s.Sublist b.stack) :
      Taken p (.endTag tag) (Builder.foreignEnd.go b tag s) := by
    induction s with
    | nil => exact .idle h
    | cons e outer ih =>
        have houter := (List.sublist_cons_self e outer).trans hsub
        rw [Builder.foreignEnd.go]
        split
        · exact .idle h
        · split
          · exact h.modeRule hp
          · split
            · exact .idle (h.withStack (h.stack.sublist houter))
            · exact ih houter
  unfold Builder.foreignEnd
  split
  · exact .idle h
  · rename_i e outer hstack
    have houter : outer.Sublist b.stack := hstack ▸ List.sublist_cons_self e outer
    split
    · exact .idle h
    · split
      · exact .idle (h.withStack (h.stack.sublist houter))
      · exact hgo outer houter

theorem foreignRule (h : b.KeepsTo (p.before token)) (hp : p.IsOpen)
    (hforeign : b.current.vocabulary ≠ .html) : Taken p token (b.foreignRule token) := by
  have hbroken := (h.closeTo OpenElement.endsForeign).modeRule hp
  unfold Builder.foreignRule
  cases token with
  | null => exact .idle (h.addChar _)
  | char c =>
      dsimp only
      split
      · exact .idle (h.addChar c)
      · exact .idle (h.addChar c).forbidFrames
  | comment content => exact .idle (h.addComment content)
  | startTag t =>
      dsimp only
      split
      · exact hbroken
      · exact (h.of_but.opened_openForeign hforeign).taken
  | endTag tag =>
      dsimp only
      split
      · exact hbroken
      · exact h.foreignEnd hp
  | _ => exact .idle h

theorem takeOnce (h : b.KeepsTo (p.before token)) (hp : p.IsOpen) :
    Taken p token (b.takeOnce token) := by
  unfold Builder.takeOnce
  split
  · rename_i hforeign
    refine h.foreignRule hp ?_
    intro hhtml
    rw [isForeign_eq_false hhtml] at hforeign
    cases hforeign
  · exact h.modeRule hp

end KeepsTo

/-! ## Text that waits for its place in a table -/

theorem foldl_setMode {α : Type} {mode : Mode} (step : Builder → α → Builder)
    (hstep : ∀ b a, step (b.setMode mode) a = (step b a).setMode mode) (b : Builder)
    (as : List α) : as.foldl step (b.setMode mode) = (as.foldl step b).setMode mode :=
  List.foldl_hom (fun b : Builder => b.setMode mode) hstep

theorem reopenFormatting_setMode (b : Builder) (mode : Mode) :
    (b.setMode mode).reopenFormatting = b.reopenFormatting.setMode mode := by
  refine foldl_setMode reopen (fun c entry => ?_) b _
  cases entry with
  | marker => rfl
  | element id tag attributes =>
      unfold reopen openIn
      simp only [add_setMode]
      rfl

theorem bodyChar_setMode (b : Builder) (mode : Mode) (c : Char) :
    (b.setMode mode).bodyChar c = (b.bodyChar c).setMode mode := by
  unfold bodyChar addChar
  rw [reopenFormatting_setMode, add_setMode]
  dsimp only
  split
  · rfl
  · rfl

/-- Where the text of a table goes does not depend on the rules that are set. -/
theorem placeTableText_setMode (b : Builder) (mode : Mode) :
    (b.setMode mode).placeTableText = b.placeTableText.setMode mode := by
  have hfoster (b : Builder) (c : Char) : ((b.setMode mode).fosterRule (.char c)).1 =
      (b.fosterRule (.char c)).1.setMode mode :=
    congrArg (fun taken : Builder => { taken with fostering := false })
      (bodyChar_setMode { b with fostering := true } mode c)
  unfold placeTableText
  have hblank := foldl_addChar_setMode { b with tableText := [] } mode b.tableText.reverse
  have hdisplaced := foldl_setMode (fun b c => (b.fosterRule (.char c)).1) hfoster
    { b with tableText := [] } b.tableText.reverse
  exact (if_congr Iff.rfl hblank hdisplaced).trans
    (apply_ite (fun c : Builder => c.setMode mode) _ _ _).symm

theorem KeepsTo.placeTableText (h : b.KeepsTo p) (hp : p.Reopens) :
    b.placeTableText.KeepsTo p := by
  have hfold {step : Builder → Char → Builder}
      (hstep : ∀ {b : Builder} {c : Char}, b.KeepsTo p → (step b c).KeepsTo p) (text : Text) :
      ∀ {b : Builder}, b.KeepsTo p → (text.foldl step b).KeepsTo p := by
    induction text with
    | nil => exact fun h => h
    | cons c text ih => exact fun h => ih (hstep h)
  have hready : KeepsTo p { b with tableText := [] } := { h with }
  unfold Builder.placeTableText
  dsimp only
  split
  · exact hfold (fun h => h.addChar _) _ hready
  · refine hfold ?_ _ hready
    intro b c h
    have hplaced : (Builder.bodyChar { b with fostering := true } c).KeepsTo p :=
      KeepsTo.bodyChar (b := { b with fostering := true }) { h with } hp c
    exact { hplaced with }

namespace Pending

theorem placed (h : Pending p b) (hp : p.Reopens) :
    (b.placeTableText.setMode b.returnMode).KeepsTo p := by
  rw [← placeTableText_setMode]
  exact h.keeps.placeTableText hp

theorem takeOnce_eq (h : Pending p b) : b.takeOnce token = b.inTableTextRule token := by
  rw [Builder.takeOnce, isForeign_eq_false h.current_html, if_neg Bool.false_ne_true,
    Builder.modeRule, h.mode_eq]

/-- All but characters place the text first. -/
theorem takeOnce (h : Pending p b) (hp : p.IsOpen) (htext : ∀ t, token ≠ .startTag t) :
    Taken p token (b.takeOnce token) := by
  rw [h.takeOnce_eq]
  unfold Builder.inTableTextRule
  have hplaced := h.placed hp.toReopens
  cases token with
  | null => exact .pending htext h
  | char c => exact .pending htext { h with keeps := { h.keeps with } }
  | startTag t => exact absurd rfl (htext t)
  | _ => exact .idle hplaced

end Pending

/-! ## Taking tokens -/

/-- What one rule has done is all that is done, however often a token is handed on. -/
theorem taken_takeWithin (hp : p.IsOpen) (honce : Taken p token (b.takeOnce token)) (hops : Nat) :
    Taken p token (takeWithin (hops + 1) b token) := by
  induction hops generalizing b with
  | zero =>
      rw [takeWithin]
      split
      · rename_i c hagain
        rw [hagain] at honce
        cases honce with
        | idle h => exact .idle h
        | opened t htoken h hnext => exact absurd rfl hnext
        | pending htext h => exact .pending htext h
      · exact honce
  | succ hops ih =>
      rw [takeWithin]
      split
      · rename_i c hagain
        rw [hagain] at honce
        apply ih
        cases honce with
        | idle h => exact h.takeOnce hp
        | opened t htoken h hnext => exact absurd rfl hnext
        | pending htext h => exact h.takeOnce hp htext
      · exact honce

/-- A start tag of formatting is not for a table. -/
theorem modeRule_eq_fosterRule (hmode : b.mode.isTable = true)
    (hformatting : t.tag.startGroup.isFormatting = true) :
    b.modeRule (.startTag t) = b.fosterRule (.startTag t) := by
  have htable : b.inTableRule (.startTag t) = b.fosterRule (.startTag t) := by
    unfold inTableRule
    dsimp only
    split
    case h_16 => rfl
    all_goals
      rename_i htag
      rw [htag] at hformatting
      cases hformatting
  unfold modeRule
  cases hset : b.mode with
  | inTable => exact htable
  | inTableBody =>
      unfold inTableBodyRule
      dsimp only
      split
      case h_10 => exact htable
      all_goals
        rename_i htag
        rw [htag] at hformatting
        cases hformatting
  | inRow =>
      unfold inRowRule
      dsimp only
      split
      case h_10 => exact htable
      all_goals
        rename_i htag
        rw [htag] at hformatting
        cases hformatting
  | _ =>
      rw [hset] at hmode
      cases hmode

/-- It always brings in its element, even if the same formatting is reopened before. -/
theorem KeepsTo.takeOnce_formatting (h : b.KeepsTo p) (hp : p.Reopens)
    (hmode : b.mode.isTable = true) (hformatting : t.tag.startGroup.isFormatting = true) :
    Taken p (.startTag t) (b.takeOnce (.startTag t)) := by
  have hrule {c : Builder} (hc : c.KeepsTo p) (hset : c.mode = b.mode) :
      Taken p (.startTag t) (c.modeRule (.startTag t)) := by
    have hready : KeepsTo p { c with fostering := true } := { hc with }
    obtain ⟨hopened, hdone⟩ := hready.opened_formatting hp hformatting
    have hnext : (Builder.bodyStart { c with fostering := true } t).2 ≠ .again := by
      rw [hdone]
      rintro ⟨⟩
    rw [modeRule_eq_fosterRule (by rw [hset, hmode]) hformatting]
    exact Taken.unfostered (.opened t rfl hopened hnext)
  unfold Builder.takeOnce
  split
  · rename_i hforeign
    have hcurrent : b.current.vocabulary ≠ .html := by
      intro hhtml
      rw [isForeign_eq_false hhtml] at hforeign
      cases hforeign
    unfold Builder.foreignRule
    dsimp only
    split
    · exact hrule (h.closeTo OpenElement.endsForeign) rfl
    · exact (h.opened_openForeign hcurrent).taken
  · exact hrule h rfl

/-- A start tag places the text first, for which formatting may be reopened. -/
theorem Pending.taken_startTag (h : Pending (p.but t) b) (hp : p.IsOpen) (hops : Nat) :
    Taken p (.startTag t) (takeWithin (hops + 2) b (.startTag t)) := by
  have hagain : b.takeOnce (.startTag t) = b.placeTableText.again b.returnMode := h.takeOnce_eq
  rw [takeWithin, hagain]
  refine taken_takeWithin hp ?_ hops
  -- A copy that is reopened for the text may have the name of a tag of formatting only.
  by_cases hformatting : t.tag.startGroup.isFormatting = true
  · have hplaced := Pending.placed { h with keeps := h.keeps.of_but } hp.toReopens
    exact hplaced.takeOnce_formatting hp.toReopens h.isTable_returnMode hformatting
  · have hplaced := h.placed (hp.toReopens.but hformatting)
    exact KeepsTo.takeOnce hplaced hp

/-- A tree between two tokens. -/
inductive Reads (p : Supply) (b : Builder) : Prop
  | keeps (h : b.KeepsTo p)
  | pending (h : Pending p b)

namespace Reads

variable {q : Supply}

theorem first_pos (h : b.Reads p) : 0 < p.first := by
  cases h with
  | keeps h => exact h.first_pos
  | pending h => exact h.keeps.first_pos

theorem first_le (h : b.Reads p) : p.first ≤ b.nextId := by
  cases h with
  | keeps h => exact h.first_le
  | pending h => exact h.keeps.first_le

theorem tree (h : b.Reads p) : b.tree.IsRooted (p.Covers b.nextId) := by
  cases h with
  | keeps h => exact h.tree
  | pending h => exact h.keeps.tree

theorem mono (h : b.Reads p) (hpos : 0 < q.first) (hle : q.first ≤ b.nextId)
    (hcovers : ∀ x, p.Covers b.nextId x → q.Covers b.nextId x)
    (hentries : ∀ entry ∈ p.entries, entry ∈ q.entries) : b.Reads q := by
  cases h with
  | keeps h => exact .keeps (h.mono hpos hle hcovers hentries)
  | pending h => exact .pending { h with keeps := h.keeps.mono hpos hle hcovers hentries }

end Reads

/-- The tree is as it was but for what was left out, or the element of a start tag is in. -/
theorem Taken.reads {r : Builder × Next} (hr : Taken p token r) :
    r.1.Reads (p.before token) ∨ ∃ t, token = .startTag t ∧ Opened p t r.1 := by
  cases hr with
  | idle h => exact .inl (.keeps h)
  | opened t htoken h _ => exact .inr ⟨t, htoken, h⟩
  | pending htext h =>
      cases token with
      | startTag t => exact absurd rfl (htext t)
      | _ => exact .inl (.pending h)

/-- Taking a token brings in what the supply allows, and the element of a start tag last. -/
theorem Reads.take (h : b.Reads (p.before token)) (hp : p.IsOpen) :
    Taken p token (b.take token) := by
  have hready : Builder.Reads (p.before token) { b with dropsNewline := false } := by
    cases h with
    | keeps h => exact .keeps { h with }
    | pending h => exact .pending { h with keeps := { h.keeps with } }
  have hdone (htext : ∀ t, token ≠ .startTag t) :
      Taken p token (Builder.done { b with dropsNewline := false }) := by
    cases hready with
    | keeps h => exact .idle h
    | pending h => exact .pending htext { h with keeps := h.keeps.of_before }
  have hrules : Taken p token
      (takeWithin (4 * b.stack.length + 16) { b with dropsNewline := false } token) := by
    cases hready with
    | keeps h => exact taken_takeWithin hp (h.takeOnce hp) _
    | pending h =>
        cases token with
        | startTag t => exact h.taken_startTag hp _
        | _ => exact taken_takeWithin hp (Pending.takeOnce h hp (by rintro t ⟨⟩)) _
  have hstarted : b.mode ≠ .initial := by
    intro hinitial
    cases h with
    | keeps h => exact absurd h.mode (by rw [hinitial]; decide)
    | pending h => exact absurd h.mode_eq (by rw [hinitial]; decide)
  unfold Builder.take
  simp only [if_neg hstarted]
  split
  · rename_i hnewline
    refine hdone ?_
    rintro t rfl
    simp at hnewline
  · split
    · exact hdone (by rintro t ⟨⟩)
    · exact hdone (by rintro t ⟨⟩)
    · exact hrules

end Builder

end Letterpress
