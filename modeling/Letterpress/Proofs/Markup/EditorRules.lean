/-
# Tags of an editor on a spine

The rules of running content amount to the plain steps on a spine as long as the
tags are those of an editor tree: a start tag opens one element and closes none,
its end tag closes that element and nothing else. `Holding.Fits` says what has to
be open around a place for that: blocks start where no paragraph, heading or
anchor is open, a list item starts right inside its list.

The same holds in a table cell, whose rules differ from those of the body only for
parts of tables.
-/

import Letterpress.Proofs.Markup.EditorTree
import Letterpress.Proofs.Markup.Spine

namespace Letterpress

/-- Nothing is open that a block would end or that must not be around one. -/
def Frame.AreBlocks (frames : List Frame) : Prop :=
  ∀ f ∈ frames, f.tag ≠ .p ∧ f.tag ≠ .a ∧ f.tag.isHeadingLevel = false

theorem Frame.AreBlocks.cons {f : Frame} {frames : List Frame} (hframes : AreBlocks frames)
    (hp : f.tag ≠ .p) (ha : f.tag ≠ .a) (hheading : f.tag.isHeadingLevel = false) :
    AreBlocks (f :: frames) := by
  intro g hg
  rcases List.mem_cons.mp hg with rfl | hold
  · exact ⟨hp, ha, hheading⟩
  · exact hframes g hold

namespace Holding

/-- What is open around a place that holds such content. -/
def Fits : Holding → List Frame → Prop
  | .flow, frames => Frame.AreBlocks frames
  | .items, frames => Frame.AreBlocks frames ∧ frames.head?.any (·.tag.isList) = true
  | .phrasing inAnchor, frames => inAnchor = false → ∀ f ∈ frames, f.tag ≠ .a
  | .nothing, _ => True

variable {holding within : Holding} {tag : Tag} {frames : List Frame} {f : Frame}

theorem Fits.phrasing_cons {inAnchor : Bool} (hfits : Fits (.phrasing inAnchor) frames)
    (ha : f.tag ≠ .a) : Fits (.phrasing inAnchor) (f :: frames) := by
  intro hanchor g hg
  rcases List.mem_cons.mp hg with rfl | hold
  · exact ha
  · exact hfits hanchor g hold

theorem Fits.inline {inAnchor : Bool} (hfits : Fits (.phrasing inAnchor) frames)
    (hinline : inline? inAnchor tag = some within) (htag : f.tag = tag) :
    within.Fits (f :: frames) := by
  unfold inline? at hinline
  split at hinline
  case h_1 | h_2 =>
    cases hinline
    trivial
  case h_9 =>
    split at hinline
    · cases hinline
    · cases hinline
      intro h
      cases h
  case h_10 => cases hinline
  all_goals
    cases hinline
    exact hfits.phrasing_cons (by simp [htag])

/-- What a child may hold fits into the child. -/
theorem Fits.child (hfits : holding.Fits frames) (hchild : holding.child? tag = some within)
    (htag : f.tag = tag) : within.Fits (f :: frames) := by
  unfold child? at hchild
  split at hchild
  · have hblocks : Frame.AreBlocks frames := hfits
    have hphrasing : Fits (.phrasing false) frames := by
      intro _ g hg
      exact (hblocks g hg).2.1
    split at hchild
    case h_1 | h_2 | h_3 | h_4 =>
      cases hchild
      exact hphrasing.phrasing_cons (by simp [htag])
    case h_5 | h_6 =>
      cases hchild
      exact ⟨hblocks.cons (by simp [htag]) (by simp [htag]) (by rw [htag]; rfl),
        by rw [List.head?_cons, Option.any_some, htag]; rfl⟩
    case h_7 =>
      cases hchild
      exact hblocks.cons (by simp [htag]) (by simp [htag]) (by rw [htag]; rfl)
    case h_8 => exact hphrasing.inline hchild htag
  · have hblocks : Frame.AreBlocks frames := hfits.1
    split at hchild
    · rename_i hitem
      cases hchild
      exact hblocks.cons (by simp [htag, hitem]) (by simp [htag, hitem])
        (by rw [htag, hitem]; rfl)
    · cases hchild
  · exact Fits.inline hfits hchild htag
  · cases hchild

end Holding

namespace Builder.Stands

variable {f : Frame} {frames outer : List Frame} {inner : Forest} {ground : Ground}
  {b b' : Builder} {tag : Tag}

/-! ## The rules that apply -/

/-- Where the rules of a cell are those of running content, a token is taken by these. -/
theorem take_eq (h : Stands frames inner ground b) {token : Token}
    (hkind : token ≠ .flaw ∧ ∀ d, token ≠ .doctype d)
    (hcell : b.inCellRule token = b.inBodyRule token)
    (hrule : b.inBodyRule token = (b', .done)) : b.take token = (b', .done) := by
  have hready : ({ b with dropsNewline := false } : Builder) = b := by
    rw [← h.dropsNewline_eq]
  have hforeign : b.isForeign token = false := by
    have hhtml : (b.current.vocabulary == .html) = true := beq_iff_eq.mpr h.current_html
    exact if_pos hhtml
  have hmode : b.modeRule token = (b', .done) := by
    have hrunning := h.mode_eq
    cases ground with
    | content | document =>
        rw [Ground.mode] at hrunning
        simp only [Builder.modeRule, hrunning, hrule]
    | cell =>
        rw [Ground.mode] at hrunning
        simp only [Builder.modeRule, hrunning, hcell, hrule]
  have hwithin : b.takeWithin (4 * b.stack.length + 16) token = (b', .done) := by
    simp only [Builder.takeWithin, Builder.takeOnce, hforeign, Bool.false_eq_true, if_false, hmode]
  unfold Builder.take
  simp only [h.dropsNewline_eq, Bool.false_and, Bool.false_eq_true, if_false, hready]
  split
  · exact absurd rfl hkind.1
  · rename_i d
    exact absurd rfl (hkind.2 d)
  · exact hwithin

/-- The rules of a cell treat the tags of an editor as running content. -/
theorem inCellRule_startTag (heditor : tag.isEditor = true) (attributes : List Attribute)
    (selfClosing : Bool) :
    b.inCellRule (.startTag ⟨tag, attributes, selfClosing⟩) =
      b.inBodyRule (.startTag ⟨tag, attributes, selfClosing⟩) := by
  unfold Tag.isEditor at heditor
  split at heditor
  all_goals first | rfl | cases heditor

theorem inCellRule_endTag (heditor : tag.isEditor = true) :
    b.inCellRule (.endTag tag) = b.inBodyRule (.endTag tag) := by
  unfold Tag.isEditor at heditor
  split at heditor
  all_goals first | rfl | cases heditor

/-! ## Characters -/

/-- A character goes to the end of the innermost element. -/
theorem take_char (h : Stands (f :: outer) inner ground b) (c : Char) :
    ∃ b', b.take (.char c) = (b', .done) ∧
      Stands (f :: outer) (inner.pushChar c) ground b' := by
  have hadd := h.add (·.pushChar c)
  refine ⟨b.bodyChar c, h.take_eq ⟨nofun, nofun⟩ rfl rfl, ?_⟩
  rw [Builder.bodyChar, h.reopenFormatting_eq]
  split
  · exact hadd
  · exact hadd.forbidFrames

/-! ## Start tags -/

/-- A list item starts where its list is current, so it ends no other item. -/
theorem closeItem_eq (h : Stands (f :: outer) inner ground b) (hlist : f.tag.isList = true) :
    b.closeItem (· == .li) = b := by
  have htag : f.tag = .ul ∨ f.tag = .ol := by
    unfold Tag.isList at hlist
    split at hlist
    · exact .inl ‹_›
    · exact .inr ‹_›
    · cases hlist
  have hfind : (b.stack.find? fun e => e.satisfies (· == .li) || Builder.closeItem.bounds e) =
      some f.opened := by
    rw [h.stack_eq, List.map_cons]
    apply List.find?_cons_of_pos
    rw [Frame.opened]
    rcases htag with htag | htag
    · rw [htag]
      rfl
    · rw [htag]
      rfl
  have hitem : f.opened.satisfies (· == .li) = false := by
    rw [Frame.opened]
    rcases htag with htag | htag
    · rw [htag]
      rfl
    · rw [htag]
      rfl
  rw [Builder.closeItem, hfind]
  dsimp only
  rw [hitem]
  rfl

/-- Inline content starts inside whatever is open. -/
theorem bodyStart_inline (h : Stands (f :: outer) inner ground b) {inAnchor : Bool}
    {within : Holding} (hfits : Holding.Fits (.phrasing inAnchor) (f :: outer))
    (hinline : Holding.inline? inAnchor tag = some within) (hcontent : tag.isVoid = false)
    (attributes : List Attribute) :
    ∃ b', b.bodyStart ⟨tag, attributes, false⟩ = (b', .done) ∧
      Stands (opening b tag attributes inner :: f :: outer) .empty ground b' := by
  unfold Holding.inline? at hinline
  split at hinline
  case h_1 | h_2 => cases hcontent
  case h_8 =>
    refine ⟨b.reopenFormatting.openElement ⟨.span, attributes, false⟩, rfl, ?_⟩
    rw [h.reopenFormatting_eq]
    exact h.openElement ⟨.span, attributes, false⟩
  case h_9 =>
    have hanchor : ∀ g ∈ f :: outer, g.tag ≠ .a := by
      cases inAnchor with
      | false => exact hfits rfl
      | true => cases hinline
    refine ⟨b.endOpenAnchor.reopenFormatting.openFormatting ⟨.a, attributes, false⟩, rfl, ?_⟩
    rw [h.endOpenAnchor_eq hanchor, h.reopenFormatting_eq]
    exact h.openFormatting ⟨.a, attributes, false⟩ rfl
  case h_10 => cases hinline
  all_goals
    refine ⟨b.reopenFormatting.openFormatting _, rfl, ?_⟩
    rw [h.reopenFormatting_eq]
    exact h.openFormatting ⟨_, attributes, false⟩ (by rfl)

/-- A block starts without ending anything. -/
theorem bodyStart_block (h : Stands (f :: outer) inner ground b)
    (hblocks : Frame.AreBlocks (f :: outer)) {t : StartTag}
    (hgroup : t.tag.startGroup = .block ∨ t.tag.startGroup = .heading) :
    b.bodyStart t = (b.openElement t, .done) := by
  have hclosed : b.closeParagraph = b := h.closeParagraph_eq fun g hg => (hblocks g hg).1
  have hheading : b.stack.currentIs (·.satisfies Tag.isHeadingLevel) = false := by
    rw [h.stack_eq]
    exact (hblocks f (by simp)).2.2
  rcases hgroup with hgroup | hgroup
  · simp only [Builder.bodyStart, hgroup, hclosed]
    rfl
  · simp only [Builder.bodyStart, hgroup, hclosed, hheading]
    rfl

/-- The start tag of an element with content opens the element. -/
theorem take_startTag (h : Stands (f :: outer) inner ground b) {holding within : Holding}
    (hfits : holding.Fits (f :: outer)) (hchild : holding.child? tag = some within)
    (hcontent : tag.isVoid = false) (attributes : List Attribute) :
    ∃ b', b.take (.startTag ⟨tag, attributes, false⟩) = (b', .done) ∧
      Stands (opening b tag attributes inner :: f :: outer) .empty ground b' := by
  have hstart : ∃ b', b.bodyStart ⟨tag, attributes, false⟩ = (b', .done) ∧
      Stands (opening b tag attributes inner :: f :: outer) .empty ground b' := by
    have hopen := h.openElement ⟨tag, attributes, false⟩
    unfold Holding.child? at hchild
    split at hchild
    · have hblocks : Frame.AreBlocks (f :: outer) := hfits
      split at hchild
      case h_8 =>
        have hphrasing : Holding.Fits (.phrasing false) (f :: outer) :=
          fun _ g hg => (hblocks g hg).2.1
        exact h.bodyStart_inline hphrasing hchild hcontent attributes
      case h_1 | h_5 | h_6 | h_7 => exact ⟨_, h.bodyStart_block hblocks (.inl rfl), hopen⟩
      all_goals exact ⟨_, h.bodyStart_block hblocks (.inr rfl), hopen⟩
    · obtain ⟨hblocks, hlist⟩ := hfits
      split at hchild
      · rename_i hitem
        subst hitem
        refine ⟨b.openItem (· == .li) ⟨.li, attributes, false⟩, rfl, ?_⟩
        have hforbid := h.forbidFrames
        rw [Builder.openItem, hforbid.closeItem_eq hlist,
          hforbid.closeParagraph_eq fun g hg => (hblocks g hg).1]
        exact hforbid.openElement ⟨.li, attributes, false⟩
      · cases hchild
    · exact h.bodyStart_inline hfits hchild hcontent attributes
    · cases hchild
  obtain ⟨b', hrule, hstands⟩ := hstart
  have hcell := inCellRule_startTag (b := b) (Holding.isEditor_of_child? hchild) attributes false
  exact ⟨b', h.take_eq ⟨nofun, nofun⟩ hcell hrule, hstands⟩

/-- The start tag of an element without an end tag adds the element, whether or not the tag says
that nothing follows in it. -/
theorem take_voidTag (h : Stands (f :: outer) inner ground b) (heditor : tag.isEditor = true)
    (hvoid : tag.isVoid = true) (attributes : List Attribute) (selfClosing : Bool) :
    ∃ b', b.take (.startTag ⟨tag, attributes, selfClosing⟩) = (b', .done) ∧
      Stands (f :: outer) (.element b.nextId .html tag attributes .empty inner) ground b' := by
  have hgroup : tag.startGroup = .inlineVoid ∧ tag.isFormatting = false := by
    unfold Tag.isEditor at heditor
    split at heditor
    all_goals first | exact ⟨rfl, rfl⟩ | cases hvoid | cases heditor
  refine ⟨((b.addEmpty ⟨tag, attributes, selfClosing⟩).forbidFrames),
    h.take_eq ⟨nofun, nofun⟩ (inCellRule_startTag heditor attributes selfClosing) ?_, ?_⟩
  · show b.bodyStart ⟨tag, attributes, selfClosing⟩ = _
    simp only [Builder.bodyStart, hgroup.1, h.reopenFormatting_eq]
    rfl
  · exact ((h.openElement ⟨tag, attributes, selfClosing⟩).close hgroup.2).forbidFrames

/-! ## End tags -/

theorem closeThrough_eq (h : Stands (f :: outer) inner ground b) :
    b.closeThrough f.tag = b.close := by
  rw [Builder.closeThrough, Builder.onStack, Builder.close, Builder.onStack, h.stack_eq]
  simp [Stack.closeThrough, Frame.opened, OpenElement.is]

/-- Closing what may be left open closes nothing where the current element may not. -/
theorem closeImplied_eq (h : Stands (f :: outer) inner ground b) {keep : Option Tag}
    (hstay : (f.tag.hasImpliedEnd && some f.tag != keep) = false) :
    b.onStack (·.closeImplied keep) = b := by
  have hstack : b.stack.closeImplied keep = b.stack := by
    rw [h.stack_eq, List.map_cons, Stack.closeImplied]
    exact List.dropWhile_cons_of_neg (by simpa [OpenElement.satisfies, Frame.opened] using hstay)
  rw [Builder.onStack, hstack]

/-- How the end tags of elements that are no formatting find their element. -/
theorem endGroup_of_isEditor (heditor : tag.isEditor = true) (hcontent : tag.isVoid = false)
    (hplain : tag.isFormatting = false) :
    (tag.endGroup = .paragraph ∧ tag = .p) ∨ tag.endGroup = .listItem ∨
      tag.endGroup = .ordinary ∨
      (tag.endGroup = .heading ∧ tag.isHeadingLevel = true ∧ tag.hasImpliedEnd = false) ∨
      (tag.endGroup = .block ∧ tag.hasImpliedEnd = false) := by
  unfold Tag.isEditor at heditor
  split at heditor
  all_goals first
    | exact .inl ⟨rfl, rfl⟩
    | exact .inr (.inl rfl)
    | exact .inr (.inr (.inl rfl))
    | exact .inr (.inr (.inr (.inl ⟨rfl, rfl, rfl⟩)))
    | exact .inr (.inr (.inr (.inr ⟨rfl, rfl⟩)))
    | exact absurd hcontent (by decide)
    | exact absurd hplain (by decide)
    | cases heditor

/-- The end tag of the current element closes it, formatting apart. -/
theorem bodyEnd_eq_close (h : Stands (f :: outer) inner ground b)
    (heditor : f.tag.isEditor = true) (hcontent : f.tag.isVoid = false)
    (hplain : f.tag.isFormatting = false) : b.bodyEnd f.tag = (b.close, .done) := by
  have hthrough := h.closeThrough_eq
  have hkeep : b.closeImpliedBut f.tag = b := h.closeImplied_eq (by simp)
  rcases endGroup_of_isEditor heditor hcontent hplain with
    ⟨hgroup, hp⟩ | hgroup | hgroup | ⟨hgroup, hheading, himplied⟩ | ⟨hgroup, himplied⟩
  · have hhas := h.has_current .button
    rw [hp] at hhas hkeep hthrough
    simp only [Builder.bodyEnd, hgroup, hhas, if_true, hkeep, hthrough]
    rfl
  · simp only [Builder.bodyEnd, hgroup, h.has_current, if_true, hkeep, hthrough]
    rfl
  · have hend : b.endElement f.tag = b.close := by
      simp [Builder.endElement, h.stack_eq, h.close_eq, Builder.endElement.go, OpenElement.is,
        Frame.opened]
    simp only [Builder.bodyEnd, hgroup, hend]
    rfl
  · have hstay : b.closeImplied = b := h.closeImplied_eq (by simp [himplied])
    have hsatisfies : f.opened.satisfies Tag.isHeadingLevel = true := by
      simpa [OpenElement.satisfies, Frame.opened] using hheading
    have hscope : Stack.hasInScope .content (·.satisfies Tag.isHeadingLevel) b.stack = true := by
      rw [h.stack_eq, List.map_cons, Stack.hasInScope, hsatisfies, Bool.true_or]
    have hclose : b.onStack (·.closeThrough (·.satisfies Tag.isHeadingLevel)) = b.close := by
      rw [h.close_eq, Builder.onStack, h.stack_eq, List.map_cons, Stack.closeThrough,
        List.dropWhile_cons_of_neg (by simp [hsatisfies])]
      rfl
    simp only [Builder.bodyEnd, hgroup, hscope, if_true, hstay, hclose]
    rfl
  · have hstay : b.closeImplied = b := h.closeImplied_eq (by simp [himplied])
    simp only [Builder.bodyEnd, hgroup, h.has_current, if_true, hstay, hthrough]
    rfl

/-- The end tag of the current element closes it. -/
theorem take_endTag (h : Stands (f :: outer) inner ground b)
    (heditor : f.tag.isEditor = true) (hcontent : f.tag.isVoid = false) :
    ∃ b', b.take (.endTag f.tag) = (b', .done) ∧ Stands outer (f.wrap inner) ground b' := by
  have hcell := inCellRule_endTag (b := b) heditor
  cases hformatting : f.tag.isFormatting with
  | false =>
      have hrule := h.bodyEnd_eq_close heditor hcontent hformatting
      exact ⟨b.close, h.take_eq ⟨nofun, nofun⟩ hcell hrule, h.close hformatting⟩
  | true =>
      have hgroup : f.tag.endGroup = .formatting := by
        generalize f.tag = tag at heditor hformatting
        unfold Tag.isEditor at heditor
        split at heditor
        all_goals first | rfl | cases hformatting | cases heditor
      refine ⟨b.endFormatting f.tag, h.take_eq ⟨nofun, nofun⟩ hcell ?_, h.endFormatting⟩
      show b.bodyEnd f.tag = _
      simp only [Builder.bodyEnd, hgroup]
      rfl

end Builder.Stands

end Letterpress
