/-
# Start tags that open a level
-/

import Letterpress.Proofs.Markup.Feeding
import Letterpress.Proofs.Markup.Resting

namespace Letterpress

open Level

namespace Builder

/-- An attribute that is known without its vocabulary keeps its name. -/
theorem localName_eq_iff {name : Text} (hother : ∀ entry ∈ localName.qualified,
    entry.1.toList ≠ name ∧ entry.2.toList ≠ name) (n : Text) : localName n = name ↔ n = name := by
  rw [localName]
  cases hfind : localName.qualified.find? fun entry => entry.1.toList == n with
  | none => rfl
  | some entry =>
      have hmem := hother entry (List.mem_of_find?_eq_some hfind)
      have hfound := List.find?_some hfind
      have hname : entry.1.toList = n := by simpa using hfound
      constructor
      · intro heq
        exact absurd heq hmem.2
      · rintro rfl
        exact absurd hname hmem.1

/-- Attributes as foreign content has them. -/
def localAttributes (as : List Attribute) : List Attribute :=
  as.map fun a => { a with name := localName a.name }

theorem annotatesMarkup_localAttributes (vocabulary : Vocabulary) (tag : Tag)
    (as : List Attribute) :
    annotatesMarkup vocabulary tag (localAttributes as) = annotatesMarkup vocabulary tag as := by
  have hname (n : Text) : (localName n == ("encoding" : Text)) = (n == ("encoding" : Text)) := by
    rw [Bool.eq_iff_iff, beq_iff_eq, beq_iff_eq]
    exact localName_eq_iff (by decide) n
  unfold annotatesMarkup localAttributes
  rw [List.any_map]
  simp only [Function.comp_def, hname]

end Builder

namespace Level

/-- The level that a start tag opens. -/
def opening (b : Builder) (levels : List Level) (t : StartTag) (inner : Forest) (around : Mode) :
    Level where
  id := b.nextId
  vocabulary := (path levels).vocabularyOf t
  start := t
  attributes :=
    if (path levels).vocabularyOf t = .html then t.attributes
    else Builder.localAttributes t.attributes
  around := around
  older := inner

variable {b : Builder} {levels : List Level} {t : StartTag} {inner : Forest} {around : Mode}

/-- Inside the level, the path is that which the start tag leads to. -/
theorem path_opening :
    path (opening b levels t inner around :: levels) = (path levels).enter t := by
  have hholds : Builder.annotatesMarkup ((path levels).vocabularyOf t) t.tag
      (opening b levels t inner around).attributes =
        Builder.annotatesMarkup ((path levels).vocabularyOf t) t.tag t.attributes := by
    unfold opening
    dsimp only
    split
    · rfl
    · exact Builder.annotatesMarkup_localAttributes _ _ _
  rw [path, List.map_cons, shell, opened]
  exact congrArg (fun holds => (⟨0, _, _, holds⟩ : OpenElement) :: path levels) hholds

theorem opening_eq {b₁ : Builder} (hnext : b₁.nextId = b.nextId) :
    opening b₁ levels t inner around = opening b levels t inner around := by
  rw [opening, opening, hnext]

end Level

/-- Elements whose start changes more than the tree and the open elements. -/
def Tag.changesMore (tag : Tag) : Bool := tag.setsMarker || tag == .form || tag.isTablePart

/-- What the elements of running content share. -/
theorem Tag.facts_of_isFlow {tag : Tag} (hflow : tag.startGroup.isFlow = true) :
    tag ≠ .template ∧ tag.isTablePart = false ∧
      (tag.changesMore = true → tag.startGroup = .bounded ∨ tag.startGroup = .form) ∧
      (tag.startGroup = .bounded → tag.setsMarker = true) ∧
      (tag.startGroup = .form ↔ tag = .form) := by
  cases tag
  all_goals first
    | (cases hflow; done)
    | refine ⟨nofun, rfl, ?_, ?_, ?_, ?_⟩
  all_goals
    intro h
    first | rfl | exact .inl rfl | exact .inr rfl | cases h

/-- Elements whose start tag lists them in the formatting. -/
theorem Tag.endGroup_of_isListed {tag : Tag} (hlisted : tag.startGroup = .anchor ∨
    tag.startGroup = .formatting ∨ tag.startGroup = .nobr) : tag.endGroup = .formatting := by
  cases tag
  all_goals first
    | rfl
    | rcases hlisted with h | h | h <;> cases h

/-- Running content is never a part of a table. -/
theorem Mode.handsOn_of_isFlow {mode : Mode} {t : StartTag}
    (hflow : t.tag.startGroup.isFlow = true)
    (hform : t.tag = .form → mode.isRunning = true) : mode.handsOn (.startTag t) = true := by
  simp only [Mode.handsOn]
  split
  all_goals first
    | rfl
    | (rename_i htag; rw [htag] at hflow; cases hflow; done)
    | exact hform ‹_›

namespace Builder.Rests

variable {f g : Level} {levels outer : List Level} {inner : Forest} {mode inside : Mode}
  {b : Builder} {t : StartTag}

/-- A part of a ruby starts without ending another. -/
theorem endsRuby_eq (h : Rests levels inner mode b) {keep : Option Tag}
    (hnone : (path levels).endsRuby keep = false) :
    (if b.has .content .ruby then b.onStack (·.closeImplied keep) else b) = b := by
  rw [Stack.endsRuby, ← h.has_eq, Bool.and_eq_false_iff] at hnone
  rcases hnone with hruby | hstay
  · rw [hruby]
    rfl
  · rw [h.closeImplied_eq hstay, ite_self]

/-! ## Opening a level -/

theorem openElement_eq (h : Spans (g :: outer) inner b)
    (hhtml : (path (g :: outer)).vocabularyOf t = .html) (around : Mode) :
    b.openElement t =
      { b with
        tree := Level.nest (opening b (g :: outer) t inner around :: g :: outer) .empty
        nextId := b.nextId + 1
        stack := (opening b (g :: outer) t inner around :: g :: outer).map Level.opened } := by
  have hopen := h.openIn_eq (f := opening b (g :: outer) t inner around) rfl rfl
  have hlevel : b.openElement t = b.openIn (opening b (g :: outer) t inner around).vocabulary
      (opening b (g :: outer) t inner around).start.tag
      (opening b (g :: outer) t inner around).attributes := by
    simp only [opening, hhtml, if_true]
    rfl
  rw [hlevel, hopen]

theorem satisfies_opening (b : Builder) (inner : Forest) (mode : Mode)
    (hhtml : (path levels).vocabularyOf t = .html) (p : Tag → Bool) :
    (opening b levels t inner mode).opened.satisfies p = p t.tag := by
  rw [OpenElement.satisfies, opened, opening, hhtml]
  rfl

theorem form?_opening (hhtml : (path levels).vocabularyOf t = .html) (hform : t.tag ≠ .form) :
    form? (opening b levels t inner mode :: levels) = form? levels := by
  refine form?_cons ?_
  have hother := satisfies_opening b inner mode hhtml (· == .form)
  exact hother.trans (beq_eq_false_iff_ne.mpr hform)

/-- A level that the rules around it go on in, and that leaves no trace but in the tree and the
open elements. -/
theorem enter_plain (h : Rests (g :: outer) inner mode b)
    (hinterior : mode.interior? (path (g :: outer)) t = some (.nodes mode))
    (hplain : (opening b (g :: outer) t inner mode).opened.satisfies Tag.changesMore = false) :
    Rests (opening b (g :: outer) t inner mode :: g :: outer) .empty mode
      { b with
        tree := Level.nest (opening b (g :: outer) t inner mode :: g :: outer) .empty
        nextId := b.nextId + 1
        stack := (opening b (g :: outer) t inner mode :: g :: outer).map Level.opened } := by
  have hother {p : Tag → Bool} (hp : ∀ tag, p tag = true → tag.changesMore = true) :
      (opening b (g :: outer) t inner mode).opened.satisfies p = false := by
    rw [← Bool.not_eq_true]
    intro hsatisfies
    rw [OpenElement.satisfies, Bool.and_eq_true] at hsatisfies
    rw [OpenElement.satisfies, hsatisfies.1, hp _ hsatisfies.2] at hplain
    cases hplain
  have htemplate : (opening b (g :: outer) t inner mode).opened.is .template = false :=
    hother (p := (· == .template)) fun tag htag => by rw [beq_iff_eq.mp htag]; rfl
  have hform : (opening b (g :: outer) t inner mode).opened.is .form = false :=
    hother (p := (· == .form)) fun tag htag => by rw [beq_iff_eq.mp htag]; rfl
  have hmarker := hother (p := Tag.setsMarker) fun tag htag => by rw [Tag.changesMore, htag]; rfl
  have hpart := hother (p := Tag.isTablePart) fun tag htag => by
    rw [Tag.changesMore, htag, Bool.or_true]
  exact h.enter _ _ rfl (.enter h.chain rfl hinterior htemplate) h.plain_mode_eq
    (.skip hmarker h.lists) (by rw [form?_cons hform, h.form_eq]) fun _ => hpart

/-- An element of plain markup that leaves no other trace. -/
theorem openElement (h : Rests (g :: outer) inner mode b)
    (hinterior : mode.interior? (path (g :: outer)) t = some (.nodes mode))
    (hhtml : (path (g :: outer)).vocabularyOf t = .html) (hplain : t.tag.changesMore = false) :
    Rests (opening b (g :: outer) t inner mode :: g :: outer) .empty mode (b.openElement t) := by
  rw [openElement_eq h.toSpans hhtml mode]
  exact h.enter_plain hinterior ((satisfies_opening b inner mode hhtml _).trans hplain)

/-- A formatting element is listed. -/
theorem openFormatting (h : Rests (g :: outer) inner mode b)
    (hinterior : mode.interior? (path (g :: outer)) t = some (.nodes mode))
    (hhtml : (path (g :: outer)).vocabularyOf t = .html)
    (hformatting : t.tag.endGroup = .formatting) (hplain : t.tag.changesMore = false) :
    Rests (opening b (g :: outer) t inner mode :: g :: outer) .empty mode (b.openFormatting t) := by
  have hentry : Formatting.element b.nextId t.tag t.attributes =
      (opening b (g :: outer) t inner mode).entry := by
    rw [Level.entry, opening, hhtml]
    rfl
  have hopen := h.enter_plain hinterior ((satisfies_opening b inner mode hhtml _).trans hplain)
  rw [Builder.openFormatting, openElement_eq h.toSpans hhtml mode, hentry]
  exact { hopen with lists := .entry hhtml hformatting (h.lists.makeRoom t) }

/-- A form is remembered unless a template is open. -/
theorem openForm (h : Rests (g :: outer) inner mode b)
    (hinterior : mode.interior? (path (g :: outer)) t = some (.nodes mode))
    (hhtml : (path (g :: outer)).vocabularyOf t = .html) (htag : t.tag = .form)
    (hnone : (path (g :: outer)).inForm = false) :
    b.RestsAfter (opening b (g :: outer) t inner mode :: g :: outer) .empty mode false
      (if b.form.isSome && !b.stack.inTemplate then b.done
      else if b.stack.inTemplate then (b.openElement t).done
      else { b.openElement t with form := some (b.openElement t).current.id }.done) := by
  have hsatisfies := satisfies_opening b inner mode hhtml
  have hchain : Level.Chain (opening b (g :: outer) t inner mode :: g :: outer) b.templateModes
      mode := .enter h.chain rfl hinterior ((hsatisfies (· == .template)).trans (by rw [htag]; rfl))
  have hlists := Lists.skip ((hsatisfies Tag.setsMarker).trans (by rw [htag]; rfl)) h.lists
  have hisForm : (opening b (g :: outer) t inner mode).opened.is .form = true :=
    (hsatisfies (· == .form)).trans (by rw [htag]; rfl)
  have hpart : (opening b (g :: outer) t inner mode).opened.satisfies Tag.isTablePart = false :=
    (hsatisfies Tag.isTablePart).trans (by rw [htag]; rfl)
  rw [openElement_eq h.toSpans hhtml mode, h.inTemplate_eq]
  cases htemplate : (path (g :: outer)).inTemplate with
  | true =>
      have hform : b.form = form? (opening b (g :: outer) t inner mode :: g :: outer) := by
        rw [form?, htemplate, h.form_eq]
        simp only [Bool.not_true, Bool.and_false, Bool.false_eq_true, if_false]
      have hopened := h.enter b.framesAllowed b.fostering rfl hchain h.plain_mode_eq hlists hform
        fun _ => hpart
      rw [Bool.not_true, Bool.and_false]
      exact hopened.after (b := b) rfl false
  | false =>
      have hclosed : b.form = none := by
        rw [Stack.inForm, htemplate, Bool.not_false, Bool.and_true] at hnone
        rw [h.form_eq, form?_eq_none hnone]
      have hform : some b.nextId = form? (opening b (g :: outer) t inner mode :: g :: outer) := by
        rw [form?, hisForm, htemplate]
        rfl
      have hopened := h.enter b.framesAllowed b.fostering rfl hchain h.plain_mode_eq hlists hform
        fun _ => hpart
      rw [hclosed]
      exact hopened.after (b := b) rfl false

/-- An element of plain markup other than a form or a template, under new rules. -/
theorem enter_html (h : Rests (g :: outer) inner mode b)
    (hinterior : mode.interior? (path (g :: outer)) t = some (.nodes inside))
    (hhtml : (path (g :: outer)).vocabularyOf t = .html)
    (htag : t.tag ≠ .template ∧ t.tag ≠ .form) (rules : Mode) (hrules : rules.plain = inside)
    (frames : Bool) {formatting : List Formatting}
    (hlists : Level.Lists (opening b (g :: outer) t inner mode :: g :: outer) formatting)
    (hplace : b.fostering = true → t.tag.isTablePart = false) :
    Rests (opening b (g :: outer) t inner mode :: g :: outer) .empty inside
      { b with
        tree := Level.nest (opening b (g :: outer) t inner mode :: g :: outer) .empty
        nextId := b.nextId + 1
        stack := (opening b (g :: outer) t inner mode :: g :: outer).map Level.opened
        formatting, mode := rules, framesAllowed := frames } := by
  have hsatisfies := satisfies_opening b inner mode hhtml
  exact h.enter _ _ rfl (.enter h.chain rfl hinterior
      ((hsatisfies (· == .template)).trans (beq_eq_false_iff_ne.mpr htag.1)))
    hrules hlists (by rw [form?_opening hhtml htag.2, h.form_eq])
    fun hfostering => (hsatisfies Tag.isTablePart).trans (hplace hfostering)

/-- Formatting outside does not go on in an element that sets a marker. -/
theorem enter_marked (h : Rests (g :: outer) inner mode b)
    (hinterior : mode.interior? (path (g :: outer)) t = some (.nodes inside))
    (hhtml : (path (g :: outer)).vocabularyOf t = .html) (hmarker : t.tag.setsMarker = true)
    (htemplate : t.tag ≠ .template) (rules : Mode) (hrules : rules.plain = inside)
    (frames : Bool) :
    Rests (opening b (g :: outer) t inner mode :: g :: outer) .empty inside
      { b with
        tree := Level.nest (opening b (g :: outer) t inner mode :: g :: outer) .empty
        nextId := b.nextId + 1
        stack := (opening b (g :: outer) t inner mode :: g :: outer).map Level.opened
        formatting := .marker :: b.formatting, mode := rules, framesAllowed := frames } := by
  have hno : t.tag ≠ .form ∧ t.tag.isTablePart = false := by
    revert hmarker
    cases t.tag
    all_goals
      intro hmarker
      first | (cases hmarker; done) | exact ⟨by simp, rfl⟩
  exact h.enter_html hinterior hhtml ⟨htemplate, hno.1⟩ rules hrules frames
    (.marker ((satisfies_opening b inner mode hhtml _).trans hmarker) h.lists) fun _ => hno.2

/-- An element that sets no marker, under new rules. -/
theorem enter_unmarked (h : Rests (g :: outer) inner mode b)
    (hinterior : mode.interior? (path (g :: outer)) t = some (.nodes inside))
    (hhtml : (path (g :: outer)).vocabularyOf t = .html) (hmarker : t.tag.setsMarker = false)
    (hform : t.tag ≠ .form) (rules : Mode) (hrules : rules.plain = inside) (frames : Bool)
    (hplace : b.fostering = true → t.tag.isTablePart = false) :
    Rests (opening b (g :: outer) t inner mode :: g :: outer) .empty inside
      { b with
        tree := Level.nest (opening b (g :: outer) t inner mode :: g :: outer) .empty
        nextId := b.nextId + 1
        stack := (opening b (g :: outer) t inner mode :: g :: outer).map Level.opened
        mode := rules, framesAllowed := frames } := by
  have htemplate : t.tag ≠ .template := by
    intro htag
    rw [htag] at hmarker
    cases hmarker
  exact h.enter_html hinterior hhtml ⟨htemplate, hform⟩ rules hrules frames
    (.skip ((satisfies_opening b inner mode hhtml _).trans hmarker) h.lists) hplace

/-! ## Running content -/

/-- The start tag of an element of running content opens it and ends nothing. -/
theorem bodyStart_flow (h : Rests (g :: outer) inner mode b)
    (hinterior : mode.interior? (path (g :: outer)) t = some (.nodes mode))
    (hhtml : (path (g :: outer)).vocabularyOf t = .html)
    (hbody : mode.bodyInterior? (path (g :: outer)) t.tag = some (.nodes mode))
    (hflow : t.tag.startGroup.isFlow = true) :
    b.RestsAfter (opening b (g :: outer) t inner mode :: g :: outer) .empty mode
      (t.tag == .pre || t.tag == .listing) (b.bodyStart t) := by
  obtain ⟨htemplate, hpart, hmore, hmarker, hform⟩ := Tag.facts_of_isFlow hflow
  have hplain (hbounded : t.tag.startGroup ≠ .bounded) (hother : t.tag.startGroup ≠ .form) :
      t.tag.changesMore = false := by
    rw [← Bool.not_eq_true]
    exact fun hchanges => (hmore hchanges).elim hbounded hother
  have hopen (hbounded : t.tag.startGroup ≠ .bounded) (hother : t.tag.startGroup ≠ .form) :=
    h.openElement hinterior hhtml (hplain hbounded hother)
  have hfostering : (b.openElement t).fostering = b.fostering := by
    rw [openElement_eq h.toSpans hhtml mode]
  have hformatted (hlisted : t.tag.startGroup = .anchor ∨ t.tag.startGroup = .formatting ∨
      t.tag.startGroup = .nobr) :
      b.RestsAfter (opening b (g :: outer) t inner mode :: g :: outer) .empty mode
        (t.tag == .pre || t.tag == .listing) (b.openFormatting t).done := by
    have hopened := h.openFormatting hinterior hhtml (Tag.endGroup_of_isListed hlisted)
      (hplain (by rcases hlisted with h | h | h <;> simp [h])
        (by rcases hlisted with h | h | h <;> simp [h]))
    exact hopened.after hfostering _
  have hitem (isItem : Tag → Bool) (hends : (path (g :: outer)).endsItem isItem = false)
      (hparagraph : (path (g :: outer)).inParagraph = false)
      (hbounded : t.tag.startGroup ≠ .bounded) (hother : t.tag.startGroup ≠ .form) :
      b.RestsAfter (opening b (g :: outer) t inner mode :: g :: outer) .empty mode
        (t.tag == .pre || t.tag == .listing) (b.openItem isItem t).done := by
    rw [Builder.openItem, h.forbidFrames.closeItem_eq hends,
      h.forbidFrames.closeParagraph_eq hparagraph]
    refine (h.forbidFrames.openElement hinterior hhtml (hplain hbounded hother)).after ?_ _
    rw [openElement_eq h.forbidFrames.toSpans hhtml mode]
    rfl
  unfold Mode.bodyInterior? at hbody
  unfold Builder.bodyStart
  cases hgroup : t.tag.startGroup with
  | block =>
      simp only [hgroup] at hbody ⊢
      rw [h.closeParagraph_eq (Interior.unless_eq_some_iff.mp hbody).1]
      exact (hopen (by simp [hgroup]) (by simp [hgroup])).after hfostering _
  | heading =>
      simp only [hgroup] at hbody ⊢
      obtain ⟨hparagraph, hheading⟩ := Bool.or_eq_false_iff.mp
        (Interior.unless_eq_some_iff.mp hbody).1
      rw [h.closeParagraph_eq hparagraph, h.stack_currentIs_eq fun _ => rfl, hheading]
      exact (hopen (by simp [hgroup]) (by simp [hgroup])).after hfostering _
  | preformatted =>
      simp only [hgroup] at hbody ⊢
      rw [h.closeParagraph_eq (Interior.unless_eq_some_iff.mp hbody).1]
      refine ⟨rfl, (hopen (by simp [hgroup]) (by simp [hgroup])).forbidFrames.setDropsNewline,
        hfostering, fun _ => ?_⟩
      revert hgroup
      cases t.tag
      all_goals
        intro hgroup
        first | rfl | cases hgroup
  | form =>
      simp only [hgroup] at hbody ⊢
      obtain ⟨hparagraph, hinForm⟩ := Bool.or_eq_false_iff.mp
        (Interior.unless_eq_some_iff.mp hbody).1
      rw [h.closeParagraph_eq hparagraph]
      have hopened := h.openForm hinterior hhtml (hform.mp hgroup) hinForm
      exact { hopened with line_of := fun hline => by cases hopened.line_of hline }
  | listItem =>
      simp only [hgroup] at hbody ⊢
      obtain ⟨hends, hparagraph⟩ := Bool.or_eq_false_iff.mp
        (Interior.unless_eq_some_iff.mp hbody).1
      exact hitem _ hends hparagraph (by simp [hgroup]) (by simp [hgroup])
  | definition =>
      simp only [hgroup] at hbody ⊢
      obtain ⟨hends, hparagraph⟩ := Bool.or_eq_false_iff.mp
        (Interior.unless_eq_some_iff.mp hbody).1
      exact hitem _ hends hparagraph (by simp [hgroup]) (by simp [hgroup])
  | button =>
      simp only [hgroup] at hbody ⊢
      have hnone := (Interior.unless_eq_some_iff.mp hbody).1
      rw [← h.has_eq] at hnone
      rw [hnone]
      simp only [Bool.false_eq_true, if_false, h.reopenFormatting_eq]
      exact (hopen (by simp [hgroup]) (by simp [hgroup])).forbidFrames.after hfostering _
  | anchor =>
      simp only [hgroup] at hbody ⊢
      rw [h.endOpenAnchor_eq (Interior.unless_eq_some_iff.mp hbody).1, h.reopenFormatting_eq]
      exact hformatted (.inl hgroup)
  | formatting =>
      simp only
      rw [h.reopenFormatting_eq]
      exact hformatted (.inr (.inl hgroup))
  | nobr =>
      simp only [hgroup] at hbody ⊢
      have hnone := (Interior.unless_eq_some_iff.mp hbody).1
      rw [← h.has_eq] at hnone
      rw [h.reopenFormatting_eq, hnone]
      exact hformatted (.inr (.inr hgroup))
  | bounded =>
      simp only
      rw [h.reopenFormatting_eq, openElement_eq h.toSpans hhtml mode]
      have hopened := h.enter_marked hinterior hhtml (hmarker hgroup) htemplate b.mode h.plain_mode_eq
        false
      exact hopened.after (b := b) rfl _
  | option =>
      simp only [hgroup] at hbody ⊢
      rw [h.closeIf_eq (Interior.unless_eq_some_iff.mp hbody).1, h.reopenFormatting_eq]
      exact (hopen (by simp [hgroup]) (by simp [hgroup])).after hfostering _
  | rubyBase =>
      simp only [hgroup] at hbody ⊢
      have hsame := h.endsRuby_eq (Interior.unless_eq_some_iff.mp hbody).1
      rw [Builder.closeImplied, hsame]
      exact (hopen (by simp [hgroup]) (by simp [hgroup])).after hfostering _
  | rubyText =>
      simp only [hgroup] at hbody ⊢
      have hsame := h.endsRuby_eq (Interior.unless_eq_some_iff.mp hbody).1
      rw [Builder.closeImpliedBut, hsame]
      exact (hopen (by simp [hgroup]) (by simp [hgroup])).after hfostering _
  | ordinary =>
      simp only
      rw [h.reopenFormatting_eq]
      exact (hopen (by simp [hgroup]) (by simp [hgroup])).after hfostering _
  | _ =>
      rw [hgroup] at hflow
      cases hflow

/-- The start tag of a table in running content. -/
theorem bodyStart_table (h : Rests (g :: outer) inner mode b)
    (hinterior : mode.interior? (path (g :: outer)) t = some (.nodes .inTable))
    (hhtml : (path (g :: outer)).vocabularyOf t = .html) (htag : t.tag = .table)
    (hparagraph : (path (g :: outer)).inParagraph = false) (hfostering : b.fostering = false) :
    b.RestsAfter (opening b (g :: outer) t inner mode :: g :: outer) .empty .inTable false
      (b.bodyStart t) := by
  have hopened := h.enter_unmarked hinterior hhtml (by rw [htag]; rfl) (by simp [htag])
    .inTable rfl false (by simp [hfostering])
  rw [Builder.bodyStart, htag]
  show b.RestsAfter _ _ _ _
    (((if b.old then b else b.closeParagraph).openElement t).forbidFrames.setMode .inTable).done
  rw [h.closeParagraph_eq hparagraph, ite_self, openElement_eq h.toSpans hhtml mode]
  exact hopened.after (b := b) rfl false

/-- The start tag of a selection. -/
theorem bodyStart_select (h : Rests (g :: outer) inner mode b)
    (hinterior : mode.interior? (path (g :: outer)) t = some (.nodes .inSelect))
    (hhtml : (path (g :: outer)).vocabularyOf t = .html) (htag : t.tag = .select) :
    b.RestsAfter (opening b (g :: outer) t inner mode :: g :: outer) .empty .inSelect false
      (b.bodyStart t) := by
  have hopened (rules : Mode) (hrules : rules.plain = .inSelect) :=
    h.enter_unmarked hinterior hhtml (by rw [htag]; rfl) (by simp [htag]) rules hrules false
      fun _ => by rw [htag]; rfl
  have hgroup : t.tag.startGroup = .select := by rw [htag]; rfl
  unfold Builder.bodyStart
  simp only [hgroup]
  rw [h.reopenFormatting_eq, openElement_eq h.toSpans hhtml mode]
  split
  all_goals exact (hopened _ rfl).after (b := b) rfl false

/-! ## Templates -/

/-- Wherever a template may stand, its start tag is taken alike. -/
theorem modeRule_template (hplace : (b.mode.plain.isRunning || b.mode.plain.isTable ||
      b.mode.plain == .inColumnGroup || b.mode.plain == .inSelect ||
      b.mode.plain == .inTemplate) = true) (htag : t.tag = .template) :
    b.modeRule (.startTag t) = (b.openTemplate t).done := by
  obtain ⟨tag, attributes, selfClosing⟩ := t
  cases htag
  rw [Builder.modeRule]
  cases hmode : b.mode
  all_goals first
    | rfl
    | rw [hmode] at hplace
      cases hplace

/-- A template may follow the rules of other content from an element on. -/
theorem follow (h : Rests levels inner .inTemplate b) {rules : Mode}
    (hrules : rules.isOfTemplate = true) :
    Rests levels inner rules
      { b with templateModes := rules :: b.templateModes.tail, mode := rules } := by
  obtain ⟨f, outer, modes, rfl, hmodes, htemplate, houter⟩ := h.chain.exists_template
  have hplain : rules.plain = rules := by
    cases rules
    all_goals first | rfl | cases hrules
  refine { h with chain := ?_, plain_mode_eq := hplain }
  rw [hmodes]
  exact .template houter htemplate hrules

/-- The first element in a template that belongs nowhere else settles the rules first. -/
theorem exists_followed (h : Rests levels inner mode b)
    (hforeign : (path levels).isForeignTo t = false) :
    ∃ b₁ : Builder, Rests levels inner (mode.followedFrom t.tag) b₁ ∧
      b₁.fostering = b.fostering ∧ ∀ {hops : Nat} {result : Builder × Next},
        b₁.ComesTo (.startTag t) hops result → b.ComesTo (.startTag t) (hops + 1) result := by
  by_cases hsame : mode.followedFrom t.tag = mode
  · exact ⟨b, hsame.symm ▸ h, rfl, fun hcomes n hn => hcomes n (by omega)⟩
  · obtain rfl : mode = .inTemplate := by
      by_contra hmode
      exact hsame (by simp only [Mode.followedFrom, hmode, if_false])
    have htake : (Mode.inTemplate.followedFrom t.tag).isOfTemplate = true ∧
        b.inTemplateRule (.startTag t) =
          ({ b with
              templateModes := Mode.inTemplate.followedFrom t.tag :: b.templateModes.tail
              mode := Mode.inTemplate.followedFrom t.tag }, .again) := by
      obtain ⟨tag, attributes, selfClosing⟩ := t
      cases tag
      all_goals first
        | exact absurd rfl hsame
        | exact ⟨rfl, rfl⟩
    refine ⟨_, h.follow htake.1, rfl, fun hcomes => ComesTo.of_again ?_ hcomes⟩
    rw [Builder.takeOnce, h.isForeign_eq, hforeign, Builder.modeRule, h.mode_eq (by rintro ⟨⟩)]
    exact htake.2

/-- The start tag of a template. -/
theorem openTemplate (h : Rests (g :: outer) inner mode b)
    (hhtml : (path (g :: outer)).vocabularyOf t = .html) (htag : t.tag = .template) :
    b.RestsAfter (opening b (g :: outer) t inner mode :: g :: outer) .empty .inTemplate false
      (b.openTemplate t).done := by
  have hsatisfies := satisfies_opening b inner mode hhtml
  have hchain : Level.Chain (opening b (g :: outer) t inner mode :: g :: outer)
      (.inTemplate :: b.templateModes) .inTemplate :=
    .template h.chain ((hsatisfies (· == .template)).trans (by rw [htag]; rfl)) rfl
  have hlists := Lists.marker ((hsatisfies Tag.setsMarker).trans (by rw [htag]; rfl)) h.lists
  have hform : b.form = form? (opening b (g :: outer) t inner mode :: g :: outer) := by
    rw [form?_opening hhtml (by simp [htag]), h.form_eq]
  have hplain : Mode.inTemplate.plain = .inTemplate := rfl
  have hopened := h.enter false b.fostering rfl hchain hplain hlists hform
    fun _ => (hsatisfies Tag.isTablePart).trans (by rw [htag]; rfl)
  have hready : Spans (g :: outer) inner
      { (b.mark.forbidFrames).setMode .inTemplate with
        templateModes := .inTemplate :: b.templateModes } := { h.toSpans with }
  rw [Builder.openTemplate, openElement_eq hready hhtml mode]
  exact hopened.after (b := b) rfl false

/-! ## Foreign content -/

/-- An element outside plain markup. -/
theorem openForeign (h : Rests (g :: outer) inner mode b)
    (hinterior : mode.interior? (path (g :: outer)) t = some (.nodes mode))
    (hforeign : (path (g :: outer)).vocabularyOf t ≠ .html) (hself : t.selfClosing = false) :
    b.RestsAfter (opening b (g :: outer) t inner mode :: g :: outer) .empty mode false
      (b.openForeign ((path (g :: outer)).vocabularyOf t) t).done := by
  have hplain : (opening b (g :: outer) t inner mode).opened.satisfies Tag.changesMore = false := by
    have hother : (opening b (g :: outer) t inner mode).opened.vocabulary ≠ .html := hforeign
    simp [OpenElement.satisfies, hother]
  have hopen := h.openIn_eq (f := opening b (g :: outer) t inner mode) rfl rfl
  have hlevel : b.openForeign ((path (g :: outer)).vocabularyOf t) t =
      b.openIn (opening b (g :: outer) t inner mode).vocabulary
        (opening b (g :: outer) t inner mode).start.tag
        (opening b (g :: outer) t inner mode).attributes := by
    rw [Builder.openForeign, hself]
    simp only [opening, hforeign, if_false]
    rfl
  rw [hlevel, hopen]
  exact (h.enter_plain hinterior hplain).after (b := b) rfl false

/-! ## Any level -/

section Plain

variable (hfostering : b.fostering = false)
  (hhtml : (path (g :: outer)).vocabularyOf t = .html)

include hhtml

/-! ### Selections -/

theorem enters_option (h : Rests (g :: outer) inner .inSelect b)
    (hinterior : Mode.inSelect.interior? (path (g :: outer)) t = some (.nodes .inSelect))
    (htag : t.tag = .option) (hcurrent : (path (g :: outer)).currentIs (·.is .option) = false) :
    b.RestsAfter (opening b (g :: outer) t inner .inSelect :: g :: outer) .empty .inSelect
      (Node.dropsNewline (path (g :: outer)) t) (b.modeRule (.startTag t)) := by
  rw [modeRule_inSelect h.plain_mode_eq (by simp only [Mode.handsOn, htag])]
  simp only [Builder.inSelectRule.eq_def, htag, h.closeIf_eq hcurrent]
  refine (h.openElement hinterior hhtml (by rw [htag]; rfl)).after ?_ _
  rw [openElement_eq h.toSpans hhtml .inSelect]

theorem enters_options (h : Rests (g :: outer) inner .inSelect b)
    (hinterior : Mode.inSelect.interior? (path (g :: outer)) t = some (.nodes .inSelect))
    (htag : t.tag = .optgroup) (hcurrent : (path (g :: outer)).endsOptions = false) :
    b.RestsAfter (opening b (g :: outer) t inner .inSelect :: g :: outer) .empty .inSelect
      (Node.dropsNewline (path (g :: outer)) t) (b.modeRule (.startTag t)) := by
  obtain ⟨hoption, hgroup⟩ : (path (g :: outer)).currentIs (·.is .option) = false ∧
      (path (g :: outer)).currentIs (·.is .optgroup) = false := Bool.or_eq_false_iff.mp hcurrent
  rw [modeRule_inSelect h.plain_mode_eq (by simp only [Mode.handsOn, htag])]
  simp only [Builder.inSelectRule.eq_def, htag, h.closeIf_eq hoption, h.closeIf_eq hgroup]
  refine (h.openElement hinterior hhtml (by rw [htag]; rfl)).after ?_ _
  rw [openElement_eq h.toSpans hhtml .inSelect]

/-! ### Tables -/

theorem enters_caption (h : Rests (g :: outer) inner .inTable b)
    (hinterior : Mode.inTable.interior? (path (g :: outer)) t = some (.nodes .inCaption))
    (htag : t.tag = .caption) (hcurrent : (path (g :: outer)).currentIs Builder.boundsTable = true) :
    b.RestsAfter (opening b (g :: outer) t inner .inTable :: g :: outer) .empty .inCaption
      (Node.dropsNewline (path (g :: outer)) t) (b.modeRule (.startTag t)) := by
  have hready : Spans (g :: outer) inner b.mark := { h.toSpans with }
  simp only [Builder.modeRule, h.mode_eq (by rintro ⟨⟩), Builder.inTableRule.eq_def, htag,
    h.closeTo_eq (fun _ => rfl) hcurrent, openElement_eq hready hhtml .inTable]
  have hopened := h.enter_marked hinterior hhtml (by rw [htag]; rfl) (by simp [htag])
    .inCaption rfl b.framesAllowed
  exact hopened.after (b := b) rfl _

theorem enters_cell (h : Rests (g :: outer) inner .inRow b)
    (hinterior : Mode.inRow.interior? (path (g :: outer)) t = some (.nodes .inCell))
    (htag : t.tag.isCell = true)
    (hcurrent : (path (g :: outer)).currentIs Builder.holdsCells = true) :
    b.RestsAfter (opening b (g :: outer) t inner .inRow :: g :: outer) .empty .inCell
      (Node.dropsNewline (path (g :: outer)) t) (b.modeRule (.startTag t)) := by
  have hcell : t.tag = .td ∨ t.tag = .th := by
    unfold Tag.isCell at htag
    split at htag <;> simp_all
  have hrule : b.modeRule (.startTag t) =
      (((b.closeTo Builder.holdsCells).openElement t).setMode .inCell).mark.done := by
    simp only [Builder.modeRule, h.mode_eq (by rintro ⟨⟩), Builder.inRowRule]
    rcases hcell with htag | htag <;> simp only [htag]
  have hmarker : t.tag.setsMarker = true ∧ t.tag ≠ .template := by
    rcases hcell with htag | htag <;> simp [htag, Tag.setsMarker]
  rw [hrule, h.closeTo_eq (fun _ => rfl) hcurrent, openElement_eq h.toSpans hhtml .inRow]
  have hopened := h.enter_marked hinterior hhtml hmarker.1 hmarker.2 .inCell rfl b.framesAllowed
  exact hopened.after (b := b) rfl _

include hfostering

theorem enters_columns (h : Rests (g :: outer) inner .inTable b)
    (hinterior : Mode.inTable.interior? (path (g :: outer)) t = some (.nodes .inColumnGroup))
    (htag : t.tag = .colgroup)
    (hcurrent : (path (g :: outer)).currentIs Builder.boundsTable = true) :
    b.RestsAfter (opening b (g :: outer) t inner .inTable :: g :: outer) .empty .inColumnGroup
      (Node.dropsNewline (path (g :: outer)) t) (b.modeRule (.startTag t)) := by
  simp only [Builder.modeRule, h.mode_eq (by rintro ⟨⟩), Builder.inTableRule.eq_def, htag,
    h.closeTo_eq (fun _ => rfl) hcurrent, openElement_eq h.toSpans hhtml .inTable]
  have hopened := h.enter_unmarked hinterior hhtml (by rw [htag]; rfl) (by simp [htag])
    .inColumnGroup rfl b.framesAllowed (by simp [hfostering])
  exact hopened.after (b := b) rfl _

theorem enters_rows (h : Rests (g :: outer) inner .inTable b)
    (hinterior : Mode.inTable.interior? (path (g :: outer)) t = some (.nodes .inTableBody))
    (htag : t.tag = .tbody ∨ t.tag = .tfoot ∨ t.tag = .thead)
    (hcurrent : (path (g :: outer)).currentIs Builder.boundsTable = true) :
    b.RestsAfter (opening b (g :: outer) t inner .inTable :: g :: outer) .empty .inTableBody
      (Node.dropsNewline (path (g :: outer)) t) (b.modeRule (.startTag t)) := by
  have hrule : b.modeRule (.startTag t) =
      (((b.closeTo Builder.boundsTable).openElement t).setMode .inTableBody).done := by
    simp only [Builder.modeRule, h.mode_eq (by rintro ⟨⟩), Builder.inTableRule.eq_def]
    rcases htag with htag | htag | htag <;> simp only [htag]
  have hother : t.tag.setsMarker = false ∧ t.tag ≠ .form := by
    rcases htag with htag | htag | htag <;> simp [htag, Tag.setsMarker]
  rw [hrule, h.closeTo_eq (fun _ => rfl) hcurrent, openElement_eq h.toSpans hhtml .inTable]
  have hopened := h.enter_unmarked hinterior hhtml hother.1 hother.2 .inTableBody rfl
    b.framesAllowed (by simp [hfostering])
  exact hopened.after (b := b) rfl _

theorem enters_row (h : Rests (g :: outer) inner .inTableBody b)
    (hinterior : Mode.inTableBody.interior? (path (g :: outer)) t = some (.nodes .inRow))
    (htag : t.tag = .tr) (hcurrent : (path (g :: outer)).currentIs Builder.holdsRows = true) :
    b.RestsAfter (opening b (g :: outer) t inner .inTableBody :: g :: outer) .empty .inRow
      (Node.dropsNewline (path (g :: outer)) t) (b.modeRule (.startTag t)) := by
  simp only [Builder.modeRule, h.mode_eq (by rintro ⟨⟩), Builder.inTableBodyRule, htag,
    h.closeTo_eq (fun _ => rfl) hcurrent, openElement_eq h.toSpans hhtml .inTableBody]
  have hopened := h.enter_unmarked hinterior hhtml (by rw [htag]; rfl) (by simp [htag])
    .inRow rfl b.framesAllowed (by simp [hfostering])
  exact hopened.after (b := b) rfl _

end Plain

/-- An element outside plain markup opens inside one of its kind and in running content. -/
theorem enters_foreign (h : Rests (g :: outer) inner mode b) (hfostering : b.fostering = false)
    (hself : t.selfClosing = false) (hhtml : (path (g :: outer)).vocabularyOf t ≠ .html)
    (hinterior : mode.interior? (path (g :: outer)) t = some (.nodes mode))
    (hcases : ((path (g :: outer)).isForeignTo t = true ∧ Builder.breaksForeign t = false) ∨
      ((path (g :: outer)).isForeignTo t = false ∧ (t.tag = .math ∨ t.tag = .svg) ∧
        mode.flows (path (g :: outer)) = true)) :
    b.RestsAfter (opening b (g :: outer) t inner mode :: g :: outer) .empty mode
      (Node.dropsNewline (path (g :: outer)) t) (b.takeOnce (.startTag t)) := by
  rw [Builder.takeOnce, h.isForeign_eq]
  rcases hcases with ⟨hforeign, hbreaks⟩ | ⟨hforeign, htag, hplace⟩
  · have hvocabulary : b.current.vocabulary = (path (g :: outer)).vocabularyOf t := by
      rw [h.current_eq, Stack.vocabularyOf, hforeign]
      rfl
    rw [if_pos hforeign, Builder.foreignRule]
    simp only [hbreaks, Bool.false_eq_true, if_false, hvocabulary]
    exact (h.openForeign hinterior hhtml hself).mono (by rintro ⟨⟩)
  · rw [hforeign]
    simp only [Bool.false_eq_true, if_false]
    have htoken : mode.handsOn (.startTag t) = true := by
      rcases htag with htag | htag <;> simp only [Mode.handsOn, htag]
    refine RestsAfter.of_inBodyRule h hfostering hplace htoken fun {b₁} hready hnext _ => ?_
    have hopened := hready.openForeign hinterior hhtml hself
    have hrule : b₁.inBodyRule (.startTag t) =
        (b₁.openForeign ((path (g :: outer)).vocabularyOf t) t).done := by
      show b₁.bodyStart t = _
      rw [Builder.bodyStart, Stack.vocabularyOf, hforeign]
      rcases htag with htag | htag
      all_goals
        rw [htag]
        rfl
    rw [opening_eq hnext] at hopened
    rw [hrule]
    exact hopened.mono (by rintro ⟨⟩)

/-- A start tag that opens an element for nodes, and ends nothing. -/
theorem enters (h : Rests (g :: outer) inner mode b) (hfostering : b.fostering = false)
    (hself : t.selfClosing = false)
    (hinterior : mode.interior? (path (g :: outer)) t = some (.nodes inside)) :
    b.RestsAfter (opening b (g :: outer) t inner mode :: g :: outer) .empty inside
      (Node.dropsNewline (path (g :: outer)) t) (b.takeOnce (.startTag t)) := by
  by_cases hhtml : (path (g :: outer)).vocabularyOf t = .html
  · have hforeign := (Stack.vocabularyOf_eq_html_iff.mp hhtml).1
    rw [Builder.takeOnce, h.isForeign_eq, hforeign]
    simp only [Bool.false_eq_true, if_false]
    cases Mode.holds_of_interior? hhtml hinterior with
    | flow hplace hflow hform hbody =>
        refine RestsAfter.of_inBodyRule h hfostering hplace (Mode.handsOn_of_isFlow hflow hform)
          fun hready hnext _ => ?_
        have hopened := hready.bodyStart_flow hinterior hhtml hbody hflow
        rw [opening_eq hnext] at hopened
        refine hopened.mono fun hline => ?_
        rw [Node.dropsNewline, hforeign, hline]
        rfl
    | table htag haround hparagraph =>
        have hplace : mode.flows (path (g :: outer)) = true := by rw [Mode.flows, haround]; rfl
        have htoken : mode.handsOn (.startTag t) = true := by simp only [Mode.handsOn, htag, haround]
        refine RestsAfter.of_inBodyRule h hfostering hplace htoken fun hready hnext hrunning => ?_
        have hopened := hready.bodyStart_table hinterior hhtml htag hparagraph (hrunning haround)
        rw [opening_eq hnext] at hopened
        exact hopened.mono (by rintro ⟨⟩)
    | select htag hplace =>
        have htoken : mode.handsOn (.startTag t) = true := by simp only [Mode.handsOn, htag]
        refine RestsAfter.of_inBodyRule h hfostering hplace htoken fun hready hnext _ => ?_
        have hopened := hready.bodyStart_select hinterior hhtml htag
        rw [opening_eq hnext] at hopened
        exact hopened.mono (by rintro ⟨⟩)
    | template htag haround =>
        rw [modeRule_template (by rw [h.plain_mode_eq]; exact haround) htag]
        exact (h.openTemplate hhtml htag).mono (by rintro ⟨⟩)
    | caption htag haround hcurrent =>
        subst haround
        exact enters_caption hhtml h hinterior htag hcurrent
    | columns htag haround hcurrent =>
        subst haround
        exact enters_columns hfostering hhtml h hinterior htag hcurrent
    | rows htag haround hcurrent =>
        subst haround
        exact enters_rows hfostering hhtml h hinterior htag hcurrent
    | row htag haround hcurrent =>
        subst haround
        exact enters_row hfostering hhtml h hinterior htag hcurrent
    | cell htag haround hcurrent =>
        subst haround
        exact enters_cell hhtml h hinterior htag hcurrent
    | option htag haround hcurrent =>
        subst haround
        exact enters_option hhtml h hinterior htag hcurrent
    | options htag haround hcurrent =>
        subst haround
        exact enters_options hhtml h hinterior htag hcurrent
  · obtain ⟨rfl, hcases⟩ := Mode.foreign_cases hhtml hinterior
    exact h.enters_foreign hfostering hself hhtml hinterior hcases

end Builder.Rests

end Letterpress
