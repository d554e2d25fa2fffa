/-
# End tags that close a level
-/

import Letterpress.Proofs.Markup.Entering

namespace Letterpress

open Level

/-- How the elements of running content end. -/
theorem Tag.ends_of_isFlow {tag : Tag} (hflow : tag.startGroup.isFlow = true) :
    (tag.setsMarker = true ↔ tag.endGroup = .bounded) ∧
      (tag.endGroup = .form ↔ tag = .form) ∧
      (tag.hasImpliedEnd = true → tag.endGroup = .paragraph ∨ tag.endGroup = .listItem ∨
        tag.endGroup = .definition ∨ tag.endGroup = .ordinary) ∧
      (tag.endGroup = .paragraph → tag = .p) ∧
      (tag.endGroup = .heading → tag.isHeadingLevel = true) := by
  cases tag
  all_goals first
    | (cases hflow; done)
    | refine ⟨⟨?_, ?_⟩, ⟨?_, ?_⟩, ?_, ?_, ?_⟩
  all_goals
    intro h
    first
    | rfl
    | exact .inl rfl
    | exact .inr (.inl rfl)
    | exact .inr (.inr (.inl rfl))
    | exact .inr (.inr (.inr rfl))
    | cases h

/-- The end of running content is left to running content everywhere. -/
theorem Mode.handsOn_endTag_of_isFlow (mode : Mode) {tag : Tag}
    (hflow : tag.startGroup.isFlow = true) : mode.handsOn (.endTag tag) = true := by
  simp only [Mode.handsOn]
  split
  all_goals first
    | rfl
    | cases hflow

namespace Builder.Rests

variable {f g : Level} {levels outer : List Level} {inner : Forest} {mode : Mode}
  {b : Builder}

theorem opened_is (hhtml : f.vocabulary = .html) (tag : Tag) :
    f.opened.is tag = (f.start.tag == tag) := by
  rw [OpenElement.is, opened, hhtml]
  rfl

theorem opened_satisfies (hhtml : f.vocabulary = .html) (p : Tag → Bool) :
    f.opened.satisfies p = p f.start.tag := by
  rw [OpenElement.satisfies, opened, hhtml]
  rfl

/-- The innermost level is in every scope. -/
theorem hasInScope_current (h : Spans (f :: outer) inner b) (scope : Scope)
    {p : OpenElement → Bool} (hp : p f.opened = true) : b.stack.hasInScope scope p = true := by
  rw [h.stack_eq, List.map_cons, Stack.hasInScope, hp, Bool.true_or]

theorem has_current (h : Spans (f :: outer) inner b) (hhtml : f.vocabulary = .html)
    (scope : Scope) : b.has scope f.start.tag = true :=
  hasInScope_current h scope (by rw [opened_is hhtml, beq_self_eq_true])

/-- Closing up to the innermost level closes it alone. -/
theorem closeThrough_current (h : Spans (f :: outer) inner b) {p : OpenElement → Bool}
    (hp : p f.opened = true) : b.onStack (·.closeThrough p) = b.close := by
  rw [Builder.close, Builder.onStack, Builder.onStack, h.stack_eq, Stack.closeThrough,
    List.map_cons, List.dropWhile_cons_of_neg (by simp [hp])]

theorem closeThrough_self (h : Rests (f :: outer) inner mode b) (hhtml : f.vocabulary = .html) :
    b.closeThrough f.start.tag = b.close :=
  closeThrough_current h.toSpans (by rw [opened_is hhtml, beq_self_eq_true])

theorem currentIs_self (h : Rests (f :: outer) inner mode b) (hhtml : f.vocabulary = .html) :
    b.currentIs f.start.tag = true := by
  rw [h.currentIs_eq, opened_is hhtml, beq_self_eq_true]

/-- An element that neither is formatting nor leaves another trace closes. -/
theorem close_plain (h : Rests (f :: outer) inner mode b) (hmode : f.around = mode)
    (hmarker : f.opened.satisfies Tag.setsMarker = false)
    (hformatting : f.vocabulary = .html → f.start.tag.endGroup ≠ .formatting)
    (hform : f.opened.is .form = false) (houter : Level.Chain outer b.templateModes f.around)
    (hplace : b.fostering = true → (path outer).atTablePart = false) :
    Rests outer (f.wrap inner) f.around b.close := by
  rw [h.close_eq]
  exact h.leave houter (h.plain_mode_eq.trans hmode.symm) (h.lists.of_plain hmarker hformatting)
    (by rw [h.form_eq, form?_cons hform]) hplace

/-- Ending the formatting that is current takes its entry away, if it still has one. -/
theorem endFormatting_eq (h : Rests (f :: outer) inner mode b) (hhtml : f.vocabulary = .html)
    (hformatting : f.start.tag.endGroup = .formatting) :
    ∃ fs, Level.Lists outer fs ∧ b.endFormatting f.start.tag =
      { b with stack := outer.map Level.opened, formatting := fs } := by
  have hcurrent := h.currentIs_self hhtml
  have hid : b.current.id = f.id := by rw [h.current_eq]; rfl
  have hfresh := (List.nodup_cons.mp h.nodup_ids).1
  have hlists := h.lists
  generalize hfs : b.formatting = fs at hlists
  cases hlists with
  | marker hmarker _ =>
      rw [Lists.satisfies_setsMarker hformatting] at hmarker
      cases hmarker
  | @entry _ _ rest _ _ houter =>
      have hlisted : b.formatting.any (·.isElement b.current.id) = true := by
        rw [hid, hfs]
        simp [Level.entry, Formatting.isElement]
      have hfind : (Formatting.sinceMarker b.formatting).find? (·.hasTag f.start.tag) =
          some f.entry := by
        rw [hfs, Formatting.sinceMarker, Level.entry, List.takeWhile_cons_of_pos rfl,
          List.find?_cons_of_pos (by simp [Formatting.hasTag])]
      have honce : b.endFormattingOnce f.start.tag =
          ({ b with stack := outer.map Level.opened, formatting := rest }, false) := by
        rw [Builder.endFormattingOnce, hfind]
        simp [Level.entry, h.stack_eq, Level.opened, Stack.hasInScope, Stack.closeThrough,
          hfs, Formatting.drop, Formatting.isElement]
      refine ⟨rest, houter, ?_⟩
      rw [Builder.endFormatting, hcurrent, hlisted]
      simp only [Bool.not_true, Bool.and_false, Bool.false_eq_true, if_false,
        Builder.endFormattingRounds, honce]
  | skip _ houter =>
      -- Of more than three equal elements the outer ones have lost their entries.
      have hnone : b.formatting.any (·.isElement b.current.id) = false := by
        rw [hid, hfs]
        refine List.any_eq_false.mpr fun x hx heq => ?_
        rcases houter.mem_levels hx with rfl | ⟨k, hk, rfl⟩
        · cases heq
        · have hsame : k.id = f.id := beq_iff_eq.mp heq
          exact hfresh (hsame ▸ List.mem_map_of_mem hk)
      refine ⟨fs, houter, ?_⟩
      rw [Builder.endFormatting, hcurrent, hnone]
      simp only [Bool.not_false, Bool.and_self, if_true, h.close_eq, ← hfs]

/-- The end tag of a form releases it. -/
theorem endForm_eq (h : Rests (f :: outer) inner mode b) (hhtml : f.vocabulary = .html)
    (htag : f.start.tag = .form) (hnone : (path outer).inForm = false) :
    b.endForm = { b with stack := outer.map Level.opened, form := Level.form? outer } := by
  have hother : f.opened.is .template = false := by rw [opened_is hhtml, htag]; rfl
  have himplied (b' : Builder) (hstack : b'.stack = b.stack) : b'.closeImplied = b' := by
    have hkept : b'.stack.closeImplied none = b'.stack := by
      rw [hstack, h.stack_eq, Stack.closeImplied, List.map_cons]
      refine List.dropWhile_cons_of_neg ?_
      rw [opened_satisfies hhtml, htag]
      decide
    rw [Builder.closeImplied, Builder.onStack, hkept]
  have htemplate : b.stack.inTemplate = (path outer).inTemplate := by
    rw [h.inTemplate_eq, path, List.map_cons, Stack.inTemplate, List.any_cons]
    exact (congrArg (· || _) hother).trans (Bool.false_or _)
  have hisForm : f.opened.is .form = true := by rw [opened_is hhtml, htag]; rfl
  rw [Builder.endForm, htemplate]
  cases hin : (path outer).inTemplate with
  | true =>
      have hhas : b.has .content .form = true := htag ▸ has_current h.toSpans hhtml .content
      have hform : b.form = Level.form? outer := by
        rw [h.form_eq, Level.form?, hin]
        simp only [Bool.not_true, Bool.and_false, Bool.false_eq_true, if_false]
      rw [if_pos rfl, if_pos hhas, himplied b rfl, Builder.closeThrough,
        closeThrough_current h.toSpans hisForm, h.close_eq, ← hform]
  | false =>
      have hform : b.form = some f.id := by
        rw [h.form_eq, Level.form?, hin, hisForm]
        rfl
      have hreleased : Level.form? outer = none := by
        rw [Stack.inForm, hin, Bool.not_false, Bool.and_true] at hnone
        exact form?_eq_none hnone
      have hscope : b.stack.hasInScope .content (fun e => e.id == f.id) = true :=
        hasInScope_current h.toSpans .content (beq_self_eq_true f.id)
      have hwithout : Stack.without f.id b.stack = outer.map Level.opened := by
        have hkept : ∀ e ∈ outer.map Level.opened, (e.id != f.id) = true := by
          intro e he
          obtain ⟨k, hk, rfl⟩ := List.mem_map.mp he
          have hne : k.id ≠ f.id := fun heq =>
            (List.nodup_cons.mp h.nodup_ids).1 (heq ▸ List.mem_map_of_mem hk)
          exact bne_iff_ne.mpr hne
        rw [h.stack_eq, Stack.without, List.map_cons, List.filter_cons_of_neg (by simp [opened]),
          List.filter_eq_self.mpr hkept]
      rw [hform, hreleased]
      simp only [Bool.false_eq_true, if_false, hscope, if_true]
      rw [himplied { b with form := none } rfl, Builder.onStack, hwithout]

/-! ## Running content -/

/-- The end tag of an element of running content closes it alone. -/
theorem bodyEnd_flow (h : Rests (f :: outer) inner mode b) (hmode : f.around = mode)
    (hhtml : f.vocabulary = .html) (hflow : f.start.tag.startGroup.isFlow = true)
    (hforms : f.start.tag = .form → (path outer).inForm = false)
    (houter : Level.Chain outer b.templateModes f.around)
    (hplace : b.fostering = true → (path outer).atTablePart = false) :
    b.RestsAfter outer (f.wrap inner) f.around false (b.bodyEnd f.start.tag) := by
  obtain ⟨hbounded, hform, himplied, hparagraph, hheading⟩ := Tag.ends_of_isFlow hflow
  have his : f.opened.is f.start.tag = true := by rw [opened_is hhtml, beq_self_eq_true]
  have hclosed (hgroup : f.start.tag.endGroup ≠ .bounded ∧ f.start.tag.endGroup ≠ .form ∧
      f.start.tag.endGroup ≠ .formatting) :
      b.RestsAfter outer (f.wrap inner) f.around false b.close.done := by
    refine (h.close_plain hmode ?_ (fun _ => hgroup.2.2) ?_ houter
      hplace).after (b := b) rfl false
    · rw [opened_satisfies hhtml, ← Bool.not_eq_true]
      exact fun hmarker => hgroup.1 (hbounded.mp hmarker)
    · rw [opened_is hhtml, beq_eq_false_iff_ne]
      exact fun htag => hgroup.2.1 (hform.mpr htag)
  have hsame (hgroup : f.start.tag.endGroup ≠ .form) : b.form = Level.form? outer := by
    rw [h.form_eq, form?_cons]
    rw [opened_is hhtml, beq_eq_false_iff_ne]
    exact fun htag => hgroup (hform.mpr htag)
  have hstay (hgroup : f.start.tag.endGroup = .block ∨ f.start.tag.endGroup = .heading ∨
      f.start.tag.endGroup = .bounded) : b.closeImplied = b := by
    have hno : f.start.tag.hasImpliedEnd = false := by
      rw [← Bool.not_eq_true]
      intro hends
      rcases himplied hends with hend | hend | hend | hend <;> simp [hend] at hgroup
    have hstays := opened_satisfies hhtml fun t => t.hasImpliedEnd && some t != none
    rw [hno, Bool.false_and] at hstays
    exact h.closeImplied_eq hstays
  have hkept : b.closeImpliedBut f.start.tag = b := by
    have hstays := opened_satisfies hhtml fun t => t.hasImpliedEnd && some t != some f.start.tag
    rw [bne_self_eq_false, Bool.and_false] at hstays
    exact h.closeImplied_eq hstays
  have hthrough := h.closeThrough_self hhtml
  have hhas (scope : Scope) := has_current h.toSpans hhtml scope
  unfold Builder.bodyEnd
  cases hgroup : f.start.tag.endGroup with
  | block =>
      simp only [hhas, if_true, hstay (.inl hgroup), hthrough]
      exact hclosed (by simp [hgroup])
  | form =>
      have htag := hform.mp hgroup
      simp only [h.endForm_eq hhtml htag (hforms htag)]
      have hclosed := h.leave houter (h.plain_mode_eq.trans hmode.symm)
        (h.lists.of_plain (by rw [opened_satisfies hhtml, htag]; rfl) (fun _ => by simp [hgroup]))
        rfl hplace
      exact hclosed.after (b := b) rfl false
  | paragraph =>
      have htag := hparagraph hgroup
      rw [htag] at hhas hkept hthrough
      simp only [hhas, if_true, hkept, hthrough]
      exact hclosed (by simp [hgroup])
  | listItem | definition =>
      simp only [hhas, if_true, hkept, hthrough]
      exact hclosed (by simp [hgroup])
  | heading =>
      have hisHeading : f.opened.satisfies Tag.isHeadingLevel = true :=
        (opened_satisfies hhtml _).trans (hheading hgroup)
      simp only [hasInScope_current h.toSpans .content hisHeading, if_true,
        hstay (.inr (.inl hgroup)), closeThrough_current h.toSpans hisHeading]
      exact hclosed (by simp [hgroup])
  | formatting =>
      obtain ⟨fs, hlists, hend⟩ := h.endFormatting_eq hhtml hgroup
      have hclosed := h.leave houter (h.plain_mode_eq.trans hmode.symm) hlists
        (hsame (by simp [hgroup])) hplace
      simp only [hend]
      exact hclosed.after (b := b) rfl false
  | bounded =>
      have hmarker : f.opened.satisfies Tag.setsMarker = true :=
        (opened_satisfies hhtml _).trans (hbounded.mpr hgroup)
      obtain ⟨fs, hfs, hlists⟩ := h.lists.of_marker hmarker
      have hclosed := h.leave houter (h.plain_mode_eq.trans hmode.symm) hlists
        (hsame (by simp [hgroup])) hplace
      simp only [hhas, if_true, hstay (.inr (.inr hgroup)), hthrough, h.close_eq,
        Builder.clearToMarker, hfs]
      exact hclosed.after (b := b) rfl false
  | ordinary =>
      have hend : b.endElement f.start.tag = b.close := by
        rw [Builder.endElement, h.close_eq, h.stack_eq, List.map_cons, Builder.endElement.go, his]
        rfl
      simp only [hend]
      exact hclosed (by simp [hgroup])
  | template | body | root | lineBreak =>
      revert hgroup hflow
      cases f.start.tag
      all_goals
        intro hflow hgroup
        first | (cases hgroup; done) | cases hflow

/-! ## Any level -/

/-- Leaving an element of plain markup that set no marker. -/
theorem leave_unmarked (h : Rests (f :: outer) inner mode b) (hfostering : b.fostering = false)
    (hhtml : f.vocabulary = .html) (houter : Level.Chain outer b.templateModes f.around)
    (hmarker : f.start.tag.setsMarker = false) (hend : f.start.tag.endGroup = .ordinary)
    (rules : Mode) (hrules : rules.plain = f.around) :
    b.RestsAfter outer (f.wrap inner) f.around false
      ({ b with stack := outer.map Level.opened, mode := rules } : Builder).done := by
  have hform : f.opened.is .form = false := by
    rw [opened_is hhtml, beq_eq_false_iff_ne]
    intro htag
    rw [htag] at hend
    cases hend
  have hsame : b.form = Level.form? outer := by rw [h.form_eq, form?_cons hform]
  have hleft := h.leave houter hrules
    (h.lists.of_plain ((opened_satisfies hhtml _).trans hmarker) fun _ => by simp [hend])
    hsame (by simp [hfostering])
  exact hleft.after (b := b) rfl false

/-- Leaving an element of plain markup that set a marker, which goes too. -/
theorem leave_marked (h : Rests (f :: outer) inner mode b) (hfostering : b.fostering = false)
    (hhtml : f.vocabulary = .html) {modes : List Mode}
    (houter : Level.Chain outer modes f.around) (hmarker : f.start.tag.setsMarker = true)
    (rules : Mode) (hrules : rules.plain = f.around) :
    b.RestsAfter outer (f.wrap inner) f.around false
      ({ b.close.clearToMarker with mode := rules, templateModes := modes } : Builder).done := by
  have hform : f.opened.is .form = false := by
    rw [opened_is hhtml, beq_eq_false_iff_ne]
    intro htag
    rw [htag] at hmarker
    cases hmarker
  obtain ⟨fs, hfs, hlists⟩ := h.lists.of_marker ((opened_satisfies hhtml _).trans hmarker)
  have hsame : b.form = Level.form? outer := by rw [h.form_eq, form?_cons hform]
  have hleft := h.leave houter hrules hlists hsame (by simp [hfostering])
  rw [h.close_eq, Builder.clearToMarker, hfs]
  exact hleft.after (b := b) rfl false

/-- The end tag of a template takes its rules and its formatting away. -/
theorem endTemplate (h : Rests (f :: outer) inner mode b) (hfostering : b.fostering = false)
    (htemplate : f.opened.is .template = true) {modes : List Mode}
    (hmodes : b.templateModes.tail = modes) (houter : Level.Chain outer modes f.around) :
    b.RestsAfter outer (f.wrap inner) f.around false b.endTemplate.done := by
  obtain ⟨hhtml, htag⟩ : f.vocabulary = .html ∧ f.start.tag = .template := by
    simpa [OpenElement.is, opened] using htemplate
  have hin : b.stack.inTemplate = true := by
    rw [h.stack_eq, List.map_cons, Stack.inTemplate, List.any_cons, htemplate, Bool.true_or]
  have hstay : b.onStack (·.dropWhile (·.satisfies Tag.hasEndImpliedByTemplate)) = b := by
    have hkept : f.opened.satisfies Tag.hasEndImpliedByTemplate = false := by
      rw [opened_satisfies hhtml, htag]
      rfl
    rw [Builder.onStack, h.stack_eq, List.map_cons, List.dropWhile_cons_of_neg (by simp [hkept]),
      ← List.map_cons, ← h.stack_eq]
  have hthrough : b.closeThrough .template = b.close := closeThrough_current h.toSpans htemplate
  let left : Builder := { b.close.clearToMarker with templateModes := modes }
  have hrules : left.modeOfStack.plain = f.around := by
    have hstack : left.stack = outer.map Level.opened := by
      show b.close.stack = _
      rw [h.close_eq]
    rw [Builder.modeOfStack, hstack]
    exact houter.modeOfStack_eq rfl h.fragment_eq
  have hleft := h.leave_marked hfostering hhtml houter (by rw [htag]; rfl) left.modeOfStack hrules
  rw [Builder.endTemplate, hin, if_pos rfl, hstay, Builder.leaveTemplate, hthrough, hmodes]
  exact hleft

/-- The rules behind a level are told by what stays open. -/
theorem plain_modeOfStack_left (h : Rests (f :: g :: outer) inner mode b)
    (houter : Level.Chain (g :: outer) b.templateModes f.around) {left : Builder}
    (hstack : left.stack = (g :: outer).map Level.opened)
    (hkept : left.templateModes = b.templateModes) (hfragment : left.fragment = b.fragment) :
    left.modeOfStack.plain = f.around := by
  rw [Builder.modeOfStack, hstack]
  exact houter.modeOfStack_eq hkept (hfragment.trans h.fragment_eq)

section Plain

variable (hfostering : b.fostering = false) (hhtml : f.vocabulary = .html)

include hfostering hhtml

theorem leaves_flow (h : Rests (f :: g :: outer) inner f.around b)
    (hplace : f.around.flows (path (g :: outer)) = true)
    (hflow : f.start.tag.startGroup.isFlow = true)
    (hbody : f.around.bodyInterior? (path (g :: outer)) f.start.tag = some (.nodes f.around))
    (hplain : f.opened.is .template = false) :
    b.RestsAfter (g :: outer) (f.wrap inner) f.around false
      (b.modeRule (.endTag f.start.tag)) := by
  have htoken := Mode.handsOn_endTag_of_isFlow f.around hflow
  have hinside : f.around.flows (path (f :: g :: outer)) = true := by
    have hpart : f.opened.satisfies Tag.isTablePart = false := by
      rw [opened_satisfies hhtml]
      exact (Tag.facts_of_isFlow hflow).2.1
    have hpart' : (path (f :: g :: outer)).atTablePart = false := hpart
    rw [Mode.flows, Bool.or_eq_true, Bool.and_eq_true] at hplace ⊢
    exact hplace.imp_right fun htable => ⟨htable.1, by rw [hpart']; rfl⟩
  have hforms (htag : f.start.tag = .form) : (path (g :: outer)).inForm = false := by
    unfold Mode.bodyInterior? at hbody
    rw [htag] at hbody
    exact (Bool.or_eq_false_iff.mp (Interior.unless_eq_some_iff.mp hbody).1).2
  refine RestsAfter.of_inBodyRule h hfostering hinside htoken fun hready _ hrunning => ?_
  refine hready.bodyEnd_flow rfl hhtml hflow hforms ?_ fun hfosters => ?_
  · exact hready.chain.tail_of_plain hplain
  · rw [Mode.flows, Bool.or_eq_true, Bool.and_eq_true] at hplace
    rcases hplace with hruns | ⟨-, hpart⟩
    · rw [hrunning hruns] at hfosters
      cases hfosters
    · simpa using hpart

/-! ### Tables -/

variable (houter : Level.Chain (g :: outer) b.templateModes f.around)

include houter

theorem leaves_table (h : Rests (f :: g :: outer) inner .inTable b) (htag : f.start.tag = .table) :
    b.RestsAfter (g :: outer) (f.wrap inner) f.around false
      (b.modeRule (.endTag f.start.tag)) := by
  have hhas (scope : Scope) := has_current h.toSpans hhtml scope
  have hthrough := h.closeThrough_self hhtml
  rw [htag] at hhas hthrough
  simp only [Builder.modeRule, h.mode_eq (by rintro ⟨⟩), htag, Builder.inTableRule.eq_def]
  rw [hhas, if_pos rfl, hthrough, Builder.resetMode, h.close_eq]
  exact h.leave_unmarked hfostering hhtml houter (by rw [htag]; rfl) (by rw [htag]; rfl) _
    (h.plain_modeOfStack_left houter rfl rfl rfl)

theorem leaves_caption (h : Rests (f :: g :: outer) inner .inCaption b)
    (htag : f.start.tag = .caption) (haround : f.around = .inTable) :
    b.RestsAfter (g :: outer) (f.wrap inner) f.around false
      (b.modeRule (.endTag f.start.tag)) := by
  have hhas (scope : Scope) := has_current h.toSpans hhtml scope
  have hthrough := h.closeThrough_self hhtml
  have himplied : b.closeImplied = b := by
    have hstays := opened_satisfies hhtml fun t => t.hasImpliedEnd && some t != none
    rw [htag] at hstays
    exact h.closeImplied_eq hstays
  rw [htag] at hhas hthrough
  simp only [Builder.modeRule, h.mode_eq (by rintro ⟨⟩), htag, Builder.inCaptionRule,
    Builder.endCaption, hhas, if_true, himplied, hthrough]
  exact h.leave_marked hfostering hhtml houter (by rw [htag]; rfl) .inTable (by rw [haround]; rfl)

theorem leaves_columns (h : Rests (f :: g :: outer) inner .inColumnGroup b)
    (htag : f.start.tag = .colgroup) (haround : f.around = .inTable) :
    b.RestsAfter (g :: outer) (f.wrap inner) f.around false
      (b.modeRule (.endTag f.start.tag)) := by
  have hcolumns : b.currentIs .colgroup = true := by rw [← htag, h.currentIs_self hhtml]
  simp only [Builder.modeRule, h.mode_eq (by rintro ⟨⟩), htag, Builder.inColumnGroupRule.eq_def,
    hcolumns, if_true, h.close_eq]
  exact h.leave_unmarked hfostering hhtml houter (by rw [htag]; rfl) (by rw [htag]; rfl) .inTable
    (by rw [haround]; rfl)

theorem leaves_rows (h : Rests (f :: g :: outer) inner .inTableBody b)
    (htag : f.start.tag = .tbody ∨ f.start.tag = .tfoot ∨ f.start.tag = .thead)
    (haround : f.around = .inTable) :
    b.RestsAfter (g :: outer) (f.wrap inner) f.around false
      (b.modeRule (.endTag f.start.tag)) := by
  have hhas (scope : Scope) := has_current h.toSpans hhtml scope
  have hrows : b.closeTo Builder.holdsRows = b := by
    have hholds : Builder.holdsRows f.opened = true := by
      rw [Builder.holdsRows, opened_satisfies hhtml]
      rcases htag with htag | htag | htag <;> rw [htag]
    exact h.closeTo_eq (fun _ => rfl) hholds
  have hrule : b.modeRule (.endTag f.start.tag) = (b.close.setMode .inTable).done := by
    simp only [Builder.modeRule, h.mode_eq (by rintro ⟨⟩), Builder.inTableBodyRule]
    rcases htag with htag | htag | htag
    all_goals
      rw [htag] at hhas ⊢
      simp only [hhas, if_true, hrows]
  have hother : f.start.tag.setsMarker = false ∧ f.start.tag.endGroup = .ordinary := by
    rcases htag with htag | htag | htag <;> rw [htag] <;> exact ⟨rfl, rfl⟩
  rw [hrule, h.close_eq]
  exact h.leave_unmarked hfostering hhtml houter hother.1 hother.2 .inTable (by rw [haround]; rfl)

theorem leaves_row (h : Rests (f :: g :: outer) inner .inRow b) (htag : f.start.tag = .tr)
    (haround : f.around = .inTableBody) :
    b.RestsAfter (g :: outer) (f.wrap inner) f.around false
      (b.modeRule (.endTag f.start.tag)) := by
  have hhas (scope : Scope) := has_current h.toSpans hhtml scope
  have hcells : b.closeTo Builder.holdsCells = b := by
    have hholds : Builder.holdsCells f.opened = true := by
      rw [Builder.holdsCells, opened_satisfies hhtml, htag]
    exact h.closeTo_eq (fun _ => rfl) hholds
  rw [htag] at hhas
  simp only [Builder.modeRule, h.mode_eq (by rintro ⟨⟩), htag, Builder.inRowRule, hhas, if_true,
    hcells, h.close_eq]
  exact h.leave_unmarked hfostering hhtml houter (by rw [htag]; rfl) (by rw [htag]; rfl)
    .inTableBody (by rw [haround]; rfl)

theorem leaves_cell (h : Rests (f :: g :: outer) inner .inCell b)
    (htag : f.start.tag.isCell = true) (haround : f.around = .inRow) :
    b.RestsAfter (g :: outer) (f.wrap inner) f.around false
      (b.modeRule (.endTag f.start.tag)) := by
  have hhas (scope : Scope) := has_current h.toSpans hhtml scope
  have hthrough := h.closeThrough_self hhtml
  have hcell : f.start.tag = .td ∨ f.start.tag = .th := by
    unfold Tag.isCell at htag
    split at htag <;> simp_all
  have himplied : b.closeImplied = b := by
    have hstays := opened_satisfies hhtml fun t => t.hasImpliedEnd && some t != none
    refine h.closeImplied_eq (hstays.trans ?_)
    rcases hcell with htag | htag <;> rw [htag] <;> rfl
  have hrule : b.modeRule (.endTag f.start.tag) =
      (b.close.clearToMarker.setMode .inRow).done := by
    simp only [Builder.modeRule, h.mode_eq (by rintro ⟨⟩), Builder.inCellRule]
    rcases hcell with htag | htag
    all_goals
      rw [htag] at hhas hthrough ⊢
      simp only [hhas, if_true, himplied, hthrough]
  rw [hrule]
  refine h.leave_marked hfostering hhtml houter ?_ .inRow (by rw [haround]; rfl)
  rcases hcell with htag | htag <;> rw [htag] <;> rfl

/-! ### Selections -/

theorem leaves_select (h : Rests (f :: g :: outer) inner .inSelect b)
    (htag : f.start.tag = .select) :
    b.RestsAfter (g :: outer) (f.wrap inner) f.around false
      (b.modeRule (.endTag f.start.tag)) := by
  have hhas (scope : Scope) := has_current h.toSpans hhtml scope
  have hthrough := h.closeThrough_self hhtml
  rw [modeRule_inSelect h.plain_mode_eq (by simp only [Mode.handsOn, htag])]
  rw [htag] at hhas hthrough
  simp only [Builder.inSelectRule.eq_def, htag, hhas, if_true, hthrough, Builder.resetMode,
    h.close_eq]
  exact h.leave_unmarked hfostering hhtml houter (by rw [htag]; rfl) (by rw [htag]; rfl) _
    (h.plain_modeOfStack_left houter rfl rfl rfl)

theorem leaves_option (h : Rests (f :: g :: outer) inner .inSelect b)
    (htag : f.start.tag = .option) (haround : f.around = .inSelect) :
    b.RestsAfter (g :: outer) (f.wrap inner) f.around false
      (b.modeRule (.endTag f.start.tag)) := by
  have hoption : b.currentIs .option = true := by rw [← htag, h.currentIs_self hhtml]
  rw [modeRule_inSelect h.plain_mode_eq (by simp only [Mode.handsOn, htag])]
  simp only [Builder.inSelectRule.eq_def, htag, Builder.closeIf, hoption, if_true, h.close_eq]
  exact h.leave_unmarked hfostering hhtml houter (by rw [htag]; rfl) (by rw [htag]; rfl)
    b.mode (by rw [haround]; exact h.plain_mode_eq)

theorem leaves_options (h : Rests (f :: g :: outer) inner .inSelect b)
    (htag : f.start.tag = .optgroup) (haround : f.around = .inSelect) :
    b.RestsAfter (g :: outer) (f.wrap inner) f.around false
      (b.modeRule (.endTag f.start.tag)) := by
  have hgroup : b.currentIs .optgroup = true := by rw [← htag, h.currentIs_self hhtml]
  have hoption : b.currentIs .option = false := by
    rw [h.currentIs_eq, opened_is hhtml, htag]
    rfl
  rw [modeRule_inSelect h.plain_mode_eq (by simp only [Mode.handsOn, htag])]
  simp only [Builder.inSelectRule.eq_def, htag, Builder.closeIf, hoption, Bool.false_and,
    Bool.false_eq_true, if_false, hgroup, if_true, h.close_eq]
  exact h.leave_unmarked hfostering hhtml houter (by rw [htag]; rfl) (by rw [htag]; rfl)
    b.mode (by rw [haround]; exact h.plain_mode_eq)

end Plain

/-! ### Templates and other vocabularies -/

theorem leaves_template (h : Rests (f :: g :: outer) inner mode b)
    (hfostering : b.fostering = false) {modes : List Mode} (hmodes : b.templateModes = mode :: modes)
    (houter : Level.Chain (g :: outer) modes f.around)
    (htemplate : f.opened.is .template = true) (hrules : mode.isOfTemplate = true) :
    b.RestsAfter (g :: outer) (f.wrap inner) f.around false
      (b.takeOnce (.endTag f.start.tag)) := by
  obtain ⟨hhtml, htag⟩ : f.vocabulary = .html ∧ f.start.tag = .template := by
    simpa [OpenElement.is, opened] using htemplate
  have hcurrent : b.current.vocabulary = .html := by rw [h.current_eq, ← hhtml]; rfl
  have hrule : b.modeRule (.endTag .template) = b.endTemplate.done := by
    have hmode := h.plain_mode_eq
    rw [Builder.modeRule]
    revert hmode hrules
    cases b.mode
    all_goals
      intro hrules hmode
      first
      | rfl
      | (rw [← hmode] at hrules; cases hrules)
  rw [takeOnce_eq hcurrent, htag, hrule]
  exact h.endTemplate hfostering htemplate (by rw [hmodes]; rfl) houter

theorem leaves_foreign (h : Rests (f :: g :: outer) inner mode b)
    (hfostering : b.fostering = false) (hhtml : f.vocabulary ≠ .html) (haround : f.around = mode)
    (houter : Level.Chain (g :: outer) b.templateModes f.around)
    (hother : f.start.tag ≠ .br ∧ f.start.tag ≠ .p) :
    b.RestsAfter (g :: outer) (f.wrap inner) f.around false
      (b.takeOnce (.endTag f.start.tag)) := by
  have hforeign : b.isForeign (.endTag f.start.tag) = true := by
    have hcurrent : b.current.vocabulary = f.vocabulary := by rw [h.current_eq]; rfl
    unfold Builder.isForeign
    dsimp only
    rw [hcurrent, beq_eq_false_iff_ne.mpr hhtml]
    rfl
  have hend : b.foreignRule (.endTag f.start.tag) = b.close.done := by
    unfold Builder.foreignRule
    simp only [hother.1, hother.2, decide_false, Bool.or_self, Bool.false_eq_true, if_false]
    rw [Builder.foreignEnd, h.close_eq, h.stack_eq]
    simp [opened, Builder.done]
  have hno (p : Tag → Bool) : f.opened.satisfies p = false := by
    simp [OpenElement.satisfies, opened, hhtml]
  rw [Builder.takeOnce, hforeign, if_pos rfl, hend]
  exact (h.close_plain haround (hno _) (fun heq => absurd heq hhtml) (hno (· == .form)) houter
    (by simp [hfostering])).after (b := b) rfl false

/-- The innermost level closes at its end tag, and nothing else does. -/
theorem leaves (h : Rests (f :: g :: outer) inner mode b) (hfostering : b.fostering = false) :
    b.RestsAfter (g :: outer) (f.wrap inner) f.around false
      (b.takeOnce (.endTag f.start.tag)) := by
  have hchain := h.chain
  generalize hmodes : b.templateModes = modes at hchain
  cases hchain with
  | template houter htemplate hrules =>
      exact h.leaves_template hfostering hmodes houter htemplate hrules
  | enter houter hvocabulary hinterior hplain =>
      subst hmodes
      by_cases hhtml : f.vocabulary = .html
      · have hcurrent : b.current.vocabulary = .html := by rw [h.current_eq, ← hhtml]; rfl
        rw [takeOnce_eq hcurrent]
        cases Mode.holds_of_interior? (hvocabulary ▸ hhtml) hinterior with
        | flow hplace hflow _ hbody =>
            exact leaves_flow hfostering hhtml h hplace hflow hbody hplain
        | table htag => exact leaves_table hfostering hhtml houter h htag
        | select htag => exact leaves_select hfostering hhtml houter h htag
        | template htag =>
            rw [opened_is hhtml, htag] at hplain
            cases hplain
        | caption htag haround => exact leaves_caption hfostering hhtml houter h htag haround
        | columns htag haround => exact leaves_columns hfostering hhtml houter h htag haround
        | rows htag haround => exact leaves_rows hfostering hhtml houter h htag haround
        | row htag haround => exact leaves_row hfostering hhtml houter h htag haround
        | cell htag haround => exact leaves_cell hfostering hhtml houter h htag haround
        | option htag haround => exact leaves_option hfostering hhtml houter h htag haround
        | options htag haround => exact leaves_options hfostering hhtml houter h htag haround
      · obtain ⟨hsame, hcases⟩ := Mode.foreign_cases (hvocabulary ▸ hhtml) hinterior
        have hother : f.start.tag ≠ .br ∧ f.start.tag ≠ .p := by
          rcases hcases with ⟨-, hbreaks⟩ | ⟨-, htag, -⟩
          · constructor
            all_goals
              intro htag
              rw [Builder.breaksForeign, htag] at hbreaks
              cases hbreaks
          · rcases htag with htag | htag <;> simp [htag]
        exact h.leaves_foreign hfostering hhtml hsame.symm houter hother

end Builder.Rests

end Letterpress
