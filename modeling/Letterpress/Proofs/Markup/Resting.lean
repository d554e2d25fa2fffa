/-
# Builders at rest

Between two tokens of a tree in which everything fits, a builder is at rest on its
levels (`Builder.Rests`): the tree is nested along them, the open elements are the
levels, and the rules, the formatting and the open form are what the levels determine.

This module has what such a builder answers to the questions of the rules, and what the
elementary steps do to it: adding content, entering a new level (`Rests.enter`) and
leaving the innermost (`Rests.leave`). Each is stated for any change of the rules, the
formatting and the form that agrees with the new levels.
-/

import Letterpress.Proofs.Markup.Levels

namespace Letterpress

open Level

/-- The tree is nested along the levels, which are the open elements, and content goes into the
innermost. `inner` is the finished content there. -/
structure Builder.Spans (levels : List Level) (inner : Forest) (b : Builder) : Prop where
  tree_eq : b.tree = Level.nest levels inner
  stack_eq : b.stack = levels.map Level.opened
  fostering_eq : b.fostering = true → (path levels).atTablePart = false
  nodup_ids : (levels.map Level.id).Nodup

/-- Everything read so far fits, and `mode` are the rules inside the innermost level. -/
structure Builder.Rests (levels : List Level) (inner : Forest) (mode : Mode) (b : Builder) : Prop
    extends Spans levels inner b where
  chain : Level.Chain levels b.templateModes mode
  plain_mode_eq : b.mode.plain = mode
  lists : Level.Lists levels b.formatting
  form_eq : b.form = Level.form? levels
  dropsNewline_eq : b.dropsNewline = false
  tableText_eq : b.tableText = []
  fragment_eq : b.fragment = true
  id_lt : ∀ f ∈ levels, f.id < b.nextId

/-- The rules use a token up, and the builder rests again. Only where `line` says so, a line feed
that comes next is dropped. -/
structure Builder.RestsAfter (b : Builder) (levels : List Level) (inner : Forest) (mode : Mode)
    (line : Bool) (result : Builder × Next) : Prop where
  next_eq : result.2 = .done
  rests : Rests levels inner mode { result.1 with dropsNewline := false }
  fostering_eq : result.1.fostering = b.fostering
  line_of : result.1.dropsNewline = true → line = true

namespace Level

variable {f : Level} {levels outer : List Level}

theorem form?_cons (hform : f.opened.is .form = false) : form? (f :: outer) = form? outer := by
  rw [form?, hform]
  rfl

/-- Without a form among the levels none is open. -/
theorem form?_eq_none (hnone : (path levels).any (·.is .form) = false) : form? levels = none := by
  induction levels with
  | nil => rfl
  | cons f outer ih =>
      rw [path, List.map_cons, List.any_cons, Bool.or_eq_false_iff] at hnone
      have hform : f.opened.is .form = false := hnone.1
      rw [form?_cons hform]
      exact ih hnone.2

end Level

namespace Builder.Spans

variable {f : Level} {levels outer : List Level} {inner : Forest} {b : Builder}
  {p : OpenElement → Bool}

theorem current_eq (h : Spans (f :: outer) inner b) : b.current = f.opened := by
  rw [Builder.current, h.stack_eq]
  rfl

theorem stack_currentIs_eq (h : Spans levels inner b) (hp : ∀ f : Level, p f.opened = p f.shell) :
    b.stack.currentIs p = (path levels).currentIs p := by
  rw [h.stack_eq]
  exact currentIs_path hp levels

theorem closeIf_eq (h : Spans levels inner b) {tag : Tag}
    (hother : (path levels).currentIs (·.is tag) = false) : b.closeIf tag = b := by
  rw [Builder.closeIf, Builder.currentIs, h.stack_currentIs_eq fun _ => rfl, hother]
  rfl

/-- Where the innermost level itself is searched for, nothing is closed. -/
theorem closeTo_eq (h : Spans levels inner b) (hp : ∀ f : Level, p f.opened = p f.shell)
    (hcurrent : (path levels).currentIs p = true) : b.closeTo p = b := by
  have hstack : b.stack.closeTo p = b.stack := by
    rw [h.stack_eq]
    cases levels with
    | nil => cases hcurrent
    | cons f outer =>
        have hfirst : p f.opened = true := (hp f).trans hcurrent
        exact List.dropWhile_cons_of_neg (by simp [hfirst])
  rw [Builder.closeTo, Builder.onStack, hstack]

/-- Content goes into the innermost level. -/
theorem add_eq (h : Spans (f :: outer) inner b) (edit : Forest → Forest) :
    b.add edit = { b with tree := Level.nest (f :: outer) (edit inner) } := by
  have hplace : b.placeFor b.current = .inside f.id := by
    have hpart : (b.fostering && b.current.satisfies Tag.isTablePart) = false := by
      cases hfostering : b.fostering with
      | false => rfl
      | true =>
          rw [h.current_eq, Bool.true_and]
          exact h.fostering_eq hfostering
    rw [Builder.placeFor, hpart, h.current_eq]
    rfl
  rw [Builder.add, hplace, Builder.editAt, h.tree_eq,
    Level.editInside?_nest_cons edit inner h.nodup_ids]
  rfl

theorem add (h : Spans (f :: outer) inner b) (edit : Forest → Forest) :
    Spans (f :: outer) (edit inner) (b.add edit) := by
  rw [h.add_eq edit]
  exact ⟨rfl, h.stack_eq, h.fostering_eq, h.nodup_ids⟩

theorem openIn_eq {g : Level} (h : Spans (g :: outer) inner b) (hid : f.id = b.nextId)
    (holder : f.older = inner) :
    b.openIn f.vocabulary f.start.tag f.attributes =
      { b with
        tree := Level.nest (f :: g :: outer) .empty
        nextId := b.nextId + 1
        stack := (f :: g :: outer).map Level.opened } := by
  rw [Builder.openIn, h.add_eq, ← hid, ← holder, h.stack_eq]
  rfl

theorem close_eq (h : Spans (f :: outer) inner b) :
    b.close = { b with stack := outer.map Level.opened } := by
  rw [Builder.close, Builder.onStack, h.stack_eq]
  rfl

end Builder.Spans

namespace Builder.Rests

variable {f g : Level} {levels outer : List Level} {inner : Forest} {mode inside : Mode}
  {b b' : Builder}

/-! ## What the state answers -/

theorem exists_cons (h : Rests levels inner mode b) : ∃ f outer, levels = f :: outer :=
  List.exists_cons_of_ne_nil h.chain.ne_nil

theorem mode_eq (h : Rests levels inner mode b) (hmode : mode ≠ .inSelect) : b.mode = mode := by
  have hplain := h.plain_mode_eq
  unfold Mode.plain at hplain
  split at hplain
  · exact absurd hplain.symm hmode
  · exact hplain

theorem modeOfStack_eq (h : Rests levels inner mode b) : b.modeOfStack.plain = mode := by
  rw [Builder.modeOfStack, h.stack_eq]
  exact h.chain.modeOfStack_eq rfl h.fragment_eq

theorem has_eq (h : Rests levels inner mode b) (scope : Scope) (tag : Tag) :
    b.has scope tag = (path levels).hasInScope scope (·.is tag) := by
  rw [Builder.has, h.stack_eq]
  exact hasInScope_path scope (fun _ => rfl) levels

theorem currentIs_eq (h : Rests (f :: outer) inner mode b) (tag : Tag) :
    b.currentIs tag = f.opened.is tag := by
  rw [Builder.currentIs, h.stack_eq]
  rfl

theorem inTemplate_eq (h : Rests levels inner mode b) :
    b.stack.inTemplate = (path levels).inTemplate := by
  rw [h.stack_eq, inTemplate_path]

theorem isForeign_eq (h : Rests levels inner mode b) (t : StartTag) :
    b.isForeign (.startTag t) = (path levels).isForeignTo t := by
  obtain ⟨f, outer, rfl⟩ := h.exists_cons
  unfold Stack.isForeignTo Builder.isForeign
  rw [h.current_eq]
  rfl

/-- No formatting was closed behind the reader's back. -/
theorem reopenFormatting_eq (h : Rests levels inner mode b) : b.reopenFormatting = b := by
  have hforce : b.formatting.takeWhile (fun x => !b.isInForce x) = [] := by
    cases hfs : b.formatting with
    | nil => rfl
    | cons x fs =>
        have hopen : b.isInForce x = true := by
          rcases h.lists.mem_levels (x := x) (by simp [hfs]) with rfl | ⟨g, hg, rfl⟩
          · rfl
          · rw [Level.entry, Builder.isInForce, h.stack_eq]
            exact List.any_eq_true.mpr
              ⟨g.opened, List.mem_map_of_mem hg, by simp [Level.opened]⟩
        rw [List.takeWhile_cons_of_neg (by simp [hopen])]
  rw [Builder.reopenFormatting, hforce]
  rfl

theorem closeParagraph_eq (h : Rests levels inner mode b)
    (hnone : (path levels).inParagraph = false) : b.closeParagraph = b := by
  rw [Builder.closeParagraph, h.has_eq, ← Stack.inParagraph, hnone]
  rfl

theorem closeItem_eq (h : Rests levels inner mode b) {isItem : Tag → Bool}
    (hnone : (path levels).endsItem isItem = false) : b.closeItem isItem = b := by
  have hfind := find?_opened (p := fun e => e.satisfies isItem || Builder.closeItem.bounds e)
    (fun _ => rfl) levels
  rw [Stack.endsItem, ← hfind, ← h.stack_eq] at hnone
  rw [Builder.closeItem]
  cases hfound : b.stack.find? fun e => e.satisfies isItem || Builder.closeItem.bounds e with
  | none => rfl
  | some e =>
      rw [hfound] at hnone
      have hother : e.satisfies isItem = false := hnone
      dsimp only
      rw [hother]
      rfl

theorem endOpenAnchor_eq (h : Rests levels inner mode b)
    (hnone : (path levels).inAnchor = false) : b.endOpenAnchor = b := by
  have hfind : (Formatting.sinceMarker b.formatting).find? (·.hasTag .a) = none := by
    apply List.find?_eq_none.mpr
    intro x hx hanchor
    obtain ⟨g, hg, hhtml, rfl⟩ := h.lists.mem_sinceMarker hx
    have hshells : (path levels).takeWhile (fun e => !e.satisfies Tag.setsMarker) =
        (levels.takeWhile fun f => !f.opened.satisfies Tag.setsMarker).map shell := by
      rw [path, List.takeWhile_map]
      rfl
    rw [Stack.inAnchor, hshells, List.any_map] at hnone
    have hother := List.any_eq_false.mp hnone g hg
    have htag : g.start.tag = .a := beq_iff_eq.mp hanchor
    exact hother (by simp [OpenElement.is, shell, opened, hhtml, htag])
  rw [Builder.endOpenAnchor, hfind]

theorem closeImplied_eq (h : Rests levels inner mode b) {keep : Option Tag}
    (hstay : (path levels).currentIs
      (·.satisfies fun t => t.hasImpliedEnd && some t != keep) = false) :
    b.onStack (·.closeImplied keep) = b := by
  obtain ⟨f, outer, rfl⟩ := h.exists_cons
  have hfirst : f.opened.satisfies (fun t => t.hasImpliedEnd && some t != keep) = false := hstay
  have hstack : b.stack.closeImplied keep = b.stack := by
    rw [h.stack_eq, List.map_cons, Stack.closeImplied]
    exact List.dropWhile_cons_of_neg (by simp [hfirst])
  rw [Builder.onStack, hstack]

/-! ## Steps -/

/-- What rests does so whatever is known about sets of frames. -/
theorem forbidFrames (h : Rests levels inner mode b) : Rests levels inner mode b.forbidFrames :=
  { h with }

theorem setDropsNewline (h : Rests levels inner mode b) :
    Rests levels inner mode { b with dropsNewline := false } :=
  { h with dropsNewline_eq := rfl }

theorem setFostering (h : Rests levels inner mode b) (fostering : Bool)
    (hplace : fostering = true → (path levels).atTablePart = false) :
    Rests levels inner mode { b with fostering } :=
  { h with fostering_eq := hplace }

theorem add (h : Rests (f :: outer) inner mode b) (edit : Forest → Forest) :
    Rests (f :: outer) (edit inner) mode (b.add edit) := by
  rw [h.add_eq edit]
  exact { h with tree_eq := rfl }

/-- Entering a level. The rules, the formatting and the form may change as long as they agree with
the levels. -/
theorem enter (h : Rests (g :: outer) inner mode b) (frames fostering : Bool)
    (hid : f.id = b.nextId) {rules : Mode} {modes : List Mode} {formatting : List Formatting}
    {form : Option Nat}
    (hchain : Level.Chain (f :: g :: outer) modes inside)
    (hplain : rules.plain = inside) (hlists : Level.Lists (f :: g :: outer) formatting)
    (hform : form = Level.form? (f :: g :: outer))
    (hplace : fostering = true → (path (f :: g :: outer)).atTablePart = false) :
    Rests (f :: g :: outer) .empty inside
      { b with
        tree := Level.nest (f :: g :: outer) .empty, nextId := b.nextId + 1,
        stack := (f :: g :: outer).map Level.opened, mode := rules, templateModes := modes,
        formatting, form, framesAllowed := frames, fostering } := by
  have hfresh : f.id ∉ (g :: outer).map Level.id := by
    intro hmem
    obtain ⟨k, hk, heq⟩ := List.mem_map.mp hmem
    exact absurd (h.id_lt k hk) (by omega)
  refine ⟨⟨rfl, rfl, hplace, List.nodup_cons.mpr ⟨hfresh, h.nodup_ids⟩⟩, hchain, hplain, hlists,
    hform, h.dropsNewline_eq, h.tableText_eq, h.fragment_eq, ?_⟩
  intro k hk
  rcases List.mem_cons.mp hk with rfl | hold
  · exact hid ▸ Nat.lt_succ_self b.nextId
  · exact Nat.lt_succ_of_lt (h.id_lt k hold)

/-- Leaving the innermost level. -/
theorem leave (h : Rests (f :: outer) inner mode b) {rules : Mode} {modes : List Mode}
    {formatting : List Formatting} {form : Option Nat} (hchain : Level.Chain outer modes f.around)
    (hplain : rules.plain = f.around) (hlists : Level.Lists outer formatting)
    (hform : form = Level.form? outer)
    (hplace : b.fostering = true → (path outer).atTablePart = false) :
    Rests outer (f.wrap inner) f.around
      { b with
        stack := outer.map Level.opened, mode := rules, templateModes := modes, formatting,
        form } :=
  ⟨⟨h.tree_eq, rfl, hplace, (List.nodup_cons.mp h.nodup_ids).2⟩, hchain, hplain, hlists, hform,
    h.dropsNewline_eq, h.tableText_eq, h.fragment_eq, fun k hk => h.id_lt k (by simp [hk])⟩

/-- A builder that rests when the token is used up. -/
theorem after (h : Rests levels inner mode b') (hfostering : b'.fostering = b.fostering)
    (line : Bool) : b.RestsAfter levels inner mode line b'.done where
  next_eq := rfl
  rests := h.setDropsNewline
  fostering_eq := hfostering
  line_of := by
    intro hline
    rw [Builder.done, h.dropsNewline_eq] at hline
    cases hline

end Builder.Rests

/-! ## Tags that are left to running content -/

namespace Builder

variable {b : Builder} {mode : Mode} {token : Token}

theorem inCellRule_of_handsOn (htoken : Mode.inCell.handsOn token = true) :
    b.inCellRule token = b.inBodyRule token := by
  cases token with
  | startTag | endTag =>
      unfold inCellRule
      simp only [Mode.handsOn] at htoken
      split at htoken
      all_goals first
        | (cases htoken; done)
        | simp_all [Mode.isRunning]
  | _ => cases htoken

theorem inCaptionRule_of_handsOn (htoken : Mode.inCaption.handsOn token = true) :
    b.inCaptionRule token = b.inBodyRule token := by
  cases token with
  | startTag | endTag =>
      unfold inCaptionRule
      simp only [Mode.handsOn] at htoken
      split at htoken
      all_goals first
        | (cases htoken; done)
        | simp_all [Mode.isRunning]
  | _ => cases htoken

theorem inTableRule_of_handsOn (htoken : Mode.inTable.handsOn token = true) :
    b.inTableRule token = b.fosterRule token := by
  cases token with
  | startTag | endTag =>
      unfold inTableRule
      simp only [Mode.handsOn] at htoken
      split at htoken
      all_goals first
        | (cases htoken; done)
        | simp_all [Mode.isRunning]
  | _ => cases htoken

theorem inTableBodyRule_of_handsOn (htoken : Mode.inTableBody.handsOn token = true) :
    b.inTableBodyRule token = b.fosterRule token := by
  cases token with
  | startTag | endTag =>
      unfold inTableBodyRule inTableRule
      simp only [Mode.handsOn] at htoken
      split at htoken
      all_goals first
        | (cases htoken; done)
        | simp_all [Mode.isRunning]
  | _ => cases htoken

theorem inRowRule_of_handsOn (htoken : Mode.inRow.handsOn token = true) :
    b.inRowRule token = b.fosterRule token := by
  cases token with
  | startTag | endTag =>
      unfold inRowRule inTableRule
      simp only [Mode.handsOn] at htoken
      split at htoken
      all_goals first
        | (cases htoken; done)
        | simp_all [Mode.isRunning]
  | _ => cases htoken

theorem modeRule_of_handsOn (hmode : b.mode = mode)
    (hplace : (mode.isRunning || mode.isTable) = true) (htoken : mode.handsOn token = true) :
    b.modeRule token = if mode.isRunning then b.inBodyRule token else b.fosterRule token := by
  rw [modeRule, hmode]
  cases mode with
  | inBody => rfl
  | inCell => exact inCellRule_of_handsOn htoken
  | inCaption => exact inCaptionRule_of_handsOn htoken
  | inTable => exact inTableRule_of_handsOn htoken
  | inTableBody => exact inTableBodyRule_of_handsOn htoken
  | inRow => exact inRowRule_of_handsOn htoken
  | _ => cases hplace

/-- The rules of a selection in a table are those of any selection, except for tags of tables. -/
theorem modeRule_inSelect (hmode : b.mode.plain = .inSelect)
    (htoken : Mode.inSelect.handsOn token = true) : b.modeRule token = b.inSelectRule token := by
  have htable : b.inSelectInTableRule token = b.inSelectRule token := by
    cases token with
    | startTag | endTag =>
        unfold inSelectInTableRule
        simp only [Mode.handsOn] at htoken
        split at htoken
        all_goals first
          | (cases htoken; done)
          | simp_all [Mode.isRunning]
    | _ => cases htoken
  rw [modeRule]
  revert hmode
  cases b.mode
  all_goals
    intro hmode
    first | exact htable | rfl | cases hmode

/-- Where running content may stand, its rules take the tags that are left to them. Between the
parts of a table content might be displaced while they do. -/
theorem Rests.exists_inBodyRule {levels : List Level} {inner : Forest}
    (h : b.Rests levels inner mode) (hfostering : b.fostering = false)
    (hplace : mode.flows (path levels) = true) (htoken : mode.handsOn token = true) :
    ∃ b₁ : Builder, b₁.Rests levels inner mode ∧ b₁.nextId = b.nextId ∧
      (mode.isRunning = true → b₁.fostering = false) ∧
      ((b₁.fostering = false ∧ b.modeRule token = b₁.inBodyRule token) ∨
        b.modeRule token =
          ({ (b₁.inBodyRule token).1 with fostering := false }, (b₁.inBodyRule token).2)) := by
  rw [Mode.flows, Bool.or_eq_true, Bool.and_eq_true] at hplace
  have hmode : b.mode = mode := by
    refine h.mode_eq ?_
    rintro rfl
    rcases hplace with hrunning | ⟨htable, -⟩
    · cases hrunning
    · cases htable
  have hmodes : (mode.isRunning || mode.isTable) = true := by
    rw [Bool.or_eq_true]
    exact hplace.imp_right And.left
  have hrule := modeRule_of_handsOn hmode hmodes htoken
  by_cases hrunning : mode.isRunning = true
  · rw [if_pos hrunning] at hrule
    exact ⟨b, h, rfl, fun _ => hfostering, .inl ⟨hfostering, hrule⟩⟩
  · have hpart : (path levels).atTablePart = false := by
      simpa using (hplace.resolve_left hrunning).2
    rw [if_neg hrunning] at hrule
    exact ⟨{ b with fostering := true }, h.setFostering true fun _ => hpart, rfl,
      fun hno => absurd hno hrunning, .inr hrule⟩

namespace RestsAfter

variable {levels levels' : List Level} {inner inner' : Forest} {mode' : Mode} {line line' : Bool}
  {result : Builder × Next}

theorem mono (h : b.RestsAfter levels inner mode line result) (hline : line = true → line' = true) :
    b.RestsAfter levels inner mode line' result :=
  { h with line_of := fun hdrops => hline (h.line_of hdrops) }

/-- What running content makes of a tag, it makes of it wherever running content may stand. -/
theorem of_inBodyRule (h : b.Rests levels inner mode) (hfostering : b.fostering = false)
    (hplace : mode.flows (path levels) = true) (htoken : mode.handsOn token = true)
    (hbody : ∀ {b₁ : Builder}, b₁.Rests levels inner mode → b₁.nextId = b.nextId →
      (mode.isRunning = true → b₁.fostering = false) →
      b₁.RestsAfter levels' inner' mode' line (b₁.inBodyRule token)) :
    b.RestsAfter levels' inner' mode' line (b.modeRule token) := by
  obtain ⟨b₁, hready, hnext, hrunning, ⟨hsame, hrule⟩ | hrule⟩ :=
    h.exists_inBodyRule hfostering hplace htoken
  · obtain ⟨hdone, hrests, hkept, hline⟩ := hbody hready hnext hrunning
    rw [hrule]
    exact ⟨hdone, hrests, hkept.trans (hsame.trans hfostering.symm), hline⟩
  · obtain ⟨hdone, hrests, -, hline⟩ := hbody hready hnext hrunning
    rw [hrule]
    exact ⟨hdone, hrests.setFostering false nofun, hfostering.symm, hline⟩

end RestsAfter

end Builder

end Letterpress
