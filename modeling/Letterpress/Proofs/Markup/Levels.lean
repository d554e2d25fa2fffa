/-
# Levels of a tree in which everything fits

While everything read so far fits, the open elements are the latest element at each
level of the tree, as they are for plain markup (`Builder.Stands`). Here the levels may
belong to any vocabulary, to tables, selections and templates, so they carry more:
which rules apply around each level, where markers stand in the formatting, and which
form is open.

`Level.Chain` says that every level fits its place, and so determines the rules that
apply inside; `Builder.Rests` says that a builder is in such a state between two
tokens. What the rules ask of the open elements is what `Mode.interior?` asks of the
path, for no question depends on the numbers of elements.
-/

import Letterpress.Proofs.Markup.Places

namespace Letterpress

/-- An open element: its start tag, its attributes in the tree, the rules around it and the
finished siblings before it. -/
structure Level where
  id : Nat
  vocabulary : Vocabulary
  start : StartTag
  attributes : List Attribute
  around : Mode
  older : Forest

namespace Level

/-- The level as an open element. -/
def opened (f : Level) : OpenElement :=
  ⟨f.id, f.vocabulary, f.start.tag,
    Builder.annotatesMarkup f.vocabulary f.start.tag f.attributes⟩

/-- The level as an open element without its number. -/
def shell (f : Level) : OpenElement := { f.opened with id := 0 }

/-- The levels as a path. -/
def path (levels : List Level) : Stack := levels.map shell

/-- The level as an entry of the formatting. -/
def entry (f : Level) : Formatting := .element f.id f.start.tag f.attributes

/-- The root that the content of a body is read into. -/
def root : Level := ⟨0, .html, ⟨.html, [], false⟩, [], .inBody, .empty⟩

/-- The element of the level with its children, after its siblings. -/
def wrap (f : Level) (children : Forest) : Forest :=
  .element f.id f.vocabulary f.start.tag f.attributes children f.older

/-- The levels around the children of the innermost, which comes first. -/
def nest (levels : List Level) (inner : Forest) : Forest :=
  levels.foldl (fun children f => f.wrap children) inner

/-- The form that is open, if it was opened outside of templates. -/
def form? : List Level → Option Nat
  | [] => none
  | f :: outer =>
    if f.opened.is .form && !Stack.inTemplate (path outer) then some f.id else form? outer

variable {f : Level} {levels outer : List Level} {inner inner' : Forest}

/-! ## The tree around the innermost level -/

theorem editInside?_nest {target : Nat} {edit : Forest → Forest}
    (hinner : inner.editInside? target edit = some inner')
    (hother : target ∉ levels.map Level.id) :
    (nest levels inner).editInside? target edit = some (nest levels inner') := by
  induction levels generalizing inner inner' with
  | nil => exact hinner
  | cons f outer ih =>
      simp only [List.map_cons, List.mem_cons, not_or] at hother
      have hwrap : (f.wrap inner).editInside? target edit = some (f.wrap inner') := by
        simp only [wrap, Forest.editInside?, if_neg (Ne.symm hother.1), hinner]
      exact ih hwrap hother.2

/-- The innermost level is found at the end of the spine. -/
theorem editInside?_nest_cons (edit : Forest → Forest) (inner : Forest)
    (hnodup : ((f :: outer).map Level.id).Nodup) :
    (nest (f :: outer) inner).editInside? f.id edit =
      some (nest (f :: outer) (edit inner)) := by
  rw [List.map_cons, List.nodup_cons] at hnodup
  have hwrap : (f.wrap inner).editInside? f.id edit = some (f.wrap (edit inner)) := by
    simp only [wrap, Forest.editInside?, if_pos]
  have hnest := editInside?_nest hwrap hnodup.1
  exact hnest

/-! ## Questions that do not depend on numbers -/

variable {p : OpenElement → Bool}

theorem hasInScope_path (scope : Scope) (hp : ∀ f : Level, p f.opened = p f.shell)
    (levels : List Level) :
    Stack.hasInScope scope p (levels.map opened) = (path levels).hasInScope scope p := by
  have hstops (f : Level) : scope.stopsAt f.opened = scope.stopsAt f.shell := by
    cases scope <;> rfl
  induction levels with
  | nil => rfl
  | cons f outer ih =>
      rw [path, List.map_cons, List.map_cons, Stack.hasInScope, Stack.hasInScope, hp, hstops, ih,
        path]

theorem any_path (hp : ∀ f : Level, p f.opened = p f.shell) (levels : List Level) :
    (levels.map opened).any p = (path levels).any p := by
  rw [path, List.any_map, List.any_map]
  exact congrArg (levels.any ·) (funext hp)

theorem currentIs_path (hp : ∀ f : Level, p f.opened = p f.shell) (levels : List Level) :
    Stack.currentIs p (levels.map opened) = (path levels).currentIs p := by
  cases levels with
  | nil => rfl
  | cons f outer => exact hp f

theorem inTemplate_path (levels : List Level) :
    Stack.inTemplate (levels.map opened) = (path levels).inTemplate :=
  any_path (fun _ => rfl) levels

/-- An element satisfying one of two conditions that comes first, by its level. -/
theorem find?_opened (hp : ∀ f : Level, p f.opened = p f.shell) (levels : List Level) :
    ((levels.map opened).find? p).map (fun e => { e with id := 0 }) = (path levels).find? p := by
  induction levels with
  | nil => rfl
  | cons f outer ih =>
      rw [path, List.map_cons, List.map_cons, List.find?_cons, List.find?_cons, ← hp]
      cases p f.opened with
      | true => rfl
      | false => exact ih

/-! ## The rules at each level -/

end Level

/-- A builder uses the rules of a selection in a table as those of any selection. -/
def Mode.plain : Mode → Mode
  | .inSelectInTable => .inSelect
  | mode => mode

/-- The rules of content, rather than of a document or of the text of one element. -/
def Mode.isOfContent : Mode → Bool
  | .inBody | .inTable | .inCaption | .inColumnGroup | .inTableBody | .inRow | .inCell | .inSelect
  | .inTemplate => true
  | _ => false

/-- The rules that a template may follow. -/
def Mode.isOfTemplate : Mode → Bool
  | .inTemplate | .inBody | .inTable | .inColumnGroup | .inTableBody | .inRow => true
  | _ => false

namespace Level

/-- Every level fits its place. `modes` are the rules of the open templates, innermost first, and
`mode` those inside the innermost level. -/
inductive Chain : List Level → List Mode → Mode → Prop
  | root : Chain [.root] [] .inBody
  | enter {f : Level} {outer : List Level} {modes : List Mode} {mode : Mode}
      (houter : Chain outer modes f.around)
      (hvocabulary : f.vocabulary = (path outer).vocabularyOf f.start)
      (hinterior : f.around.interior? (path outer) f.start = some (.nodes mode))
      (hplain : f.opened.is .template = false) : Chain (f :: outer) modes mode
  | template {f : Level} {outer : List Level} {modes : List Mode} {rules : Mode}
      (houter : Chain outer modes f.around) (htemplate : f.opened.is .template = true)
      (hrules : rules.isOfTemplate = true) : Chain (f :: outer) (rules :: modes) rules

/-- The list of formatting holds a marker for each level that sets one, and between the markers
entries of formatting levels in their order. Of many equal formatting levels some may have lost
their entry. -/
inductive Lists : List Level → List Formatting → Prop
  | nil : Lists [] []
  | marker {f : Level} {outer : List Level} {fs : List Formatting}
      (hmarker : f.opened.satisfies Tag.setsMarker = true) (houter : Lists outer fs) :
      Lists (f :: outer) (.marker :: fs)
  | entry {f : Level} {outer : List Level} {fs : List Formatting}
      (hhtml : f.vocabulary = .html) (hformatting : f.start.tag.endGroup = .formatting)
      (houter : Lists outer fs) : Lists (f :: outer) (f.entry :: fs)
  | skip {f : Level} {outer : List Level} {fs : List Formatting}
      (hplain : f.opened.satisfies Tag.setsMarker = false) (houter : Lists outer fs) :
      Lists (f :: outer) fs

/-! ## Formatting -/

namespace Lists

variable {f : Level} {levels outer : List Level} {fs : List Formatting}

theorem satisfies_setsMarker (hformatting : f.start.tag.endGroup = .formatting) :
    f.opened.satisfies Tag.setsMarker = false := by
  have hno : f.start.tag.setsMarker = false := by
    generalize f.start.tag = tag at hformatting
    cases tag
    all_goals first | rfl | cases hformatting
  simp [OpenElement.satisfies, Level.opened, hno]

theorem mem_levels (h : Lists levels fs) {x : Formatting} (hx : x ∈ fs) :
    x = .marker ∨ ∃ g ∈ levels, x = g.entry := by
  induction h with
  | nil => cases hx
  | marker _ _ ih =>
      rcases List.mem_cons.mp hx with rfl | hrest
      · exact .inl rfl
      · exact (ih hrest).imp_right fun ⟨g, hg, heq⟩ => ⟨g, by simp [hg], heq⟩
  | entry _ _ _ ih =>
      rcases List.mem_cons.mp hx with rfl | hrest
      · exact .inr ⟨_, by simp, rfl⟩
      · exact (ih hrest).imp_right fun ⟨g, hg, heq⟩ => ⟨g, by simp [hg], heq⟩
  | skip _ _ ih => exact (ih hx).imp_right fun ⟨g, hg, heq⟩ => ⟨g, by simp [hg], heq⟩

/-- What was listed since the latest marker is still open, within the levels that set none. -/
theorem mem_sinceMarker (h : Lists levels fs) {x : Formatting}
    (hx : x ∈ Formatting.sinceMarker fs) :
    ∃ g ∈ levels.takeWhile (fun f => !f.opened.satisfies Tag.setsMarker),
      g.vocabulary = .html ∧ x = g.entry := by
  induction h with
  | nil => cases hx
  | marker => cases hx
  | @entry f outer fs hhtml hformatting _ ih =>
      have hplain := satisfies_setsMarker hformatting
      rw [List.takeWhile_cons_of_pos (by simp [hplain])]
      rcases List.mem_cons.mp hx with rfl | hrest
      · exact ⟨f, by simp, hhtml, rfl⟩
      · obtain ⟨g, hg, heq⟩ := ih hrest
        exact ⟨g, by simp [hg], heq⟩
  | @skip f outer fs hplain _ ih =>
      rw [List.takeWhile_cons_of_pos (by simp [hplain])]
      obtain ⟨g, hg, heq⟩ := ih hx
      exact ⟨g, by simp [hg], heq⟩

/-- A level that is no formatting and sets no marker has nothing listed. -/
theorem of_plain (h : Lists (f :: outer) fs) (hmarker : f.opened.satisfies Tag.setsMarker = false)
    (hplain : f.vocabulary = .html → f.start.tag.endGroup ≠ .formatting) : Lists outer fs := by
  cases h with
  | marker hsets _ => simp [hmarker] at hsets
  | entry hhtml hformatting _ => exact absurd hformatting (hplain hhtml)
  | skip _ houter => exact houter

/-- The marker of a level is listed first, and is cleared with the level. -/
theorem of_marker (h : Lists (f :: outer) fs)
    (hmarker : f.opened.satisfies Tag.setsMarker = true) :
    ∃ rest, fs = .marker :: rest ∧ Lists outer rest := by
  cases h with
  | marker _ houter => exact ⟨_, rfl, houter⟩
  | entry hhtml hformatting _ =>
      rw [satisfies_setsMarker hformatting] at hmarker
      cases hmarker
  | skip hplain _ => simp [hplain] at hmarker

/-- An entry may be dropped. -/
theorem drop {before after : List Formatting} {x : Formatting}
    (h : Lists levels (before ++ x :: after)) (hx : x ≠ .marker) :
    Lists levels (before ++ after) := by
  generalize hfs : before ++ x :: after = fs at h
  induction h generalizing before with
  | nil => simp at hfs
  | marker hmarker houter ih =>
      cases before with
      | nil =>
          rw [List.nil_append, List.cons.injEq] at hfs
          exact absurd hfs.1 hx
      | cons y before =>
          rw [List.cons_append, List.cons.injEq] at hfs
          rw [List.cons_append, hfs.1]
          exact .marker hmarker (ih hfs.2)
  | @entry f outer fs hhtml hformatting houter ih =>
      cases before with
      | nil =>
          rw [List.nil_append, List.cons.injEq] at hfs
          rw [List.nil_append, hfs.2]
          exact .skip (satisfies_setsMarker hformatting) houter
      | cons y before =>
          rw [List.cons_append, List.cons.injEq] at hfs
          rw [List.cons_append, hfs.1]
          exact .entry hhtml hformatting (ih hfs.2)
  | skip hplain _ ih => exact .skip hplain (ih hfs)

/-- Making room for an entry drops at most one. -/
theorem makeRoom (h : Lists levels fs) (t : StartTag) : Lists levels (Formatting.makeRoom t fs) := by
  rw [Formatting.makeRoom]
  split
  · obtain ⟨later, hfs⟩ : ∃ later, fs = Formatting.sinceMarker fs ++ later :=
      ⟨_, (List.takeWhile_append_dropWhile ..).symm⟩
    have hrecent : ∀ x ∈ Formatting.sinceMarker fs, x ≠ .marker := by
      rintro x hx rfl
      obtain ⟨g, -, -, heq⟩ := h.mem_sinceMarker hx
      cases heq
    generalize Formatting.sinceMarker fs = recent at hfs hrecent
    subst hfs
    rw [List.drop_left]
    rcases List.exists_or_eq_self_of_eraseP (Formatting.isWrittenBy t) recent.reverse with
      heq | ⟨x, first, last, -, -, hreverse, heq⟩
    · rw [heq, List.reverse_reverse]
      exact h
    · have hsplit : recent = last.reverse ++ x :: first.reverse := by
        rw [← List.reverse_reverse recent, hreverse]
        simp
      rw [heq, List.reverse_append, List.append_assoc]
      rw [hsplit, List.append_assoc] at h
      exact h.drop (hrecent x (by simp [hsplit]))
  · exact h

end Lists

/-! ## The rules inside the innermost level -/

namespace Chain

variable {f : Level} {levels outer : List Level} {modes : List Mode} {mode : Mode}

theorem ne_nil (h : Chain levels modes mode) : levels ≠ [] := by
  cases h <;> exact List.cons_ne_nil _ _

/-- Outside a level other than a template, the same templates are open. -/
theorem tail_of_plain {g : Level} (h : Chain (f :: g :: outer) modes mode)
    (hplain : f.opened.is .template = false) : Chain (g :: outer) modes f.around := by
  cases h with
  | enter houter _ _ _ => exact houter
  | template _ htemplate _ =>
      rw [hplain] at htemplate
      cases htemplate

/-- Inside a level the rules are those of some content. -/
theorem isOfContent (h : Chain levels modes mode) : mode.isOfContent = true := by
  induction h with
  | root => rfl
  | @template _ _ _ rules _ _ hrules _ =>
      revert hrules
      cases rules
      all_goals
        intro hrules
        first | rfl | cases hrules
  | @enter f outer modes mode houter hvocabulary hinterior hplain ih =>
      by_cases hhtml : f.vocabulary = .html
      · cases Mode.holds_of_interior? (hvocabulary ▸ hhtml) hinterior with
        | flow => exact ih
        | _ => rfl
      · exact (Mode.foreign_cases (hvocabulary ▸ hhtml) hinterior).1 ▸ ih

/-- The rules of templates hold right in a template only. -/
theorem exists_template (h : Chain levels modes .inTemplate) :
    ∃ f outer modes', levels = f :: outer ∧ modes = .inTemplate :: modes' ∧
      f.opened.is .template = true ∧ Chain outer modes' f.around := by
  generalize hmode : Mode.inTemplate = mode at h
  induction h with
  | root => cases hmode
  | template houter htemplate _ _ => exact ⟨_, _, _, rfl, rfl, htemplate, houter⟩
  | @enter f outer modes mode houter hvocabulary hinterior hplain ih =>
      have hnone (hplace : Mode.inTemplate.flows (path outer) = true) : False := by cases hplace
      by_cases hhtml : f.vocabulary = .html
      · cases Mode.holds_of_interior? (hvocabulary ▸ hhtml) hinterior with
        | flow hplace _ _ _ => exact (hnone (hmode ▸ hplace)).elim
        | template htag _ =>
            have htemplate : f.opened.is .template = true := by
              simp [OpenElement.is, opened, hhtml, htag]
            rw [hplain] at htemplate
            cases htemplate
        | option _ haround _ | options _ haround _ => cases hmode
        | table | select | caption | columns | rows | row | cell => cases hmode
      · obtain ⟨heq, ⟨hforeign, -⟩ | ⟨-, -, hplace⟩⟩ :=
          Mode.foreign_cases (hvocabulary ▸ hhtml) hinterior
        · obtain ⟨g, rest, _, rfl, -, htemplate, -⟩ := ih (hmode.trans heq)
          rw [OpenElement.is, Bool.and_eq_true, beq_iff_eq] at htemplate
          have hcurrent : (Builder.inside (path (g :: rest))).current.vocabulary = .html :=
            htemplate.1
          rw [Stack.isForeignTo_eq_false hcurrent] at hforeign
          cases hforeign
        · rw [← heq, ← hmode] at hplace
          exact (hnone hplace).elim

theorem selectMode_plain (s : Stack) : (Builder.modeOfStack.selectMode s).plain = .inSelect := by
  induction s with
  | nil => rfl
  | cons e outer ih =>
      rw [Builder.modeOfStack.selectMode]
      split
      · rfl
      · split
        · rfl
        · exact ih

/-- Running content and other vocabularies call for no rules of their own. -/
theorem modeOfStack_skip {b : Builder} {e : OpenElement} {outer : Stack}
    (hother : e.vocabulary ≠ .html ∨ e.tag.startGroup.isFlow = true) :
    Builder.modeOfStack.go b (e :: outer) = Builder.modeOfStack.go b outer := by
  obtain ⟨id, vocabulary, tag, holdsMarkup⟩ := e
  rw [Builder.modeOfStack.go]
  cases vocabulary with
  | svg | math => rfl
  | html =>
      have hflow := hother.resolve_left fun hno => hno rfl
      cases tag
      all_goals first | rfl | cases hflow

/-- The rules that the open elements call for are those inside the innermost level. -/
theorem modeOfStack_eq (h : Chain levels modes mode) {b : Builder} (hmodes : b.templateModes = modes)
    (hfragment : b.fragment = true) :
    (Builder.modeOfStack.go b (levels.map opened)).plain = mode := by
  induction h with
  | root =>
      have hroot : Builder.modeOfStack.go b [Level.root.opened] =
          if b.fragment then .inBody else if b.head.isNone then .beforeHead else .afterHead := rfl
      rw [List.map_cons, List.map_nil, hroot, hfragment]
      rfl
  | @template f outer modes rules _ htemplate hrules ih =>
      have hgo : Builder.modeOfStack.go b ((f :: outer).map opened) = rules := by
        simp only [OpenElement.is, Bool.and_eq_true, beq_iff_eq] at htemplate
        rw [List.map_cons, Builder.modeOfStack.go, htemplate.1, htemplate.2, hmodes]
        rfl
      rw [hgo]
      cases rules <;> first | rfl | cases hrules
  | @enter f outer modes mode houter hvocabulary hinterior hplain ih =>
      have hopened : (f :: outer).map opened = f.opened :: outer.map opened := rfl
      have hlast : (outer.map opened).isEmpty = false := by
        simpa using houter.ne_nil
      have hgo {m : Mode} (hm : Builder.modeOfStack.go b (f.opened :: outer.map opened) = m)
          (hmode : m.plain = mode) :
          (Builder.modeOfStack.go b ((f :: outer).map opened)).plain = mode := by
        rw [hopened, hm, hmode]
      have hfixed (hm : Builder.modeOfStack.go b (f.opened :: outer.map opened) = mode)
          (hmode : mode.plain = mode) := hgo hm hmode
      by_cases hhtml : f.vocabulary = .html
      · have hvocabulary' : f.opened.vocabulary = .html := hhtml
        have htag : f.opened.tag = f.start.tag := rfl
        cases Mode.holds_of_interior? (hvocabulary ▸ hhtml) hinterior with
        | flow _ hflow _ _ => exact hgo (modeOfStack_skip (.inr hflow)) (ih hmodes)
        | option hoption haround _ =>
            refine hgo (modeOfStack_skip (.inr ?_)) (haround ▸ ih hmodes)
            rw [htag, hoption]
            rfl
        | options hgroup haround _ =>
            refine hgo (modeOfStack_skip (.inr ?_)) (haround ▸ ih hmodes)
            rw [htag, hgroup]
            rfl
        | select hselect _ =>
            refine hgo ?_ (selectMode_plain (outer.map opened))
            rw [Builder.modeOfStack.go, hvocabulary', htag, hselect]
            rfl
        | template htemplate _ =>
            rw [OpenElement.is, hvocabulary', htag, htemplate] at hplain
            cases hplain
        | rows hrows _ _ =>
            refine hfixed ?_ rfl
            rw [Builder.modeOfStack.go, hvocabulary', htag]
            rcases hrows with hrows | hrows | hrows <;> rw [hrows] <;> rfl
        | cell hcell _ _ =>
            refine hfixed ?_ rfl
            rw [Builder.modeOfStack.go, hvocabulary', htag, hlast]
            unfold Tag.isCell at hcell
            split at hcell
            · rename_i heq
              rw [heq]
              rfl
            · rename_i heq
              rw [heq]
              rfl
            · cases hcell
        | table heq _ _ | caption heq _ _ | columns heq _ _ | row heq _ _ =>
            refine hfixed ?_ rfl
            rw [Builder.modeOfStack.go, hvocabulary', htag, heq]
            rfl
      · obtain ⟨rfl, -⟩ := Mode.foreign_cases (hvocabulary ▸ hhtml) hinterior
        rw [hopened, modeOfStack_skip (.inl hhtml), ih hmodes]

end Chain

end Level

end Letterpress
