/-
# Content that opens no level

Elements without content, and elements that hold the text up to their end tag. Behind
each a builder rests on the levels it rested on, with the element added to the innermost.

The end tags of a few elements without content are written too (`Tag.isChildless`); the
reader ignores them.
-/

import Letterpress.Proofs.Markup.Leaving

namespace Letterpress

open Level

/-- Elements of which the start tag is taken in the head as in running content. -/
theorem Builder.inHeadRule_nothing {b : Builder} {t : StartTag}
    (hhead : t.tag.headInterior? = some .nothing) :
    b.inHeadRule (.startTag t) = (b.addEmpty t).done := by
  unfold Tag.headInterior? at hhead
  unfold inHeadRule
  split at hhead
  all_goals first
    | (cases hhead; done)
    | simp only [*]

theorem Builder.inHeadRule_text {b : Builder} {t : StartTag} {content : Lexer.Content}
    (hhead : t.tag.headInterior? = some (.text content)) :
    b.inHeadRule (.startTag t) = b.openText t content := by
  unfold Tag.headInterior? at hhead
  unfold inHeadRule
  split at hhead
  all_goals first
    | (cases hhead; done)
    | (cases hhead; simp only [*])

/-- Every part of a table takes these elements as the table itself does. -/
theorem Builder.modeRule_inTable {b : Builder} {mode : Mode} {t : StartTag} (hmode : b.mode = mode)
    (htable : mode.isTable = true)
    (htag : t.tag = .input ∨ t.tag = .form ∨ t.tag = .style ∨ t.tag = .script) :
    b.modeRule (.startTag t) = b.inTableRule (.startTag t) := by
  rw [modeRule, hmode]
  cases mode with
  | inTable => rfl
  | inTableBody =>
      show b.inTableBodyRule (.startTag t) = _
      unfold inTableBodyRule
      rcases htag with htag | htag | htag | htag <;> simp only [htag]
  | inRow =>
      show b.inRowRule (.startTag t) = _
      unfold inRowRule
      rcases htag with htag | htag | htag | htag <;> simp only [htag]
  | _ => cases htable

/-- Where only the head's rules know an element, they take it. -/
theorem Builder.modeRule_head {b : Builder} {mode : Mode} {t : StartTag} {i : Interior}
    (hmode : b.mode.plain = mode)
    (hplace : mode = .inTemplate ∨ (mode = .inSelect ∧ t.tag = .script) ∨
      (mode.isTable = true ∧ (t.tag = .style ∨ t.tag = .script)))
    (hhead : t.tag.headInterior? = some i) :
    b.modeRule (.startTag t) = b.inHeadRule (.startTag t) := by
  have hkept (hselect : mode ≠ .inSelect) : b.mode = mode := by
    unfold Mode.plain at hmode
    split at hmode
    · exact absurd hmode.symm hselect
    · exact hmode
  rcases hplace with rfl | ⟨rfl, htag⟩ | ⟨htable, htag⟩
  · rw [modeRule, hkept (by rintro ⟨⟩)]
    show b.inTemplateRule (.startTag t) = _
    unfold Tag.headInterior? at hhead
    unfold inTemplateRule
    split at hhead
    all_goals first
      | (cases hhead; done)
      | simp only [*]
  · have hselect : b.inSelectRule (.startTag t) = b.inHeadRule (.startTag t) := by
      unfold inSelectRule
      simp only [htag]
    have htable : b.inSelectInTableRule (.startTag t) = b.inHeadRule (.startTag t) := by
      unfold inSelectInTableRule
      simp only [htag, hselect]
    rw [modeRule]
    revert hmode
    cases b.mode
    all_goals
      intro hmode
      first | exact hselect | exact htable | cases hmode
  · rw [modeRule_inTable (hkept (by rintro rfl; cases htable)) htable (by simp [htag])]
    unfold inTableRule
    rcases htag with htag | htag <;> simp only [htag]

/-- Elements that hold nothing, though they are written with an end tag. -/
def Tag.isChildless : Tag → Bool
  | .basefont | .bgsound | .keygen | .param => true
  | _ => false

/-- Where an element without content is written with an end tag. -/
theorem Mode.HoldsNone.isChildless {mode : Mode} {path : Stack} {t : StartTag}
    (h : mode.HoldsNone path t .nothing) (hvoid : t.tag.isVoid = false) :
    (t.tag.isChildless = true ∧ (mode.flows path = true ∨ mode = .inTemplate)) ∨
      (mode.isTable = true ∧ t.tag = .form ∧
        (path.any (·.is .form) || path.inTemplate) = false) := by
  have hhead (hinterior : t.tag.headInterior? = some .nothing) : t.tag.isChildless = true := by
    unfold Tag.headInterior? at hinterior
    split at hinterior
    all_goals first
      | (cases hinterior; done)
      | (rename_i htag; rw [htag] at hvoid ⊢; first | rfl | cases hvoid)
  cases h with
  | head hinterior haround =>
      refine .inl ⟨hhead hinterior, .inr ?_⟩
      rcases haround with htemplate | ⟨-, htag⟩ | ⟨-, htag | htag⟩
      · exact htemplate
      all_goals
        rw [htag] at hinterior
        cases hinterior
  | flow hplace _ hbody =>
      refine .inl ⟨?_, .inl hplace⟩
      have hno {ends : Bool} {i : Interior} (hi : i ≠ .nothing) :
          i.unless ends ≠ some .nothing := fun heq => hi (Interior.unless_eq_some_iff.mp heq).2
      unfold Mode.bodyInterior? at hbody
      cases hgroup : t.tag.startGroup with
      | headContent =>
          simp only [hgroup] at hbody
          exact hhead hbody
      | inlineVoid | input | belonging | rule =>
          clear hbody
          revert hgroup hvoid
          cases t.tag
          all_goals
            intro hvoid hgroup
            first | rfl | (cases hvoid; done) | cases hgroup
      | _ =>
          simp only [hgroup] at hbody
          first
          | exact absurd hbody (hno (by simp))
          | simp at hbody
  | hidden htag | column htag | rule htag =>
      rw [htag] at hvoid
      cases hvoid
  | form htag haround hnone _ => exact .inr ⟨haround, htag, hnone⟩

/-- The text of an element is read up to its end tag, behind which the builder rests. -/
structure Builder.RestsBehind (f : Level) (levels : List Level) (inner : Forest) (mode : Mode)
    (b : Builder) : Prop extends Spans (f :: levels) inner b where
  mode_eq : b.mode = .text
  html_eq : f.vocabulary = .html
  fosters_eq : b.fostering = false
  rests : Rests levels (f.wrap inner) mode
    { b with stack := levels.map Level.opened, mode := b.returnMode, dropsNewline := false }

namespace Builder.Rests

variable {f g : Level} {levels outer : List Level} {inner : Forest} {mode : Mode}
  {b : Builder} {t : StartTag}

/-! ## Elements without content -/

theorem addEmpty_eq (h : Spans (g :: outer) inner b)
    (hhtml : (path (g :: outer)).vocabularyOf t = .html) (around : Mode) :
    b.addEmpty t =
      { b with
        tree := Level.nest (g :: outer) ((opening b (g :: outer) t inner around).wrap .empty)
        nextId := b.nextId + 1 } := by
  rw [Builder.addEmpty, openElement_eq h hhtml around, Builder.close, Builder.onStack,
    List.map_cons, List.tail_cons, ← h.stack_eq]
  rfl

theorem addEmpty (h : Rests (g :: outer) inner mode b)
    (hhtml : (path (g :: outer)).vocabularyOf t = .html) :
    Rests (g :: outer) ((opening b (g :: outer) t inner mode).wrap .empty) mode (b.addEmpty t) := by
  rw [addEmpty_eq h.toSpans hhtml mode]
  exact { h with tree_eq := rfl, id_lt := fun k hk => Nat.lt_succ_of_lt (h.id_lt k hk) }

/-- The start tag of an element of running content that holds nothing. -/
theorem bodyStart_nothing (h : Rests (g :: outer) inner mode b)
    (hhtml : (path (g :: outer)).vocabularyOf t = .html)
    (hbody : mode.bodyInterior? (path (g :: outer)) t.tag = some .nothing) :
    b.RestsAfter (g :: outer) ((opening b (g :: outer) t inner mode).wrap .empty) mode false
      (b.bodyStart t) := by
  have hadded := h.addEmpty hhtml
  have hfostering : (b.addEmpty t).fostering = b.fostering := by
    rw [addEmpty_eq h.toSpans hhtml mode]
  have hno {ends : Bool} {i : Interior} (hi : i ≠ .nothing) :
      i.unless ends ≠ some .nothing := fun heq => hi (Interior.unless_eq_some_iff.mp heq).2
  unfold Mode.bodyInterior? at hbody
  unfold Builder.bodyStart
  cases hgroup : t.tag.startGroup with
  | headContent =>
      simp only [hgroup] at hbody ⊢
      rw [Builder.inHeadRule_nothing hbody]
      exact hadded.after hfostering false
  | inlineVoid =>
      simp only [h.reopenFormatting_eq]
      exact hadded.forbidFrames.after hfostering false
  | input =>
      simp only [h.reopenFormatting_eq]
      split
      · exact hadded.after hfostering false
      · exact hadded.forbidFrames.after hfostering false
  | belonging => exact hadded.after hfostering false
  | rule =>
      simp only [hgroup] at hbody ⊢
      rw [h.closeParagraph_eq (Interior.unless_eq_some_iff.mp hbody).1]
      exact hadded.forbidFrames.after hfostering false
  | _ =>
      simp only [hgroup] at hbody
      first
      | exact absurd hbody (hno (by simp))
      | simp at hbody

/-- An element without content, other than a form between the parts of a table. -/
theorem adds (h : Rests (g :: outer) inner mode b) (hfostering : b.fostering = false)
    (hforeign : (path (g :: outer)).isForeignTo t = false)
    (hinterior : mode.interior? (path (g :: outer)) t = some .nothing)
    (hform : mode.isTable = true → t.tag ≠ .form) :
    b.RestsAfter (g :: outer) ((opening b (g :: outer) t inner mode).wrap .empty) mode false
      (b.takeOnce (.startTag t)) := by
  have hholds := Mode.holdsNone_of_interior? hforeign (by simp) hinterior
  have hhtml := hholds.vocabularyOf_eq hforeign (by simp)
  have hadded : b.RestsAfter (g :: outer) ((opening b (g :: outer) t inner mode).wrap .empty) mode
      false (b.addEmpty t).done := by
    refine (h.addEmpty hhtml).after ?_ false
    rw [addEmpty_eq h.toSpans hhtml mode]
  rw [Builder.takeOnce, h.isForeign_eq, hforeign]
  simp only [Bool.false_eq_true, if_false]
  cases hholds with
  | head hhead haround =>
      rw [Builder.modeRule_head h.plain_mode_eq haround hhead, Builder.inHeadRule_nothing hhead]
      exact hadded
  | flow hplace htoken hbody =>
      refine RestsAfter.of_inBodyRule h hfostering hplace htoken fun hready hnext _ => ?_
      have hopened := hready.bodyStart_nothing hhtml hbody
      rw [opening_eq hnext] at hopened
      exact hopened
  | hidden htag haround hhidden _ =>
      have hmode := h.mode_eq (by rintro rfl; cases haround)
      rw [Builder.modeRule_inTable hmode haround (.inl htag)]
      simp only [Builder.inTableRule.eq_def, htag, hhidden, if_true]
      exact hadded
  | form htag haround => exact absurd htag (hform haround)
  | column htag haround _ =>
      cases haround
      simp only [Builder.modeRule, h.mode_eq (by rintro ⟨⟩), Builder.inColumnGroupRule.eq_def, htag]
      exact hadded
  | rule htag haround hends _ =>
      cases haround
      obtain ⟨hoption, hgroup⟩ : (path (g :: outer)).currentIs (·.is .option) = false ∧
          (path (g :: outer)).currentIs (·.is .optgroup) = false := Bool.or_eq_false_iff.mp hends
      rw [modeRule_inSelect h.plain_mode_eq (by simp only [Mode.handsOn, htag])]
      simp only [Builder.inSelectRule.eq_def, htag, h.closeIf_eq hoption, h.closeIf_eq hgroup]
      exact hadded

/-! ## End tags that mean nothing -/

/-- An end tag read inside an element outside plain markup is left to the rules of plain markup,
if it ends no such element. Right in a body there might be no other rules left. -/
theorem foreignEnd_go_eq {modes : List Mode} (hchain : Level.Chain levels modes mode)
    (b : Builder) {tag : Tag} (hnone : (path levels).endsForeign tag = false) :
    Builder.foreignEnd.go b tag (levels.map Level.opened) = b.modeRule (.endTag tag) ∨
      (mode = .inBody ∧ Builder.foreignEnd.go b tag (levels.map Level.opened) = b.done) := by
  induction hchain with
  | root => exact .inr ⟨rfl, rfl⟩
  | @template f outer modes rules houter htemplate _ ih =>
      have hlast : (outer.map Level.opened).isEmpty = false := by simpa using houter.ne_nil
      have hhtml : (f.opened.vocabulary == .html) = true := by
        rw [OpenElement.is, Bool.and_eq_true] at htemplate
        exact htemplate.1
      left
      rw [List.map_cons, Builder.foreignEnd.go, hlast, hhtml]
      rfl
  | @enter f outer modes mode houter hvocabulary hinterior _ ih =>
      have hlast : (outer.map Level.opened).isEmpty = false := by simpa using houter.ne_nil
      by_cases hhtml : f.vocabulary = .html
      · left
        have hvocabulary' : (f.opened.vocabulary == .html) = true := beq_iff_eq.mpr hhtml
        rw [List.map_cons, Builder.foreignEnd.go, hlast, hvocabulary']
        rfl
      · obtain ⟨rfl, -⟩ := Mode.foreign_cases (hvocabulary ▸ hhtml) hinterior
        have hother : (f.opened.vocabulary == .html) = false := beq_eq_false_iff_ne.mpr hhtml
        have hother' : (f.shell.vocabulary != .html) = true := bne_iff_ne.mpr hhtml
        have hshells : (path (f :: outer)).takeWhile (fun e => e.vocabulary != .html) =
            f.shell :: (path outer).takeWhile fun e => e.vocabulary != .html :=
          List.takeWhile_cons_of_pos hother'
        rw [Stack.endsForeign, hshells, List.any_cons, Bool.or_eq_false_iff] at hnone
        have htag : f.opened.tag ≠ tag := beq_eq_false_iff_ne.mp hnone.1
        rw [List.map_cons, Builder.foreignEnd.go, hlast, hother]
        simp only [Bool.false_eq_true, if_false, htag]
        exact ih hnone.2

/-- An end tag that ends nothing outside plain markup. -/
theorem takeOnce_endTag_eq {b : Builder} {modes : List Mode}
    (hchain : Level.Chain levels modes mode) (hstack : b.stack = levels.map Level.opened)
    {tag : Tag} (htag : tag ≠ .br ∧ tag ≠ .p) (hnone : (path levels).endsForeign tag = false) :
    b.takeOnce (.endTag tag) = b.modeRule (.endTag tag) ∨
      (mode = .inBody ∧ b.takeOnce (.endTag tag) = b.done) := by
  obtain ⟨f, outer, rfl⟩ := List.exists_cons_of_ne_nil hchain.ne_nil
  have hcurrent : b.current = f.opened := by
    rw [Builder.current, hstack]
    rfl
  by_cases hhtml : f.vocabulary = .html
  · exact .inl (takeOnce_eq (by rw [hcurrent]; exact hhtml) _)
  · have hother : (f.opened.vocabulary == .html) = false := beq_eq_false_iff_ne.mpr hhtml
    have hforeign : b.isForeign (.endTag tag) = true := by
      unfold Builder.isForeign
      dsimp only
      rw [hcurrent, hother]
      rfl
    have hgo := foreignEnd_go_eq hchain b hnone
    have hend : b.foreignRule (.endTag tag) =
        Builder.foreignEnd.go b tag ((f :: outer).map Level.opened) := by
      unfold Builder.foreignRule
      simp only [htag.1, htag.2, decide_false, Bool.or_self, Bool.false_eq_true, if_false]
      rw [Builder.foreignEnd, hstack, List.map_cons, Builder.foreignEnd.go, hother]
      rfl
    rw [Builder.takeOnce, hforeign, if_pos rfl, hend]
    exact hgo

/-- Elements that hold nothing are no levels. -/
theorem opened_is_isChildless {modes : List Mode} (hchain : Level.Chain levels modes mode)
    {tag : Tag} (htag : tag.isChildless = true) : ∀ f ∈ levels, f.opened.is tag = false := by
  induction hchain with
  | root =>
      intro f hf
      rw [List.mem_singleton.mp hf]
      cases tag
      all_goals first | rfl | cases htag
  | @template f outer _ _ _ htemplate _ ih =>
      intro k hk
      rcases List.mem_cons.mp hk with rfl | hold
      · rw [OpenElement.is, Bool.and_eq_true, beq_iff_eq, beq_iff_eq] at htemplate
        rw [OpenElement.is, htemplate.1, htemplate.2]
        cases tag
        all_goals first | rfl | cases htag
      · exact ih k hold
  | @enter f outer _ _ _ hvocabulary hinterior _ ih =>
      intro k hk
      rcases List.mem_cons.mp hk with rfl | hold
      · by_cases hhtml : k.vocabulary = .html
        · rw [opened_is hhtml, beq_eq_false_iff_ne]
          intro heq
          rw [← heq] at htag
          have hno : k.start.tag.startGroup.isFlow = false ∧ k.start.tag.isCell = false := by
            revert htag
            cases k.start.tag
            all_goals
              intro htag
              first | (cases htag; done) | exact ⟨rfl, rfl⟩
          cases Mode.holds_of_interior? (hvocabulary ▸ hhtml) hinterior with
          | flow _ hflow _ _ =>
              rw [hno.1] at hflow
              cases hflow
          | cell hcell _ _ =>
              rw [hno.2] at hcell
              cases hcell
          | rows hrows _ _ =>
              rcases hrows with heq | heq | heq
              all_goals
                rw [heq] at htag
                cases htag
          | table heq _ _ | caption heq _ _ | columns heq _ _ | row heq _ _ | select heq _
          | template heq _ | option heq _ _ | options heq _ _ =>
              rw [heq] at htag
              cases htag
        · simp [OpenElement.is, opened, hhtml]
      · exact ih k hold

/-- The end tag of an element that holds nothing is ignored. -/
theorem ignores (h : Rests levels inner mode b) (hfostering : b.fostering = false) {tag : Tag}
    (htag : tag.isChildless = true) (hplace : mode.flows (path levels) = true ∨ mode = .inTemplate)
    (hnone : (path levels).endsForeign tag = false) :
    b.RestsAfter levels inner mode false (b.takeOnce (.endTag tag)) := by
  have hordinary : (tag ≠ .br ∧ tag ≠ .p) ∧ tag.endGroup = .ordinary ∧ tag ≠ .template ∧
      mode.handsOn (.endTag tag) = true := by
    cases tag
    all_goals first
      | (cases htag; done)
      | exact ⟨⟨by rintro ⟨⟩, by rintro ⟨⟩⟩, rfl, by rintro ⟨⟩, rfl⟩
  have hstays : b.RestsAfter levels inner mode false b.done := h.after rfl false
  rcases takeOnce_endTag_eq h.chain h.stack_eq hordinary.1 hnone with hrule | ⟨-, hrule⟩
  · rw [hrule]
    rcases hplace with hplace | rfl
    · refine RestsAfter.of_inBodyRule h hfostering hplace hordinary.2.2.2
        fun {b₁} hready _ _ => ?_
      have hopen := opened_is_isChildless hready.chain htag
      have hgo (levels : List Level) (hnone : ∀ f ∈ levels, f.opened.is tag = false) :
          Builder.endElement.go tag (levels.map Level.opened) = none := by
        induction levels with
        | nil => rfl
        | cons f outer ih =>
            rw [List.map_cons, Builder.endElement.go, hnone f (by simp),
              ih fun k hk => hnone k (by simp [hk]), ite_self]
            rfl
      have hend : b₁.endElement tag = b₁ := by
        rw [Builder.endElement, hready.stack_eq, hgo levels hopen]
      show b₁.RestsAfter levels inner mode false (b₁.bodyEnd tag)
      rw [Builder.bodyEnd, hordinary.2.1]
      simp only [hend]
      exact hready.after rfl false
    · rw [Builder.modeRule, h.mode_eq (by rintro ⟨⟩)]
      show b.RestsAfter _ _ _ _ (b.inTemplateRule (.endTag tag))
      simp only [Builder.inTemplateRule.eq_def, hordinary.2.2.1, if_false]
      exact hstays
  · rw [hrule]
    exact hstays

/-- Between the parts of a table a form holds nothing. Its start tag remembers it all the same,
and only its end tag forgets it. -/
theorem takeOnce_tableForm (h : Rests (g :: outer) inner mode b)
    (hhtml : (path (g :: outer)).vocabularyOf t = .html) (htable : mode.isTable = true)
    (htag : t.tag = .form)
    (hnone : ((path (g :: outer)).any (·.is .form) || (path (g :: outer)).inTemplate) = false) :
    b.takeOnce (.startTag t) = ({ b.addEmpty t with form := some b.nextId }, .done) := by
  obtain ⟨hforms, htemplate⟩ := Bool.or_eq_false_iff.mp hnone
  have hmode := h.mode_eq (by rintro rfl; cases htable)
  have hform : b.form = none := h.form_eq.trans (form?_eq_none hforms)
  have hid : (b.openElement t).current.id = b.nextId := by
    rw [openElement_eq h.toSpans hhtml mode]
    rfl
  rw [Builder.takeOnce, h.isForeign_eq, (Stack.vocabularyOf_eq_html_iff.mp hhtml).1]
  simp only [Bool.false_eq_true, if_false]
  rw [Builder.modeRule_inTable hmode htable (.inr (.inl htag))]
  simp only [Builder.inTableRule.eq_def, htag, hform, h.inTemplate_eq, htemplate, Option.isNone_none,
    Bool.not_false, Bool.and_self, if_true, hid]
  rfl

/-- A form that is remembered though it is not open is forgotten at its end tag. -/
theorem releases (h : Rests levels inner mode b) (hfostering : b.fostering = false)
    (htable : mode.isTable = true) (hform : b.form = none) {id : Nat}
    (hfresh : ∀ f ∈ levels, f.id ≠ id) (htemplate : (path levels).inTemplate = false)
    (hnone : (path levels).endsForeign .form = false) :
    b.RestsAfter levels inner mode false
      (({ b with form := some id } : Builder).takeOnce (.endTag .form)) := by
  have hmode : ({ b with form := some id } : Builder).mode = mode :=
    h.mode_eq (by rintro rfl; cases htable)
  have hscope : b.stack.hasInScope .content (fun e => e.id == id) = false := by
    rw [h.stack_eq]
    clear * - hfresh
    induction levels with
    | nil => rfl
    | cons f outer ih =>
        rw [List.map_cons, Stack.hasInScope, ih fun k hk => hfresh k (by simp [hk]), Bool.and_false,
          Bool.or_false]
        exact beq_eq_false_iff_ne.mpr (hfresh f (by simp))
  have hend : ({ b with form := some id } : Builder).modeRule (.endTag .form) = b.done := by
    rw [modeRule_of_handsOn hmode (by rw [htable, Bool.or_true]) rfl]
    have hrunning : mode.isRunning = false := by
      revert htable
      cases mode
      all_goals
        intro htable
        first | rfl | cases htable
    have hin : ({ b with form := some id, fostering := true } : Builder).stack.inTemplate = false :=
      h.inTemplate_eq.trans htemplate
    rw [hrunning]
    show ({ (Builder.endForm { b with form := some id, fostering := true }) with
      fostering := false }, Next.done) = _
    rw [Builder.endForm, hin]
    simp only [Bool.false_eq_true, if_false, hscope]
    rw [← hform, ← hfostering]
    rfl
  have hother : Tag.form ≠ .br ∧ Tag.form ≠ .p := by decide
  rcases takeOnce_endTag_eq (b := { b with form := some id }) h.chain h.stack_eq hother hnone
    with hrule | ⟨hbody, -⟩
  · rw [hrule, hend]
    exact h.after rfl false
  · rw [hbody] at htable
    cases htable

/-! ## The text of an element -/

theorem openText (h : Rests (g :: outer) inner mode b)
    (hhtml : (path (g :: outer)).vocabularyOf t = .html) (frames line : Bool) :
    RestsBehind (opening b (g :: outer) t inner mode) (g :: outer) .empty mode
      { ({ b with framesAllowed := frames, dropsNewline := line } : Builder).openElement t with
        returnMode := b.mode, mode := .text, fostering := false } := by
  have hadded := h.addEmpty hhtml
  have hfresh : b.nextId ∉ (g :: outer).map Level.id := by
    intro hmem
    obtain ⟨k, hk, heq⟩ := List.mem_map.mp hmem
    exact absurd (h.id_lt k hk) (by omega)
  have hready : Spans (g :: outer) inner
      { b with framesAllowed := frames, dropsNewline := line } := { h.toSpans with }
  rw [addEmpty_eq h.toSpans hhtml mode] at hadded
  rw [openElement_eq hready hhtml mode]
  exact ⟨⟨rfl, rfl, nofun, List.nodup_cons.mpr ⟨hfresh, h.nodup_ids⟩⟩, rfl, hhtml, rfl,
    { hadded with stack_eq := rfl, fostering_eq := nofun, dropsNewline_eq := rfl }⟩

/-- The start tag of an element of running content that holds text. -/
theorem bodyStart_text (h : Rests (g :: outer) inner mode b)
    (hhtml : (path (g :: outer)).vocabularyOf t = .html) {content : Lexer.Content}
    (hbody : mode.bodyInterior? (path (g :: outer)) t.tag = some (.text content)) :
    ∃ b', b.bodyStart t = (b', .read content) ∧
      RestsBehind (opening b (g :: outer) t inner mode) (g :: outer) .empty mode
        { b' with fostering := false } ∧
      b'.fostering = b.fostering ∧ (b'.dropsNewline = true → t.tag = .textarea) := by
  have hopens (frames line : Bool) (htextarea : line = true → t.tag = .textarea) :
      ∃ b', ({ b with framesAllowed := frames, dropsNewline := line } : Builder).openText t content =
          (b', .read content) ∧
        RestsBehind (opening b (g :: outer) t inner mode) (g :: outer) .empty mode
          { b' with fostering := false } ∧
        b'.fostering = b.fostering ∧ (b'.dropsNewline = true → t.tag = .textarea) := by
    have hready : Spans (g :: outer) inner
        { b with framesAllowed := frames, dropsNewline := line } := { h.toSpans with }
    refine ⟨_, rfl, h.openText hhtml frames line, ?_⟩
    rw [openElement_eq hready hhtml mode]
    exact ⟨rfl, htextarea⟩
  have hplain := hopens b.framesAllowed b.dropsNewline (by simp [h.dropsNewline_eq])
  have hforbids := hopens false b.dropsNewline (by simp [h.dropsNewline_eq])
  unfold Mode.bodyInterior? at hbody
  unfold Builder.bodyStart
  cases hgroup : t.tag.startGroup with
  | headContent =>
      simp only [hgroup] at hbody ⊢
      rw [Builder.inHeadRule_text hbody]
      exact hplain
  | textarea =>
      have htag : t.tag = .textarea := by
        revert hgroup
        cases t.tag
        all_goals
          intro hgroup
          first | rfl | cases hgroup
      simp only [hgroup] at hbody ⊢
      cases hbody
      exact hopens false true fun _ => htag
  | listingText =>
      simp only [hgroup] at hbody ⊢
      obtain ⟨hparagraph, hcontent⟩ := Interior.unless_eq_some_iff.mp hbody
      cases hcontent
      rw [h.closeParagraph_eq hparagraph, h.reopenFormatting_eq]
      exact hforbids
  | frame =>
      simp only [hgroup] at hbody ⊢
      cases hbody
      exact hforbids
  | hiddenText =>
      simp only [hgroup] at hbody ⊢
      cases hbody
      exact hplain
  | _ =>
      simp only [hgroup] at hbody
      first
      | exact absurd (Interior.unless_eq_some_iff.mp hbody).2 (by simp)
      | simp at hbody

/-- The start tag of an element that holds text. -/
theorem opens (h : Rests (g :: outer) inner mode b) (hfostering : b.fostering = false)
    (hforeign : (path (g :: outer)).isForeignTo t = false) {content : Lexer.Content}
    (hinterior : mode.interior? (path (g :: outer)) t = some (.text content)) :
    ∃ b', b.takeOnce (.startTag t) = (b', .read content) ∧
      RestsBehind (opening b (g :: outer) t inner mode) (g :: outer) .empty mode b' ∧
      (b'.dropsNewline = true → t.tag = .textarea) := by
  have hholds := Mode.holdsNone_of_interior? hforeign (by simp) hinterior
  have hhtml := hholds.vocabularyOf_eq hforeign (by simp)
  rw [Builder.takeOnce, h.isForeign_eq, hforeign]
  simp only [Bool.false_eq_true, if_false]
  cases hholds with
  | head hhead haround =>
      rw [Builder.modeRule_head h.plain_mode_eq haround hhead, Builder.inHeadRule_text hhead]
      refine ⟨_, rfl, ?_, ?_⟩
      · have hopened := h.openText hhtml b.framesAllowed b.dropsNewline
        rw [← hfostering] at hopened
        rw [openElement_eq h.toSpans hhtml mode] at hopened ⊢
        exact hopened
      · rw [openElement_eq h.toSpans hhtml mode]
        intro hline
        rw [h.dropsNewline_eq] at hline
        cases hline
  | flow hplace htoken hbody =>
      obtain ⟨b₁, hready, hnext, -, hcases⟩ := h.exists_inBodyRule hfostering hplace htoken
      obtain ⟨b', hopen, hrests, hkept, hline⟩ := hready.bodyStart_text hhtml hbody
      rw [opening_eq hnext] at hrests
      have hbodyRule : b₁.inBodyRule (.startTag t) = (b', .read content) := hopen
      rw [hbodyRule] at hcases
      rcases hcases with ⟨hsame, hrule⟩ | hrule
      · have hclear : ({ b' with fostering := false } : Builder) = b' := by
          rw [← hkept.trans hsame]
        exact ⟨b', hrule, hclear ▸ hrests, hline⟩
      · exact ⟨_, hrule, hrests, hline⟩
  | hidden _ _ _ hnothing | form _ _ _ hnothing | column _ _ hnothing | rule _ _ _ hnothing =>
      cases hnothing

end Builder.Rests

namespace Builder.RestsBehind

variable {f : Level} {levels : List Level} {inner : Forest} {mode : Mode} {b : Builder}

/-- A character belongs to the text. -/
theorem takeOnce_char (h : RestsBehind f levels inner mode b) (c : Char) :
    ∃ b', b.takeOnce (.char c) = (b', .done) ∧ RestsBehind f levels (inner.pushChar c) mode b' ∧
      b'.dropsNewline = b.dropsNewline := by
  have hcurrent : b.current.vocabulary = .html := by rw [h.current_eq]; exact h.html_eq
  refine ⟨b.addChar c, ?_, ?_, ?_⟩
  · rw [takeOnce_eq hcurrent, Builder.modeRule, h.mode_eq]
    rfl
  · rw [Builder.addChar, h.add_eq]
    exact ⟨⟨rfl, h.stack_eq, h.fostering_eq, h.nodup_ids⟩, h.mode_eq, h.html_eq, h.fosters_eq,
      { h.rests with tree_eq := rfl }⟩
  · rw [Builder.addChar, h.add_eq]

/-- The end tag ends the text. -/
theorem takeOnce_endTag (h : RestsBehind f levels inner mode b) (hline : b.dropsNewline = false) :
    ∃ b', b.takeOnce (.endTag f.start.tag) =
        (b', if f.start.tag = .script then .scriptEnded else .done) ∧
      b'.Rests levels (f.wrap inner) mode ∧ b'.fostering = false := by
  have hcurrent : b.current.vocabulary = .html := by rw [h.current_eq]; exact h.html_eq
  refine ⟨b.close.setMode b.returnMode, ?_, ?_, ?_⟩
  · rw [takeOnce_eq hcurrent, Builder.modeRule, h.mode_eq]
    show (if f.start.tag = .script then _ else _) = _
    split <;> rfl
  · rw [h.close_eq]
    exact { h.rests with dropsNewline_eq := hline }
  · rw [h.close_eq]
    exact h.fosters_eq

end Builder.RestsBehind

end Letterpress
