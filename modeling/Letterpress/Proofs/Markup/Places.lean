/-
# Where start tags open elements

`Mode.interior?` decides by the rules of the reader what may stand in an element. Here
its answers are turned round: which elements there are that hold nodes, each with the
rules around it, what it asks of the path, and the rules inside (`Mode.Holds`). What a
start tag and an end tag do can then be said element by element.
-/

import Letterpress.Proofs.Markup.Fitting

namespace Letterpress

/-- Elements whose content is read by the rules around them, in the same vocabulary. -/
def StartGroup.isFlow : StartGroup → Bool
  | .block | .heading | .preformatted | .form | .listItem | .definition | .button | .anchor
  | .formatting | .nobr | .bounded | .option | .rubyBase | .rubyText | .ordinary => true
  | _ => false

/-- Groups with one member. -/
theorem Tag.eq_of_startGroup (tag : Tag) :
    (tag.startGroup = .table → tag = .table) ∧ (tag.startGroup = .select → tag = .select) ∧
      (tag.startGroup = .math → tag = .math) ∧ (tag.startGroup = .svg → tag = .svg) := by
  cases tag
  all_goals refine ⟨?_, ?_, ?_, ?_⟩
  all_goals
    intro h
    first | rfl | cases h

theorem Interior.unless_eq_some_iff {i j : Interior} {ends : Bool} :
    i.unless ends = some j ↔ ends = false ∧ i = j := by
  cases ends <;> simp [Interior.unless]

theorem Tag.headInterior?_eq_nodes {tag : Tag} {inside : Mode}
    (h : tag.headInterior? = some (.nodes inside)) : tag = .template ∧ inside = .inTemplate := by
  unfold headInterior? at h
  split at h
  all_goals first
    | exact ⟨rfl, (Interior.nodes.inj (Option.some.inj h)).symm⟩
    | cases h

namespace Stack

variable {path : Stack} {t : StartTag}

theorem isForeignTo_eq_false (hhtml : (Builder.inside path).current.vocabulary = .html) :
    path.isForeignTo t = false := if_pos (beq_iff_eq.mpr hhtml)

theorem vocabularyOf_eq_html_iff : path.vocabularyOf t = .html ↔
    path.isForeignTo t = false ∧ t.tag ≠ .math ∧ t.tag ≠ .svg := by
  unfold vocabularyOf
  split
  · rename_i hforeign
    constructor
    · intro hhtml
      rw [isForeignTo_eq_false hhtml] at hforeign
      cases hforeign
    · intro h
      rw [h.1] at hforeign
      cases hforeign
  · rename_i hforeign
    rw [Bool.not_eq_true] at hforeign
    split
    case h_1 htag => simp [htag]
    case h_2 htag => simp [htag]
    case h_3 hmath hsvg => exact ⟨fun _ => ⟨hforeign, hmath, hsvg⟩, fun _ => rfl⟩

end Stack

namespace Mode

/-- The rules of running content. -/
def isRunning : Mode → Bool
  | .inBody | .inCell | .inCaption => true
  | _ => false

/-- Whether running content may stand there. -/
def flows (mode : Mode) (path : Stack) : Bool :=
  mode.isRunning || (mode.isTable && !path.atTablePart)

/-- Whether the rules leave a tag to those of running content. -/
def handsOn (mode : Mode) : Token → Bool
  | .startTag t =>
    match t.tag with
    | .caption | .col | .colgroup | .tbody | .td | .tfoot | .th | .thead | .tr => false
    | .table | .style | .script | .template | .form => mode.isRunning
    | .input => mode.isRunning || !Builder.isHidden t
    | _ => true
  | .endTag tag =>
    match tag with
    | .body | .caption | .col | .colgroup | .html | .table | .tbody | .td | .template | .tfoot
    | .th | .thead | .tr => false
    | _ => true
  | _ => false

variable {around inside : Mode} {path : Stack} {tag : Tag} {t : StartTag}

theorem bodyInterior?_cases (h : around.bodyInterior? path tag = some (.nodes inside)) :
    (tag.startGroup.isFlow = true ∧ inside = around) ∨
      (tag = .table ∧ path.inParagraph = false ∧ inside = .inTable) ∨
      (tag = .select ∧ inside = .inSelect) ∨ (tag = .template ∧ inside = .inTemplate) ∨
      (tag = .math ∧ inside = around) ∨ (tag = .svg ∧ inside = around) := by
  obtain ⟨htable, hselect, hmath, hsvg⟩ := tag.eq_of_startGroup
  have hnodes {ends : Bool} (h : (Interior.nodes around).unless ends = some (.nodes inside)) :
      inside = around :=
    (Interior.nodes.inj (Interior.unless_eq_some_iff.mp h).2).symm
  have hflow {group : StartGroup} (hgroup : tag.startGroup = group) (hflows : group.isFlow = true)
      (hinside : inside = around) : tag.startGroup.isFlow = true ∧ inside = around :=
    ⟨hgroup ▸ hflows, hinside⟩
  unfold bodyInterior? at h
  split at h
  case h_1 => exact .inr (.inr (.inr (.inl (Tag.headInterior?_eq_nodes h))))
  case h_19 hgroup =>
    obtain ⟨hparagraph, heq⟩ := Interior.unless_eq_some_iff.mp h
    cases heq
    exact .inr (.inl ⟨htable hgroup, hparagraph, rfl⟩)
  case h_20 hgroup =>
    cases h
    exact .inr (.inr (.inl ⟨hselect hgroup, rfl⟩))
  case h_13 hgroup =>
    cases h
    exact .inr (.inr (.inr (.inr (.inl ⟨hmath hgroup, rfl⟩))))
  case h_14 hgroup =>
    cases h
    exact .inr (.inr (.inr (.inr (.inr ⟨hsvg hgroup, rfl⟩))))
  case h_11 hgroup | h_12 hgroup | h_15 hgroup =>
    cases h
    exact .inl (hflow hgroup rfl rfl)
  case h_24 | h_26 => exact nomatch (Interior.unless_eq_some_iff.mp h).2
  all_goals first
    | cases h
    | exact .inl (hflow ‹_› rfl (hnodes h))

/-- The elements of plain markup that hold nodes, with the rules inside. -/
inductive Holds (around : Mode) (path : Stack) (tag : Tag) : Mode → Prop
  | flow (hplace : around.flows path = true) (hflow : tag.startGroup.isFlow = true)
      (hform : tag = .form → around.isRunning = true)
      (hinterior : around.bodyInterior? path tag = some (.nodes around)) : Holds around path tag around
  | table (htag : tag = .table) (haround : around.isRunning = true)
      (hparagraph : path.inParagraph = false) : Holds around path tag .inTable
  | select (htag : tag = .select) (hplace : around.flows path = true) : Holds around path tag .inSelect
  | template (htag : tag = .template)
      (haround : (around.isRunning || around.isTable || around == .inColumnGroup ||
        around == .inSelect || around == .inTemplate) = true) : Holds around path tag .inTemplate
  | caption (htag : tag = .caption) (haround : around = .inTable)
      (hcurrent : path.currentIs Builder.boundsTable = true) : Holds around path tag .inCaption
  | columns (htag : tag = .colgroup) (haround : around = .inTable)
      (hcurrent : path.currentIs Builder.boundsTable = true) : Holds around path tag .inColumnGroup
  | rows (htag : tag = .tbody ∨ tag = .tfoot ∨ tag = .thead) (haround : around = .inTable)
      (hcurrent : path.currentIs Builder.boundsTable = true) : Holds around path tag .inTableBody
  | row (htag : tag = .tr) (haround : around = .inTableBody)
      (hcurrent : path.currentIs Builder.holdsRows = true) : Holds around path tag .inRow
  | cell (htag : tag.isCell = true) (haround : around = .inRow)
      (hcurrent : path.currentIs Builder.holdsCells = true) : Holds around path tag .inCell
  | option (htag : tag = .option) (haround : around = .inSelect)
      (hcurrent : path.currentIs (·.is .option) = false) : Holds around path tag .inSelect
  | options (htag : tag = .optgroup) (haround : around = .inSelect)
      (hcurrent : path.endsOptions = false) : Holds around path tag .inSelect

theorem holds_of_bodyInterior? (hplace : around.flows path = true)
    (hplain : tag ≠ .math ∧ tag ≠ .svg)
    (hown : tag = .table ∨ tag = .form → around.isRunning = true)
    (h : around.bodyInterior? path tag = some (.nodes inside)) : Holds around path tag inside := by
  rcases bodyInterior?_cases h with ⟨hflow, rfl⟩ | ⟨rfl, hparagraph, rfl⟩ | ⟨rfl, rfl⟩ | ⟨rfl, rfl⟩ |
    ⟨rfl, -⟩ | ⟨rfl, -⟩
  · exact .flow hplace hflow (fun htag => hown (.inr htag)) h
  · exact .table rfl (hown (.inl rfl)) hparagraph
  · exact .select rfl hplace
  · refine .template rfl ?_
    rw [flows, Bool.or_eq_true, Bool.and_eq_true] at hplace
    rcases hplace with hrunning | ⟨htable, -⟩
    · simp [hrunning]
    · simp [htable]
  · exact absurd rfl hplain.1
  · exact absurd rfl hplain.2

theorem holds_of_tableInterior? (haround : around.isTable = true)
    (hplain : t.tag ≠ .math ∧ t.tag ≠ .svg)
    (h : around.tableInterior? path t = some (.nodes inside)) : Holds around path t.tag inside := by
  unfold tableInterior? at h
  split at h
  case h_1 htag | h_2 htag | h_3 htag =>
    obtain ⟨htemplate, rfl⟩ := Tag.headInterior?_eq_nodes h
    exact .template htemplate (by simp [haround])
  case h_4 | h_6 => exact nomatch (Interior.unless_eq_some_iff.mp h).2
  case h_5 => cases h
  case h_7 tag hstyle hscript htemplate hform htable hinput =>
    split at h
    · cases h
    · rename_i hpart
      rw [Bool.not_eq_true] at hpart
      exact holds_of_bodyInterior? (by simp [flows, haround, hpart]) hplain
        (fun hown => absurd hown (not_or.mpr ⟨htable, hform⟩)) h

/-- All that a start tag of plain markup can be that opens an element for nodes and ends
nothing. -/
theorem holds_of_interior? (hhtml : path.vocabularyOf t = .html)
    (h : around.interior? path t = some (.nodes inside)) : Holds around path t.tag inside := by
  obtain ⟨hforeign, hplain⟩ := Stack.vocabularyOf_eq_html_iff.mp hhtml
  have hrunning (hmode : around.isRunning = true)
      (h : around.bodyInterior? path t.tag = some (.nodes inside)) : Holds around path t.tag inside :=
    holds_of_bodyInterior? (by simp [flows, hmode]) hplain (fun _ => hmode) h
  have hcurrent {i : Interior} {p : OpenElement → Bool}
      (h : i.unless (!path.currentIs p) = some (.nodes inside)) :
      path.currentIs p = true ∧ i = .nodes inside := by
    obtain ⟨hends, heq⟩ := Interior.unless_eq_some_iff.mp h
    exact ⟨by simpa using hends, heq⟩
  rw [interior?, if_neg (by simp [hforeign])] at h
  unfold htmlInterior? at h
  split at h
  case h_1 | h_2 | h_3 => exact hrunning rfl h
  case h_4 =>
    split at h
    case h_1 htag =>
      obtain ⟨hplace, heq⟩ := hcurrent h
      cases heq
      exact .caption htag rfl hplace
    case h_2 htag =>
      obtain ⟨hplace, heq⟩ := hcurrent h
      cases heq
      exact .columns htag rfl hplace
    case h_3 htag | h_4 htag | h_5 htag =>
      obtain ⟨hplace, heq⟩ := hcurrent h
      cases heq
      exact .rows (by simp [htag]) rfl hplace
    case h_6 => exact holds_of_tableInterior? rfl hplain h
  case h_5 =>
    split at h
    · rename_i htag
      obtain ⟨hplace, heq⟩ := hcurrent h
      cases heq
      exact .row htag rfl hplace
    · exact holds_of_tableInterior? rfl hplain h
  case h_6 =>
    split at h
    · rename_i htag
      obtain ⟨hplace, heq⟩ := hcurrent h
      cases heq
      exact .cell htag rfl hplace
    · exact holds_of_tableInterior? rfl hplain h
  case h_7 =>
    split at h
    case h_1 => cases h
    case h_2 htag =>
      cases h
      exact .template htag rfl
    case h_3 => cases h
  case h_8 =>
    unfold selectInterior? at h
    split at h
    case h_1 htag =>
      obtain ⟨hoption, heq⟩ := Interior.unless_eq_some_iff.mp h
      cases heq
      exact .option htag rfl hoption
    case h_2 htag =>
      obtain ⟨hoptions, heq⟩ := Interior.unless_eq_some_iff.mp h
      cases heq
      exact .options htag rfl hoptions
    case h_3 => exact nomatch (Interior.unless_eq_some_iff.mp h).2
    case h_4 => cases h
    case h_5 htag =>
      cases h
      exact .template htag rfl
    case h_6 => cases h
  case h_9 =>
    obtain ⟨htag, rfl⟩ := Tag.headInterior?_eq_nodes h
    exact .template htag rfl
  case h_10 => cases h

/-- An element outside plain markup is one inside another such element, or the outermost. -/
theorem foreign_cases (hforeign : path.vocabularyOf t ≠ .html)
    (h : around.interior? path t = some (.nodes inside)) :
    inside = around ∧ ((path.isForeignTo t = true ∧ Builder.breaksForeign t = false) ∨
      (path.isForeignTo t = false ∧ (t.tag = .math ∨ t.tag = .svg) ∧ around.flows path = true)) := by
  cases hin : path.isForeignTo t with
  | true =>
      rw [interior?, if_pos hin] at h
      obtain ⟨hbreaks, heq⟩ := Interior.unless_eq_some_iff.mp h
      exact ⟨(Interior.nodes.inj heq).symm, .inl ⟨rfl, (Bool.or_eq_false_iff.mp hbreaks).1⟩⟩
  | false =>
      have htag : t.tag = .math ∨ t.tag = .svg := by
        by_contra hno
        rw [not_or] at hno
        exact hforeign (Stack.vocabularyOf_eq_html_iff.mpr ⟨hin, hno⟩)
      rw [interior?, if_neg (by simp [hin])] at h
      obtain ⟨tag, attributes, selfClosing⟩ := t
      have hfound : inside = around ∧ around.flows path = true := by
        have htable (hmode : around.isTable = true) (htag : tag = .math ∨ tag = .svg)
            (h : around.tableInterior? path ⟨tag, attributes, selfClosing⟩ =
              some (.nodes inside)) : inside = around ∧ around.flows path = true := by
          have hplace : (if path.atTablePart then none else some (Interior.nodes around)) =
              some (.nodes inside) := by
            rcases htag with rfl | rfl <;> exact h
          split at hplace
          · cases hplace
          · rename_i hpart
            exact ⟨(Interior.nodes.inj (Option.some.inj hplace)).symm, by simp [flows, hmode, hpart]⟩
        cases around
        case inBody | inCell | inCaption =>
          rcases htag with rfl | rfl <;> exact ⟨(Interior.nodes.inj (Option.some.inj h)).symm, rfl⟩
        case inTable | inTableBody | inRow =>
          refine htable rfl htag ?_
          rcases htag with rfl | rfl <;> exact h
        all_goals rcases htag with rfl | rfl <;> cases h
      exact ⟨hfound.1, .inr ⟨rfl, htag, hfound.2⟩⟩

/-- The elements of plain markup that hold no nodes. -/
inductive HoldsNone (around : Mode) (path : Stack) (t : StartTag) (i : Interior) : Prop
  | head (hinterior : t.tag.headInterior? = some i)
      (haround : around = .inTemplate ∨ (around = .inSelect ∧ t.tag = .script) ∨
        (around.isTable = true ∧ (t.tag = .style ∨ t.tag = .script)))
  | flow (hplace : around.flows path = true) (htoken : around.handsOn (.startTag t) = true)
      (hinterior : around.bodyInterior? path t.tag = some i)
  | hidden (htag : t.tag = .input) (haround : around.isTable = true)
      (hhidden : Builder.isHidden t = true) (hnothing : i = .nothing)
  | form (htag : t.tag = .form) (haround : around.isTable = true)
      (hnone : (path.any (·.is .form) || path.inTemplate) = false) (hnothing : i = .nothing)
  | column (htag : t.tag = .col) (haround : around = .inColumnGroup) (hnothing : i = .nothing)
  | rule (htag : t.tag = .hr) (haround : around = .inSelect) (hends : path.endsOptions = false)
      (hnothing : i = .nothing)

/-- All that a start tag of plain markup can be that opens no element for nodes. -/
theorem holdsNone_of_interior? {i : Interior} (hhtml : path.isForeignTo t = false)
    (hnodes : ∀ inside, i ≠ .nodes inside) (h : around.interior? path t = some i) :
    HoldsNone around path t i := by
  have hhead (hmode : around = .inTemplate ∨ (around = .inSelect ∧ t.tag = .script) ∨
      (around.isTable = true ∧ (t.tag = .style ∨ t.tag = .script)))
      (h : t.tag.headInterior? = some i) : HoldsNone around path t i := .head h hmode
  have hflow (hplace : around.flows path = true)
      (hown : t.tag = .table ∨ t.tag = .style ∨ t.tag = .script ∨ t.tag = .template ∨
        t.tag = .form ∨ t.tag = .input → around.handsOn (.startTag t) = true)
      (h : around.bodyInterior? path t.tag = some i) : HoldsNone around path t i := by
    refine .flow hplace ?_ h
    unfold handsOn at hown ⊢
    dsimp only at hown ⊢
    split
    case h_16 => rfl
    case h_10 | h_11 | h_12 | h_13 | h_14 | h_15 => simp_all
    all_goals
      rename_i htag
      rw [htag] at h
      cases h
  have htable (hmode : around.isTable = true) (h : around.tableInterior? path t = some i) :
      HoldsNone around path t i := by
    unfold tableInterior? at h
    split at h
    case h_1 htag => exact hhead (.inr (.inr ⟨hmode, .inl htag⟩)) (htag ▸ h)
    case h_2 htag => exact hhead (.inr (.inr ⟨hmode, .inr htag⟩)) (htag ▸ h)
    case h_3 htag =>
      rw [htag] at h
      exact absurd (Option.some.inj h).symm (hnodes _)
    case h_4 htag =>
      obtain ⟨hnone, hnothing⟩ := Interior.unless_eq_some_iff.mp h
      exact .form htag hmode hnone hnothing.symm
    case h_5 => cases h
    case h_6 htag =>
      obtain ⟨hplace, hnothing⟩ := Interior.unless_eq_some_iff.mp h
      cases hhidden : Builder.isHidden t with
      | true => exact .hidden htag hmode hhidden hnothing.symm
      | false =>
          rw [hhidden, Bool.not_false, Bool.and_true] at hplace
          refine .flow (by simp [flows, hmode, hplace]) ?_ ?_
          · simp [handsOn, htag, hhidden]
          · rw [htag]
            exact hnothing ▸ rfl
    case h_7 hstyle hscript htemplate hform htable hinput =>
      split at h
      · cases h
      · rename_i hpart
        rw [Bool.not_eq_true] at hpart
        refine hflow (by simp [flows, hmode, hpart]) ?_ h
        rintro (htag | htag | htag | htag | htag | htag) <;> contradiction
  rw [interior?, if_neg (by simp [hhtml])] at h
  unfold htmlInterior? at h
  split at h
  case h_1 | h_2 | h_3 =>
    refine hflow rfl ?_ h
    rintro (htag | htag | htag | htag | htag | htag) <;> simp [handsOn, htag, isRunning]
  case h_4 =>
    split at h
    case h_6 => exact htable rfl h
    all_goals exact absurd (Interior.unless_eq_some_iff.mp h).2.symm (hnodes _)
  case h_5 | h_6 =>
    split at h
    · exact absurd (Interior.unless_eq_some_iff.mp h).2.symm (hnodes _)
    · exact htable rfl h
  case h_7 =>
    split at h
    case h_1 htag => exact .column htag rfl (Option.some.inj h).symm
    case h_2 => exact absurd (Option.some.inj h).symm (hnodes _)
    case h_3 => cases h
  case h_8 =>
    unfold selectInterior? at h
    split at h
    case h_1 | h_2 => exact absurd (Interior.unless_eq_some_iff.mp h).2.symm (hnodes _)
    case h_3 htag =>
      obtain ⟨hends, hnothing⟩ := Interior.unless_eq_some_iff.mp h
      exact .rule htag rfl hends hnothing.symm
    case h_4 htag => exact hhead (.inr (.inl ⟨rfl, htag⟩)) (htag ▸ h)
    case h_5 => exact absurd (Option.some.inj h).symm (hnodes _)
    case h_6 => cases h
  case h_9 => exact hhead (.inl rfl) h
  case h_10 => cases h

/-- An element without nodes belongs to plain markup. -/
theorem HoldsNone.vocabularyOf_eq {i : Interior} (h : HoldsNone around path t i)
    (hhtml : path.isForeignTo t = false) (hnodes : ∀ inside, i ≠ .nodes inside) :
    path.vocabularyOf t = .html := by
  refine Stack.vocabularyOf_eq_html_iff.mpr ⟨hhtml, ?_⟩
  cases h with
  | head hinterior _ =>
      constructor
      all_goals
        intro htag
        rw [htag] at hinterior
        cases hinterior
  | flow _ _ hinterior =>
      constructor
      all_goals
        intro htag
        rw [htag] at hinterior
        exact hnodes _ (Option.some.inj hinterior).symm
  | hidden htag | form htag | column htag | rule htag => simp [htag]

/-- Titles and text areas are the elements whose text may hold references. -/
theorem HoldsNone.tag_of_escapable {closer : Tag}
    (h : HoldsNone around path t (.text (.escapable closer))) :
    t.tag = closer ∧ (closer = .title ∨ closer = .textarea) := by
  have hhead (hinterior : t.tag.headInterior? = some (.text (.escapable closer))) :
      t.tag = closer ∧ (closer = .title ∨ closer = .textarea) := by
    unfold Tag.headInterior? at hinterior
    split at hinterior
    case h_6 htag =>
      cases hinterior
      exact ⟨htag, .inl rfl⟩
    all_goals cases hinterior
  cases h with
  | head hinterior => exact hhead hinterior
  | flow _ _ hinterior =>
      cases hgroup : t.tag.startGroup with
      | headContent =>
          simp only [bodyInterior?, hgroup] at hinterior
          exact hhead hinterior
      | textarea =>
          simp only [bodyInterior?, hgroup] at hinterior
          cases hinterior
          refine ⟨?_, .inr rfl⟩
          revert hgroup
          cases t.tag
          all_goals
            intro hgroup
            first | rfl | cases hgroup
      | _ =>
          simp only [bodyInterior?, hgroup] at hinterior
          first
          | cases hinterior
          | exact nomatch (Interior.unless_eq_some_iff.mp hinterior).2
  | hidden _ _ _ hnothing | form _ _ _ hnothing | column _ _ hnothing | rule _ _ _ hnothing =>
      cases hnothing

/-! ## Elements without an end tag -/

theorem bodyInterior?_of_isVoid {i : Interior} (hvoid : tag.isVoid = true)
    (h : around.bodyInterior? path tag = some i) : i = .nothing := by
  cases tag
  all_goals first
    | (cases hvoid; done)
    | (cases h; done)
    | (cases h; rfl)
    | exact (Interior.unless_eq_some_iff.mp h).2.symm

/-- An element without an end tag holds nothing. -/
theorem Holds.isVoid_eq (h : Holds around path tag inside) : tag.isVoid = false := by
  cases h with
  | flow _ _ _ hinterior =>
      rw [← Bool.not_eq_true]
      exact fun hvoid => nomatch bodyInterior?_of_isVoid hvoid hinterior
  | table htag | select htag | template htag | caption htag | columns htag | row htag | option htag
  | options htag => rw [htag]; rfl
  | rows htag => rcases htag with rfl | rfl | rfl <;> rfl
  | cell htag =>
      revert htag
      cases tag
      all_goals
        intro htag
        first | rfl | cases htag

theorem HoldsNone.isVoid_eq {content : Lexer.Content} (h : HoldsNone around path t (.text content)) :
    t.tag.isVoid = false := by
  rw [← Bool.not_eq_true]
  intro hvoid
  cases h with
  | head hinterior =>
      unfold Tag.headInterior? at hinterior
      split at hinterior
      all_goals first
        | (cases hinterior; done)
        | (rename_i htag; rw [htag] at hvoid; cases hvoid)
  | flow _ _ hinterior => exact nomatch bodyInterior?_of_isVoid hvoid hinterior
  | hidden _ _ _ hnothing | form _ _ _ hnothing | column _ _ hnothing | rule _ _ _ hnothing =>
      cases hnothing

/-- What is written between the tags of an element goes with an end tag. -/
theorem isVoid_eq_of_interior? {i : Interior} (hi : i ≠ .nothing)
    (h : around.interior? path t = some i) : t.tag.isVoid = false := by
  cases hforeign : path.isForeignTo t with
  | true =>
      rw [interior?, if_pos hforeign] at h
      exact (Bool.or_eq_false_iff.mp (Interior.unless_eq_some_iff.mp h).1).2
  | false =>
      cases i with
      | nothing => exact absurd rfl hi
      | text content => exact (holdsNone_of_interior? hforeign (by simp) h).isVoid_eq
      | nodes inside =>
          by_cases hplain : t.tag ≠ .math ∧ t.tag ≠ .svg
          · exact (holds_of_interior?
              (Stack.vocabularyOf_eq_html_iff.mpr ⟨hforeign, hplain⟩) h).isVoid_eq
          · rw [not_and_or, not_not, not_not] at hplain
            rcases hplain with htag | htag <;> rw [htag] <;> rfl

end Mode

end Letterpress
