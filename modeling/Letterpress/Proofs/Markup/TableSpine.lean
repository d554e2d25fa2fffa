/-
# Rows of a table on a spine

While rows and cells follow each other in a table, the open elements are a spine of
the tree as in running content; only the rules differ. So a state in a table is a
state that stands, under another mode, and each tag of a table takes one such state
to the next. In a cell, running content is taken as anywhere.

A tag may be handed on from the rules of one part of the table to those of the part
around it; `Builder.Settles` counts how often. Blank text between the parts is kept
back until the tag behind it, and then goes where it stands.
-/

import Letterpress.Proofs.Markup.RoundTrip

namespace Letterpress

namespace Builder

/-! ## Steps under another mode -/

theorem add_setMode (b : Builder) (mode : Mode) (edit : Forest → Forest) :
    (b.setMode mode).add edit = (b.add edit).setMode mode := by
  show (b.setMode mode).editAt (b.placeFor b.current) edit = _
  unfold add editAt
  cases b.placeFor b.current with
  | inside id => rfl
  | beforeTable table instead =>
      dsimp only [setMode]
      cases b.tree.editBefore? table edit <;> rfl

theorem openElement_setMode (b : Builder) (mode : Mode) (t : StartTag) :
    (b.setMode mode).openElement t = (b.openElement t).setMode mode := by
  unfold openElement openIn
  simp only [add_setMode]
  rfl

theorem foldl_addChar_setMode (b : Builder) (mode : Mode) (t : Text) :
    t.foldl addChar (b.setMode mode) = (t.foldl addChar b).setMode mode := by
  induction t generalizing b with
  | nil => rfl
  | cons c t ih => rw [List.foldl_cons, List.foldl_cons, addChar, add_setMode, ih, addChar]

end Builder

/-- The rules between the parts of a table. -/
def Mode.isTable : Mode → Bool
  | .inTable | .inTableBody | .inRow => true
  | _ => false

namespace Builder.Stands

variable {f : Frame} {frames outer : List Frame} {inner : Forest} {ground : Ground}
  {b : Builder} {mode : Mode} {token : Token} {t : Text}

theorem closeTo_eq (h : Stands (f :: outer) inner ground b) {p : OpenElement → Bool}
    (hcurrent : p f.opened = true) : b.closeTo p = b := by
  have hstack : b.stack.closeTo p = b.stack := by
    rw [h.stack_eq, List.map_cons]
    exact List.dropWhile_cons_of_neg (by simp [hcurrent])
  rw [Builder.closeTo, Builder.onStack, hstack]

/-! ## Blank text in a table -/

theorem addChar (h : Stands (f :: outer) inner ground b) (c : Char) :
    Stands (f :: outer) (inner.pushChar c) ground (b.addChar c) :=
  h.add (·.pushChar c)

theorem foldl_addChar_of_text (t : Text) {before : Text} {older : Forest}
    (h : Stands (f :: outer) (.text before older) ground b) :
    Stands (f :: outer) (.text (t.reverse ++ before) older) ground
      (t.foldl Builder.addChar b) := by
  induction t generalizing b before with
  | nil => exact h
  | cons c t ih => simpa using ih (h.addChar c)

theorem foldl_addChar (h : Stands (f :: outer) inner ground b) (hne : t ≠ [])
    (hlast : inner.endsInText = false) :
    Stands (f :: outer) (.text t.reverse inner) ground (t.foldl Builder.addChar b) := by
  obtain ⟨c, t, rfl⟩ := List.exists_cons_of_ne_nil hne
  have hfirst := h.addChar c
  rw [Forest.pushChar_eq hlast] at hfirst
  simpa using hfirst.foldl_addChar_of_text t

/-- The state in which text in a table is kept back. -/
def collecting (b : Builder) (mode : Mode) (t : Text) : Builder :=
  { b with mode := .inTableText, returnMode := mode, tableText := t.reverse }

theorem current_setMode (h : Stands frames inner ground b) (mode : Mode) :
    (b.setMode mode).current.vocabulary = .html := h.current_html

theorem current_collecting (h : Stands frames inner ground b) (mode : Mode) (t : Text) :
    (collecting b mode t).current.vocabulary = .html := h.current_html

theorem take_collecting (h : Stands frames inner ground b) (mode : Mode) (t : Text) (c : Char) :
    (collecting b mode t).take (.char c) = (collecting b mode (t ++ [c]), .done) := by
  have honce : (collecting b mode t).takeOnce (.char c) =
      (collecting b mode (t ++ [c]), .done) := by
    rw [Builder.takeOnce_eq (h.current_collecting mode t)]
    show (({ collecting b mode t with tableText := c :: t.reverse } : Builder), Next.done) = _
    rw [collecting, collecting, List.reverse_append]
    rfl
  exact (Settles.of_done honce).take_eq (by decide) h.dropsNewline_eq ⟨nofun, nofun⟩

theorem take_firstChar (h : Stands (f :: outer) inner .content b) (hmode : mode.isTable = true)
    (hpart : f.tag.isTablePart = true) (c : Char) :
    (b.setMode mode).take (.char c) = (collecting b mode [c], .done) := by
  have hcurrent : (b.setMode mode).stack.currentIs (·.satisfies Tag.isTablePart) = true := by
    rw [Builder.setMode, h.stack_eq]
    exact hpart
  have hrule : (b.setMode mode).modeRule (.char c) = (b.setMode mode).tableChar (.char c) := by
    cases mode
    all_goals first | rfl | cases hmode
  have hempty : ({ b with mode := .inTableText, returnMode := mode } : Builder) =
      collecting b mode [] := by
    rw [collecting, List.reverse_nil, ← h.tableText_eq]
  have honce : (b.setMode mode).takeOnce (.char c) = (collecting b mode [], .again) := by
    rw [Builder.takeOnce_eq (h.current_setMode mode), hrule, Builder.tableChar, hcurrent, ← hempty]
    rfl
  have hcollect : (collecting b mode []).takeOnce (.char c) = (collecting b mode [c], .done) := by
    rw [Builder.takeOnce_eq (h.current_collecting mode [])]
    rfl
  exact (Settles.of_again honce (.of_done hcollect)).take_eq (by decide) h.dropsNewline_eq
    ⟨nofun, nofun⟩

theorem takes_chars_collecting (h : Stands frames inner ground b) (mode : Mode) (t u : Text) :
    (collecting b mode t).Takes (Lexer.chars u) (collecting b mode (t ++ u)) := by
  induction u generalizing t with
  | nil =>
      rw [List.append_nil]
      exact .nil _
  | cons c u ih =>
      have hrest := ih (t ++ [c])
      rw [List.append_assoc] at hrest
      exact .cons (h.take_collecting mode t c) (h.current_collecting mode _) hrest

/-- Blank text goes where it stands once a tag follows it, which is then taken by the same rules
as before. -/
theorem takes_blank_then (h : Stands (f :: outer) inner .content b) (mode : Mode) (token : Token)
    (hmode : mode.isTable = true) (hpart : f.tag.isTablePart = true) (hne : t ≠ [])
    (hblank : t.all isWhite = true) (hlast : inner.endsInText = false)
    (hkeeps : ∀ b : Builder, b.inTableTextRule token = b.placeTableText.again b.returnMode)
    (hkind : token ≠ .flaw ∧ ∀ d, token ≠ .doctype d) :
    ∃ b₁ : Builder, b₁.Stands (f :: outer) (.text t.reverse inner) .content ∧
      ∀ {b' : Builder} {hops : Nat}, (b₁.setMode mode).Settles token hops b' → hops ≤ 15 →
        b'.current.vocabulary = .html →
        (b.setMode mode).Takes (Lexer.chars t ++ [token]) b' := by
  have hreturn : ({ b with returnMode := mode } : Builder).Stands (f :: outer) inner .content :=
    ⟨h.tree_eq, h.stack_eq, h.mode_eq, h.fostering_eq, h.dropsNewline_eq, h.templateModes_eq,
      h.tableText_eq, h.fragment_eq, h.nodup_ids, h.id_lt, h.exists_entries⟩
  refine ⟨t.foldl Builder.addChar { b with returnMode := mode },
    hreturn.foldl_addChar hne hlast, ?_⟩
  intro b' hops hsettles hhops hcurrent
  have hplace : (collecting b mode t).placeTableText =
      (t.foldl Builder.addChar { b with returnMode := mode }).setMode .inTableText := by
    have hempty : ({ collecting b mode t with tableText := [] } : Builder) =
        ({ b with returnMode := mode } : Builder).setMode .inTableText := by
      rw [← h.tableText_eq]
      rfl
    have hback : (collecting b mode t).tableText.reverse = t := List.reverse_reverse t
    rw [Builder.placeTableText]
    simp only [hback, hblank, if_true, hempty, foldl_addChar_setMode]
  have honce : (collecting b mode t).takeOnce token =
      ((t.foldl Builder.addChar { b with returnMode := mode }).setMode mode, .again) := by
    rw [Builder.takeOnce_eq (h.current_collecting mode t)]
    show (collecting b mode t).inTableTextRule token = _
    rw [hkeeps, hplace]
    rfl
  have htake := (Settles.of_again honce hsettles).take_eq (by omega) h.dropsNewline_eq hkind
  obtain ⟨c, u, rfl⟩ := List.exists_cons_of_ne_nil hne
  exact .cons (h.take_firstChar hmode hpart c) (h.current_collecting mode _)
    ((h.takes_chars_collecting mode [c] u).append (.single htake hcurrent))

/-! ## Tags of a table -/

/-- The start tag of a table in running content opens the table. -/
theorem take_tableStart (h : Stands (f :: outer) inner .content b)
    (hnone : ∀ g ∈ f :: outer, g.tag ≠ .p) (attributes : List Attribute) :
    ∃ (i : Nat) (b' : Builder),
      b.take (.startTag ⟨.table, attributes, false⟩) = (b'.setMode .inTable, .done) ∧
      b'.Stands (⟨i, .table, attributes, inner⟩ :: f :: outer) .empty .content := by
  have hopen := (h.openElement ⟨.table, attributes, false⟩).forbidFrames
  refine ⟨b.nextId, _, h.take_eq ⟨nofun, nofun⟩ rfl ?_, hopen⟩
  show (((if b.old then b else b.closeParagraph).openElement _).forbidFrames.setMode _, _) = _
  rw [h.closeParagraph_eq hnone, ite_self]

/-- The start tag of a first row opens a group of rows around it. -/
theorem settles_firstRow (h : Stands (f :: outer) inner .content b) (htable : f.tag = .table)
    (attributes : List Attribute) :
    ∃ (i j : Nat) (b' : Builder),
      (b.setMode .inTable).Settles (.startTag ⟨.tr, attributes, false⟩) 2 (b'.setMode .inRow) ∧
      b'.Stands (⟨j, .tr, attributes, .empty⟩ :: ⟨i, .tbody, [], inner⟩ :: f :: outer)
        .empty .content := by
  have hgroup := h.openElement ⟨.tbody, [], false⟩
  have hrow := hgroup.openElement ⟨.tr, attributes, false⟩
  have hfirst : (b.setMode .inTable).takeOnce (.startTag ⟨.tr, attributes, false⟩) =
      ((b.openElement ⟨.tbody, [], false⟩).setMode .inTableBody, .again) := by
    have hclose : b.closeTo boundsTable = b := h.closeTo_eq (by rw [Frame.opened, htable]; rfl)
    rw [Builder.takeOnce_eq (h.current_setMode _)]
    show (((b.closeTo boundsTable).setMode .inTable).openElement ⟨.tbody, [], false⟩).again
      .inTableBody = _
    rw [hclose, openElement_setMode]
    rfl
  refine ⟨_, _, _, .of_again hfirst (.of_done ?_), hrow⟩
  have hclose := hgroup.closeTo_eq (p := holdsRows) rfl
  rw [Builder.takeOnce_eq (hgroup.current_setMode _)]
  show (((((b.openElement ⟨.tbody, [], false⟩).closeTo holdsRows).setMode
    .inTableBody).openElement ⟨.tr, attributes, false⟩).setMode .inRow, Next.done) = _
  rw [hclose, openElement_setMode]
  rfl

/-- The start tag of a further row. -/
theorem settles_row (h : Stands (f :: outer) inner .content b) (hgroup : f.tag = .tbody)
    (attributes : List Attribute) :
    ∃ (i : Nat) (b' : Builder),
      (b.setMode .inTableBody).Settles (.startTag ⟨.tr, attributes, false⟩) 1
        (b'.setMode .inRow) ∧
      b'.Stands (⟨i, .tr, attributes, inner⟩ :: f :: outer) .empty .content := by
  have hrow := h.openElement ⟨.tr, attributes, false⟩
  refine ⟨_, _, .of_done ?_, hrow⟩
  have hclose : b.closeTo holdsRows = b := h.closeTo_eq (by rw [Frame.opened, hgroup]; rfl)
  rw [Builder.takeOnce_eq (h.current_setMode _)]
  show ((((b.closeTo holdsRows).setMode .inTableBody).openElement _).setMode .inRow,
    Next.done) = _
  rw [hclose, openElement_setMode]
  rfl

/-- The start tag of a cell starts running content behind a marker. -/
theorem settles_cell (h : Stands (f :: outer) inner .content b) (hrow : f.tag = .tr)
    (hplain : ∀ g ∈ f :: outer, g.tag.isFormatting = false) (attributes : List Attribute) :
    ∃ (i : Nat) (b' : Builder),
      (b.setMode .inRow).Settles (.startTag ⟨.td, attributes, false⟩) 1 b' ∧
      b'.Stands (⟨i, .td, attributes, inner⟩ :: f :: outer) .empty .cell := by
  have hcell := h.openElement ⟨.td, attributes, false⟩
  have hformatting : (b.openElement ⟨.td, attributes, false⟩).formatting = [] := by
    obtain ⟨entries, hsub, htags, hformatting⟩ := h.exists_entries
    have hnone : entries = [] := by
      refine List.eq_nil_iff_forall_not_mem.mpr fun g hg => ?_
      have htag := htags g hg
      rw [hplain g (hsub.subset hg)] at htag
      cases htag
    rw [h.openElement_eq, hformatting, hnone]
    rfl
  have hclose : b.closeTo holdsCells = b := h.closeTo_eq (by rw [Frame.opened, hrow]; rfl)
  refine ⟨_, ((b.openElement ⟨.td, attributes, false⟩).setMode .inCell).mark, .of_done ?_,
    hcell.tree_eq, hcell.stack_eq, rfl, hcell.fostering_eq, hcell.dropsNewline_eq,
    hcell.templateModes_eq, hcell.tableText_eq, hcell.fragment_eq, hcell.nodup_ids, hcell.id_lt,
    [], List.nil_sublist _, by rintro _ ⟨⟩, ?_⟩
  · rw [Builder.takeOnce_eq (h.current_setMode _)]
    show (((((b.closeTo holdsCells).setMode .inRow).openElement _).setMode .inCell).mark,
      Next.done) = _
    rw [hclose, openElement_setMode]
    rfl
  · rw [Builder.mark, Builder.setMode, hformatting]
    rfl

/-- The end tag of a cell ends its formatting with it. -/
theorem settles_cellEnd (h : Stands (f :: outer) inner .cell b) (hcell : f.tag = .td) :
    ∃ b' : Builder, b.Settles (.endTag .td) 1 (b'.setMode .inRow) ∧
      b'.Stands outer (f.wrap inner) .content := by
  have hhas : b.has .table .td = true := hcell ▸ h.has_current .table
  have himplied : b.closeImplied = b := h.closeImplied_eq (by rw [hcell]; rfl)
  have hthrough : b.closeThrough .td = b.close := hcell ▸ h.closeThrough_eq
  have hclear : b.close.clearToMarker.formatting = [] := by
    obtain ⟨entries, -, -, hformatting⟩ := h.exists_entries
    rw [h.close_eq, Builder.clearToMarker, hformatting]
    clear hformatting
    induction entries with
    | nil => rfl
    | cons g entries ih => exact ih
  refine ⟨b.close.clearToMarker.setMode .inBody, .of_done ?_, ?_⟩
  · have hmode : b.mode = .inCell := h.mode_eq
    rw [Builder.takeOnce_eq h.current_html, Builder.modeRule, hmode]
    show (if b.has .table .td then
      (((b.closeImplied.closeThrough .td).clearToMarker).setMode .inRow).done else _) = _
    rw [hhas, himplied, hthrough]
    rfl
  · have hclosed := h.close (by rw [hcell]; rfl)
    exact ⟨hclosed.tree_eq, hclosed.stack_eq, rfl, hclosed.fostering_eq, hclosed.dropsNewline_eq,
      hclosed.templateModes_eq, hclosed.tableText_eq, hclosed.fragment_eq, hclosed.nodup_ids,
      hclosed.id_lt, [], List.nil_sublist _, by rintro _ ⟨⟩, hclear⟩

theorem settles_rowEnd (h : Stands (f :: outer) inner .content b) (hrow : f.tag = .tr) :
    ∃ b' : Builder, (b.setMode .inRow).Settles (.endTag .tr) 1 (b'.setMode .inTableBody) ∧
      b'.Stands outer (f.wrap inner) .content := by
  have hclosed := h.close (by rw [hrow]; rfl)
  refine ⟨_, .of_done ?_, hclosed⟩
  have hhas : (b.setMode .inRow).has .table .tr = true := hrow ▸ h.has_current .table
  have hclose : b.closeTo holdsCells = b := h.closeTo_eq (by rw [Frame.opened, hrow]; rfl)
  rw [Builder.takeOnce_eq (h.current_setMode _)]
  show (if (b.setMode .inRow).has .table .tr then
    ((((b.closeTo holdsCells).setMode .inRow).close).setMode .inTableBody).done else _) = _
  rw [hhas, hclose]
  rfl

/-- Behind a table that stands in nothing else, running content goes on. -/
theorem resetMode_closed (h : Stands (f :: [.root]) inner .content b)
    (hplain : f.tag.isFormatting = false) (mode : Mode) :
    (b.close.setMode mode).resetMode.Stands [.root] (f.wrap inner) .content := by
  have hclosed := h.close hplain
  have hfragment : (b.close.setMode mode).fragment = true := hclosed.fragment_eq
  have hmode : (b.close.setMode mode).modeOfStack = .inBody := by
    rw [Builder.modeOfStack, show (b.close.setMode mode).stack = [Frame.root.opened] from
      hclosed.stack_eq]
    simp [modeOfStack.go, Frame.root, Frame.opened, hfragment]
  have hback : (b.close.setMode mode).setMode .inBody = b.close := by
    rw [show Mode.inBody = b.close.mode from hclosed.mode_eq.symm]
    rfl
  rw [Builder.resetMode, hmode, hback]
  exact hclosed

/-- The end tag of a table without rows. -/
theorem settles_tableEnd (h : Stands (f :: [.root]) inner .content b) (htable : f.tag = .table) :
    ∃ b' : Builder, (b.setMode .inTable).Settles (.endTag .table) 1 b' ∧
      b'.Stands [.root] (f.wrap inner) .content := by
  refine ⟨_, .of_done ?_, h.resetMode_closed (by rw [htable]; rfl) .inTable⟩
  have hhas : (b.setMode .inTable).has .table .table = true := htable ▸ h.has_current .table
  have hthrough : b.closeThrough .table = b.close := htable ▸ h.closeThrough_eq
  rw [Builder.takeOnce_eq (h.current_setMode _)]
  show (if (b.setMode .inTable).has .table .table then
    (((b.closeThrough .table).setMode .inTable).resetMode).done else _) = _
  rw [hhas, hthrough]
  rfl

/-- The end tag of a table behind its rows ends their group too. -/
theorem settles_groupEnd {g : Frame} (h : Stands (f :: g :: [.root]) inner .content b)
    (hgroup : f.tag = .tbody) (htable : g.tag = .table) :
    ∃ b' : Builder, (b.setMode .inTableBody).Settles (.endTag .table) 2 b' ∧
      b'.Stands [.root] (g.wrap (f.wrap inner)) .content := by
  have hclosed := h.close (by rw [hgroup]; rfl)
  obtain ⟨b', hend, hstands⟩ := hclosed.settles_tableEnd htable
  refine ⟨b', .of_again ?_ hend, hstands⟩
  have hclose : b.closeTo holdsRows = b := h.closeTo_eq (by rw [Frame.opened, hgroup]; rfl)
  have hscope : (b.setMode .inTableBody).stack.hasInScope .table
      (fun e => e.is .table || e.is .tbody || e.is .tfoot) = true := by
    rw [Builder.setMode, h.stack_eq, List.map_cons, Stack.hasInScope, Frame.opened, hgroup]
    rfl
  rw [Builder.takeOnce_eq (h.current_setMode _)]
  show (if (b.setMode .inTableBody).stack.hasInScope .table
      (fun e => e.is .table || e.is .tbody || e.is .tfoot) then
    (((b.closeTo holdsRows).setMode .inTableBody).close).again .inTable else _) = _
  rw [hscope, hclose]
  rfl

end Builder.Stands

/-! ## Rows -/

/-- Where a row of a table may stand: no paragraph, heading, anchor or formatting is open. -/
def Frame.AreTableParts (frames : List Frame) : Prop :=
  Frame.AreBlocks frames ∧ ∀ f ∈ frames, f.tag.isFormatting = false

theorem Frame.AreTableParts.cons {f : Frame} {frames : List Frame} (hframes : AreTableParts frames)
    (htag : f.tag = .table ∨ f.tag = .tbody ∨ f.tag = .tr ∨ f.tag = .td) :
    AreTableParts (f :: frames) := by
  have hone : f.tag ≠ .p ∧ f.tag ≠ .a ∧ f.tag.isHeadingLevel = false ∧
      f.tag.isFormatting = false := by
    rcases htag with h | h | h | h <;> rw [h] <;> exact ⟨nofun, nofun, rfl, rfl⟩
  refine ⟨hframes.1.cons hone.1 hone.2.1 hone.2.2.1, ?_⟩
  intro g hg
  rcases List.mem_cons.mp hg with rfl | hold
  · exact hone.2.2.2
  · exact hframes.2 g hold

/-- In every cell, the tokens give the content. -/
def Builder.GivesCell (tokens : List Token) (content : List Node) : Prop :=
  ∀ {f : Frame} {outer : List Frame} {b : Builder}, Frame.AreBlocks (f :: outer) →
    b.Stands (f :: outer) .empty .cell →
    ∃ (b' : Builder) (inner : Forest), b.Takes tokens b' ∧ b'.Stands (f :: outer) inner .cell ∧
      inner.nodes = content

/-- White space between the parts of a table. -/
def IsGap (t : Text) : Prop := t ≠ [] ∧ t.all Builder.isWhite = true

/-- A row with one cell: the style of the cell, its tokens and what they give. -/
structure RowTokens where
  style : Text
  cell : List Token
  content : List Node
  gives : Builder.GivesCell cell content

namespace RowTokens

variable (rowGap cellGap : Text)

/-- The tokens of a row from its cell on. The same white space stands before a row and behind
its cell. -/
def inside (r : RowTokens) : List Token :=
  Lexer.chars cellGap ++ [.startTag ⟨.td, [⟨"style", r.style⟩], false⟩] ++ r.cell ++
    [.endTag .td] ++ (Lexer.chars rowGap ++ [.endTag .tr])

/-- The tokens of a row. -/
def tokens (r : RowTokens) : List Token :=
  Lexer.chars rowGap ++ [.startTag ⟨.tr, [], false⟩] ++ r.inside rowGap cellGap

/-- The content of a row: the cell between white space. -/
def cells (r : RowTokens) : List Node :=
  [.text cellGap, .element .td (.ofList [⟨"style", r.style⟩]) r.content, .text rowGap]

/-- The row as a node. -/
def node (r : RowTokens) : Node := .element .tr .empty (r.cells rowGap cellGap)

end RowTokens

/-- The table that rows with white space before each are read as. Only the white space before the
first row stands outside the group of rows. -/
def Node.table (rowGap : Text) : List Node → Node
  | [] => .element .table .empty []
  | row :: rest =>
    .element .table .empty [.text rowGap,
      .element .tbody .empty (row :: rest.flatMap fun later => [.text rowGap, later])]

namespace Builder.Stands

variable {f g : Frame} {outer : List Frame} {inner : Forest} {b : Builder}
  {rowGap cellGap : Text}

/-- A row from its cell on. -/
theorem takes_inside (h : Stands (f :: outer) .empty .content b) (hrow : f.tag = .tr)
    (hparts : Frame.AreTableParts (f :: outer)) (hrowGap : IsGap rowGap)
    (hcellGap : IsGap cellGap) (r : RowTokens) :
    ∃ (b' : Builder) (inner : Forest),
      (b.setMode .inRow).Takes (r.inside rowGap cellGap) (b'.setMode .inTableBody) ∧
      b'.Stands outer (f.wrap inner) .content ∧ inner.nodes = r.cells rowGap cellGap := by
  have hpart : f.tag.isTablePart = true := by rw [hrow]; rfl
  obtain ⟨b₁, hstands₁, htakes₁⟩ := h.takes_blank_then .inRow
    (.startTag ⟨.td, [⟨"style", r.style⟩], false⟩) rfl hpart hcellGap.1 hcellGap.2 rfl
    (fun _ => rfl) ⟨nofun, nofun⟩
  obtain ⟨i, b₂, hsettles₂, hstands₂⟩ := hstands₁.settles_cell hrow hparts.2 [⟨"style", r.style⟩]
  have hopen := htakes₁ hsettles₂ (by decide) hstands₂.current_html
  have hblocks := hparts.cons (f := ⟨i, .td, [⟨"style", r.style⟩], .text cellGap.reverse .empty⟩)
    (.inr (.inr (.inr rfl)))
  obtain ⟨b₃, content, hcell, hstands₃, hnodes⟩ := r.gives hblocks.1 hstands₂
  obtain ⟨b₄, hsettles₄, hstands₄⟩ := hstands₃.settles_cellEnd rfl
  have hclose : b₃.Takes [.endTag .td] (b₄.setMode .inRow) :=
    .single (hsettles₄.take_eq (by decide) hstands₃.dropsNewline_eq ⟨nofun, nofun⟩)
      (hstands₄.current_setMode .inRow)
  obtain ⟨b₅, hstands₅, htakes₅⟩ := hstands₄.takes_blank_then .inRow (.endTag .tr) rfl hpart
    hrowGap.1 hrowGap.2 rfl (fun _ => rfl) ⟨nofun, nofun⟩
  obtain ⟨b₆, hsettles₆, hstands₆⟩ := hstands₅.settles_rowEnd hrow
  have hend := htakes₅ hsettles₆ (by decide) (hstands₆.current_setMode .inTableBody)
  refine ⟨b₆, _, ((hopen.append hcell).append hclose).append hend, hstands₆, ?_⟩
  rw [Forest.nodes_text, Frame.wrap, Forest.nodes_element, Forest.nodes_text, hnodes,
    List.reverse_reverse, List.reverse_reverse]
  rfl

/-- A row behind other rows. -/
theorem takes_row (h : Stands (f :: outer) inner .content b) (hgroup : f.tag = .tbody)
    (hlast : inner.endsInText = false) (hparts : Frame.AreTableParts (f :: outer))
    (hrowGap : IsGap rowGap) (hcellGap : IsGap cellGap) (r : RowTokens) :
    ∃ (b' : Builder) (inner' : Forest),
      (b.setMode .inTableBody).Takes (r.tokens rowGap cellGap) (b'.setMode .inTableBody) ∧
      b'.Stands (f :: outer) inner' .content ∧ inner'.endsInText = false ∧
      inner'.nodes = inner.nodes ++ [.text rowGap, r.node rowGap cellGap] := by
  obtain ⟨b₁, hstands₁, htakes₁⟩ := h.takes_blank_then .inTableBody (.startTag ⟨.tr, [], false⟩)
    rfl (by rw [hgroup]; rfl) hrowGap.1 hrowGap.2 hlast (fun _ => rfl) ⟨nofun, nofun⟩
  obtain ⟨i, b₂, hsettles₂, hstands₂⟩ := hstands₁.settles_row hgroup []
  have hopen := htakes₁ hsettles₂ (by decide) (hstands₂.current_setMode .inRow)
  obtain ⟨b₃, cells, hinside, hstands₃, hnodes⟩ := hstands₂.takes_inside rfl
    (hparts.cons (.inr (.inr (.inl rfl)))) hrowGap hcellGap r
  refine ⟨b₃, _, hopen.append hinside, hstands₃, rfl, ?_⟩
  rw [Frame.wrap, Forest.nodes_element, Forest.nodes_text, hnodes, List.reverse_reverse,
    List.append_assoc]
  rfl

/-- Rows behind other rows. -/
theorem takes_rows (h : Stands (f :: outer) inner .content b) (hgroup : f.tag = .tbody)
    (hlast : inner.endsInText = false) (hparts : Frame.AreTableParts (f :: outer))
    (hrowGap : IsGap rowGap) (hcellGap : IsGap cellGap) (rs : List RowTokens) :
    ∃ (b' : Builder) (inner' : Forest),
      (b.setMode .inTableBody).Takes (rs.flatMap (·.tokens rowGap cellGap))
        (b'.setMode .inTableBody) ∧
      b'.Stands (f :: outer) inner' .content ∧
      inner'.nodes =
        inner.nodes ++ rs.flatMap fun r => [.text rowGap, r.node rowGap cellGap] := by
  induction rs generalizing b inner with
  | nil => exact ⟨b, inner, .nil _, h, by simp⟩
  | cons r rs ih =>
      obtain ⟨b₁, inner₁, hfirst, hstands₁, hlast₁, hnodes₁⟩ :=
        h.takes_row hgroup hlast hparts hrowGap hcellGap r
      obtain ⟨b₂, inner₂, hrest, hstands₂, hnodes₂⟩ := ih hstands₁ hlast₁
      refine ⟨b₂, inner₂, hfirst.append hrest, hstands₂, ?_⟩
      rw [hnodes₂, hnodes₁, List.append_assoc]
      rfl

/-- A table of such rows, in running content that stands in nothing else. -/
theorem takes_table (h : Stands [.root] .empty .content b) (hrowGap : IsGap rowGap)
    (hcellGap : IsGap cellGap) (rs : List RowTokens) :
    ∃ (b' : Builder) (inner' : Forest),
      b.Takes (.startTag ⟨.table, [], false⟩ :: rs.flatMap (·.tokens rowGap cellGap) ++
        [.endTag .table]) b' ∧
      b'.Stands [.root] inner' .content ∧
      inner'.nodes = [.table rowGap (rs.map (·.node rowGap cellGap))] := by
  have hroot : Frame.AreTableParts [.root] := by
    simp [Frame.AreTableParts, Frame.AreBlocks, Frame.root, Tag.isHeadingLevel, Tag.isFormatting]
  obtain ⟨i, b₀, htake₀, hstands₀⟩ := h.take_tableStart (by simp [Frame.root]) []
  have hcurrent₀ := hstands₀.current_setMode .inTable
  cases rs with
  | nil =>
      obtain ⟨b₁, hsettles₁, hstands₁⟩ := hstands₀.settles_tableEnd rfl
      have hend := hsettles₁.take_eq (by decide) hstands₀.dropsNewline_eq
        ⟨by rintro ⟨⟩, by rintro _ ⟨⟩⟩
      refine ⟨b₁, _, .cons htake₀ hcurrent₀ (.single hend hstands₁.current_html), hstands₁, ?_⟩
      rw [Frame.wrap, Forest.nodes_element]
      rfl
  | cons r rs =>
      have htable := hroot.cons (f := ⟨i, .table, [], .empty⟩) (.inl rfl)
      obtain ⟨b₁, hstands₁, htakes₁⟩ := hstands₀.takes_blank_then .inTable
        (.startTag ⟨.tr, [], false⟩) rfl rfl hrowGap.1 hrowGap.2 rfl (fun _ => rfl)
        ⟨by rintro ⟨⟩, by rintro _ ⟨⟩⟩
      obtain ⟨j, k, b₂, hsettles₂, hstands₂⟩ := hstands₁.settles_firstRow rfl []
      have hopen := htakes₁ hsettles₂ (by decide) (hstands₂.current_setMode .inRow)
      have hgroup := htable.cons (f := ⟨j, .tbody, [], .text rowGap.reverse .empty⟩)
        (.inr (.inl rfl))
      obtain ⟨b₃, cells, hinside, hstands₃, hnodes₃⟩ := hstands₂.takes_inside rfl
        (hgroup.cons (.inr (.inr (.inl rfl)))) hrowGap hcellGap r
      obtain ⟨b₄, rows, hrows, hstands₄, hnodes₄⟩ := hstands₃.takes_rows rfl rfl hgroup hrowGap
        hcellGap rs
      obtain ⟨b₅, hsettles₅, hstands₅⟩ := hstands₄.settles_groupEnd rfl rfl
      have hend := hsettles₅.take_eq (by decide) hstands₄.dropsNewline_eq
        ⟨by rintro ⟨⟩, by rintro _ ⟨⟩⟩
      refine ⟨b₅, _, .cons htake₀ hcurrent₀ (((hopen.append hinside).append hrows).append
        (.single hend hstands₅.current_html)), hstands₅, ?_⟩
      rw [Frame.wrap, Forest.nodes_element, Frame.wrap, Forest.nodes_element, Forest.nodes_text,
        hnodes₄, Frame.wrap, Forest.nodes_element, hnodes₃, List.reverse_reverse, List.map_cons,
        Node.table, List.flatMap_map]
      rfl

end Builder.Stands

end Letterpress
