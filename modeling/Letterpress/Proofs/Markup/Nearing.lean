/-
# Text and comments between tags

Text and comments go where they stand, except that blank text between the parts of a
table is kept back until the token behind it (`Builder.Waits`). A builder that rests or
so waits nears what it is to be (`Builder.Nears`): it takes whatever comes next as a
builder that rests.
-/

import Letterpress.Proofs.Markup.Filling

namespace Letterpress

open Level

namespace Builder.Rests

variable {f g : Level} {levels outer : List Level} {inner : Forest} {mode : Mode}
  {b : Builder}

/-! ## Text and comments between tags -/

theorem bodyChar (h : Rests (f :: outer) inner mode b) (c : Char) :
    b.RestsAfter (f :: outer) (inner.pushChar c) mode false (b.bodyChar c).done := by
  have hadded : Rests (f :: outer) (inner.pushChar c) mode (b.addChar c) := h.add _
  have hfostering : (b.addChar c).fostering = b.fostering := by rw [Builder.addChar, h.add_eq]
  rw [Builder.bodyChar, h.reopenFormatting_eq]
  split
  · exact hadded.after hfostering false
  · exact hadded.forbidFrames.after hfostering false

/-- The rules of content, as they are set. -/
theorem mode_cases (h : Rests levels inner mode b) :
    b.mode = mode ∨ (b.mode = .inSelectInTable ∧ mode = .inSelect) := by
  have hplain := h.plain_mode_eq
  unfold Mode.plain at hplain
  split at hplain
  · rename_i hmode
    exact .inr ⟨hmode, hplain.symm⟩
  · exact .inl hplain

/-- A character goes where it stands, except between the parts of a table. -/
theorem takeOnce_char (h : Rests (f :: outer) inner mode b) (hfostering : b.fostering = false)
    (hpart : mode.isTable = true → (path (f :: outer)).atTablePart = false) {c : Char}
    (hcolumns : mode = .inColumnGroup → Builder.isWhite c = true) :
    b.RestsAfter (f :: outer) (inner.pushChar c) mode false (b.takeOnce (.char c)) := by
  have hadded : Rests (f :: outer) (inner.pushChar c) mode (b.addChar c) := h.add _
  have hkept : (b.addChar c).fostering = b.fostering := by rw [Builder.addChar, h.add_eq]
  have hbody := h.bodyChar c
  rw [Builder.takeOnce]
  split
  · unfold Builder.foreignRule
    dsimp only
    split
    · exact hadded.after hkept false
    · exact hadded.forbidFrames.after hkept false
  · rw [Builder.modeRule]
    have hcontent := h.chain.isOfContent
    rcases h.mode_cases with hmode | ⟨hmode, -⟩
    · rw [hmode]
      cases mode with
      | inBody | inCell | inCaption | inTemplate => exact hbody
      | inSelect => exact hadded.after hkept false
      | inColumnGroup =>
          show b.RestsAfter _ _ _ _ (b.inColumnGroupRule (.char c))
          simp only [Builder.inColumnGroupRule.eq_def, hcolumns rfl, if_true]
          exact hadded.after hkept false
      | inTable | inTableBody | inRow =>
          show b.RestsAfter _ _ _ _ (b.tableChar (.char c))
          have hstack : b.stack.currentIs (·.satisfies Tag.isTablePart) = false :=
            (h.stack_currentIs_eq fun _ => rfl).trans (hpart rfl)
          rw [Builder.tableChar, hstack]
          obtain ⟨hnext, hrests, -, hline⟩ := (h.setFostering true fun _ => hpart rfl).bodyChar c
          exact ⟨hnext, hrests.setFostering false (by rintro ⟨⟩), hfostering.symm, hline⟩
      | _ => cases hcontent
    · rw [hmode]
      exact hadded.after hkept false

/-- A comment goes where it stands. -/
theorem takeOnce_comment (h : Rests (f :: outer) inner mode b) (t : Text) :
    b.RestsAfter (f :: outer) (.comment t inner) mode false (b.takeOnce (.comment t)) := by
  have hadded : Rests (f :: outer) (.comment t inner) mode (b.addComment t) := h.add _
  have hkept : (b.addComment t).fostering = b.fostering := by rw [Builder.addComment, h.add_eq]
  have hresult := hadded.after hkept false
  rw [Builder.takeOnce]
  split
  · exact hresult
  · rw [Builder.modeRule]
    have hcontent := h.chain.isOfContent
    rcases h.mode_cases with hmode | ⟨hmode, -⟩
    · rw [hmode]
      revert hcontent
      cases mode
      all_goals
        intro hcontent
        first | exact hresult | cases hcontent
    · rw [hmode]
      exact hresult

end Builder.Rests

/-- Everything read so far fits, but the blank text `t` of a table is still kept back. -/
structure Builder.Waits (levels : List Level) (inner : Forest) (mode : Mode) (t : Text)
    (b : Builder) : Prop where
  mode_eq : b.mode = .inTableText
  returnMode_eq : b.returnMode = mode
  tableText_eq : b.tableText = t.reverse
  isTable : mode.isTable = true
  blank : t.all Builder.isWhite = true
  atTablePart : (path levels).atTablePart = true
  rests : Rests levels inner mode { b with mode, tableText := [] }

/-- Everything read so far fits, though blank text of a table may still be kept back. -/
def Builder.Nears (levels : List Level) (inner : Forest) (mode : Mode) (b : Builder) : Prop :=
  b.fostering = false ∧ (Rests levels inner mode b ∨
    ∃ older t, inner = t.foldl (fun inner c => inner.pushChar c) older ∧ Waits levels older mode t b)

namespace Builder.Waits

variable {f : Level} {levels outer : List Level} {inner : Forest} {mode : Mode} {b : Builder}
  {t : Text}

theorem current_html (h : Waits levels inner mode t b) : b.current.vocabulary = .html := by
  have hpart := h.atTablePart
  obtain ⟨f, outer, rfl⟩ := h.rests.exists_cons
  have hcurrent : b.current = f.opened := h.rests.current_eq
  have hsatisfies : f.opened.satisfies Tag.isTablePart = true := hpart
  rw [OpenElement.satisfies, Bool.and_eq_true, beq_iff_eq] at hsatisfies
  rw [hcurrent]
  exact hsatisfies.1

/-- More blank text is kept back too. -/
theorem takeOnce_char (h : Waits levels inner mode t b) {c : Char}
    (hblank : Builder.isWhite c = true) :
    ∃ b', b.takeOnce (.char c) = (b', .done) ∧ Waits levels inner mode (t ++ [c]) b' ∧
      b'.fostering = b.fostering := by
  have hrule : b.modeRule (.char c) = b.inTableTextRule (.char c) := by
    rw [Builder.modeRule, h.mode_eq]
  refine ⟨{ b with tableText := c :: b.tableText }, ?_, ?_, rfl⟩
  · rw [takeOnce_eq h.current_html, hrule]
    rfl
  · refine { h with tableText_eq := ?_, blank := ?_ }
    · show c :: b.tableText = _
      rw [h.tableText_eq, List.reverse_append]
      rfl
    · rw [List.all_append, h.blank]
      simp [hblank]

theorem foldl_addChar (h : Rests (f :: outer) inner mode b) (t : Text) :
    Rests (f :: outer) (t.foldl (fun inner c => inner.pushChar c) inner) mode
      (t.foldl Builder.addChar b) ∧ (t.foldl Builder.addChar b).fostering = b.fostering := by
  induction t generalizing b inner with
  | nil => exact ⟨h, rfl⟩
  | cons c t ih =>
      obtain ⟨hrests, hkept⟩ := ih (h.add (·.pushChar c))
      refine ⟨hrests, hkept.trans ?_⟩
      rw [h.add_eq]

/-- Anything else places the text that was kept back, and is then taken by the rules before. -/
theorem exists_rests (h : Waits levels inner mode t b) :
    ∃ b' : Builder, b'.Rests levels (t.foldl (fun inner c => inner.pushChar c) inner) mode ∧
      b'.fostering = b.fostering ∧ ∀ {token : Token}, (∀ c, token ≠ .char c) ∧ token ≠ .null →
        b.takeOnce token = (b', .again) := by
  obtain ⟨f, outer, rfl⟩ := h.rests.exists_cons
  have hplace : b.placeTableText = t.foldl Builder.addChar { b with tableText := [] } := by
    have htext : b.tableText.reverse = t := by rw [h.tableText_eq, List.reverse_reverse]
    rw [Builder.placeTableText]
    simp only [htext, h.blank, if_true]
  obtain ⟨hrests, hkept⟩ := foldl_addChar h.rests t
  have hback : t.foldl Builder.addChar { b with mode, tableText := [] } =
      (t.foldl Builder.addChar { b with tableText := [] }).setMode mode :=
    foldl_addChar_setMode { b with tableText := [] } mode t
  rw [hback] at hrests hkept
  refine ⟨_, hrests, hkept, fun {token} hkind => ?_⟩
  have hrule : b.modeRule token = b.placeTableText.again b.returnMode := by
    rw [Builder.modeRule, h.mode_eq]
    show b.inTableTextRule token = _
    cases token with
    | char c => exact absurd rfl (hkind.1 c)
    | null => exact absurd rfl hkind.2
    | _ => rfl
  rw [h.returnMode_eq, hplace] at hrule
  rw [takeOnce_eq h.current_html, hrule]
  rfl

end Builder.Waits

/-- The rules for a start tag that stands in these elements. -/
def Mode.rulesFor (mode : Mode) (path : Stack) (t : StartTag) : Mode :=
  if path.isForeignTo t then mode else mode.followedFrom t.tag

namespace Builder

variable {f g : Level} {levels outer : List Level} {inner : Forest} {mode inside : Mode}
  {b b₀ : Builder} {token : Token} {t : StartTag} {line : Bool} {result : Builder × Next}

/-- A token that is used up at once. -/
theorem RestsAfter.comesTo (h : b₀.RestsAfter levels inner mode line (b.takeOnce token)) :
    b.ComesTo token 1 ((b.takeOnce token).1, .done) := by
  have hnext := h.next_eq
  refine ComesTo.of_once (Prod.ext rfl hnext) nofun

theorem ComesTo.mono {hops more : Nat} (h : b.ComesTo token hops result) (hmore : hops ≤ more) :
    b.ComesTo token more result := fun n hn => h n (Nat.le_trans hmore hn)

theorem RestsAfter.rests_of_line (h : b.RestsAfter levels inner mode false result) :
    Rests levels inner mode result.1 := by
  have hline : result.1.dropsNewline = false := by
    rw [← Bool.not_eq_true]
    exact fun hdrops => nomatch h.line_of hdrops
  have hsame : ({ result.1 with dropsNewline := false } : Builder) = result.1 := by rw [← hline]
  exact hsame ▸ h.rests

/-- Right after the first character between the parts of a table the builder waits. -/
theorem Rests.takeOnce_firstChar (h : Rests levels inner mode b) (htable : mode.isTable = true)
    (hpart : (path levels).atTablePart = true) (c : Char) :
    ∃ b', b.takeOnce (.char c) = (b', .again) ∧ Waits levels inner mode [] b' ∧
      b'.fostering = b.fostering := by
  have hmode := h.mode_eq (by rintro rfl; cases htable)
  have hwaits : Waits levels inner mode [] { b with returnMode := b.mode, mode := .inTableText } := by
    refine ⟨rfl, hmode, h.tableText_eq, htable, rfl, hpart, ?_⟩
    exact { h with plain_mode_eq := hmode ▸ h.plain_mode_eq, tableText_eq := rfl }
  refine ⟨_, ?_, hwaits, rfl⟩
  have hcurrent : b.current.vocabulary = .html := hwaits.current_html
  have hrule : b.modeRule (.char c) = b.tableChar (.char c) := by
    rw [Builder.modeRule, hmode]
    revert htable
    cases mode
    all_goals
      intro htable
      first | rfl | cases htable
  have hstack : b.stack.currentIs (·.satisfies Tag.isTablePart) = true :=
    (h.stack_currentIs_eq fun _ => rfl).trans hpart
  rw [takeOnce_eq hcurrent, hrule, Builder.tableChar, hstack]
  rfl

namespace Nears

theorem of_rests (h : Rests levels inner mode b) (hfostering : b.fostering = false) :
    Nears levels inner mode b := ⟨hfostering, .inl h⟩

theorem of_after (h : b.RestsAfter levels inner mode false result)
    (hfostering : b.fostering = false) :
    Nears levels inner mode result.1 :=
  .of_rests h.rests_of_line (h.fostering_eq.trans hfostering)

theorem dropsNewline_eq (h : Nears levels inner mode b) : b.dropsNewline = false := by
  rcases h.2 with h | ⟨_, _, -, h⟩
  · exact h.dropsNewline_eq
  · exact h.rests.dropsNewline_eq

/-- What is kept back does not matter to what comes next. -/
theorem exists_rests (h : Nears levels inner mode b) :
    ∃ b₁ : Builder, Rests levels inner mode b₁ ∧ b₁.fostering = false ∧
      ∀ {token : Token} {hops : Nat} {result : Builder × Next},
        (∀ c, token ≠ .char c) ∧ token ≠ .null → b₁.ComesTo token hops result →
          b.ComesTo token (hops + 1) result := by
  obtain ⟨hfostering, hrests | ⟨older, t, rfl, hwaits⟩⟩ := h
  · exact ⟨b, hrests, hfostering, fun _ hcomes => hcomes.mono (Nat.le_succ _)⟩
  · obtain ⟨b₁, hrests, hkept, hagain⟩ := hwaits.exists_rests
    exact ⟨b₁, hrests, hkept.trans hfostering,
      fun hkind hcomes => ComesTo.of_again (hagain hkind) hcomes⟩

/-- A character of text that stays where it stands. -/
theorem takes_char (h : Nears (f :: outer) inner mode b) {c : Char}
    (hkeeps : mode.keepsText (path (f :: outer)) [c] = true) :
    ∃ b', b.ComesTo (.char c) 2 (b', .done) ∧ Nears (f :: outer) (inner.pushChar c) mode b' := by
  have hblank (htable : mode.isTable = true) (hpart : (path (f :: outer)).atTablePart = true) :
      Builder.isWhite c = true := by
    revert htable hkeeps
    cases mode
    all_goals
      intro hkeeps htable
      first
      | (cases htable; done)
      | simpa [Mode.keepsText, hpart] using hkeeps
  have hwait {b : Builder} {older : Forest} {t : Text} (hwaits : Waits (f :: outer) older mode t b)
      (hfostering : b.fostering = false) : ∃ b', b.ComesTo (.char c) 1 (b', .done) ∧
        Nears (f :: outer)
          ((t.foldl (fun inner c => inner.pushChar c) older).pushChar c) mode b' := by
    obtain ⟨b', htake, hwaits', hkept⟩ :=
      hwaits.takeOnce_char (hblank hwaits.isTable hwaits.atTablePart)
    refine ⟨b', ComesTo.of_once htake nofun, hkept.trans hfostering,
      .inr ⟨older, t ++ [c], ?_, hwaits'⟩⟩
    rw [List.foldl_append]
    rfl
  obtain ⟨hfostering, hrests | ⟨older, t, rfl, hwaits⟩⟩ := h
  · by_cases hpart : mode.isTable = true ∧ (path (f :: outer)).atTablePart = true
    · obtain ⟨b₁, htake, hwaits, hkept⟩ := hrests.takeOnce_firstChar hpart.1 hpart.2 c
      obtain ⟨b', hcomes, hnears⟩ := hwait hwaits (hkept.trans hfostering)
      exact ⟨b', ComesTo.of_again htake hcomes, hnears⟩
    · have hcolumns (hmode : mode = .inColumnGroup) : Builder.isWhite c = true := by
        rw [hmode] at hkeeps
        simpa [Mode.keepsText] using hkeeps
      have htaken := hrests.takeOnce_char hfostering
        (fun htable => by simpa [htable] using hpart) hcolumns
      exact ⟨_, htaken.comesTo.mono (by omega), .of_after htaken hfostering⟩
  · obtain ⟨b', hcomes, hnears⟩ := hwait hwaits hfostering
    exact ⟨b', hcomes.mono (by omega), hnears⟩

/-- A comment. -/
theorem takes_comment (h : Nears (f :: outer) inner mode b) (t : Text) :
    ∃ b', b.ComesTo (.comment t) 2 (b', .done) ∧ Nears (f :: outer) (.comment t inner) mode b' := by
  obtain ⟨b₁, hrests, hfostering, hready⟩ := h.exists_rests
  have htaken := hrests.takeOnce_comment t
  exact ⟨_, hready ⟨nofun, nofun⟩ htaken.comesTo, .of_after htaken hfostering⟩

/-! ## Elements -/

/-- Before a start tag a builder rests under the rules for it. -/
theorem exists_ready (h : Nears levels inner mode b) (t : StartTag) :
    ∃ b₁ : Builder, Rests levels inner (mode.rulesFor (path levels) t) b₁ ∧ b₁.fostering = false ∧
      ∀ {hops : Nat} {result : Builder × Next},
        b₁.ComesTo (.startTag t) hops result → b.ComesTo (.startTag t) (hops + 2) result := by
  obtain ⟨b₁, hrests, hfostering, hready⟩ := h.exists_rests
  have hkind : (∀ c, Token.startTag t ≠ .char c) ∧ Token.startTag t ≠ .null := ⟨nofun, nofun⟩
  unfold Mode.rulesFor
  split
  · exact ⟨b₁, hrests, hfostering, fun hcomes => (hready hkind hcomes).mono (Nat.le_succ _)⟩
  · rename_i hforeign
    rw [Bool.not_eq_true] at hforeign
    obtain ⟨b₂, hfollowed, hkept, hfollows⟩ := hrests.exists_followed hforeign
    exact ⟨b₂, hfollowed, hkept.trans hfostering,
      fun hcomes => hready hkind (hfollows hcomes)⟩

/-- The start of an element that holds nodes. -/
theorem takes_startTag (h : Nears (g :: outer) inner mode b) (hself : t.selfClosing = false)
    (hinterior : (mode.rulesFor (path (g :: outer)) t).interior? (path (g :: outer)) t =
      some (.nodes inside)) :
    ∃ f b', b.ComesTo (.startTag t) 3 (b', .done) ∧
      Nears (f :: g :: outer) .empty inside { b' with dropsNewline := false } ∧
      (b'.dropsNewline = true → Node.dropsNewline (path (g :: outer)) t = true) ∧
      path (f :: g :: outer) = (path (g :: outer)).enter t ∧
      f.start = t ∧ f.around = mode.rulesFor (path (g :: outer)) t ∧ f.older = inner := by
  obtain ⟨b₁, hrests, hfostering, hready⟩ := h.exists_ready t
  have hentered := hrests.enters hfostering hself hinterior
  exact ⟨_, _, hready hentered.comesTo,
    .of_rests hentered.rests (hentered.fostering_eq.trans hfostering), hentered.line_of,
    path_opening, rfl, rfl, rfl⟩

/-- Its end. -/
theorem takes_endTag (h : Nears (f :: g :: outer) inner mode b) :
    ∃ b', b.ComesTo (.endTag f.start.tag) 2 (b', .done) ∧
      Nears (g :: outer) (f.wrap inner) f.around b' := by
  obtain ⟨b₁, hrests, hfostering, hready⟩ := h.exists_rests
  have hleft := hrests.leaves hfostering
  exact ⟨_, hready ⟨nofun, nofun⟩ hleft.comesTo, .of_after hleft hfostering⟩

theorem isForeignTo_of_not_nodes {path : Stack} {i : Interior} (hnodes : ∀ inside, i ≠ .nodes inside)
    (hinterior : mode.interior? path t = some i) : path.isForeignTo t = false := by
  rw [← Bool.not_eq_true]
  intro hforeign
  rw [Mode.interior?, if_pos hforeign] at hinterior
  exact hnodes mode (Interior.unless_eq_some_iff.mp hinterior).2.symm

/-- An element that is written without an end tag. -/
theorem takes_voidTag (h : Nears (g :: outer) inner mode b)
    (hinterior : (mode.rulesFor (path (g :: outer)) t).interior? (path (g :: outer)) t =
      some .nothing) (hvoid : t.tag.isVoid = true) :
    ∃ (f : Level) (b' : Builder), b.ComesTo (.startTag t) 3 (b', .done) ∧
      Nears (g :: outer) (f.wrap .empty) (mode.rulesFor (path (g :: outer)) t) b' ∧
      f.start = t ∧ f.older = inner := by
  obtain ⟨b₁, hrests, hfostering, hready⟩ := h.exists_ready t
  have hadded := hrests.adds hfostering (isForeignTo_of_not_nodes (by simp) hinterior) hinterior
    fun _ htag => by simp [htag, Tag.isVoid] at hvoid
  exact ⟨_, _, hready hadded.comesTo, .of_after hadded hfostering, rfl, rfl⟩

/-- An element that holds nothing, though it is written with an end tag. -/
theorem takes_nothing (h : Nears (g :: outer) inner mode b)
    (hinterior : (mode.rulesFor (path (g :: outer)) t).interior? (path (g :: outer)) t =
      some .nothing) (hvoid : t.tag.isVoid = false)
    (hend : (path (g :: outer)).endsForeign t.tag = false) :
    ∃ (f : Level) (b' b'' : Builder), b.ComesTo (.startTag t) 3 (b', .done) ∧
      b'.dropsNewline = false ∧ b'.ComesTo (.endTag t.tag) 1 (b'', .done) ∧
      Nears (g :: outer) (f.wrap .empty) (mode.rulesFor (path (g :: outer)) t) b'' ∧
      f.start = t ∧ f.older = inner := by
  obtain ⟨b₁, hrests, hfostering, hready⟩ := h.exists_ready t
  have hforeign := isForeignTo_of_not_nodes (by simp) hinterior
  have hholds := Mode.holdsNone_of_interior? hforeign (by simp) hinterior
  have hhtml := hholds.vocabularyOf_eq hforeign (by simp)
  rcases hholds.isChildless hvoid with ⟨hchildless, hplace⟩ | ⟨htable, htag, hnone⟩
  · have hadded := hrests.adds hfostering hforeign hinterior
      fun _ htag => by simp [htag, Tag.isChildless] at hchildless
    have hkept := hadded.fostering_eq.trans hfostering
    have hignored := hadded.rests_of_line.ignores hkept hchildless hplace hend
    exact ⟨_, _, _, hready hadded.comesTo, hadded.rests_of_line.dropsNewline_eq, hignored.comesTo,
      .of_after hignored hkept, rfl, rfl⟩
  · have hopen := hrests.takeOnce_tableForm hhtml htable htag hnone
    have hadded := hrests.addEmpty hhtml
    obtain ⟨hforms, htemplate⟩ := Bool.or_eq_false_iff.mp hnone
    have hform : (b₁.addEmpty t).form = none := hadded.form_eq.trans (form?_eq_none hforms)
    have hkept : (b₁.addEmpty t).fostering = false := by
      rw [Rests.addEmpty_eq hrests.toSpans hhtml mode]
      exact hfostering
    have hfresh : ∀ f ∈ g :: outer, f.id ≠ b₁.nextId :=
      fun f hf => Nat.ne_of_lt (hrests.id_lt f hf)
    rw [htag] at hend
    have hreleased := hadded.releases hkept htable hform hfresh htemplate hend
    rw [htag]
    exact ⟨_, _, _, hready (ComesTo.of_once hopen nofun), hadded.dropsNewline_eq,
      hreleased.comesTo, .of_after hreleased hkept, rfl, rfl⟩

/-- The start of an element that holds text. -/
theorem takes_textStart (h : Nears (g :: outer) inner mode b) {content : Lexer.Content}
    (hinterior : (mode.rulesFor (path (g :: outer)) t).interior? (path (g :: outer)) t =
      some (.text content)) :
    ∃ f b', b.ComesTo (.startTag t) 3 (b', .read content) ∧
      RestsBehind f (g :: outer) .empty (mode.rulesFor (path (g :: outer)) t) b' ∧
      (b'.dropsNewline = true → t.tag = .textarea) ∧ f.start = t ∧ f.older = inner := by
  obtain ⟨b₁, hrests, hfostering, hready⟩ := h.exists_ready t
  have hforeign := isForeignTo_of_not_nodes (by simp) hinterior
  obtain ⟨b', hopen, hbehind, hline⟩ := hrests.opens hfostering hforeign hinterior
  exact ⟨_, b', hready (ComesTo.of_once hopen nofun), hbehind, hline, rfl, rfl⟩

end Nears

end Builder

end Letterpress
