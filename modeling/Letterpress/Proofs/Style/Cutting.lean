/-
# Cutting styles into declarations

How the scan of a style text behaves when texts are put together. A piece that
is begun before a seam goes on behind it (`exists_last_piece`); a semicolon
behind a text that closes its quotes and parentheses ends a piece
(`declarations_append_semicolon`). A whole text is one that closes and is cut
nowhere; every piece of a text that closes is whole.

Nothing is assumed of the texts but what a statement says: unopened parentheses
that close, pieces without a colon and blank pieces are all covered.
-/

import Letterpress.Proofs.Text.Splitting
import Letterpress.Proofs.Text.Trimming
import Letterpress.Style.Declaration

namespace Letterpress

namespace Style

/-! ## The scan -/

namespace Scan

variable (s : Scan) (c : Char) (t u : Text)

@[simp]
theorem run_nil : s.run [] = s := rfl

@[simp]
theorem run_cons : s.run (c :: t) = (s.step c).run t := rfl

theorem run_append : s.run (t ++ u) = (s.run t).run u := List.foldl_append

/-- Only a semicolon outside quotes and parentheses separates. -/
theorem cuts_iff {s : Scan} {c : Char} : s.cuts c = true ↔ s = top ∧ c = ';' := by
  obtain ⟨quote, depth⟩ := s
  simp [cuts, top, and_assoc]

/-- A separator leaves the scan where it is. -/
theorem step_of_cuts {s : Scan} {c : Char} (hcuts : s.cuts c = true) : s.step c = s := by
  obtain ⟨rfl, rfl⟩ := cuts_iff.mp hcuts
  rfl

/-- The quotes that a scan can be inside of. -/
def IsValid (s : Scan) : Prop := ∀ q ∈ s.quote, q = '"' ∨ q = '\''

theorem isValid_top : top.IsValid := by simp [IsValid, top]

theorem IsValid.step {s : Scan} (hvalid : s.IsValid) (c : Char) : (s.step c).IsValid := by
  obtain ⟨quote, depth⟩ := s
  cases quote with
  | some q =>
      simp only [Scan.step]
      split
      · simp [IsValid]
      · exact hvalid
  | none =>
      simp only [Scan.step]
      split
      · rename_i hquote
        simpa [IsValid] using hquote
      · split
        · simp [IsValid]
        · split <;> simp [IsValid]

theorem IsValid.run {s : Scan} (hvalid : s.IsValid) (t : Text) : (s.run t).IsValid := by
  induction t generalizing s with
  | nil => exact hvalid
  | cons c t ih => exact ih (hvalid.step c)

/-- The characters that mean something to the scan. -/
def isMark (c : Char) : Bool := c == '"' || c == '\'' || c == '(' || c == ')' || c == ';'

/-- Other characters leave a scan where it is. -/
theorem step_of_not_isMark {s : Scan} (hvalid : s.IsValid) {c : Char}
    (hplain : isMark c = false) : s.step c = s := by
  obtain ⟨quote, depth⟩ := s
  cases quote with
  | none => simp_all [isMark, Scan.step]
  | some q =>
      have hne : c ≠ q := by
        rintro rfl
        rcases hvalid c rfl with rfl | rfl <;> simp [isMark] at hplain
      simp [Scan.step, hne]

theorem run_of_not_isMark {s : Scan} (hvalid : s.IsValid) {t : Text}
    (hplain : t.all fun c => !isMark c) : s.run t = s := by
  induction t with
  | nil => rfl
  | cons c t ih =>
      simp only [List.all_cons, Bool.and_eq_true, Bool.not_eq_true'] at hplain
      rw [run_cons, step_of_not_isMark hvalid hplain.1, ih hplain.2]

/-- A semicolon never opens or closes anything. -/
theorem step_semicolon {s : Scan} (hvalid : s.IsValid) : s.step ';' = s := by
  obtain ⟨quote, depth⟩ := s
  cases quote with
  | none => rfl
  | some q =>
      have hne : ';' ≠ q := by
        rcases hvalid q rfl with rfl | rfl <;> decide
      simp [Scan.step, hne]

theorem run_semicolons {s : Scan} (hvalid : s.IsValid) {w : Text} (hw : w.all (· == ';')) :
    s.run w = s := by
  induction w with
  | nil => rfl
  | cons c w ih =>
      simp only [List.all_cons, Bool.and_eq_true, beq_iff_eq] at hw
      rw [run_cons, hw.1, step_semicolon hvalid, ih hw.2]

theorem not_isMark_of_isBlank {c : Char} (hblank : isBlank c = true) : isMark c = false := by
  rw [← Bool.not_eq_true]
  intro hmark
  simp only [isMark, Bool.or_eq_true, beq_iff_eq] at hmark
  rcases hmark with (((rfl | rfl) | rfl) | rfl) | rfl <;> simp [isBlank] at hblank

theorem not_isMark_of_all_isBlank {w : Text} (hblank : w.all isBlank) :
    w.all fun c => !isMark c := by
  simp only [List.all_eq_true] at hblank ⊢
  intro c hc
  rw [not_isMark_of_isBlank (hblank c hc), Bool.not_false]

end Scan

/-! ## Pieces -/

theorem consFirst_ne_nil (c : Char) (ps : List Text) : consFirst c ps ≠ [] := by
  cases ps <;> simp [consFirst]

theorem pieces_ne_nil (s : Scan) (t : Text) : pieces s t ≠ [] := by
  cases t with
  | nil => simp [pieces]
  | cons c t =>
      rw [pieces]
      split
      · simp
      · exact consFirst_ne_nil c _

/-- The last piece of a text goes on in what follows the text; the pieces before it are
settled. -/
theorem exists_last_piece (s : Scan) (t : Text) :
    ∃ ps p, pieces s t = ps ++ [p] ∧
      ∀ u, pieces s (t ++ u) = ps ++ (pieces (s.run t) u).modifyHead (p ++ ·) := by
  induction t generalizing s with
  | nil =>
      refine ⟨[], [], rfl, ?_⟩
      intro u
      cases h : pieces s u with
      | nil => exact absurd h (pieces_ne_nil s u)
      | cons q qs => simp [h]
  | cons c t ih =>
      by_cases hcuts : s.cuts c
      · obtain ⟨ps, p, hpieces, happend⟩ := ih s
        refine ⟨[] :: ps, p, ?_, ?_⟩
        · rw [pieces, if_pos hcuts, hpieces, List.cons_append]
        · intro u
          rw [List.cons_append, pieces, if_pos hcuts, happend, Scan.run_cons,
            Scan.step_of_cuts hcuts, List.cons_append]
      · obtain ⟨ps, p, hpieces, happend⟩ := ih (s.step c)
        have hcons (u : Text) :
            pieces s (c :: (t ++ u)) = consFirst c (pieces (s.step c) (t ++ u)) := by
          rw [pieces, if_neg hcuts]
        cases ps with
        | nil =>
            refine ⟨[], c :: p, ?_, ?_⟩
            · rw [pieces, if_neg hcuts, hpieces]
              rfl
            · intro u
              rw [List.cons_append, hcons, happend, List.nil_append, List.nil_append,
                Scan.run_cons]
              cases h : pieces ((s.step c).run t) u with
              | nil => exact absurd h (pieces_ne_nil _ u)
              | cons q qs => rfl
        | cons q qs =>
            refine ⟨(c :: q) :: qs, p, ?_, ?_⟩
            · rw [pieces, if_neg hcuts, hpieces]
              rfl
            · intro u
              rw [List.cons_append, hcons, happend]
              rfl

/-- A separator outside quotes and parentheses ends the piece before it. -/
theorem pieces_append_semicolon {s : Scan} {t : Text} (hcloses : s.run t = .top) (u : Text) :
    pieces s (t ++ ';' :: u) = pieces s t ++ pieces .top u := by
  obtain ⟨ps, p, hpieces, happend⟩ := exists_last_piece s t
  have hseparated : pieces .top (';' :: u) = [] :: pieces .top u := rfl
  rw [happend, hpieces, hcloses, hseparated]
  simp

/-! ## Whole texts -/

/-- The scan gets from `s` to `s'` over the text without a separator. -/
def Crosses (s : Scan) (t : Text) (s' : Scan) : Prop := s.run t = s' ∧ pieces s t = [t]

/-- A text that closes its quotes and parentheses and has no separator outside of them. -/
def IsWhole (t : Text) : Prop := Crosses .top t .top

instance (s : Scan) (t : Text) (s' : Scan) : Decidable (Crosses s t s') :=
  inferInstanceAs (Decidable (_ ∧ _))

instance (t : Text) : Decidable (IsWhole t) := inferInstanceAs (Decidable (Crosses _ _ _))

theorem crosses_nil (s : Scan) : Crosses s [] s := ⟨rfl, rfl⟩

theorem crosses_cons {s s' : Scan} {c : Char} {t : Text} :
    Crosses s (c :: t) s' ↔ s.cuts c = false ∧ Crosses (s.step c) t s' := by
  cases hcuts : s.cuts c with
  | true =>
      have hpieces : pieces s (c :: t) = [] :: pieces s t := by rw [pieces, if_pos hcuts]
      simp [Crosses, hpieces]
  | false =>
      have hpieces : pieces s (c :: t) = consFirst c (pieces (s.step c) t) := by
        rw [pieces, hcuts, if_neg (by simp)]
      cases h : pieces (s.step c) t with
      | nil => exact absurd h (pieces_ne_nil _ t)
      | cons p ps => simp [Crosses, hpieces, h, consFirst]

theorem crosses_append {s s' : Scan} {t u : Text} :
    Crosses s (t ++ u) s' ↔ Crosses s t (s.run t) ∧ Crosses (s.run t) u s' := by
  induction t generalizing s with
  | nil => simp [crosses_nil]
  | cons c t ih =>
      rw [List.cons_append, crosses_cons, crosses_cons, ih, Scan.run_cons, and_assoc]

theorem Crosses.append {s s' s'' : Scan} {t u : Text} (hfirst : Crosses s t s')
    (hsecond : Crosses s' u s'') : Crosses s (t ++ u) s'' := by
  rw [crosses_append, hfirst.1]
  exact ⟨hfirst, hsecond⟩

/-- Texts without marks are crossed from anywhere. -/
theorem crosses_of_not_isMark {s : Scan} (hvalid : s.IsValid) {t : Text}
    (hplain : t.all fun c => !Scan.isMark c) : Crosses s t s := by
  induction t with
  | nil => exact crosses_nil s
  | cons c t ih =>
      simp only [List.all_cons, Bool.and_eq_true, Bool.not_eq_true'] at hplain
      have hne : c ≠ ';' := by
        rintro rfl
        simp [Scan.isMark] at hplain
      rw [crosses_cons, Scan.step_of_not_isMark hvalid hplain.1]
      exact ⟨by simp [Scan.cuts, hne], ih hplain.2⟩

theorem isWhole_of_not_isMark {t : Text} (hplain : t.all fun c => !Scan.isMark c) :
    IsWhole t := crosses_of_not_isMark Scan.isValid_top hplain

theorem IsWhole.append {t u : Text} (hfirst : IsWhole t) (hsecond : IsWhole u) :
    IsWhole (t ++ u) := Crosses.append hfirst hsecond

theorem IsWhole.closes {t : Text} (hwhole : IsWhole t) : closes t = true := by
  simp [Style.closes, hwhole.1]

theorem run_top_of_closes {t : Text} (hcloses : closes t = true) : Scan.top.run t = .top := by
  simpa [closes] using hcloses

/-- Blanks around a text that is crossed do not matter. -/
theorem crosses_trim {s s' : Scan} (hvalid : s.IsValid) {t : Text} (hcrosses : Crosses s t s') :
    Crosses s (Text.trim t) s' := by
  obtain ⟨v, w, hv, hw, heq⟩ := Text.exists_trim_eq t
  have hstart : s.run v = s :=
    Scan.run_of_not_isMark hvalid (Scan.not_isMark_of_all_isBlank hv)
  rw [heq, crosses_append, crosses_append, hstart] at hcrosses
  obtain ⟨-, htrim, hend⟩ := hcrosses
  have hrun : s.run (Text.trim t) = s' :=
    (Scan.run_of_not_isMark (hvalid.run _)
      (Scan.not_isMark_of_all_isBlank hw)).symm.trans hend.1
  rwa [hrun] at htrim

theorem isWhole_trim {t : Text} (hwhole : IsWhole t) : IsWhole (Text.trim t) :=
  crosses_trim Scan.isValid_top hwhole

/-- The first piece of a text leads as far as the text does if that is the top, and the
pieces behind it are whole. -/
theorem exists_first_piece {s : Scan} {t : Text} (hrun : s.run t = .top) :
    ∃ q qs, pieces s t = q :: qs ∧ Crosses s q .top ∧ ∀ p ∈ qs, IsWhole p := by
  induction t generalizing s with
  | nil =>
      subst hrun
      exact ⟨[], [], rfl, crosses_nil _, by simp⟩
  | cons c t ih =>
      by_cases hcuts : s.cuts c
      · rw [Scan.run_cons, Scan.step_of_cuts hcuts] at hrun
        obtain ⟨q, qs, hpieces, hq, hqs⟩ := ih hrun
        obtain ⟨rfl, -⟩ := Scan.cuts_iff.mp hcuts
        refine ⟨[], q :: qs, by rw [pieces, if_pos hcuts, hpieces], crosses_nil _, ?_⟩
        intro p hp
        rcases List.mem_cons.mp hp with rfl | hp
        · exact hq
        · exact hqs p hp
      · obtain ⟨q, qs, hpieces, hq, hqs⟩ := ih (s := s.step c) hrun
        refine ⟨c :: q, qs, by rw [pieces, if_neg hcuts, hpieces]; rfl, ?_, hqs⟩
        exact crosses_cons.mpr ⟨by simpa using hcuts, hq⟩

/-- The pieces of a text that closes are whole. -/
theorem isWhole_of_mem_pieces {t p : Text} (hcloses : closes t = true)
    (hmem : p ∈ pieces .top t) : IsWhole p := by
  obtain ⟨q, qs, hpieces, hq, hqs⟩ := exists_first_piece (run_top_of_closes hcloses)
  rw [hpieces] at hmem
  rcases List.mem_cons.mp hmem with rfl | hmem
  · exact hq
  · exact hqs p hmem

/-- A text is a single piece, or its last piece stands behind a text that closes and a
separator. -/
theorem pieces_eq_singleton_or (s : Scan) (t : Text) :
    pieces s t = [t] ∨
      ∃ u p, t = u ++ ';' :: p ∧ s.run u = .top ∧ pieces .top p = [p] := by
  induction t generalizing s with
  | nil => exact .inl rfl
  | cons c t ih =>
      by_cases hcuts : s.cuts c
      · obtain ⟨rfl, rfl⟩ := Scan.cuts_iff.mp hcuts
        rcases ih .top with hone | ⟨u, p, rfl, hrun, hp⟩
        · exact .inr ⟨[], t, rfl, rfl, hone⟩
        · exact .inr ⟨';' :: u, p, rfl, hrun, hp⟩
      · rcases ih (s.step c) with hone | ⟨u, p, rfl, hrun, hp⟩
        · rw [pieces, if_neg hcuts, hone]
          exact .inl rfl
        · exact .inr ⟨c :: u, p, rfl, hrun, hp⟩

/-! ## Declarations -/

theorem colon_not_mem {w : Text} (hblank : w.all isBlank) : ':' ∉ w := by
  intro hmem
  have := List.all_eq_true.mp hblank ':' hmem
  simp [isBlank] at this

/-- Blanks around a piece do not matter. -/
theorem declaration?_append_blank {v w : Text} (hv : v.all isBlank) (hw : w.all isBlank)
    (p : Text) : declaration? (v ++ (p ++ w)) = declaration? p := by
  rw [declaration?, declaration?, Text.splitAtFirst_append (colon_not_mem hv),
    Text.splitAtFirst_append_right (colon_not_mem hw), Option.map_map]
  cases Text.splitAtFirst ':' p with
  | none => rfl
  | some parts =>
      obtain ⟨property, value⟩ := parts
      have hproperty := Text.trim_append_blank hv (w := []) rfl property
      have hvalue := Text.trim_append_blank_right hw value
      rw [List.append_nil] at hproperty
      simp [hproperty, hvalue]

theorem declaration?_of_isBlankText {p : Text} (hblank : Text.isBlankText p = true) :
    declaration? p = none := by
  rw [declaration?, Text.splitAtFirst_eq_none (colon_not_mem hblank), Option.bind_none]

/-- Blank pieces hold no declaration, so dropping them first changes nothing. -/
theorem declarations_eq_filterMap (t : Text) :
    declarations t = (pieces .top t).filterMap declaration? := by
  rw [declarations, split, List.filterMap_filter]
  congr 1
  funext p
  cases hblank : Text.isBlankText p with
  | true => simp [declaration?_of_isBlankText hblank]
  | false => simp

theorem declarations_of_isBlankText {t : Text} (hblank : Text.isBlankText t = true) :
    declarations t = [] := by
  have hpiece := crosses_of_not_isMark Scan.isValid_top (Scan.not_isMark_of_all_isBlank hblank)
  rw [declarations_eq_filterMap, hpiece.2]
  simp [declaration?_of_isBlankText hblank]

/-- A style text that closes and one behind a semicolon are read one after the other. -/
theorem declarations_append_semicolon {t : Text} (hcloses : closes t = true) (u : Text) :
    declarations (t ++ ';' :: u) = declarations t ++ declarations u := by
  simp only [declarations_eq_filterMap]
  rw [pieces_append_semicolon (run_top_of_closes hcloses), List.filterMap_append]

/-- Blanks before a style text do not matter. -/
theorem declarations_append_blank_left {v : Text} (hv : v.all isBlank) (t : Text) :
    declarations (v ++ t) = declarations t := by
  have hcrosses := crosses_of_not_isMark Scan.isValid_top (Scan.not_isMark_of_all_isBlank hv)
  obtain ⟨ps, p, hpieces, happend⟩ := exists_last_piece .top v
  rw [hcrosses.2] at hpieces
  obtain ⟨rfl, rfl⟩ : ps = [] ∧ p = v := by
    cases ps with
    | nil => simpa [eq_comm] using hpieces
    | cons q qs => simp at hpieces
  rw [declarations_eq_filterMap, declarations_eq_filterMap, happend, hcrosses.1]
  cases hrest : pieces .top t with
  | nil => exact absurd hrest (pieces_ne_nil _ t)
  | cons q qs =>
      have hfirst := declaration?_append_blank hv (w := []) rfl q
      rw [List.append_nil] at hfirst
      simp [List.filterMap_cons, hfirst]

/-- Blanks behind a style text do not matter. -/
theorem declarations_append_blank_right {w : Text} (hw : w.all isBlank) (t : Text) :
    declarations (t ++ w) = declarations t := by
  obtain ⟨ps, p, hpieces, happend⟩ := exists_last_piece .top t
  have hblank := crosses_of_not_isMark (Scan.isValid_top.run t)
    (Scan.not_isMark_of_all_isBlank hw)
  have hlast := declaration?_append_blank (v := []) rfl hw p
  rw [declarations_eq_filterMap, declarations_eq_filterMap, happend, hpieces, hblank.2]
  rw [List.nil_append] at hlast
  simp only [List.modifyHead_cons, List.filterMap_append, List.filterMap_cons, hlast]

end Style

end Letterpress
