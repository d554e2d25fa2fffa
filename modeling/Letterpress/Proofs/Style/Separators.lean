/-
# Where styles are cut

A semicolon separates declarations where it stands outside of strings and parentheses. What
this means is said here by a grammar of the text before it (`Outside`), which knows nothing of
the scan: such a text consists of plain characters, of whole strings, of groups in parentheses
that are such texts themselves, and of closing parentheses that close nothing. The scan is cut
at exactly these semicolons (`split_cuts_outside`).

The grammar comes with two kinds of strings. A string ends at the next quote like the one that
opened it; or, as in style sheets, at the next one without a backslash before it. The scan has
the first kind. Both are the same in texts where no backslash stands before a quote, and the
statement covers the second kind for such texts. Elsewhere a semicolon within a string of a
style sheet may be taken for a separator (`escaped_quote_ends_string`).
-/

import Letterpress.Proofs.Style.Cutting
import Letterpress.Proofs.Text.Order
import Mathlib.Data.List.Basic
import Mathlib.Data.List.Induction

namespace Letterpress

namespace Style

/-! ## Strings and parentheses -/

/-- The characters that open strings. -/
def IsQuote (c : Char) : Prop := c = '"' ∨ c = '\''

instance (c : Char) : Decidable (IsQuote c) := inferInstanceAs (Decidable (_ ∨ _))

/-- Text inside a string with the quote `q`, with which the string does not end. Where escapes
count, a character behind a backslash means nothing. -/
inductive Inside (escapes : Bool) (q : Char) : Text → Prop
  | nil : Inside escapes q []
  | plain {c : Char} {t : Text} (hquote : c ≠ q) (hescape : escapes = true → c ≠ '\\')
      (hrest : Inside escapes q t) : Inside escapes q (c :: t)
  | escaped {c : Char} {t : Text} (hescapes : escapes = true) (hrest : Inside escapes q t) :
      Inside escapes q ('\\' :: c :: t)

/-- Text that closes all that it opens, and nothing else. -/
inductive Balanced (escapes : Bool) : Text → Prop
  | nil : Balanced escapes []
  | plain {c : Char} {t : Text} (hquote : ¬ IsQuote c) (hopening : c ≠ '(') (hclosing : c ≠ ')')
      (hrest : Balanced escapes t) : Balanced escapes (c :: t)
  | string {q : Char} {s t : Text} (hquote : IsQuote q) (hinside : Inside escapes q s)
      (hrest : Balanced escapes t) : Balanced escapes (q :: (s ++ q :: t))
  | group {g t : Text} (hgroup : Balanced escapes g) (hrest : Balanced escapes t) :
      Balanced escapes ('(' :: (g ++ ')' :: t))

/-- Text behind which one is outside of strings and parentheses: it closes all that it opens,
and may also have closing parentheses that close nothing. -/
inductive Outside (escapes : Bool) : Text → Prop
  | balanced {t : Text} (hbalanced : Balanced escapes t) : Outside escapes t
  | stray {t u : Text} (houtside : Outside escapes t) (hbalanced : Balanced escapes u) :
      Outside escapes (t ++ ')' :: u)

section Grammar

variable {escapes : Bool} {q c : Char} {s t u : Text}

theorem Balanced.append (ht : Balanced escapes t) (hu : Balanced escapes u) :
    Balanced escapes (t ++ u) := by
  induction ht with
  | nil => exact hu
  | plain hquote hopening hclosing _ ih => exact .plain hquote hopening hclosing ih
  | string hquote hinside _ ih =>
      simp only [List.cons_append, List.append_assoc]
      exact .string hquote hinside ih
  | group hgroup _ _ ih =>
      simp only [List.cons_append, List.append_assoc]
      exact .group hgroup ih

theorem Outside.append (ht : Outside escapes t) (hu : Balanced escapes u) :
    Outside escapes (t ++ u) := by
  cases ht with
  | balanced hbalanced => exact .balanced (hbalanced.append hu)
  | stray houtside hbalanced =>
      simp only [List.cons_append, List.append_assoc]
      exact .stray houtside (hbalanced.append hu)

/-- Without escapes a string goes on until its quote. -/
theorem inside_false_iff : Inside false q s ↔ q ∉ s := by
  constructor
  · intro h
    induction h with
    | nil => exact List.not_mem_nil
    | plain hquote _ _ ih => exact List.not_mem_cons_of_ne_of_not_mem (Ne.symm hquote) ih
    | escaped hescapes _ _ => cases hescapes
  · intro h
    induction s with
    | nil => exact .nil
    | cons c s ih =>
        rw [List.mem_cons, not_or] at h
        exact .plain (Ne.symm h.1) (fun hescapes => by cases hescapes) (ih h.2)

theorem Balanced.of_plain (hbalanced : Balanced escapes (c :: t)) (hquote : ¬ IsQuote c)
    (hopening : c ≠ '(') : Balanced escapes t := by
  generalize htext : c :: t = u at hbalanced
  cases hbalanced with
  | nil => cases htext
  | plain _ _ _ hrest =>
      cases htext
      exact hrest
  | string hopen _ _ =>
      obtain ⟨rfl, -⟩ := List.cons.inj htext
      exact absurd hopen hquote
  | group _ _ => exact absurd (List.cons.inj htext).1 hopening

theorem Outside.balanced_of_not_mem (houtside : Outside escapes t) (hclosing : ')' ∉ t) :
    Balanced escapes t := by
  cases houtside with
  | balanced hbalanced => exact hbalanced
  | stray _ _ => simp at hclosing

theorem Inside.of_plain (hinside : Inside escapes q (c :: t))
    (hescape : escapes = true → c ≠ '\\') : c ≠ q ∧ Inside escapes q t := by
  generalize htext : c :: t = u at hinside
  cases hinside with
  | nil => cases htext
  | plain hne _ hrest =>
      cases htext
      exact ⟨hne, hrest⟩
  | escaped hescapes _ => exact absurd (List.cons.inj htext).1 (hescape hescapes)

theorem Inside.of_escaped (hinside : Inside true q ('\\' :: c :: t)) : Inside true q t := by
  generalize htext : '\\' :: c :: t = u at hinside
  cases hinside with
  | nil => cases htext
  | plain _ hescape _ => exact absurd (List.cons.inj htext).1.symm (hescape rfl)
  | escaped _ hrest =>
      cases htext
      exact hrest

/-- No string is still open when it has ended. -/
theorem not_inside_append (hquote : IsQuote q) (hs : Inside escapes q s) (t : Text) :
    ¬ Inside escapes q (s ++ q :: t) := by
  have hbackslash : q ≠ '\\' := by
    rcases hquote with rfl | rfl <;> decide
  induction hs with
  | nil => exact fun h => (h.of_plain fun _ => hbackslash).1 rfl
  | plain _ hescape _ ih => exact fun h => ih (h.of_plain hescape).2
  | escaped hescapes _ ih =>
      subst hescapes
      exact fun h => ih h.of_escaped

/-- A string that goes on is not balanced. -/
theorem not_balanced_of_inside (hquote : IsQuote q) (hinside : Inside escapes q s) :
    ¬ Balanced escapes (q :: s) := by
  intro hbalanced
  generalize htext : q :: s = u at hbalanced
  cases hbalanced with
  | nil => cases htext
  | plain hplain _ _ _ =>
      obtain ⟨rfl, -⟩ := List.cons.inj htext
      exact hplain hquote
  | @string q s' t _ hs' _ =>
      obtain ⟨rfl, rfl⟩ := List.cons.inj htext
      exact not_inside_append hquote hs' t hinside
  | group _ _ =>
      obtain ⟨rfl, -⟩ := List.cons.inj htext
      rcases hquote with h | h <;> cases h

end Grammar

/-! ## Where the scan stands -/

namespace Scan

variable {q c : Char} {t u : Text} {d : Nat}

theorem step_some_self : (⟨some q, d⟩ : Scan).step q = ⟨none, d⟩ := if_pos rfl

theorem step_some_of_ne (hne : c ≠ q) : (⟨some q, d⟩ : Scan).step c = ⟨some q, d⟩ := if_neg hne

theorem step_none_quote (hquote : IsQuote c) : (⟨none, d⟩ : Scan).step c = ⟨some c, d⟩ := by
  rcases hquote with rfl | rfl <;> rfl

theorem step_none_opening : (⟨none, d⟩ : Scan).step '(' = ⟨none, d + 1⟩ := rfl

theorem step_none_closing : (⟨none, d⟩ : Scan).step ')' = ⟨none, d - 1⟩ := rfl

theorem step_none_plain (hquote : ¬ IsQuote c) (hopening : c ≠ '(') (hclosing : c ≠ ')') :
    (⟨none, d⟩ : Scan).step c = ⟨none, d⟩ := by
  simp only [IsQuote, not_or] at hquote
  simp [step, hquote, hopening, hclosing]

theorem run_inside (hinside : Inside false q t) : (⟨some q, d⟩ : Scan).run t = ⟨some q, d⟩ := by
  induction hinside with
  | nil => rfl
  | plain hquote _ _ ih => rw [run_cons, step_some_of_ne hquote, ih]
  | escaped hescapes _ _ => cases hescapes

/-- A balanced text leaves the scan where it is, at any depth. -/
theorem run_balanced (hbalanced : Balanced false t) : (⟨none, d⟩ : Scan).run t = ⟨none, d⟩ := by
  induction hbalanced generalizing d with
  | nil => rfl
  | plain hquote hopening hclosing _ ih =>
      rw [run_cons, step_none_plain hquote hopening hclosing, ih]
  | string hquote hinside _ ih =>
      rw [run_cons, step_none_quote hquote, run_append, run_inside hinside, run_cons,
        step_some_self, ih]
  | group _ _ ihgroup ihrest =>
      rw [run_cons, step_none_opening, run_append, ihgroup, run_cons, step_none_closing,
        Nat.add_sub_cancel, ihrest]

theorem run_outside (houtside : Outside false t) : top.run t = top := by
  induction houtside with
  | balanced hbalanced => exact run_balanced hbalanced
  | stray _ hbalanced ih =>
      rw [run_append, ih, run_cons]
      exact run_balanced hbalanced

/-- Text with so many parentheses left open, and no string. -/
def Opens : Nat → Text → Prop
  | 0, t => Outside false t
  | d + 1, t => ∃ u g, t = u ++ '(' :: g ∧ Opens d u ∧ Balanced false g

/-- What a text has left open, where the scan stands behind it. -/
def Leaves : Scan → Text → Prop
  | ⟨none, d⟩, t => Opens d t
  | ⟨some q, d⟩, t => ∃ u s, t = u ++ q :: s ∧ IsQuote q ∧ Opens d u ∧ Inside false q s

theorem Opens.append (ht : Opens d t) (hu : Balanced false u) : Opens d (t ++ u) := by
  cases d with
  | zero => exact Outside.append ht hu
  | succ d =>
      obtain ⟨v, g, rfl, hv, hg⟩ := ht
      exact ⟨v, g ++ u, by simp, hv, hg.append hu⟩

/-- One more character opens, closes or goes on as the scan has it. -/
theorem Leaves.step {s : Scan} (hleaves : s.Leaves t) (c : Char) :
    (s.step c).Leaves (t ++ [c]) := by
  obtain ⟨quote, d⟩ := s
  cases quote with
  | some q =>
      obtain ⟨u, s, rfl, hquote, hu, hs⟩ := hleaves
      rw [List.append_assoc, List.cons_append]
      by_cases hc : c = q
      · subst hc
        rw [step_some_self]
        exact hu.append (.string hquote hs .nil)
      · rw [step_some_of_ne hc]
        rw [inside_false_iff] at hs
        exact ⟨u, s ++ [c], rfl, hquote, hu, inside_false_iff.mpr (by simp [hs, Ne.symm hc])⟩
  | none =>
      by_cases hquote : IsQuote c
      · rw [step_none_quote hquote]
        exact ⟨t, [], rfl, hquote, hleaves, .nil⟩
      by_cases hopening : c = '('
      · subst hopening
        exact ⟨t, [], rfl, hleaves, .nil⟩
      by_cases hclosing : c = ')'
      · subst hclosing
        rw [step_none_closing]
        cases d with
        | zero => exact Outside.stray hleaves .nil
        | succ d =>
            obtain ⟨u, g, rfl, hu, hg⟩ := hleaves
            rw [List.append_assoc, List.cons_append]
            exact hu.append (.group hg .nil)
      · rw [step_none_plain hquote hopening hclosing]
        exact Opens.append hleaves (.plain hquote hopening hclosing .nil)

theorem leaves_run (t : Text) : (top.run t).Leaves t := by
  induction t using List.reverseRecOn with
  | nil => exact Outside.balanced .nil
  | append_singleton t c ih =>
      rw [run_append]
      exact ih.step c

/-- The scan is at the top exactly behind the texts of the grammar. -/
theorem run_eq_top_iff : top.run t = top ↔ Outside false t := by
  constructor
  · intro hrun
    have hleaves := leaves_run t
    rwa [hrun] at hleaves
  · exact run_outside

end Scan

/-! ## Cutting at separators -/

/-- The pieces that the text is cut into at exactly those semicolons that have a text of this
kind before them. -/
structure CutsAt (outside : Text → Prop) (t : Text) (ps : List Text) : Prop where
  ne_nil : ps ≠ []
  joined_eq : Text.joinWith ";" ps = t
  outside_iff : ∀ u v, t = u ++ ';' :: v →
    (outside u ↔ ∃ left right, left ≠ [] ∧ right ≠ [] ∧ ps = left ++ right ∧
      u = Text.joinWith ";" left ∧ v = Text.joinWith ";" right)

section Cutting

variable {s : Scan} {c : Char} {p q t : Text} {ps left right : List Text}

theorem joinWith_semicolon_cons (hne : ps ≠ []) :
    Text.joinWith ";" (p :: ps) = p ++ ';' :: Text.joinWith ";" ps := by
  obtain ⟨q, qs, rfl⟩ := List.exists_cons_of_ne_nil hne
  simp [Text.joinWith]

theorem joinWith_consFirst (hne : ps ≠ []) :
    Text.joinWith ";" (consFirst c ps) = c :: Text.joinWith ";" ps := by
  obtain ⟨p, ps, rfl⟩ := List.exists_cons_of_ne_nil hne
  cases ps <;> rfl

/-- The pieces make up the text. -/
theorem joinWith_pieces (s : Scan) (t : Text) : Text.joinWith ";" (pieces s t) = t := by
  induction t generalizing s with
  | nil => rfl
  | cons c t ih =>
      by_cases hcuts : s.cuts c
      · rw [pieces, if_pos hcuts, joinWith_semicolon_cons (pieces_ne_nil s t), ih,
          (Scan.cuts_iff.mp hcuts).2]
        rfl
      · rw [pieces, if_neg hcuts, joinWith_consFirst (pieces_ne_nil _ t), ih]

/-- The scan is at the top where one piece ends and another one begins. -/
theorem run_joinWith_of_pieces (hpieces : pieces s t = left ++ right) (hleft : left ≠ [])
    (hright : right ≠ []) : s.run (Text.joinWith ";" left) = .top := by
  induction t generalizing s left with
  | nil =>
      obtain ⟨p, ps, rfl⟩ := List.exists_cons_of_ne_nil hleft
      simp [pieces, hright] at hpieces
  | cons c t ih =>
      obtain ⟨p, ps, rfl⟩ := List.exists_cons_of_ne_nil hleft
      by_cases hcuts : s.cuts c
      · obtain ⟨rfl, rfl⟩ := Scan.cuts_iff.mp hcuts
        rw [pieces, if_pos hcuts, List.cons_append] at hpieces
        obtain ⟨rfl, hrest⟩ := List.cons.inj hpieces
        by_cases hps : ps = []
        · subst hps
          rfl
        · rw [joinWith_semicolon_cons hps]
          exact ih hrest hps
      · rw [pieces, if_neg hcuts] at hpieces
        obtain ⟨q, qs, hq⟩ := List.exists_cons_of_ne_nil (pieces_ne_nil (s.step c) t)
        rw [hq] at hpieces
        obtain ⟨rfl, rfl⟩ := List.cons.inj hpieces
        have hjoined : Text.joinWith ";" ((c :: q) :: ps) =
            c :: Text.joinWith ";" (q :: ps) := joinWith_consFirst (List.cons_ne_nil q ps)
        rw [hjoined, Scan.run_cons]
        exact ih hq (List.cons_ne_nil q ps)

/-- The scan cuts where it is at the top. -/
theorem cutsAt_pieces (t : Text) : CutsAt (Outside false) t (pieces .top t) where
  ne_nil := pieces_ne_nil .top t
  joined_eq := joinWith_pieces .top t
  outside_iff u v heq := by
    rw [← Scan.run_eq_top_iff]
    constructor
    · intro hrun
      refine ⟨pieces .top u, pieces .top v, pieces_ne_nil _ u, pieces_ne_nil _ v, ?_,
        (joinWith_pieces _ u).symm, (joinWith_pieces _ v).symm⟩
      rw [heq, pieces_append_semicolon hrun]
    · rintro ⟨left, right, hleft, hright, hpieces, rfl, -⟩
      exact run_joinWith_of_pieces hpieces hleft hright

theorem CutsAt.congr {outside outside' : Text → Prop} (hcuts : CutsAt outside t ps)
    (hsame : ∀ u v, t = u ++ ';' :: v → (outside' u ↔ outside u)) : CutsAt outside' t ps :=
  ⟨hcuts.ne_nil, hcuts.joined_eq, fun u v heq =>
    (hsame u v heq).trans (hcuts.outside_iff u v heq)⟩

/-- Behind a first piece the others cut the rest of the text. -/
theorem CutsAt.tail {outside : Text → Prop} (hcuts : CutsAt outside t (p :: ps)) (hne : ps ≠ []) :
    CutsAt (fun u => outside (p ++ ';' :: u)) (Text.joinWith ";" ps) ps where
  ne_nil := hne
  joined_eq := rfl
  outside_iff u v heq := by
    have htext : t = (p ++ ';' :: u) ++ ';' :: v := by
      rw [← hcuts.joined_eq, joinWith_semicolon_cons hne, heq, List.append_assoc,
        List.cons_append]
    rw [hcuts.outside_iff _ v htext]
    constructor
    · rintro ⟨left, right, hleft, hright, hps, hu, hv⟩
      obtain ⟨q, left, rfl⟩ := List.exists_cons_of_ne_nil hleft
      obtain ⟨rfl, rfl⟩ := List.cons.inj hps
      by_cases hnil : left = []
      · subst hnil
        simp [Text.joinWith] at hu
      · rw [joinWith_semicolon_cons hnil, List.append_cancel_left_eq, List.cons.injEq] at hu
        exact ⟨left, right, hnil, hright, rfl, hu.2, hv⟩
    · rintro ⟨left, right, hleft, hright, rfl, rfl, rfl⟩
      exact ⟨p :: left, right, List.cons_ne_nil p left, hright, rfl,
        (joinWith_semicolon_cons hleft).symm, rfl⟩

/-- The first piece of one cut begins that of another one, if there are more pieces. -/
theorem CutsAt.first_prefix {outside : Text → Prop} {qs : List Text}
    (hcuts : CutsAt outside t (p :: ps)) (hcuts' : CutsAt outside t (q :: qs)) (hne : ps ≠ []) :
    q <+: p ∧ qs ≠ [] := by
  have htext : t = p ++ ';' :: Text.joinWith ";" ps := by
    rw [← hcuts.joined_eq, joinWith_semicolon_cons hne]
  have houtside : outside p := (hcuts.outside_iff _ _ htext).mpr
    ⟨[p], ps, List.cons_ne_nil p [], hne, rfl, rfl, rfl⟩
  obtain ⟨left, right, hleft, hright, hqs, hp, -⟩ := (hcuts'.outside_iff _ _ htext).mp houtside
  obtain ⟨q', left, rfl⟩ := List.exists_cons_of_ne_nil hleft
  obtain ⟨rfl, rfl⟩ := List.cons.inj hqs
  refine ⟨?_, by simp [hright]⟩
  by_cases hnil : left = []
  · subst hnil
    exact hp ▸ List.prefix_refl _
  · rw [hp, joinWith_semicolon_cons hnil]
    exact List.prefix_append _ _

/-- A text is cut in one way. -/
theorem CutsAt.unique {outside : Text → Prop} {qs : List Text} (hcuts : CutsAt outside t ps)
    (hcuts' : CutsAt outside t qs) : ps = qs := by
  induction ps generalizing outside t qs with
  | nil => exact absurd rfl hcuts.ne_nil
  | cons p ps ih =>
      obtain ⟨q, qs, rfl⟩ := List.exists_cons_of_ne_nil hcuts'.ne_nil
      by_cases hps : ps = []
      · have hqs : qs = [] := by
          by_contra hne
          exact (hcuts'.first_prefix hcuts hne).2 hps
        subst hps hqs
        have hsame := hcuts.joined_eq.trans hcuts'.joined_eq.symm
        exact congrArg (· :: []) hsame
      · obtain ⟨hqp, hqs⟩ := hcuts.first_prefix hcuts' hps
        obtain ⟨hpq, -⟩ := hcuts'.first_prefix hcuts hqs
        obtain rfl : q = p := hqp.eq_of_length_le hpq.length_le
        have hsame := hcuts.joined_eq.trans hcuts'.joined_eq.symm
        rw [joinWith_semicolon_cons hps, joinWith_semicolon_cons hqs,
          List.append_cancel_left_eq, List.cons.injEq] at hsame
        have htail := hcuts'.tail hqs
        rw [← hsame.2] at htail
        rw [ih (hcuts.tail hps) htail]

end Cutting

/-! ## Escaped quotes -/

/-- No backslash stands before a quote. -/
def EscapesNoQuote (t : Text) : Prop := ¬ ['\\', '"'] <:+: t ∧ ¬ ['\\', '\''] <:+: t

instance (t : Text) : Decidable (EscapesNoQuote t) :=
  decidable_of_iff (Text.occursIn ['\\', '"'] t = false ∧ Text.occursIn ['\\', '\''] t = false)
    (by rw [EscapesNoQuote, ← Text.occursIn_iff, ← Text.occursIn_iff, Bool.not_eq_true,
      Bool.not_eq_true])

section Escapes

variable {escapes escapes' : Bool} {q : Char} {s t u v : Text}

theorem EscapesNoQuote.of_part (hnone : EscapesNoQuote t) (hpart : u <:+: t) :
    EscapesNoQuote u :=
  ⟨fun h => hnone.1 (h.trans hpart), fun h => hnone.2 (h.trans hpart)⟩

theorem EscapesNoQuote.not_escaped (hnone : EscapesNoQuote t) (hquote : IsQuote q) :
    ¬ ['\\', q] <:+: t := by
  rcases hquote with rfl | rfl
  · exact hnone.1
  · exact hnone.2

theorem not_mem_of_inside (hquote : IsQuote q) (hnone : ¬ ['\\', q] <:+: s)
    (hinside : Inside escapes q s) : q ∉ s := by
  induction hinside with
  | nil => exact List.not_mem_nil
  | @plain c t hc _ _ ih =>
      have hrest : ¬ ['\\', q] <:+: t := fun h => hnone (h.trans (List.suffix_cons c t).isInfix)
      exact List.not_mem_cons_of_ne_of_not_mem (Ne.symm hc) (ih hrest)
  | @escaped c t _ _ ih =>
      have hrest : ¬ ['\\', q] <:+: t := fun h =>
        hnone (h.trans (List.suffix_append ['\\', c] t).isInfix)
      have hc : q ≠ c := by
        rintro rfl
        exact hnone (List.prefix_append ['\\', q] t).isInfix
      have hbackslash : q ≠ '\\' := by
        rcases hquote with rfl | rfl <;> decide
      exact List.not_mem_cons_of_ne_of_not_mem hbackslash
        (List.not_mem_cons_of_ne_of_not_mem hc (ih hrest))

/-- Text without the quote is inside a string, unless it ends with a backslash that escapes the
quote behind it. -/
theorem inside_of_not_mem : ∀ s : Text, ¬ ['\\', q] <:+: s ++ [q] → q ∉ s → Inside escapes q s
  | [], _, _ => .nil
  | [c], hnone, hmem => by
      have hc : c ≠ '\\' := by
        rintro rfl
        exact hnone (List.infix_refl _)
      exact .plain (List.ne_of_not_mem_cons hmem).symm (fun _ => hc) .nil
  | c :: d :: t, hnone, hmem => by
      by_cases hescape : escapes = true ∧ c = '\\'
      · obtain ⟨hescapes, rfl⟩ := hescape
        have hrest : ¬ ['\\', q] <:+: t ++ [q] := fun h =>
          hnone (h.trans (List.suffix_append ['\\', d] (t ++ [q])).isInfix)
        simp only [List.mem_cons, not_or] at hmem
        exact .escaped hescapes (inside_of_not_mem t hrest hmem.2.2)
      · have hrest : ¬ ['\\', q] <:+: d :: t ++ [q] := fun h =>
          hnone (h.trans (List.suffix_cons c (d :: t ++ [q])).isInfix)
        have hplain : escapes = true → c ≠ '\\' := fun h hc => hescape ⟨h, hc⟩
        exact .plain (List.ne_of_not_mem_cons hmem).symm hplain
          (inside_of_not_mem (d :: t) hrest (List.not_mem_of_not_mem_cons hmem))

/-- Where no quote is escaped, strings are the same with escapes and without. -/
theorem Balanced.change (hbalanced : Balanced escapes t) (hnone : EscapesNoQuote t) :
    Balanced escapes' t := by
  induction hbalanced with
  | nil => exact .nil
  | @plain c t hquote hopening hclosing _ ih =>
      exact .plain hquote hopening hclosing
        (ih (hnone.of_part (List.suffix_cons c t).isInfix))
  | @string q s t hquote hinside _ ih =>
      have hstring : s ++ [q] <:+: q :: (s ++ q :: t) := ⟨[q], t, by simp⟩
      have hescape := (hnone.of_part hstring).not_escaped hquote
      have hmem := not_mem_of_inside hquote
        (fun h => hescape (h.trans (List.prefix_append s [q]).isInfix)) hinside
      have hrest : t <:+: q :: (s ++ q :: t) := ⟨q :: (s ++ [q]), [], by simp⟩
      exact .string hquote (inside_of_not_mem s hescape hmem) (ih (hnone.of_part hrest))
  | @group g t _ _ ihgroup ihrest =>
      have hgroup : g <:+: '(' :: (g ++ ')' :: t) := ⟨['('], ')' :: t, by simp⟩
      have hrest : t <:+: '(' :: (g ++ ')' :: t) := ⟨'(' :: (g ++ [')']), [], by simp⟩
      exact .group (ihgroup (hnone.of_part hgroup)) (ihrest (hnone.of_part hrest))

theorem Outside.change (houtside : Outside escapes t) (hnone : EscapesNoQuote t) :
    Outside escapes' t := by
  induction houtside with
  | balanced hbalanced => exact .balanced (hbalanced.change hnone)
  | @stray t u _ hbalanced ih =>
      have ht : t <:+: t ++ ')' :: u := ⟨[], ')' :: u, rfl⟩
      have hu : u <:+: t ++ ')' :: u := ⟨t ++ [')'], [], by simp⟩
      exact .stray (ih (hnone.of_part ht)) (hbalanced.change (hnone.of_part hu))

end Escapes

/-- A style text is cut at exactly the semicolons that stand outside of strings and parentheses,
in the one way there is, and the pieces that are not blank are kept in order. A backslash means
nothing in strings; the same holds of strings in which quotes can be escaped, as long as the
text escapes none. -/
theorem split_cuts_outside {escapes : Bool} {t : Text}
    (hescapes : escapes = true → EscapesNoQuote t) :
    ∃ ps, (∀ qs, CutsAt (Outside escapes) t qs ↔ qs = ps) ∧
      split t = ps.filter fun p => !Text.isBlankText p := by
  have hsame : ∀ u v, t = u ++ ';' :: v → (Outside escapes u ↔ Outside false u) := by
    intro u v heq
    cases escapes with
    | false => rfl
    | true =>
        have hnone : EscapesNoQuote u :=
          (hescapes rfl).of_part (heq ▸ (List.prefix_append u (';' :: v)).isInfix)
        exact ⟨fun h => h.change hnone, fun h => h.change hnone⟩
  have hpieces := (cutsAt_pieces t).congr hsame
  refine ⟨pieces .top t, fun qs => ⟨fun hqs => hqs.unique hpieces, ?_⟩, rfl⟩
  rintro rfl
  exact hpieces

section Sample

/-- Quotes in parentheses, parentheses in quotes, a closing parenthesis too many, and a backslash
that escapes no quote. -/
def mixedStyle : Text := "a: url(\";)\"); b: ')(\\;'; ;);c: \\"

theorem split_cuts_outside_mixed :
    EscapesNoQuote mixedStyle ∧
    ∃ ps, (∀ qs, CutsAt (Outside true) mixedStyle qs ↔ qs = ps) ∧
      ps.filter (fun p => !Text.isBlankText p) =
        ["a: url(\";)\")".toList, " b: ')(\\;'".toList, ")".toList, "c: \\".toList] := by
  have hnone : EscapesNoQuote mixedStyle := by decide
  obtain ⟨ps, hcuts, hsplit⟩ := @split_cuts_outside true mixedStyle fun _ => hnone
  refine ⟨hnone, ps, hcuts, ?_⟩
  rw [← hsplit]
  decide

/-- A string that holds an escaped quote, and a semicolon behind it. -/
def escapedStyle : Text := "a:\"\\\";b\""

/-- The text before the semicolon leaves its string open, as the second quote is escaped. -/
theorem not_outside_escapedStyle : ¬ Outside true ['a', ':', '"', '\\', '"'] := by
  intro houtside
  have hclosing : ')' ∉ ['a', ':', '"', '\\', '"'] := by decide
  have hbalanced := houtside.balanced_of_not_mem hclosing
  have hstring : Balanced true ('"' :: ['\\', '"']) :=
    (hbalanced.of_plain (by decide) (by decide)).of_plain (by decide) (by decide)
  exact not_balanced_of_inside (.inl rfl) (.escaped rfl .nil) hstring

/-- The semicolon stands in a string of a style sheet, but the style is cut there. -/
theorem escaped_quote_ends_string :
    ¬ ∃ ps, CutsAt (Outside true) escapedStyle ps ∧
      split escapedStyle = ps.filter fun p => !Text.isBlankText p := by
  rintro ⟨ps, hcuts, hsplit⟩
  have hwhole : CutsAt (Outside true) escapedStyle [escapedStyle] := by
    refine ⟨List.cons_ne_nil _ _, rfl, fun u v heq => ?_⟩
    have htext : escapedStyle = ['a', ':', '"', '\\', '"'] ++ ';' :: ['b', '"'] := rfl
    obtain ⟨rfl, -, -⟩ := (List.append_cons_inj_of_notMem (by decide) (by decide)).mp
      (htext.symm.trans heq)
    refine iff_of_false not_outside_escapedStyle ?_
    rintro ⟨left, right, hleft, hright, hps, -⟩
    have hlength := congrArg List.length hps
    have := List.length_pos_of_ne_nil hleft
    have := List.length_pos_of_ne_nil hright
    simp only [List.length_singleton, List.length_append] at hlength
    omega
  rw [hcuts.unique hwhole] at hsplit
  revert hsplit
  decide

end Sample

end Style

end Letterpress
