/-
# Feeding a reader

A reader hands each token to the tree as soon as a character completes it. Where
the rules use up every token and the current element is plain markup throughout
(`Builder.Takes`), the tree never changes how the text goes on being read, so
tokens and tree can be looked at separately: `Reader.read_eq` puts together what
the lexer reads and what the builder makes of it. A token may be handed on from rule
to rule before it is used up; `Builder.Settles` counts how often, since the reader
allows only so many times.
-/

import Letterpress.Markup.Parsing
import Letterpress.Proofs.Markup.Scanning

namespace Letterpress

open Lexer

/-- The tokens are used up one after another, and plain markup is current after each. -/
inductive Builder.Takes : Builder → List Token → Builder → Prop
  | nil (b : Builder) : Takes b [] b
  | cons {b b' b'' : Builder} {token : Token} {tokens : List Token}
      (htake : b.take token = (b', .done)) (hcurrent : b'.current.vocabulary = .html)
      (hrest : Takes b' tokens b'') : Takes b (token :: tokens) b''

namespace Builder

variable {b b' b'' : Builder} {token : Token} {hops : Nat}

/-! ## Tokens that are handed on -/

/-- The rules come to this result if they may hand the token on so many times or more. -/
def ComesTo (b : Builder) (token : Token) (hops : Nat) (result : Builder × Next) : Prop :=
  ∀ n, hops ≤ n → b.takeWithin n token = result

/-- The token is used up if it may be handed on so many times or more. -/
def Settles (b : Builder) (token : Token) (hops : Nat) (b' : Builder) : Prop :=
  b.ComesTo token hops (b', .done)

theorem ComesTo.of_once {next : Next} (honce : b.takeOnce token = (b', next))
    (hnext : next ≠ .again) : b.ComesTo token 1 (b', next) := by
  intro n hn
  obtain ⟨n, rfl⟩ := Nat.exists_eq_add_of_le' hn
  simp only [takeWithin, honce]
  cases next with
  | again => exact absurd rfl hnext
  | done | read | scriptEnded => rfl

theorem ComesTo.of_again {result : Builder × Next} (honce : b.takeOnce token = (b', .again))
    (hrest : b'.ComesTo token hops result) : b.ComesTo token (hops + 1) result := by
  intro n hn
  obtain ⟨n, rfl⟩ := Nat.exists_eq_add_of_le' hn
  have hwithin := hrest (n + hops) (Nat.le_add_left hops n)
  show takeWithin (n + hops + 1) b token = _
  simp only [takeWithin, honce, hwithin]

theorem Settles.of_done (honce : b.takeOnce token = (b', .done)) : b.Settles token 1 b' :=
  ComesTo.of_once honce nofun

theorem Settles.of_again (honce : b.takeOnce token = (b', .again))
    (hrest : b'.Settles token hops b'') : b.Settles token (hops + 1) b'' :=
  ComesTo.of_again honce hrest

/-- While no foreign element is current, the mode decides. -/
theorem takeOnce_eq (hcurrent : b.current.vocabulary = .html) (token : Token) :
    b.takeOnce token = b.modeRule token := by
  have hforeign : b.isForeign token = false := if_pos (beq_iff_eq.mpr hcurrent)
  rw [takeOnce, hforeign]
  rfl

/-- What the rules come to soon is what becomes of a token, unless it is a line feed that is
dropped. -/
theorem ComesTo.take_eq {result : Builder × Next}
    (hcomes : ({ b with dropsNewline := false } : Builder).ComesTo token hops result)
    (hhops : hops ≤ 16) (hline : b.dropsNewline = false ∨ token ≠ .char '\n')
    (hkind : token ≠ .flaw ∧ ∀ d, token ≠ .doctype d) : b.take token = result := by
  have hkept : (b.dropsNewline && decide (token = .char '\n')) = false := by
    rcases hline with hline | hother
    · rw [hline, Bool.false_and]
    · rw [decide_eq_false hother, Bool.and_false]
  have hwithin := hcomes (4 * b.stack.length + 16) (by omega)
  unfold Builder.take
  simp only [hkept, Bool.false_eq_true, if_false]
  split
  · exact absurd rfl hkind.1
  · rename_i d
    exact absurd rfl (hkind.2 d)
  · exact hwithin

/-- A token that settles soon is taken. -/
theorem Settles.take_eq (hsettles : b.Settles token hops b') (hhops : hops ≤ 16)
    (hline : b.dropsNewline = false) (hkind : token ≠ .flaw ∧ ∀ d, token ≠ .doctype d) :
    b.take token = (b', .done) := by
  have hready : ({ b with dropsNewline := false } : Builder) = b := by rw [← hline]
  exact ComesTo.take_eq (hready ▸ hsettles) hhops (.inl hline) hkind

end Builder

namespace Builder.Takes

variable {b b' b'' : Builder} {tokens more : List Token}

theorem single {token : Token} (htake : b.take token = (b', .done))
    (hcurrent : b'.current.vocabulary = .html) : Takes b [token] b' :=
  .cons htake hcurrent (.nil b')

theorem append (hfirst : Takes b tokens b') (hsecond : Takes b' more b'') :
    Takes b (tokens ++ more) b'' := by
  induction hfirst with
  | nil => exact hsecond
  | cons htake hcurrent _ ih => exact .cons htake hcurrent (ih hsecond)

theorem split (htakes : Takes b (tokens ++ more) b'') :
    ∃ b', Takes b tokens b' ∧ Takes b' more b'' := by
  induction tokens generalizing b with
  | nil => exact ⟨b, .nil b, htakes⟩
  | cons token tokens ih =>
      cases htakes with
      | cons htake hcurrent hrest =>
          obtain ⟨middle, hfirst, hsecond⟩ := ih hrest
          exact ⟨middle, .cons htake hcurrent hfirst, hsecond⟩

theorem current_html (htakes : Takes b tokens b') (hcurrent : b.current.vocabulary = .html) :
    b'.current.vocabulary = .html := by
  induction htakes with
  | nil => exact hcurrent
  | cons _ hnext _ ih => exact ih hnext

end Builder.Takes

namespace Reader

variable {b b' : Builder} {s s' : State} {t : Text} {tokens : List Token}

/-- What a token does to the tree does not depend on the lexer. -/
theorem builder_take (r : Reader) (token : Token) :
    (r.take token).builder = (r.builder.take token).1 := by
  unfold take
  split <;> simp only [*]

/-- Tokens that are used up leave the lexer alone. -/
theorem foldl_take (htakes : b.Takes tokens b') :
    tokens.foldl take ⟨s, b, false⟩ = ⟨s, b', false⟩ := by
  induction htakes with
  | nil => rfl
  | cons htake _ _ ih =>
      rw [List.foldl_cons, ← ih]
      simp only [take, htake]

/-- Without switches, tokens do not change how text goes on. -/
theorem foldl_resume (tokens : List Token) (s : State) :
    tokens.foldl (resume fun _ => none) s = s := by
  induction tokens with
  | nil => rfl
  | cons token tokens ih =>
      cases token with
      | _ => exact ih

/-- A text that is read as tokens that are used up. -/
theorem feedAll_eq (hreads : Reads (fun _ => none) s t tokens s') (htakes : b.Takes tokens b')
    (hcurrent : b.current.vocabulary = .html) :
    (⟨s, b, false⟩ : Reader).feedAll t = ⟨s', b', false⟩ := by
  induction t generalizing s b tokens with
  | nil =>
      have hpair : (s, []) = (s', tokens) := hreads
      cases hpair
      cases htakes
      rfl
  | cons c t ih =>
      have hstep : step false s c = ((step false s c).1, (step false s c).2) := rfl
      have hpair : ((scan (fun _ => none) (step false s c).1 t).1,
          (step false s c).2 ++ (scan (fun _ => none) (step false s c).1 t).2) =
          (s', tokens) := by
        have hscan : scan (fun _ => none) s (c :: t) = (s', tokens) := hreads
        simpa only [scan, scanStep, foldl_resume] using hscan
      cases hpair
      obtain ⟨middle, hfirst, hsecond⟩ := htakes.split
      have hfeed : (⟨s, b, false⟩ : Reader).feed c =
          ⟨(step false s c).1, middle, false⟩ := by
        simp only [feed, hcurrent, Bool.false_and, Bool.false_eq_true, if_false, bne_self_eq_false]
        exact foldl_take hfirst
      rw [feedAll, List.foldl_cons, hfeed]
      exact ih rfl hsecond (hfirst.current_html hcurrent)

/-- A text that does not begin with a byte order mark is read from the start as from anywhere. -/
theorem feedAll_start (hmark : t.head? ≠ some '\uFEFF') :
    ((start b).feedAll t).lexer = ((⟨.text .data, b, false⟩ : Reader).feedAll t).lexer ∧
      ((start b).feedAll t).builder =
        ((⟨.text .data, b, false⟩ : Reader).feedAll t).builder := by
  cases t with
  | nil => exact ⟨rfl, rfl⟩
  | cons c t =>
      have hne : c ≠ '\uFEFF' := by
        rintro rfl
        exact hmark rfl
      have hfeed : (start b).feed c = (⟨.text .data, b, false⟩ : Reader).feed c := by
        simp only [feed, start, hne, decide_false, Bool.and_false, Bool.false_eq_true, if_false]
      simp only [feedAll, List.foldl_cons, hfeed, and_self]

/-- Text without carriage returns has nothing to normalize. -/
theorem normalizeNewlines_eq_self (hreturn : '\r' ∉ t) : normalizeNewlines t = t := by
  induction t with
  | nil => rfl
  | cons c t ih =>
      simp only [List.mem_cons, not_or] at hreturn
      have hne : ¬ c = '\r' := Ne.symm hreturn.1
      rw [normalizeNewlines.eq_3, ih hreturn.2]
      · intro _ hreturn _
        exact hne hreturn
      · exact hne

theorem normalizeNewlines_append_left (hreturn : '\r' ∉ t) (u : Text) :
    normalizeNewlines (t ++ u) = t ++ normalizeNewlines u := by
  induction t with
  | nil => rfl
  | cons c t ih =>
      simp only [List.mem_cons, not_or] at hreturn
      have hne : ¬ c = '\r' := Ne.symm hreturn.1
      rw [List.cons_append, normalizeNewlines.eq_3, ih hreturn.2, List.cons_append]
      · intro _ hreturn _
        exact hne hreturn
      · exact hne

/-- Line ends of two texts can be normalized one by one unless they share a line end. -/
theorem normalizeNewlines_append {u : Text}
    (hseam : t.getLast? ≠ some '\r' ∨ u.head? ≠ some '\n') :
    normalizeNewlines (t ++ u) = normalizeNewlines t ++ normalizeNewlines u := by
  induction t using normalizeNewlines.induct with
  | case1 t ih =>
      have hrest : t.getLast? ≠ some '\r' ∨ u.head? ≠ some '\n' := by
        refine hseam.imp_left fun hlast heq => hlast ?_
        cases t with
        | nil => cases heq
        | cons d t => simpa [List.getLast?_cons_cons] using heq
      rw [normalizeNewlines.eq_1, List.cons_append, List.cons_append, List.cons_append,
        normalizeNewlines.eq_1, ih hrest]
  | case2 t hnot ih =>
      cases t with
      | nil =>
          have hhead : u.head? ≠ some '\n' := hseam.resolve_left fun hlast => hlast rfl
          cases u with
          | nil => rfl
          | cons d u =>
              have hne : d ≠ '\n' := by simpa using hhead
              rw [List.cons_append, List.nil_append, normalizeNewlines.eq_2]
              · rfl
              · rintro _ heq
                cases heq
                exact hne rfl
      | cons d t =>
          have hne : d ≠ '\n' := by
            rintro rfl
            exact hnot t rfl
          rw [List.cons_append, normalizeNewlines.eq_2, normalizeNewlines.eq_2,
            ih (by simpa [List.getLast?_cons_cons] using hseam), List.cons_append]
          · exact hnot
          · rintro _ heq
            cases heq
            exact hne rfl
  | case3 c t hnot hne ih =>
      have hrest : t.getLast? ≠ some '\r' ∨ u.head? ≠ some '\n' := by
        refine hseam.imp_left fun hlast heq => hlast ?_
        cases t with
        | nil => cases heq
        | cons d t => simpa [List.getLast?_cons_cons] using heq
      rw [List.cons_append, normalizeNewlines.eq_3, normalizeNewlines.eq_3, ih hrest,
        List.cons_append]
      · exact hnot
      · exact hne
      · intro _ heq _
        exact hne heq
      · exact hne
  | case4 => rfl

/-- Reading a whole text, once what it is read as and what is made of that are known. -/
theorem read_eq (hreads : Reads (fun _ => none) (.text .data) t tokens (.text .data))
    (htakes : b.Takes tokens b') (hcurrent : b.current.vocabulary = .html)
    (hreturn : '\r' ∉ t) (hmark : t.head? ≠ some '\uFEFF') :
    read b t = (b'.take .done).1.tree := by
  obtain ⟨hlexer, hbuilder⟩ := feedAll_start (b := b) hmark
  rw [feedAll_eq hreads htakes hcurrent] at hlexer hbuilder
  rw [read, normalizeNewlines_eq_self hreturn, finish, hlexer]
  show (((start b).feedAll t).take .done).builder.tree = _
  rw [builder_take, hbuilder]

end Reader

end Letterpress
