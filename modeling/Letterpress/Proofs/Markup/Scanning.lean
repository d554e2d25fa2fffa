/-
# Reading tokens from a whole text

The lexer takes one character at a time. Here its steps are put together:
`Reads switch s t ts s'` says that the lexer gets over the text `t` from the
state `s` to the state `s'` and completes the tokens `ts` on the way. How the
text of an element is read is decided by `switch` from its start tag alone, with
no tree at hand; without a switch all text is ordinary text.

Readings compose along `++`, so what a written tree reads as can be said part by
part.

Markup without the start of an element that holds only text is read the same under any
tree: no token in it changes how text goes on, and whether an element lies outside plain
markup never comes up. `Passes s t ts s'` says so of the text `t`.
-/

import Letterpress.Markup.Lexer

namespace Letterpress

/-- Elements whose text is read in another way than running content. -/
def Tag.startsText : Tag → Bool
  | .title | .noframes | .style | .noscript | .script | .plaintext | .textarea | .xmp | .iframe
  | .noembed => true
  | _ => false

/-- Tokens that leave alone how text is read on. -/
def Token.isPlain : Token → Bool
  | .startTag t => !t.tag.startsText
  | .endTag tag => tag != .script
  | _ => true

namespace Lexer

/-- How text goes on after a token. -/
def resume (switch : Tag → Option Content) (s : State) : Token → State
  | .startTag t => (switch t.tag).elim s .text
  | _ => s

/-- One character, and then the switch that its tokens ask for. -/
def scanStep (switch : Tag → Option Content) (s : State) (c : Char) : State × List Token :=
  let (next, tokens) := step false s c
  (tokens.foldl (resume switch) next, tokens)

/-- The state after a text, and the tokens that it completes. -/
def scan (switch : Tag → Option Content) : State → Text → State × List Token
  | s, [] => (s, [])
  | s, c :: t =>
    let (next, tokens) := scanStep switch s c
    let (final, more) := scan switch next t
    (final, tokens ++ more)

/-- The text is read from `s` to `s'` as the tokens. -/
def Reads (switch : Tag → Option Content) (s : State) (t : Text) (tokens : List Token)
    (s' : State) : Prop :=
  scan switch s t = (s', tokens)

variable {switch : Tag → Option Content} {s s' s'' : State} {c : Char} {t u : Text}
  {tokens more : List Token}

theorem Reads.nil : Reads switch s [] [] s := rfl

theorem Reads.cons (hstep : scanStep switch s c = (s', tokens))
    (hrest : Reads switch s' t more s'') : Reads switch s (c :: t) (tokens ++ more) s'' := by
  have hscan : scan switch s' t = (s'', more) := hrest
  rw [Reads, scan, hstep]
  simp only [hscan]

theorem Reads.append (hfirst : Reads switch s t tokens s')
    (hsecond : Reads switch s' u more s'') :
    Reads switch s (t ++ u) (tokens ++ more) s'' := by
  induction t generalizing s tokens with
  | nil =>
      have hpair : (s, []) = (s', tokens) := hfirst
      cases hpair
      exact hsecond
  | cons c t ih =>
      have hstart : scanStep switch s c =
          ((scanStep switch s c).1, (scanStep switch s c).2) := rfl
      have hpair : ((scan switch (scanStep switch s c).1 t).1,
          (scanStep switch s c).2 ++ (scan switch (scanStep switch s c).1 t).2) =
          (s', tokens) := hfirst
      cases hpair
      rw [List.append_assoc, List.cons_append]
      exact .cons hstart (ih rfl)

/-- A character that completes nothing. -/
theorem Reads.silent (hstep : step false s c = (s', [])) (hrest : Reads switch s' t tokens s'') :
    Reads switch s (c :: t) tokens s'' := by
  have hscan : scanStep switch s c = (s', []) := by
    rw [scanStep, hstep]
    rfl
  exact .cons hscan hrest

/-- A character that completes a token on which no switch hangs. -/
theorem Reads.token {token : Token} (hstep : step false s c = (s', [token]))
    (hresume : resume switch s' token = s') (hrest : Reads switch s' t tokens s'') :
    Reads switch s (c :: t) (token :: tokens) s'' := by
  have hscan : scanStep switch s c = (s', [token]) := by
    rw [scanStep, hstep]
    simp [hresume]
  exact .cons hscan hrest

/-- A last character that completes a token. -/
theorem Reads.last {token : Token} (hstep : step false s c = (s', [token])) :
    Reads switch s [c] [token] (resume switch s' token) := by
  have hscan : scanStep switch s c = (resume switch s' token, [token]) := by
    rw [scanStep, hstep]
    rfl
  exact .cons hscan .nil

/-! ## Text that is read the same under any tree -/

/-- Whether it matters for the next character if the current element lies outside plain
markup. -/
def State.mindsVocabulary : State → Char → Bool
  | .declaration word, c => (c :: word).reverse.isPrefixOf ("[CDATA[" : Text)
  | _, _ => false

/-- One character that is read the same under any tree. -/
def passStep (s : State) (c : Char) : Option (State × List Token) :=
  let result := step false s c
  if s.mindsVocabulary c || !result.2.all Token.isPlain then none else some result

/-- The state after a text that is read the same under any tree, and the tokens that it
completes. -/
def pass : State → Text → Option (State × List Token)
  | s, [] => some (s, [])
  | s, c :: t =>
    (passStep s c).bind fun (next, tokens) =>
      (pass next t).map fun (final, more) => (final, tokens ++ more)

/-- Under any tree, the text is read from `s` to `s'` as the tokens. -/
def Passes (s : State) (t : Text) (tokens : List Token) (s' : State) : Prop :=
  pass s t = some (s', tokens)

theorem step_eq_of_mindsVocabulary (hminds : s.mindsVocabulary c = false) (foreign : Bool) :
    step foreign s c = step false s c := by
  cases s with
  | declaration word =>
      have hprefix : ((c :: word).reverse.isPrefixOf ("[CDATA[" : Text)) = false := hminds
      have hwhole : (c :: word).reverse ≠ ("[CDATA[" : Text) := by
        intro heq
        rw [heq] at hprefix
        exact nomatch hprefix
      simp only [step, declarationStep, hprefix, hwhole, Bool.and_false, decide_false,
        Bool.false_eq_true, if_false, Bool.or_false]
  | _ => rfl

theorem passStep_eq_some_iff : passStep s c = some (s', tokens) ↔
    step false s c = (s', tokens) ∧ s.mindsVocabulary c = false ∧
      tokens.all Token.isPlain = true := by
  rw [passStep]
  constructor
  · intro hstep
    split at hstep
    · cases hstep
    · rename_i hplain
      have heq : step false s c = (s', tokens) := Option.some.inj hstep
      rw [heq] at hplain
      simp only [Bool.or_eq_true, Bool.not_eq_true', not_or, Bool.not_eq_true,
        Bool.not_eq_false] at hplain
      exact ⟨heq, hplain⟩
  · rintro ⟨heq, hminds, hplain⟩
    simp only [heq, hminds, hplain, Bool.not_true, Bool.or_false, Bool.false_eq_true, if_false]

theorem Passes.nil : Passes s [] [] s := rfl

theorem Passes.cons (hstep : passStep s c = some (s', tokens)) (hrest : Passes s' t more s'') :
    Passes s (c :: t) (tokens ++ more) s'' := by
  have hpass : pass s' t = some (s'', more) := hrest
  rw [Passes, pass, hstep, Option.bind_some]
  simp only [hpass, Option.map_some]

theorem Passes.exists_of_cons (hpasses : Passes s (c :: t) tokens s'') :
    ∃ s' first rest, passStep s c = some (s', first) ∧ Passes s' t rest s'' ∧
      tokens = first ++ rest := by
  obtain ⟨⟨s', first⟩, hstep, hmapped⟩ := Option.bind_eq_some_iff.mp hpasses
  obtain ⟨⟨final, rest⟩, hrest, hpair⟩ := Option.map_eq_some_iff.mp hmapped
  cases hpair
  exact ⟨s', first, rest, hstep, hrest, rfl⟩

theorem Passes.append (hfirst : Passes s t tokens s') (hsecond : Passes s' u more s'') :
    Passes s (t ++ u) (tokens ++ more) s'' := by
  induction t generalizing s tokens with
  | nil =>
      cases hfirst
      exact hsecond
  | cons c t ih =>
      obtain ⟨next, first, rest, hstep, hrest, rfl⟩ := hfirst.exists_of_cons
      rw [List.append_assoc]
      exact .cons hstep (ih hrest)

/-- A character that completes nothing. -/
theorem Passes.silent (hminds : s.mindsVocabulary c = false)
    (hstep : step false s c = (s', [])) (hrest : Passes s' t tokens s'') :
    Passes s (c :: t) tokens s'' :=
  .cons (passStep_eq_some_iff.mpr ⟨hstep, hminds, rfl⟩) hrest

/-- A character that completes a token. -/
theorem Passes.token {token : Token} (hminds : s.mindsVocabulary c = false)
    (hplain : token.isPlain = true) (hstep : step false s c = (s', [token]))
    (hrest : Passes s' t tokens s'') : Passes s (c :: t) (token :: tokens) s'' :=
  .cons (passStep_eq_some_iff.mpr ⟨hstep, hminds, by simp [hplain]⟩) hrest

/-- Tokens that leave any state alone do so one after another. -/
theorem foldl_resume_eq_self (s : State)
    (hresume : ∀ token ∈ tokens, ∀ s, resume switch s token = s) :
    tokens.foldl (resume switch) s = s := by
  induction tokens with
  | nil => rfl
  | cons token tokens ih =>
      rw [List.foldl_cons, hresume token List.mem_cons_self]
      exact ih fun u hu => hresume u (List.mem_cons_of_mem token hu)

/-- A text whose tokens leave any state alone is read so under any switch. -/
theorem Passes.reads_of_resume (hpasses : Passes s t tokens s')
    (hresume : ∀ token ∈ tokens, ∀ s, resume switch s token = s) : Reads switch s t tokens s' := by
  induction t generalizing s tokens with
  | nil =>
      cases hpasses
      exact .nil
  | cons c t ih =>
      obtain ⟨next, first, rest, hstep, hrest, rfl⟩ := hpasses.exists_of_cons
      have hstay : first.foldl (resume switch) next = next :=
        foldl_resume_eq_self next fun token htoken => hresume token (by simp [htoken])
      have hscan : scanStep switch s c = (next, first) := by
        rw [scanStep, (passStep_eq_some_iff.mp hstep).1]
        simp only [hstay]
      exact .cons hscan (ih hrest fun token htoken => hresume token (by simp [htoken]))

/-- A text that completes no tokens is read so under any switch. -/
theorem Passes.reads (hpasses : Passes s t [] s') : Reads switch s t [] s' :=
  hpasses.reads_of_resume nofun

end Lexer

end Letterpress
