/-
# Data in the contexts of a template

What data do to the reading of a template that they stand in. Text that ends no comment
leaves a comment open (`passesInComment_snoc`), and text without an end tag of its
element stays in a style sheet (`passesInStyle_snoc`); in both cases up to a character
behind it that cannot finish what the text has begun. An escaped value always stays
between its quotes (`passes_escapeAttribute`).

Texts that are read the same under any tree, and as tokens with the same outline, match.
Readers that are alike stay alike over texts that match, and neither text shows in the
outline which of the two it was.
-/

import Letterpress.Proofs.Markup.Comments
import Letterpress.Proofs.Markup.Outlines

namespace Letterpress

namespace Lexer

variable {s s' s'' : State} {c : Char} {t u : Text} {tokens more : List Token}

/-! ## Text in a comment -/

/-- The text would end a comment that it stands in. -/
def EndsComment (t : Text) : Prop := ("-->" : Text) <:+: t ∨ ("--!>" : Text) <:+: t

theorem EndsComment.mono (hends : EndsComment t) (hpart : t <:+: u) : EndsComment u :=
  hends.imp (·.trans hpart) (·.trans hpart)

/-- The text stands in a comment and leaves it open. -/
def PassesInComment (t : Text) : Prop :=
  ∀ content, ∃ content', Passes (.comment .body content) t [] (.comment .body content')

/-- Phases of a comment that has content. -/
def CommentPhase.isInside : CommentPhase → Bool
  | .start | .startDash => false
  | _ => true

variable {phase : CommentPhase} {content : Text}

/-- As long as what a comment holds back is what was read last, only the end of a comment ends
it. -/
theorem exists_commentStep {p : Text} (hheld : phase.held <:+ p) (hinside : phase.isInside = true)
    (hsafe : ¬EndsComment (p ++ [c])) :
    ∃ phase' content', commentStep phase content c = (.comment phase' content', []) ∧
      phase'.held <:+ p ++ [c] ∧ phase'.isInside = true := by
  have hbody (held : Text) (hstep : commentStep phase content c =
      (.comment .body (visible c :: (held ++ content)), [])) :
      ∃ phase' content', commentStep phase content c = (.comment phase' content', []) ∧
        phase'.held <:+ p ++ [c] ∧ phase'.isInside = true :=
    ⟨.body, _, hstep, List.nil_suffix, rfl⟩
  obtain ⟨q, rfl⟩ := hheld
  by_cases hdash : c = '-'
  · subst hdash
    cases phase with
    | start | startDash => cases hinside
    | body => exact ⟨.endDash, _, rfl, ⟨q ++ [], by simp [CommentPhase.held]⟩, rfl⟩
    | endDash => exact ⟨.ending, _, rfl, ⟨q, by simp [CommentPhase.held]⟩, rfl⟩
    | ending => exact ⟨.ending, _, rfl, ⟨q ++ ['-'], by simp [CommentPhase.held]⟩, rfl⟩
    | endBang => exact ⟨.endDash, _, rfl, ⟨q ++ ['-', '-', '!'], by simp [CommentPhase.held]⟩, rfl⟩
  · by_cases hend : c = '>'
    · subst hend
      cases phase with
      | start | startDash => cases hinside
      | body => exact hbody [] rfl
      | endDash => exact hbody ['-'] rfl
      | ending => exact absurd (.inl ⟨q, [], by simp [CommentPhase.held]⟩) hsafe
      | endBang => exact absurd (.inr ⟨q, [], by simp [CommentPhase.held]⟩) hsafe
    · cases phase with
      | start | startDash => cases hinside
      | body => exact hbody [] (by simp [commentStep, hdash])
      | endDash => exact hbody ['-'] (by simp [commentStep, hdash])
      | endBang => exact hbody ['!', '-', '-'] (by simp [commentStep, hdash, hend])
      | ending =>
          by_cases hbang : c = '!'
          · subst hbang
            exact ⟨.endBang, _, rfl, ⟨q, by simp [CommentPhase.held]⟩, rfl⟩
          · exact hbody ['-', '-'] (by simp [commentStep, hdash, hend, hbang])

/-- Text that ends no comment leads on within it. -/
theorem exists_passes_comment {p : Text} (hheld : phase.held <:+ p)
    (hinside : phase.isInside = true) (hsafe : ¬EndsComment (p ++ t)) :
    ∃ phase' content', Passes (.comment phase content) t [] (.comment phase' content') ∧
      phase'.isInside = true := by
  induction t generalizing phase content p with
  | nil => exact ⟨phase, content, .nil, hinside⟩
  | cons c t ih =>
      have hrest : ¬EndsComment (p ++ [c] ++ t) := by simpa using hsafe
      obtain ⟨next, between, hstep, hheld', hinside'⟩ :=
        exists_commentStep (c := c) hheld hinside fun hends => hrest (hends.mono ⟨[], t, by simp⟩)
      obtain ⟨phase', content', hpasses, hinside''⟩ := ih hheld' hinside' hrest
      exact ⟨phase', content', .silent rfl hstep hpasses, hinside''⟩

/-- Text that ends no comment stays in one, up to a character that has no part in an end. -/
theorem passesInComment_snoc (hsafe : ¬EndsComment t) (hdash : c ≠ '-') (hend : c ≠ '>')
    (hbang : c ≠ '!') : PassesInComment (t ++ [c]) := by
  intro content
  have hsafe' : ¬EndsComment ([] ++ t) := hsafe
  have hstart : ∃ phase' content', Passes (.comment .body content) t []
      (.comment phase' content') ∧ phase'.isInside = true :=
    exists_passes_comment List.nil_suffix rfl hsafe'
  obtain ⟨phase', between, hpasses, hinside⟩ := hstart
  have hlast : ∃ content', commentStep phase' between c = (.comment .body content', []) := by
    cases phase' with
    | start | startDash => cases hinside
    | body => exact ⟨_, by simp [commentStep, hdash]; rfl⟩
    | endDash => exact ⟨_, by simp [commentStep, hdash]; rfl⟩
    | ending => exact ⟨_, by simp [commentStep, hdash, hend, hbang]; rfl⟩
    | endBang => exact ⟨_, by simp [commentStep, hdash, hend]; rfl⟩
  obtain ⟨content', hstep⟩ := hlast
  exact ⟨content', hpasses.append (.silent rfl hstep .nil)⟩

/-! ## Text of an element up to its end tag -/

/-- The text has an end tag of the tag in it. -/
def HoldsEndTag (tag : Tag) (t : Text) : Prop :=
  ∃ (name : Text) (c : Char), Tag.ofName name = tag ∧ name.all Char.isAlpha = true ∧
    endsWord c = true ∧ ('<' :: '/' :: name ++ [c]) <:+: t

theorem HoldsEndTag.mono {tag : Tag} (hholds : HoldsEndTag tag t) (hpart : t <:+: u) :
    HoldsEndTag tag u := by
  obtain ⟨name, c, hname, hletters, hend, htag⟩ := hholds
  exact ⟨name, c, hname, hletters, hend, htag.trans hpart⟩

theorem not_holdsEndTag_of_not_mem {tag : Tag} (hopen : '<' ∉ t) : ¬HoldsEndTag tag t := by
  rintro ⟨name, c, -, -, -, hpart⟩
  exact hopen (hpart.subset (by simp))

/-- What may be the start of the end tag, held back in a state. -/
inductive Pending (closer : Tag) : Text → State → Prop
  | none : Pending closer [] (.text (.verbatim closer))
  | opened : Pending closer ['<'] (.closerOpen (.verbatim closer))
  | slash : Pending closer ['<', '/'] (.closerSlash (.verbatim closer))
  | name {n : Text} (hletters : n.all Char.isAlpha = true) :
      Pending closer ('<' :: '/' :: n.reverse) (.closerName (.verbatim closer) n)

variable {closer : Tag} {p : Text}

theorem all_isPlain_chars (t : Text) : (chars t).all Token.isPlain = true := by
  rw [chars, List.all_map]
  exact List.all_eq_true.mpr fun _ _ => rfl

/-- A character that proves what was held back to be text. -/
theorem exists_textAfter (closer : Tag) (hvisible : p.map visible = p) (c : Char) :
    ∃ q p' s', textAfter (chars p) (.verbatim closer) c = (s', chars (q.map visible)) ∧
      p ++ [c] = q ++ p' ∧ Pending closer p' s' := by
  by_cases hopen : c = '<'
  · subst hopen
    refine ⟨p, ['<'], _, ?_, rfl, .opened⟩
    rw [hvisible]
    simp [textAfter, textStep]
  · refine ⟨p ++ [c], [], .text (.verbatim closer), ?_, by simp, .none⟩
    rw [List.map_append, hvisible]
    simp [textAfter, textStep, hopen, chars]

/-- A character that does not complete the end tag. -/
theorem Pending.exists_step (hpending : Pending closer p s)
    (hsafe : ∀ name, p = '<' :: '/' :: name → Tag.ofName name = closer → endsWord c = false) :
    ∃ q p' s', passStep s c = some (s', chars (q.map visible)) ∧ p ++ [c] = q ++ p' ∧
      Pending closer p' s' := by
  have hpasses {q p' : Text} {s' : State} (hminds : s.mindsVocabulary c = false)
      (hstep : step false s c = (s', chars (q.map visible)))
      (hsplit : p ++ [c] = q ++ p') (hnext : Pending closer p' s') :
      ∃ q p' s', passStep s c = some (s', chars (q.map visible)) ∧ p ++ [c] = q ++ p' ∧
        Pending closer p' s' :=
    ⟨q, p', s', passStep_eq_some_iff.mpr ⟨hstep, hminds, all_isPlain_chars _⟩, hsplit, hnext⟩
  cases hpending with
  | none =>
      obtain ⟨q, p', s', hstep, hsplit, hnext⟩ := exists_textAfter closer (p := []) rfl c
      exact hpasses rfl hstep hsplit hnext
  | opened =>
      by_cases hslash : c = '/'
      · subst hslash
        exact hpasses (q := []) rfl rfl rfl .slash
      · obtain ⟨q, p', s', hstep, hsplit, hnext⟩ :=
          exists_textAfter closer (p := ['<']) rfl c
        have hopen : step false (.closerOpen (.verbatim closer)) c =
            textAfter (chars ['<']) (.verbatim closer) c := by
          simp [step, closerOpenStep, hslash, chars]
        exact hpasses rfl (hopen.trans hstep) hsplit hnext
  | slash =>
      by_cases hletter : c.isAlpha = true
      · have hname : step false (.closerSlash (.verbatim closer)) c =
            (.closerName (.verbatim closer) [c], []) := by
          simp [step, closerSlashStep, hletter]
        exact hpasses (q := []) rfl hname rfl (.name (n := [c]) (by simp [hletter]))
      · obtain ⟨q, p', s', hstep, hsplit, hnext⟩ :=
          exists_textAfter closer (p := ['<', '/']) rfl c
        have hopen : step false (.closerSlash (.verbatim closer)) c =
            textAfter (chars ['<', '/']) (.verbatim closer) c := by
          simp [step, closerSlashStep, hletter]
        exact hpasses rfl (hopen.trans hstep) hsplit hnext
  | @name n hletters =>
      have hstep : step false (.closerName (.verbatim closer) n) c =
          if c.isAlpha then (.closerName (.verbatim closer) (c :: n), [])
          else textAfter (chars ('<' :: '/' :: n.reverse)) (.verbatim closer) c := by
        by_cases hsame : Tag.ofName n.reverse = closer
        · have hend := hsafe n.reverse rfl hsame
          simp only [endsWord, Bool.or_eq_false_iff, beq_eq_false_iff_ne] at hend
          simp [step, closerNameStep, hend]
        · have hother : (some closer == some (Tag.ofName n.reverse)) = false := by
            simpa using Ne.symm hsame
          simp [step, closerNameStep, Content.closer?, hother]
      by_cases hletter : c.isAlpha = true
      · rw [if_pos hletter] at hstep
        have hnext : Pending closer ('<' :: '/' :: (c :: n).reverse)
            (.closerName (.verbatim closer) (c :: n)) :=
          .name (by simp [hletter, hletters])
        exact hpasses (q := []) rfl hstep (by simp) hnext
      · rw [if_neg hletter] at hstep
        have hnull : '\x00' ∉ '<' :: '/' :: n.reverse := by
          simp only [List.mem_cons, List.mem_reverse, not_or]
          refine ⟨by decide, by decide, ?_⟩
          intro hmem
          cases List.all_eq_true.mp hletters _ hmem
        obtain ⟨q, p', s', htext, hsplit, hnext⟩ :=
          exists_textAfter closer (map_visible_eq_self hnull) c
        exact hpasses rfl (hstep.trans htext) hsplit hnext

/-- Text without the end tag leads on within the element. -/
theorem Pending.exists_passes (hpending : Pending closer p s) (hsafe : ¬HoldsEndTag closer (p ++ t)) :
    ∃ q p' s', Passes s t (chars (q.map visible)) s' ∧ p ++ t = q ++ p' ∧ Pending closer p' s' := by
  induction t generalizing p s with
  | nil => exact ⟨[], p, s, .nil, by simp, hpending⟩
  | cons c t ih =>
      have hword (name : Text) (hname : p = '<' :: '/' :: name) (hsame : Tag.ofName name = closer) :
          endsWord c = false := by
        by_contra hends
        have hletters : name.all Char.isAlpha = true := by
          cases hpending with
          | none | opened => cases hname
          | slash =>
              cases hname
              rfl
          | name hletters =>
              cases hname
              rwa [List.all_reverse]
        refine hsafe ⟨name, c, hsame, hletters, by simpa using hends, ?_⟩
        exact ⟨[], t, by simp [hname]⟩
      obtain ⟨q, p', s', hstep, hsplit, hnext⟩ := hpending.exists_step hword
      have hrest : p ++ c :: t = q ++ (p' ++ t) := by
        rw [← List.append_assoc, ← hsplit, List.append_assoc]
        rfl
      have hsafe' : ¬HoldsEndTag closer (p' ++ t) :=
        fun hholds => hsafe (hholds.mono (hrest ▸ List.suffix_append q _).isInfix)
      obtain ⟨q', p'', s'', hpasses, hsplit', hlast⟩ := ih hnext hsafe'
      refine ⟨q ++ q', p'', s'', ?_, ?_, hlast⟩
      · rw [List.map_append, chars, List.map_append]
        exact .cons hstep hpasses
      · rw [hrest, hsplit', List.append_assoc]

/-- The text stands in a style sheet and leaves it open. -/
def PassesInStyle (t : Text) : Prop :=
  ∃ shown, Passes (.text (.verbatim .style)) t (chars shown) (.text (.verbatim .style))

theorem PassesInStyle.append (ht : PassesInStyle t) (hu : PassesInStyle u) :
    PassesInStyle (t ++ u) := by
  obtain ⟨first, hfirst⟩ := ht
  obtain ⟨second, hsecond⟩ := hu
  refine ⟨first ++ second, ?_⟩
  rw [chars, List.map_append]
  exact hfirst.append hsecond

/-- Text that starts no tag stays in a style sheet. -/
theorem passesInStyle_of_not_mem (hopen : '<' ∉ t) : PassesInStyle t := by
  have hsafe : ¬HoldsEndTag .style ([] ++ t) := not_holdsEndTag_of_not_mem hopen
  obtain ⟨q, p, s, hpasses, hsplit, hpending⟩ := Pending.none.exists_passes hsafe
  have hnot : '<' ∉ p := fun hmem => hopen (by simp_all)
  cases hpending with
  | none => exact ⟨_, hpasses⟩
  | opened | slash | name => simp at hnot

/-- Text without an end tag stays in a style sheet, up to a character that has no part in one. -/
theorem passesInStyle_snoc (hsafe : ¬HoldsEndTag .style t) (hopen : c ≠ '<')
    (hletter : c.isAlpha = false) (hword : endsWord c = false) : PassesInStyle (t ++ [c]) := by
  have hsafe' : ¬HoldsEndTag .style ([] ++ t) := hsafe
  obtain ⟨q, p, s, hpasses, -, hpending⟩ := Pending.none.exists_passes hsafe'
  obtain ⟨q', p', s', hstep, hsplit, hnext⟩ := hpending.exists_step (c := c) fun _ _ _ => hword
  have hlast := congrArg List.getLast? hsplit
  cases hnext with
  | none =>
      have hflushed := hpasses.append (.cons hstep .nil)
      refine ⟨(q ++ q').map visible, ?_⟩
      rw [List.map_append, chars, List.map_append]
      rwa [List.append_nil] at hflushed
  | opened => exact absurd (by simpa using hlast) hopen
  | slash =>
      have hslash : c = '/' := by simpa using hlast
      rw [hslash] at hword
      cases hword
  | @name n hletters =>
      cases n with
      | nil =>
          have hslash : c = '/' := by simpa using hlast
          rw [hslash] at hword
          cases hword
      | cons first n =>
          rw [List.reverse_cons, ← List.cons_append, ← List.cons_append, ← List.append_assoc]
            at hsplit
          have hsame : c = first := (List.cons.inj (List.append_inj_right' hsplit rfl)).1
          rw [hsame] at hletter
          exact absurd (List.all_eq_true.mp hletters first List.mem_cons_self)
            (Bool.eq_false_iff.mp hletter)

/-- What stays in a style sheet, and the end tag that ends it. -/
theorem PassesInStyle.exists_passes_endTag (ht : PassesInStyle t) :
    ∃ shown, Passes (.text (.verbatim .style)) (t ++ "</style>")
      (chars shown ++ [.endTag .style]) (.text .data) := by
  obtain ⟨shown, hpasses⟩ := ht
  exact ⟨shown, hpasses.append rfl⟩

/-! ## Texts that match -/

/-- The texts are read from between two tags to between two tags under any tree, with the same
outline, and no rule looks at the attributes in them. -/
structure Matches (t u : Text) : Prop where
  nil_iff : t = [] ↔ u = []
  /-- A byte order mark might be dropped. -/
  head?_ne : t.head? ≠ some '\uFEFF'
  head?_ne' : u.head? ≠ some '\uFEFF'
  exists_passes : ∃ ts us, Passes (.text .data) t ts (.text .data) ∧
    Passes (.text .data) u us (.text .data) ∧ ts.map Token.outline = us.map Token.outline ∧
    ts.all (!·.isReadWithAttributes) = true

theorem Matches.nil : Matches [] [] := ⟨Iff.rfl, nofun, nofun, [], [], rfl, rfl, rfl, rfl⟩

theorem head?_append_ne {t t' : Text} (ht : t.head? ≠ some c) (ht' : t'.head? ≠ some c) :
    (t ++ t').head? ≠ some c := by
  cases t with
  | nil => exact ht'
  | cons d t => exact ht

theorem Matches.append {t' u' : Text} (hfirst : Matches t u) (hsecond : Matches t' u') :
    Matches (t ++ t') (u ++ u') := by
  obtain ⟨ts, us, ht, hu, hmap, hread⟩ := hfirst.exists_passes
  obtain ⟨ts', us', ht', hu', hmap', hread'⟩ := hsecond.exists_passes
  refine ⟨?_, head?_append_ne hfirst.head?_ne hsecond.head?_ne,
    head?_append_ne hfirst.head?_ne' hsecond.head?_ne', ts ++ ts', us ++ us', ht.append ht',
    hu.append hu', ?_, ?_⟩
  · rw [List.append_eq_nil_iff, List.append_eq_nil_iff, hfirst.nil_iff, hsecond.nil_iff]
  · rw [List.map_append, List.map_append, hmap, hmap']
  · rw [List.all_append, hread, hread']
    rfl

end Lexer

namespace Reader

open Lexer

variable {r s : Reader} {σ σ' : State} {t u : Text} {ts us : List Token}

/-- Plain tokens leave the lexer alone. -/
theorem foldl_take_of_isPlain (r : Reader) {tokens : List Token}
    (hplain : tokens.all Token.isPlain = true) :
    tokens.foldl take r = { r with builder := r.builder.takeAll tokens } := by
  induction tokens generalizing r with
  | nil => rfl
  | cons token tokens ih =>
      obtain ⟨hfirst, hrest⟩ := List.all_eq_true.mp hplain |> List.forall_mem_cons.mp
      have hnext := ((Likeness.outlined.refl_builders r.builder).take
        (Likeness.outlined.refl_tokens token)).isPlain_next hfirst
      have htake : r.take token = { r with builder := (r.builder.take token).1 } := by
        unfold take
        generalize r.builder.take token = x at hnext
        obtain ⟨b, next⟩ := x
        cases next with
        | read _ | scriptEnded => cases hnext
        | done | again => rfl
      rw [List.foldl_cons, ih _ (List.all_eq_true.mpr hrest), htake]
      rfl

theorem feed_of_passStep {c : Char} {tokens : List Token}
    (hstep : passStep r.lexer c = some (σ', tokens)) (hmark : r.atStart = false ∨ c ≠ '\uFEFF') :
    r.feed c = ⟨σ', r.builder.takeAll tokens, false⟩ ∧ r.emit c = tokens := by
  obtain ⟨hsame, hminds, hplain⟩ := passStep_eq_some_iff.mp hstep
  have hnot : (r.atStart && decide (c = '\uFEFF')) = false := by
    rcases hmark with hstart | hne
    · rw [hstart, Bool.false_and]
    · rw [decide_eq_false hne, Bool.and_false]
  simp only [feed, emit, hnot, step_eq_of_mindsVocabulary hminds, hsame, Bool.false_eq_true,
    if_false]
  exact ⟨foldl_take_of_isPlain _ hplain, trivial⟩

/-- A text that is read the same under any tree, where no byte order mark is dropped. -/
theorem feedAll_of_passes_of_not_atStart {b : Builder} (hpasses : Passes σ t ts σ') :
    (⟨σ, b, false⟩ : Reader).feedAll t = ⟨σ', b.takeAll ts, false⟩ ∧
      (⟨σ, b, false⟩ : Reader).emitAll t = ts := by
  induction t generalizing b σ ts with
  | nil =>
      cases hpasses
      exact ⟨rfl, rfl⟩
  | cons c t ih =>
      obtain ⟨between, first, rest, hstep, hrest, rfl⟩ := hpasses.exists_of_cons
      obtain ⟨hfeed, hemit⟩ := feed_of_passStep (r := ⟨σ, b, false⟩) hstep (.inl rfl)
      obtain ⟨hfeedAll, hemitAll⟩ := ih (b := b.takeAll first) hrest
      rw [Builder.takeAll_append, ← hfeedAll, feedAll, List.foldl_cons, hfeed, emitAll, hemit,
        hfeed, hemitAll]
      exact ⟨rfl, rfl⟩

theorem feedAll_of_passes_cons {c : Char} (hlexer : r.lexer = σ) (hpasses : Passes σ (c :: t) ts σ')
    (hmark : r.atStart = false ∨ c ≠ '\uFEFF') :
    r.feedAll (c :: t) = ⟨σ', r.builder.takeAll ts, false⟩ ∧ r.emitAll (c :: t) = ts := by
  subst hlexer
  obtain ⟨between, first, rest, hstep, hrest, rfl⟩ := hpasses.exists_of_cons
  obtain ⟨hfeed, hemit⟩ := feed_of_passStep hstep hmark
  obtain ⟨hfeedAll, hemitAll⟩ :=
    feedAll_of_passes_of_not_atStart (b := r.builder.takeAll first) hrest
  rw [Builder.takeAll_append, ← hfeedAll, feedAll, List.foldl_cons, hfeed, emitAll, hemit, hfeed,
    hemitAll]
  exact ⟨rfl, rfl⟩

/-- A text that is read the same under any tree. -/
theorem feedAll_of_passes (hlexer : r.lexer = σ) (hpasses : Passes σ t ts σ')
    (hhead : t.head?.any (· != '\uFEFF') = true) :
    r.feedAll t = ⟨σ', r.builder.takeAll ts, false⟩ ∧ r.emitAll t = ts := by
  cases t with
  | nil => cases hhead
  | cons c t => exact feedAll_of_passes_cons hlexer hpasses (.inr (by simpa using hhead))

end Reader

/-! ## Readers over two texts -/

/-- Readers that are alike stay so over the texts, and the tokens of both have the same outline. -/
structure Reader.Keeps (r s : Reader) (t u : Text) (inStyle : Bool) : Prop where
  alike : (r.feedAll t).Alike (s.feedAll u)
  sameOutline : SameOutline inStyle (r.emitAll t) (s.emitAll u)

namespace Reader

open Lexer

variable {r s : Reader} {t u t' u' : Text} {inStyle : Bool}

theorem Keeps.append (hfirst : Keeps r s t u inStyle)
    (hsecond : Keeps (r.feedAll t) (s.feedAll u) t' u'
      ((r.emitAll t).foldl Token.leavesStyle inStyle)) :
    Keeps r s (t ++ t') (u ++ u') inStyle := by
  refine ⟨?_, ?_⟩
  · rw [feedAll_append, feedAll_append]
    exact hsecond.alike
  · rw [emitAll_append, emitAll_append]
    exact hfirst.sameOutline.append hsecond.sameOutline

/-- Readers that are alike and read the same text. -/
theorem Alike.keeps (h : r.Alike s) (t : Text) (inStyle : Bool) : Keeps r s t t inStyle := by
  obtain ⟨halike, hemit⟩ := h.feedAll t
  exact ⟨halike, hemit ▸ .of_map rfl⟩

/-- Between two tags, readers that are alike stay so over texts that match. -/
theorem Alike.keeps_of_matches (h : r.Alike s) (hlexer : r.lexer = .text .data)
    (hmatches : Matches t u) (inStyle : Bool) :
    (r.feedAll t).lexer = .text .data ∧ Keeps r s t u inStyle := by
  obtain ⟨hnil, hmark, hmark', ts, us, hpasses, hpasses', hmap, hread⟩ := hmatches
  cases t with
  | nil =>
      rw [hnil.mp rfl]
      exact ⟨hlexer, h.keeps [] inStyle⟩
  | cons c t =>
      cases u with
      | nil => exact nomatch hnil.mpr rfl
      | cons d u =>
          have hhead : (c :: t).head?.any (· != '\uFEFF') = true := by simpa using hmark
          have hhead' : (d :: u).head?.any (· != '\uFEFF') = true := by simpa using hmark'
          obtain ⟨hfeed, hemit⟩ := feedAll_of_passes hlexer hpasses hhead
          obtain ⟨hfeed', hemit'⟩ :=
            feedAll_of_passes (h.lexer_eq.trans hlexer) hpasses' hhead'
          refine ⟨by rw [hfeed], ?_, ?_⟩
          · rw [hfeed, hfeed']
            exact ⟨rfl, rfl, Likeness.outlined.takeAll h.builders hmap hread⟩
          · rw [hemit, hemit']
            exact .of_map hmap

/-- In a style sheet, readers that are alike stay so over what stays in it, up to its end. -/
theorem Alike.keeps_of_style (h : r.Alike s) (hlexer : r.lexer = .text (.verbatim .style))
    (hbuilder : r.builder.IsInText) (ht : PassesInStyle t) (hu : PassesInStyle u)
    (hhead : t.head?.any (· != '\uFEFF') = true) (hhead' : u.head?.any (· != '\uFEFF') = true) :
    (r.feedAll (t ++ "</style>")).lexer = .text .data ∧
      Keeps r s (t ++ "</style>") (u ++ "</style>") true := by
  have hfirst {t : Text} (hhead : t.head?.any (· != '\uFEFF') = true) :
      (t ++ "</style>").head?.any (· != '\uFEFF') = true := by
    cases t with
    | nil => cases hhead
    | cons c t => exact hhead
  obtain ⟨shown, hpasses⟩ := ht.exists_passes_endTag
  obtain ⟨shown', hpasses'⟩ := hu.exists_passes_endTag
  obtain ⟨hfeed, hemit⟩ := feedAll_of_passes hlexer hpasses (hfirst hhead)
  obtain ⟨hfeed', hemit'⟩ :=
    feedAll_of_passes (h.lexer_eq.trans hlexer) hpasses' (hfirst hhead')
  have hbuilder' := Likeness.outlined.isInText h.builders hbuilder
  have hleft := Likeness.outlined.takeAll_chars_left h.builders hbuilder shown
  have hboth := Likeness.outlined.takeAll_chars_left (Likeness.outlined.symm hleft) hbuilder'
    shown'
  refine ⟨by rw [hfeed], ?_, ?_⟩
  · rw [hfeed, hfeed', Builder.takeAll_append, Builder.takeAll_append]
    exact ⟨rfl, rfl, ((Likeness.outlined.symm hboth).take (.endTag .style)).builders⟩
  · rw [hemit, hemit']
    exact (SameOutline.chars shown shown').append (.of_map rfl)

/-! ## Going on -/

/-- The text is read up to within a style sheet. -/
structure LeavesInStyle (r : Reader) (t : Text) : Prop where
  lexer_eq : (r.feedAll t).lexer = .text (.verbatim .style)
  isInText : (r.feedAll t).builder.IsInText
  leaves_eq : (r.emitAll t).foldl Token.leavesStyle false = true

/-- What text is read as, if text is read. -/
def content? : State → Option Content
  | .text content => some content
  | _ => none

theorem content?_eq_some_iff {content : Content} : content? σ = some content ↔ σ = .text content := by
  cases σ <;> simp [content?]

/-- Whether the text is read up to within a style sheet. -/
def entersStyle (r : Reader) (t : Text) : Bool :=
  let read := r.feedAll t
  content? read.lexer == some (.verbatim .style) && read.builder.mode == .text &&
    read.builder.current.vocabulary == .html && !read.builder.dropsNewline &&
    (r.emitAll t).foldl Token.leavesStyle false

theorem leavesInStyle_of_entersStyle (henters : r.entersStyle t = true) : r.LeavesInStyle t := by
  simp only [entersStyle, Bool.and_eq_true, beq_iff_eq, Bool.not_eq_true'] at henters
  obtain ⟨⟨⟨⟨hlexer, hmode⟩, hvocabulary⟩, hnewline⟩, hleaves⟩ := henters
  exact ⟨content?_eq_some_iff.mp hlexer, ⟨hmode, hvocabulary, hnewline⟩, hleaves⟩

variable {x y : Text}

theorem Keeps.leavesInStyle (h : Keeps r s t u false) (hstyle : r.LeavesInStyle t) :
    s.LeavesInStyle u :=
  ⟨h.alike.lexer_eq.trans hstyle.lexer_eq,
    Likeness.outlined.isInText h.alike.builders hstyle.isInText,
    h.sameOutline.leaves_eq.trans hstyle.leaves_eq⟩

theorem Keeps.append_same (h : Keeps r s t u inStyle) (x : Text) :
    Keeps r s (t ++ x) (u ++ x) inStyle :=
  h.append (h.alike.keeps x _)

theorem Keeps.append_of_matches (h : Keeps r s t u inStyle)
    (hlexer : (r.feedAll t).lexer = .text .data) (hmatches : Matches x y) :
    (r.feedAll (t ++ x)).lexer = .text .data ∧ Keeps r s (t ++ x) (u ++ y) inStyle := by
  obtain ⟨hdata, hkeeps⟩ := h.alike.keeps_of_matches hlexer hmatches
    ((r.emitAll t).foldl Token.leavesStyle inStyle)
  refine ⟨?_, h.append hkeeps⟩
  rw [feedAll_append, hdata]

theorem Keeps.append_of_style (h : Keeps r s t u false) (hstyle : r.LeavesInStyle t)
    (hx : PassesInStyle x) (hy : PassesInStyle y) (hhead : x.head?.any (· != '\uFEFF') = true)
    (hhead' : y.head?.any (· != '\uFEFF') = true) :
    (r.feedAll (t ++ (x ++ "</style>"))).lexer = .text .data ∧
      Keeps r s (t ++ (x ++ "</style>")) (u ++ (y ++ "</style>")) false := by
  obtain ⟨hdata, hkeeps⟩ := h.alike.keeps_of_style hstyle.lexer_eq hstyle.isInText hx hy hhead hhead'
  refine ⟨?_, h.append ?_⟩
  · rw [feedAll_append, hdata]
  · rw [hstyle.leaves_eq]
    exact hkeeps

/-- Whole texts over which readers stay alike have the same outline. -/
theorem Keeps.outline_tokens_eq {b : Builder}
    (h : Keeps (start b) (start b) (normalizeNewlines t) (normalizeNewlines u) false) :
    outline (tokens b t) = outline (tokens b u) := by
  have hlexer := h.alike.lexer_eq
  rw [tokens, tokens, ← hlexer]
  exact (h.sameOutline.append (.of_map rfl)).outline_eq

end Reader

end Letterpress
