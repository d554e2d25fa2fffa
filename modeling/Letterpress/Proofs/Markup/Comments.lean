/-
# Comments that are written again

The content that a reader takes from a comment can be written between the marks of
a comment and is read back: it holds nothing that would end the comment early. The
proof replays the lexer: what it has taken in a comment, hyphens that it holds back
included, leads from the start of a comment to the state that it is in
(`LeadsTo`). A comment that began without hyphens ends at the first angle bracket,
so its content leads somewhere as well (`exists_leadsTo`).
-/

import Letterpress.Proofs.Markup.Rereading

namespace Letterpress.Lexer

/-- The text leads from the start of a comment to a state in the comment. -/
def LeadsTo (t : Text) (phase : CommentPhase) (content : Text) : Prop :=
  Passes (.comment .start []) t [] (.comment phase content)

/-- What the lexer has read but not yet put into the content. -/
def CommentPhase.held : CommentPhase → Text
  | .start | .body => []
  | .startDash | .endDash => ['-']
  | .ending => ['-', '-']
  | .endBang => ['-', '-', '!']

variable {t content content' : Text} {phase phase' : CommentPhase} {c : Char}

theorem LeadsTo.snoc (hleads : LeadsTo t phase content)
    (hstep : commentStep phase content c = (.comment phase' content', [])) :
    LeadsTo (t ++ [c]) phase' content' :=
  Passes.append hleads (.silent rfl hstep .nil)

/-- The lexer takes U+0000 in a comment like the character that stands in for it. -/
theorem commentStep_visible (phase : CommentPhase) (content : Text) (c : Char) :
    commentStep phase content (visible c) = commentStep phase content c := by
  by_cases hnull : c = '\x00'
  · subst hnull
    cases phase with
    | _ => rfl
  · rw [visible, if_neg hnull]

/-- What a character in a comment that does not end it leads to. -/
structure GoesOn (phase : CommentPhase) (content : Text) (c : Char) (phase' : CommentPhase)
    (content' : Text) : Prop where
  step_eq : commentStep phase content c = (.comment phase' content', [])
  read_eq : content'.reverse ++ phase'.held = content.reverse ++ phase.held ++ [visible c]
  start_of_startDash : phase' = .startDash → phase = .start ∧ content' = content
  ending_of_endBang : phase' = .endBang → phase = .ending ∧ content' = content
  ne_start : phase' ≠ .start

/-- A character in a comment ends it or goes into what has been read. -/
theorem commentStep_cases (phase : CommentPhase) (content : Text) (c : Char) :
    (c = '>' ∧ commentStep phase content c = (.text .data, [.comment content.reverse])) ∨
      ∃ phase' content', GoesOn phase content c phase' content' := by
  have hbody (held : Text) (hheld : held.reverse = phase.held)
      (hstep : commentStep phase content c =
        (.comment .body (visible c :: (held ++ content)), [])) :
      ∃ phase' content', GoesOn phase content c phase' content' :=
    ⟨.body, _, hstep, by simp [CommentPhase.held, hheld], by simp, by simp, by simp⟩
  by_cases hdash : c = '-'
  · subst hdash
    right
    cases phase with
    | start => exact ⟨.startDash, content, rfl, by simp [CommentPhase.held, visible],
        fun _ => ⟨rfl, rfl⟩, by simp, by simp⟩
    | startDash => exact ⟨.ending, content, rfl, by simp [CommentPhase.held, visible],
        by simp, by simp, by simp⟩
    | body => exact ⟨.endDash, content, rfl, by simp [CommentPhase.held, visible],
        by simp, by simp, by simp⟩
    | endDash => exact ⟨.ending, content, rfl, by simp [CommentPhase.held, visible],
        by simp, by simp, by simp⟩
    | ending => exact ⟨.ending, '-' :: content, rfl, by simp [CommentPhase.held, visible],
        by simp, by simp, by simp⟩
    | endBang => exact ⟨.endDash, '!' :: '-' :: '-' :: content, rfl,
        by simp [CommentPhase.held, visible], by simp, by simp, by simp⟩
  · by_cases hend : c = '>'
    · subst hend
      cases phase with
      | start => exact .inl ⟨rfl, rfl⟩
      | startDash => exact .inl ⟨rfl, rfl⟩
      | body => exact .inr (hbody [] rfl rfl)
      | endDash => exact .inr (hbody ['-'] rfl rfl)
      | ending => exact .inl ⟨rfl, rfl⟩
      | endBang => exact .inl ⟨rfl, rfl⟩
    · right
      cases phase with
      | start => exact hbody [] rfl (by simp [commentStep, hdash, hend])
      | startDash => exact hbody ['-'] rfl (by simp [commentStep, hdash, hend])
      | body => exact hbody [] rfl (by simp [commentStep, hdash])
      | endDash => exact hbody ['-'] rfl (by simp [commentStep, hdash])
      | endBang => exact hbody ['!', '-', '-'] rfl (by simp [commentStep, hdash, hend])
      | ending =>
          by_cases hbang : c = '!'
          · subst hbang
            exact ⟨.endBang, content, rfl, by simp [CommentPhase.held, visible],
              by simp, fun _ => ⟨rfl, rfl⟩, by simp⟩
          · exact hbody ['-', '-'] rfl (by simp [commentStep, hdash, hend, hbang])

/-- A state in a comment, replayed: what has been read leads to it, and two hyphens would make
its content complete. -/
structure IsReplayed (phase : CommentPhase) (content : Text) : Prop where
  leadsTo : LeadsTo (content.reverse ++ phase.held) phase content
  closable : LeadsTo (content.reverse ++ ['-', '-']) .ending content
  eq_nil_of_start : phase = .start ∨ phase = .startDash → content = []

theorem isReplayed_start : IsReplayed .start [] where
  leadsTo := .nil
  closable := .silent rfl rfl (.silent rfl rfl .nil)
  eq_nil_of_start := fun _ => rfl

/-- Except after an exclamation mark, what has been read decides that hyphens close. -/
theorem LeadsTo.closable (hleads : LeadsTo (content.reverse ++ phase.held) phase content)
    (hstart : phase = .start ∨ phase = .startDash → content = []) (hbang : phase ≠ .endBang) :
    LeadsTo (content.reverse ++ ['-', '-']) .ending content := by
  cases phase with
  | start =>
      rw [hstart (.inl rfl)]
      exact isReplayed_start.closable
  | startDash =>
      rw [hstart (.inr rfl)]
      exact isReplayed_start.closable
  | body =>
      have hdash := hleads.snoc (c := '-') rfl
      have hending := hdash.snoc (c := '-') rfl
      simpa [CommentPhase.held] using hending
  | endDash =>
      have hending := hleads.snoc (c := '-') rfl
      simpa [CommentPhase.held] using hending
  | ending => exact hleads
  | endBang => exact absurd rfl hbang

/-- Going on in a comment. -/
theorem IsReplayed.goesOn (hreplayed : IsReplayed phase content)
    (hgoes : GoesOn phase content c phase' content') : IsReplayed phase' content' := by
  have hstep : commentStep phase content (visible c) = (.comment phase' content', []) := by
    rw [commentStep_visible, hgoes.step_eq]
  have hleads : LeadsTo (content'.reverse ++ phase'.held) phase' content' := by
    rw [hgoes.read_eq]
    exact hreplayed.leadsTo.snoc hstep
  have hstart : phase' = .start ∨ phase' = .startDash → content' = [] := by
    rintro (hno | hdash)
    · exact absurd hno hgoes.ne_start
    · obtain ⟨hfirst, hsame⟩ := hgoes.start_of_startDash hdash
      rw [hsame]
      exact hreplayed.eq_nil_of_start (.inl hfirst)
  refine ⟨hleads, ?_, hstart⟩
  by_cases hbang : phase' = .endBang
  · obtain ⟨-, hsame⟩ := hgoes.ending_of_endBang hbang
    rw [hsame]
    exact hreplayed.closable
  · exact hleads.closable hstart hbang

/-- A content that two hyphens make complete can be written as a comment. -/
theorem isComment_of_closable
    (hclosable : LeadsTo (content.reverse ++ ['-', '-']) .ending content) :
    IsComment content.reverse := by
  have hcontent : Passes (.comment .start []) (content.reverse ++ "-->")
      [.comment content.reverse] (.text .data) := by
    have hend : Passes (.comment .ending content) ['>'] [.comment content.reverse]
        (.text .data) := .token rfl rfl rfl .nil
    have hall := Passes.append hclosable hend
    simpa using hall
  exact .silent (c := '<') rfl rfl (.silent (c := '!') rfl rfl (.silent (c := '-') rfl rfl
    (.silent (c := '-') rfl rfl hcontent)))

/-! ## Comments that began without hyphens -/

/-- Text without an angle bracket leads to some state in a comment. -/
theorem exists_leadsTo {read : Text} (hend : '>' ∉ read) (hnull : '\x00' ∉ read) :
    ∃ phase content, LeadsTo read.reverse phase content ∧
      read.reverse = content.reverse ++ phase.held ∧
      (phase = .start ∨ phase = .startDash → content = []) := by
  induction read with
  | nil => exact ⟨.start, [], .nil, rfl, fun _ => rfl⟩
  | cons c read ih =>
      simp only [List.mem_cons, not_or] at hend hnull
      obtain ⟨phase, content, hleads, hread, hstart⟩ := ih hend.2 hnull.2
      rcases commentStep_cases phase content c with ⟨heq, -⟩ | ⟨phase', content', hgoes⟩
      · exact absurd heq.symm hend.1
      · refine ⟨phase', content', ?_, ?_, ?_⟩
        · rw [List.reverse_cons]
          exact hleads.snoc hgoes.step_eq
        · rw [List.reverse_cons, hread, hgoes.read_eq, visible, if_neg (Ne.symm hnull.1)]
        · rintro (hno | hdash)
          · exact absurd hno hgoes.ne_start
          · obtain ⟨hfirst, hsame⟩ := hgoes.start_of_startDash hdash
            rw [hsame]
            exact hstart (.inl hfirst)

/-- Such text can be written as a comment. -/
theorem isComment_of_not_mem {read : Text} (hend : '>' ∉ read) (hnull : '\x00' ∉ read) :
    IsComment read.reverse := by
  apply isComment_of_closable
  obtain ⟨phase, content, hleads, hread, hstart⟩ := exists_leadsTo hend hnull
  have hcontent : read = phase.held.reverse ++ content := by
    rw [← List.reverse_reverse read, hread, List.reverse_append, List.reverse_reverse]
  have hclosed : LeadsTo (read.reverse ++ ['-'] ++ ['-']) .ending read := by
    cases phase with
    | start =>
        rw [hcontent, hstart (.inl rfl)]
        exact isReplayed_start.closable
    | startDash =>
        rw [hcontent, hstart (.inr rfl)]
        exact .silent rfl rfl (.silent rfl rfl (.silent rfl rfl .nil))
    | body | endDash | ending | endBang =>
        subst hcontent
        exact (hleads.snoc (c := '-') rfl).snoc (c := '-') rfl
  simpa using hclosed

end Letterpress.Lexer
