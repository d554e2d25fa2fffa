/-
# Tags in the text

A start tag is delivered only where the text has it: an open bracket, and behind it the
characters that the name of the tag is made of. The states within a tag keep that
(`State.Follows`): the text read so far ends with the bracket and the name while the name is
read, and holds them until the tag is delivered. One character preserves it
(`reports_step`), and so does a whole text under any tree, since the tree replaces the state
only where no tag is being read (`Reader.Follows.feed`).
-/

import Letterpress.Proofs.Markup.Lexing
import Letterpress.Proofs.Markup.Passing
import Letterpress.Proofs.Markup.Spelling

namespace Letterpress

/-- Whether the token is a tag. -/
def Token.isTag : Token → Bool
  | .startTag _ | .endTag _ => true
  | _ => false

theorem Token.isPlain_of_isTag {token : Token} (h : token.isTag = false) :
    token.isPlain = true := by
  cases token <;> first | rfl | cases h

namespace Lexer

/-- A text has an open bracket and then characters that a name is made of. -/
def HasTagName (name u : Text) : Prop := ∃ raw, '<' :: raw <:+: u ∧ raw.map nameChar = name

/-- A text ends with them. -/
def EndsWithTagName (name u : Text) : Prop := ∃ raw, '<' :: raw <:+ u ∧ raw.map nameChar = name

/-- The name of a start tag being read stands in the text. -/
def Draft.StandsIn (d : Draft) (u : Text) : Prop :=
  d.closing = false → HasTagName d.tagName.reverse u

/-- What the text read so far has of the tag that the state is in. -/
def State.Follows (u : Text) : State → Prop
  | .tagOpen => ['<'] <:+ u
  | .tagName d => d.closing = false → EndsWithTagName d.tagName.reverse u
  | .beforeAttribute d | .attributeName d | .afterAttributeName d | .beforeValue d | .value _ d
  | .valueReference _ d _ | .afterValue d | .selfClosing d => d.StandsIn u
  | _ => True

/-- A step ends in such a state, and its start tags stand in the text. Text is read on after a
tag. -/
structure Reports (u : Text) (result : State × List Token) : Prop where
  follows : result.1.Follows u
  named : ∀ s, .startTag s ∈ result.2 → ∃ name, s.tag = Tag.ofName name ∧ HasTagName name u
  rests : ∀ token ∈ result.2, token.isTag = true → ∃ content, result.1 = .text content

variable {u : Text} {s : State} {tokens : List Token} {d : Draft} {c : Char}

theorem HasTagName.snoc {name : Text} (h : HasTagName name u) (c : Char) :
    HasTagName name (u ++ [c]) := by
  obtain ⟨raw, hraw, hname⟩ := h
  exact ⟨raw, hraw.trans (List.prefix_append u [c]).isInfix, hname⟩

theorem EndsWithTagName.hasTagName {name : Text} (h : EndsWithTagName name u) :
    HasTagName name u := by
  obtain ⟨raw, hraw, hname⟩ := h
  exact ⟨raw, hraw.isInfix, hname⟩

theorem EndsWithTagName.snoc {name : Text} (h : EndsWithTagName name u) (c : Char) :
    EndsWithTagName (name ++ [nameChar c]) (u ++ [c]) := by
  obtain ⟨raw, ⟨before, rfl⟩, rfl⟩ := h
  exact ⟨raw ++ [c], ⟨before, by simp⟩, by simp⟩

/-- A step that completes no tag. -/
theorem reports_quiet (hstate : s.Follows u) (hquiet : ∀ token ∈ tokens, token.isTag = false) :
    Reports u (s, tokens) where
  follows := hstate
  named := fun t ht => nomatch hquiet _ ht
  rests := fun token htoken htag => by
    rw [hquiet token htoken] at htag
    cases htag

theorem reports_silent (hstate : s.Follows u) : Reports u (s, []) :=
  reports_quiet hstate (by simp)

theorem isTag_of_mem_chars (t : Text) : ∀ token ∈ chars t, token.isTag = false := by
  intro token htoken
  obtain ⟨c, -, rfl⟩ := List.mem_map.mp htoken
  rfl

theorem reports_token {token : Token} (hstate : s.Follows u) (hquiet : token.isTag = false) :
    Reports u (s, [token]) :=
  reports_quiet hstate (by simpa using hquiet)

/-- The token of a tag. -/
theorem Draft.StandsIn.reports_finish (hd : d.StandsIn u) (selfClosing : Bool) :
    Reports u (d.finish selfClosing) where
  follows := trivial
  named := by
    intro t ht
    rw [Draft.finish, Draft.token, List.mem_singleton] at ht
    split at ht
    · cases ht
    · rename_i hopening
      cases ht
      exact ⟨_, rfl, hd (by simpa using hopening)⟩
  rests := fun _ _ _ => ⟨.data, rfl⟩

/-! ## Text -/

theorem reports_scriptStep (u : Text) (phase : ScriptPhase) (c : Char) :
    Reports u (scriptStep phase c) := by
  fun_cases scriptStep phase c
  all_goals first
    | exact reports_silent trivial
    | exact reports_token trivial rfl

theorem reports_textStep (u : Text) (content : Content) (c : Char) :
    Reports (u ++ [c]) (textStep content c) := by
  fun_cases textStep content c
  all_goals first
    | exact reports_silent trivial
    | exact reports_token trivial rfl
    | exact reports_scriptStep _ _ c
    | (rename_i hopen
       subst hopen
       exact reports_silent (List.suffix_append u ['<']))

theorem reports_textAfter {before : List Token} (hquiet : ∀ token ∈ before, token.isTag = false)
    (content : Content) (c : Char) : Reports (u ++ [c]) (textAfter before content c) := by
  obtain ⟨hstate, hnamed, hrests⟩ := reports_textStep u content c
  constructor
  · exact hstate
  · intro t ht
    rcases List.mem_append.mp ht with hfirst | hlater
    · exact nomatch hquiet _ hfirst
    · exact hnamed t hlater
  · intro token htoken htag
    rcases List.mem_append.mp htoken with hfirst | hlater
    · rw [hquiet token hfirst] at htag
      cases htag
    · exact hrests token hlater htag

theorem isTag_of_mem_meaningTokens (m : Reference.Meaning) :
    ∀ token ∈ meaningTokens m, token.isTag = false := by
  intro token htoken
  rcases List.mem_append.mp htoken with hflaw | hchar
  · split at hflaw
    · rw [List.mem_singleton.mp hflaw]
      rfl
    · cases hflaw
  · exact isTag_of_mem_chars m.text token hchar

theorem reports_referenceStep (content : Content) (read : Reference) (c : Char) :
    Reports (u ++ [c]) (referenceStep content read c) := by
  fun_cases referenceStep content read c
  · exact reports_silent trivial
  · exact reports_quiet trivial (isTag_of_mem_meaningTokens _)
  · exact reports_textAfter (isTag_of_mem_meaningTokens _) content c

theorem reports_closerOpenStep (content : Content) (c : Char) :
    Reports (u ++ [c]) (closerOpenStep content c) := by
  fun_cases closerOpenStep content c
  · exact reports_silent trivial
  · exact reports_quiet trivial (isTag_of_mem_chars _)
  · exact reports_quiet trivial (isTag_of_mem_chars _)
  · exact reports_textAfter (isTag_of_mem_chars ['<']) content c

theorem reports_closerSlashStep (content : Content) (c : Char) :
    Reports (u ++ [c]) (closerSlashStep content c) := by
  fun_cases closerSlashStep content c
  · exact reports_silent trivial
  · exact reports_textAfter (isTag_of_mem_chars _) content c

/-- The tag that ends a text is an end tag. -/
theorem reports_closerNameStep (content : Content) (name : Text) (c : Char) :
    Reports (u ++ [c]) (closerNameStep content name c) := by
  have hend : Draft.StandsIn ⟨true, name.map nameChar, [], [], []⟩ (u ++ [c]) := nofun
  fun_cases closerNameStep content name c
  · exact reports_silent hend
  · exact reports_silent hend
  · exact hend.reports_finish false
  · exact reports_silent trivial
  · exact reports_textAfter (isTag_of_mem_chars _) content c

theorem reports_scriptBangStep (dashes : Nat) (c : Char) :
    Reports (u ++ [c]) (scriptBangStep dashes c) := by
  fun_cases scriptBangStep dashes c
  all_goals first
    | exact reports_token trivial rfl
    | exact reports_textStep u _ c

theorem reports_nestWordStep (word : Text) (c : Char) :
    Reports (u ++ [c]) (nestWordStep word c) := by
  fun_cases nestWordStep word c
  all_goals first
    | exact reports_token trivial rfl
    | exact reports_textStep u _ c

theorem reports_nestedOpenStep (c : Char) : Reports (u ++ [c]) (nestedOpenStep c) := by
  fun_cases nestedOpenStep c
  all_goals first
    | exact reports_token trivial rfl
    | exact reports_textStep u _ c

theorem reports_unnestWordStep (word : Text) (c : Char) :
    Reports (u ++ [c]) (unnestWordStep word c) := by
  fun_cases unnestWordStep word c
  all_goals first
    | exact reports_token trivial rfl
    | exact reports_textStep u _ c

/-! ## Comments and declarations -/

theorem reports_bogusCommentStep (u : Text) (content : Text) (c : Char) :
    Reports u (bogusCommentStep content c) := by
  fun_cases bogusCommentStep content c
  · exact reports_token trivial rfl
  · exact reports_silent trivial

theorem reports_declarationStep (foreign : Bool) (word : Text) (c : Char) :
    Reports u (declarationStep foreign word c) := by
  fun_cases declarationStep foreign word c
  all_goals first
    | exact reports_silent trivial
    | exact reports_bogusCommentStep u _ c

theorem reports_commentStep (phase : CommentPhase) (content : Text) (c : Char) :
    Reports u (commentStep phase content c) := by
  fun_cases commentStep phase content c
  all_goals first
    | exact reports_silent trivial
    | exact reports_token trivial rfl

theorem reports_doctypeStep (phase : DoctypePhase) (declaration : Doctype) (c : Char) :
    Reports u (doctypeStep phase declaration c) := by
  fun_cases doctypeStep phase declaration c
  all_goals first
    | exact reports_silent trivial
    | exact reports_token trivial rfl

theorem reports_characterDataStep (brackets : Nat) (c : Char) :
    Reports u (characterDataStep brackets c) := by
  fun_cases characterDataStep brackets c
  · exact reports_silent trivial
  · exact reports_token trivial rfl
  · exact reports_silent trivial
  · refine reports_quiet trivial fun token htoken => ?_
    rcases List.mem_append.mp htoken with hheld | hlast
    · exact isTag_of_mem_chars _ token hheld
    · rw [List.mem_singleton.mp hlast]
      split <;> rfl

/-! ## Tags -/

/-- Attributes and values change nothing about the name of a tag. -/
theorem Draft.StandsIn.startAttribute (hd : d.StandsIn u) (c : Char) :
    (d.startAttribute c).StandsIn u := by
  intro hopening
  have hname : (d.startAttribute c).tagName = d.tagName := d.keepAttribute_tagName
  rw [hname]
  exact hd (d.keepAttribute_closing.symm.trans hopening)

theorem Draft.StandsIn.foldl_pushValue (hd : d.StandsIn u) (t : Text) :
    (t.foldl Draft.pushValue d).StandsIn u := by
  induction t generalizing d with
  | nil => exact hd
  | cons c t ih => exact ih hd

theorem reports_tagOpenStep (hopen : ['<'] <:+ u) (c : Char) :
    Reports (u ++ [c]) (tagOpenStep c) := by
  fun_cases tagOpenStep c
  · exact reports_silent trivial
  · exact reports_silent trivial
  · refine reports_silent fun _ => ?_
    obtain ⟨before, rfl⟩ := hopen
    exact ⟨[c], ⟨before, by simp⟩, rfl⟩
  · exact reports_bogusCommentStep _ [] c
  · exact reports_textAfter (isTag_of_mem_chars ['<']) .data c

theorem reports_endTagOpenStep (u : Text) (c : Char) : Reports u (endTagOpenStep c) := by
  fun_cases endTagOpenStep c
  · exact reports_silent nofun
  · exact reports_token trivial rfl
  · exact reports_bogusCommentStep _ [] c

theorem reports_tagNameStep (hd : d.closing = false → EndsWithTagName d.tagName.reverse u)
    (c : Char) : Reports (u ++ [c]) (tagNameStep d c) := by
  have hstands : d.StandsIn (u ++ [c]) := fun hopening => (hd hopening).hasTagName.snoc c
  fun_cases tagNameStep d c
  · exact reports_silent hstands
  · exact reports_silent hstands
  · exact hstands.reports_finish false
  · refine reports_silent fun hopening => ?_
    rw [List.reverse_cons]
    exact (hd hopening).snoc c

theorem reports_beforeAttributeStep (hd : d.StandsIn u) (c : Char) :
    Reports u (beforeAttributeStep d c) := by
  fun_cases beforeAttributeStep d c
  · exact reports_silent hd
  · exact reports_silent hd
  · exact hd.reports_finish false
  · exact reports_silent (hd.startAttribute c)

theorem reports_attributeNameStep (hd : d.StandsIn u) (c : Char) :
    Reports u (attributeNameStep d c) := by
  fun_cases attributeNameStep d c
  · exact reports_silent hd
  · exact reports_silent hd
  · exact reports_silent hd
  · exact hd.reports_finish false
  · exact reports_silent hd

theorem reports_afterAttributeNameStep (hd : d.StandsIn u) (c : Char) :
    Reports u (afterAttributeNameStep d c) := by
  fun_cases afterAttributeNameStep d c
  · exact reports_silent hd
  · exact reports_silent hd
  · exact reports_silent hd
  · exact hd.reports_finish false
  · exact reports_silent (hd.startAttribute c)

theorem reports_valueStep (quoting : Quoting) (hd : d.StandsIn u) (c : Char) :
    Reports u (valueStep quoting d c) := by
  fun_cases valueStep quoting d c
  all_goals first
    | exact reports_silent hd
    | exact hd.reports_finish false

theorem reports_beforeValueStep (hd : d.StandsIn u) (c : Char) :
    Reports u (beforeValueStep d c) := by
  fun_cases beforeValueStep d c
  · exact reports_silent hd
  · exact reports_silent hd
  · exact reports_silent hd
  · exact hd.reports_finish false
  · exact reports_valueStep .bare hd c

theorem reports_valueReferenceStep (quoting : Quoting) (hd : d.StandsIn u) (read : Reference)
    (c : Char) : Reports u (valueReferenceStep quoting d read c) := by
  fun_cases valueReferenceStep quoting d read c
  · exact reports_silent hd
  · exact reports_silent (hd.foldl_pushValue _)
  · exact reports_valueStep quoting (hd.foldl_pushValue _) c

theorem reports_selfClosingStep (hd : d.StandsIn u) (c : Char) :
    Reports u (selfClosingStep d c) := by
  fun_cases selfClosingStep d c
  · exact hd.reports_finish true
  · exact reports_beforeAttributeStep hd c

/-! ## Steps and the end -/

/-- Each character keeps what the text read so far has of a tag. -/
theorem reports_step (foreign : Bool) (hs : s.Follows u) (c : Char) :
    Reports (u ++ [c]) (step foreign s c) := by
  have hstands {d : Draft} (hd : d.StandsIn u) : d.StandsIn (u ++ [c]) := fun hopening =>
    (hd hopening).snoc c
  cases s with
  | text content => exact reports_textStep u content c
  | reference content read => exact reports_referenceStep content read c
  | tagOpen => exact reports_tagOpenStep hs c
  | endTagOpen => exact reports_endTagOpenStep _ c
  | tagName d => exact reports_tagNameStep hs c
  | beforeAttribute d => exact reports_beforeAttributeStep (hstands hs) c
  | attributeName d => exact reports_attributeNameStep (hstands hs) c
  | afterAttributeName d => exact reports_afterAttributeNameStep (hstands hs) c
  | beforeValue d => exact reports_beforeValueStep (hstands hs) c
  | value quoting d => exact reports_valueStep quoting (hstands hs) c
  | valueReference quoting d read => exact reports_valueReferenceStep quoting (hstands hs) read c
  | afterValue d => exact reports_beforeAttributeStep (hstands hs) c
  | selfClosing d => exact reports_selfClosingStep (hstands hs) c
  | closerOpen content => exact reports_closerOpenStep content c
  | closerSlash content => exact reports_closerSlashStep content c
  | closerName content name => exact reports_closerNameStep content name c
  | scriptBang dashes => exact reports_scriptBangStep dashes c
  | nestWord word => exact reports_nestWordStep word c
  | nestedOpen => exact reports_nestedOpenStep c
  | unnestWord word => exact reports_unnestWordStep word c
  | declaration word => exact reports_declarationStep foreign word c
  | comment phase content => exact reports_commentStep phase content c
  | bogusComment content => exact reports_bogusCommentStep _ content c
  | doctype phase d => exact reports_doctypeStep phase d c
  | characterData brackets => exact reports_characterDataStep brackets c

/-- No tag is left for the end of the text. -/
theorem isTag_of_mem_finish : ∀ token ∈ finish s, token.isTag = false := by
  fun_cases finish s
  all_goals first
    | exact isTag_of_mem_meaningTokens _
    | exact isTag_of_mem_chars _
    | simp [Token.isTag]

end Lexer

namespace Reader

open Lexer

variable {r : Reader} {b : Builder} {t u : Text}

/-- A reader has read a text: its lexer follows it, and a mark is dropped only where text is
read, hence not from within a tag. -/
structure Follows (r : Reader) (u : Text) : Prop where
  lexer : r.lexer.Follows u
  rests : r.atStart = true → ∃ content, r.lexer = .text content

theorem exists_text_foldl_take (h : ∃ content, r.lexer = .text content) (tokens : List Token) :
    ∃ content, (tokens.foldl take r).lexer = .text content := by
  induction tokens generalizing r with
  | nil => exact h
  | cons token tokens ih =>
      refine ih ?_
      rw [take]
      split
      · exact ⟨_, rfl⟩
      · exact h
      · exact h

/-- A character keeps it, and its start tags stand in the text. -/
theorem Follows.feed (h : r.Follows u) (c : Char) :
    (r.feed c).Follows (u ++ [c]) ∧
      ∀ s, .startTag s ∈ r.emit c → ∃ name, s.tag = Tag.ofName name ∧ HasTagName name (u ++ [c]) := by
  rw [Reader.feed, emit]
  split
  · rename_i hmark
    simp only [Bool.and_eq_true, decide_eq_true_eq] at hmark
    obtain ⟨content, hcontent⟩ := h.rests hmark.1
    exact ⟨⟨by simp [hcontent, State.Follows], by simp⟩, by simp⟩
  · obtain ⟨hstate, hnamed, hrests⟩ :=
      reports_step (r.builder.current.vocabulary != .html) h.lexer c
    refine ⟨?_, hnamed⟩
    dsimp only
    generalize step (r.builder.current.vocabulary != .html) r.lexer c = result at hstate hrests
    obtain ⟨lexer, tokens⟩ := result
    by_cases htag : ∃ token ∈ tokens, token.isTag = true
    · obtain ⟨token, htoken, htag⟩ := htag
      have htext : ∃ content, (⟨lexer, r.builder, false⟩ : Reader).lexer = .text content :=
        hrests token htoken htag
      obtain ⟨content, hcontent⟩ := exists_text_foldl_take htext tokens
      exact ⟨by rw [hcontent]; trivial, fun _ => ⟨content, hcontent⟩⟩
    · have hplain : tokens.all Token.isPlain = true :=
        List.all_eq_true.mpr fun token htoken => Token.isPlain_of_isTag
          (Bool.eq_false_iff.mpr fun hyes => htag ⟨token, htoken, hyes⟩)
      rw [foldl_take_of_isPlain _ hplain]
      exact ⟨hstate, fun hmark => absurd hmark Bool.false_ne_true⟩

theorem Follows.emitAll (h : r.Follows u) :
    (r.feedAll t).Follows (u ++ t) ∧
      ∀ s, .startTag s ∈ r.emitAll t → ∃ name, s.tag = Tag.ofName name ∧ HasTagName name (u ++ t) := by
  induction t generalizing r u with
  | nil => exact ⟨by rwa [List.append_nil], nofun⟩
  | cons c t ih =>
      obtain ⟨hnext, hfirst⟩ := h.feed c
      obtain ⟨hlast, hlater⟩ := ih hnext
      rw [List.append_assoc, List.singleton_append] at hlast hlater
      refine ⟨hlast, fun s hs => ?_⟩
      rcases List.mem_append.mp hs with hs | hs
      · obtain ⟨name, htag, raw, hraw, hname⟩ := hfirst s hs
        have hmore : u ++ [c] <+: u ++ c :: t := ⟨t, by simp⟩
        exact ⟨name, htag, raw, hraw.trans hmore.isInfix, hname⟩
      · exact hlater s hs

theorem prefix_of_prefix_normalizeNewlines (hline : '\n' ∉ u) (h : u <+: normalizeNewlines t) :
    u <+: t := by
  have hbreak {u rest : Text} (hline : '\n' ∉ u) (h : u <+: '\n' :: rest) : u = [] := by
    rcases List.prefix_cons_iff.mp h with hnil | ⟨more, rfl, -⟩
    · exact hnil
    · exact absurd List.mem_cons_self hline
  fun_induction normalizeNewlines t generalizing u with
  | case1 t ih => exact hbreak hline h ▸ List.nil_prefix
  | case2 t _ ih => exact hbreak hline h ▸ List.nil_prefix
  | case3 c t _ _ ih =>
      rcases List.prefix_cons_iff.mp h with rfl | ⟨more, rfl, hmore⟩
      · exact List.nil_prefix
      · rw [List.mem_cons, not_or] at hline
        exact List.cons_prefix_cons.mpr ⟨rfl, ih hline.2 hmore⟩
  | case4 => exact h

/-- What has no line feed stands in the text itself, if it stands there with other line ends. -/
theorem infix_of_infix_normalizeNewlines (hline : '\n' ∉ u) (h : u <:+: normalizeNewlines t) :
    u <:+: t := by
  have hwhole {t : Text} (h : u <+: normalizeNewlines t) : u <:+: t :=
    (prefix_of_prefix_normalizeNewlines hline h).isInfix
  fun_induction normalizeNewlines t with
  | case1 t ih =>
      rcases List.infix_cons_iff.mp h with hprefix | hrest
      · exact hwhole (t := '\r' :: '\n' :: t) hprefix
      · exact List.infix_cons (List.infix_cons (ih hrest))
  | case2 t hnot ih =>
      rcases List.infix_cons_iff.mp h with hprefix | hrest
      · exact hwhole (t := '\r' :: t) (by rwa [normalizeNewlines.eq_2 _ hnot])
      · exact List.infix_cons (ih hrest)
  | case3 c t hnot hne ih =>
      rcases List.infix_cons_iff.mp h with hprefix | hrest
      · exact hwhole (t := c :: t) (by rwa [normalizeNewlines.eq_3 _ _ hnot hne])
      · exact List.infix_cons (ih hrest)
  | case4 => exact h

/-- Every start tag that a text is read as stands in the text, under any tree. -/
theorem exists_infix_of_startTag_mem_tokens {s : StartTag} (h : .startTag s ∈ tokens b t) :
    ∃ raw, '<' :: raw <:+: normalizeNewlines t ∧ s.tag = Tag.ofName (raw.map nameChar) := by
  have hstart : (start b).Follows [] := ⟨trivial, fun _ => ⟨.data, rfl⟩⟩
  rcases List.mem_append.mp h with hs | hs
  · obtain ⟨name, htag, raw, hraw, rfl⟩ := (hstart.emitAll (t := normalizeNewlines t)).2 s hs
    exact ⟨raw, hraw, htag⟩
  · rcases List.mem_append.mp hs with hs | hs
    · exact nomatch isTag_of_mem_finish _ hs
    · cases List.mem_singleton.mp hs

end Reader

end Letterpress
