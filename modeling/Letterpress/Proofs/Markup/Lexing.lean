/-
# What the lexer delivers can be written again

Every tag, attribute, comment and character that the lexer delivers is spelled such
that it is read as it stands where it is written (`Token.IsSpelled`). The states
between two characters keep what that rests on (`State.IsSpelled`): the names of a
tag hold no character that would end them, values and text no U+0000, and a comment
is one that can be replayed. `isSpelled_step` says that each character preserves it,
`isSpelled_finish` that the end of the markup does.
-/

import Letterpress.Proofs.Markup.Comments
import Letterpress.Proofs.Markup.Meanings
import Letterpress.Proofs.Text.Letters

namespace Letterpress

open Lexer

/-! ## Names -/

namespace Tag

/-- The name of a tag is the name that the tag was made of, in small letters. -/
theorem name_ofName (n : Text) : (ofName n).name = Text.lower n := by
  rw [ofName]
  cases hfind : listed.find? (·.name == Text.lower n) with
  | none => rfl
  | some tag => simpa using List.find?_some hfind

theorem ofName_lower (n : Text) : ofName (Text.lower n) = ofName n := by
  rw [ofName, ofName, Text.lower_lower]

theorem isWritable_ofName {n : Text} (hname : isElementName (Text.lower n) = true) :
    (ofName n).IsWritable where
  isElementName_name := by rw [name_ofName, hname]
  ofName_name := by rw [name_ofName, ofName_lower]

end Tag

namespace Lexer

theorem visible_ne_null (c : Char) : visible c ≠ '\x00' := by
  by_cases hnull : c = '\x00'
  · subst hnull
    decide
  · rw [visible, if_neg hnull]
    exact hnull

/-- Only a character of another kind stands for a sign in a name. -/
theorem nameChar_ne {c d : Char} (hsign : d.toNat < 65) (hne : c ≠ d) : nameChar c ≠ d := by
  intro heq
  rw [nameChar, visible] at heq
  split at heq
  · subst heq
    exact absurd hsign (by decide)
  · exact hne ((Text.toLower_eq_iff (.inl hsign)).mp heq)

@[simp]
theorem nameChar_nameChar (c : Char) : nameChar (nameChar c) = nameChar c := by
  by_cases hnull : c.toLower = '\x00'
  · rw [nameChar, nameChar, hnull]
    decide
  · have hvisible : nameChar c = c.toLower := by rw [nameChar, visible, if_neg hnull]
    rw [hvisible, nameChar, Text.toLower_toLower, visible, if_neg hnull]

theorem isNamePart_nameChar {c : Char} (hspace : isSpace c = false) (hslash : c ≠ '/')
    (hend : c ≠ '>') : isNamePart (nameChar c) = true := by
  simp only [isSpace, Bool.or_eq_false_iff, beq_eq_false_iff_ne] at hspace
  obtain ⟨⟨⟨htab, hline⟩, hform⟩, hblank⟩ := hspace
  refine isNamePart_iff.mpr ⟨nameChar_nameChar c, ?_, nameChar_ne (by decide) hslash,
    nameChar_ne (by decide) hend⟩
  simp only [isSpace, Bool.or_eq_false_iff, beq_eq_false_iff_ne]
  exact ⟨⟨⟨nameChar_ne (by decide) htab, nameChar_ne (by decide) hline⟩,
    nameChar_ne (by decide) hform⟩, nameChar_ne (by decide) hblank⟩

theorem toLower_eq_self_of_isNamePart {c : Char} (hpart : isNamePart c = true) :
    c.toLower = c := by
  have hsame : visible c.toLower = c := (isNamePart_iff.mp hpart).1
  rw [visible] at hsame
  split at hsame
  · rename_i hnull
    rw [← hsame] at hnull
    exact absurd hnull (by decide)
  · exact hsame

theorem lower_eq_self_of_isNamePart {n : Text} (hname : n.all isNamePart = true) :
    Text.lower n = n := by
  refine (List.map_congr_left fun c hc => ?_).trans (List.map_id n)
  exact toLower_eq_self_of_isNamePart (List.all_eq_true.mp hname c hc)

theorem lower_eq_self_of_isAttributeName {n : Text} (hname : isAttributeName n = true) :
    Text.lower n = n := by
  simp only [isAttributeName, Bool.and_eq_true] at hname
  exact lower_eq_self_of_isNamePart hname.1.2

theorem isAlpha_iff {c : Char} :
    c.isAlpha = true ↔ (65 ≤ c.toNat ∧ c.toNat ≤ 90) ∨ (97 ≤ c.toNat ∧ c.toNat ≤ 122) := by
  delta Char.isAlpha Char.isUpper Char.isLower
  simp only [Bool.or_eq_true, Bool.and_eq_true, decide_eq_true_eq]
  simp only [ge_iff_le, UInt32.le_iff_toNat_le]
  rfl

/-- A letter begins a name. -/
theorem isElementName_letter {c : Char} (hletter : c.isAlpha = true) :
    (nameChar c).isAlpha = true ∧ isNamePart (nameChar c) = true := by
  have hrange := isAlpha_iff.mp hletter
  have hne (d : Char) (hd : d.toNat < 65) : c ≠ d := by
    rintro rfl
    omega
  have hspace : isSpace c = false := by
    simp [isSpace, hne '\t' (by decide), hne '\n' (by decide), hne '\x0C' (by decide),
      hne ' ' (by decide)]
  refine ⟨?_, isNamePart_nameChar hspace (hne '/' (by decide)) (hne '>' (by decide))⟩
  have hlower : c.toLower.isAlpha = true := by
    by_cases hcapital : c.val ≥ 'A'.val ∧ c.val ≤ 'Z'.val
    · have hshift := Text.toNat_toLower hcapital
      exact isAlpha_iff.mpr (by omega)
    · rwa [Text.toLower_eq_self hcapital]
  have hnull : c.toLower ≠ '\x00' := by
    intro h
    rw [h] at hlower
    cases hlower
  rwa [nameChar, visible, if_neg hnull]

end Lexer

/-! ## Tokens and states -/

/-- The token is spelled such that it is read again where it is written. No attribute of a start
tag is there twice. -/
def Token.IsSpelled : Token → Prop
  | .startTag t => t.tag.IsWritable ∧ (∀ a ∈ t.attributes, a.IsWritable) ∧
    (t.attributes.map Attribute.name).Nodup
  | .comment content => IsComment content
  | .char c => c ≠ '\x00'
  | _ => True

namespace Lexer

/-- What has been read of a tag is spelled such that it is read again. -/
structure Draft.IsSpelled (d : Draft) : Prop where
  isElementName_tagName : isElementName d.tagName.reverse = true
  isWritable_of_mem : ∀ a ∈ d.attributes, a.IsWritable
  isAttributeName_name : d.name = [] ∨ isAttributeName d.name.reverse = true
  null_not_mem : '\x00' ∉ d.value
  nodup_names : (d.attributes.map Attribute.name).Nodup

/-- What the state holds is spelled such that tokens made of it are read again. -/
def State.IsSpelled : State → Prop
  | .reference _ read => read.IsRead
  | .tagName d | .beforeAttribute d | .attributeName d | .afterAttributeName d | .beforeValue d
  | .value _ d | .afterValue d | .selfClosing d => d.IsSpelled
  | .valueReference _ d read => d.IsSpelled ∧ read.IsRead
  | .closerName _ name => name ≠ [] ∧ ∀ c ∈ name, c.isAlpha = true
  | .comment phase content => IsReplayed phase content
  | .declaration content | .bogusComment content => '>' ∉ content ∧ '\x00' ∉ content
  | _ => True

/-- A step ends in such a state and completes such tokens. -/
def Delivers (result : State × List Token) : Prop :=
  result.1.IsSpelled ∧ ∀ token ∈ result.2, token.IsSpelled

/-- A step that completes nothing. -/
theorem delivers_silent {s : State} (hstate : s.IsSpelled) : Delivers (s, []) :=
  ⟨hstate, by simp⟩

theorem delivers_token {s : State} {token : Token} (hstate : s.IsSpelled)
    (htoken : token.IsSpelled) : Delivers (s, [token]) :=
  ⟨hstate, by simpa using htoken⟩

/-- Characters other than U+0000 as tokens. -/
theorem isSpelled_of_mem_chars {t : Text} (hnull : '\x00' ∉ t) :
    ∀ token ∈ chars t, token.IsSpelled := by
  intro token htoken
  obtain ⟨c, hc, rfl⟩ := List.mem_map.mp htoken
  rintro rfl
  exact hnull hc

theorem delivers_chars {s : State} {t : Text} (hstate : s.IsSpelled) (hnull : '\x00' ∉ t) :
    Delivers (s, chars t) :=
  ⟨hstate, isSpelled_of_mem_chars hnull⟩

/-! ### Drafts -/

namespace Draft

variable {d : Draft}

theorem isSpelled_ofLetter (closing : Bool) {c : Char} (hletter : c.isAlpha = true) :
    (ofLetter closing c).IsSpelled := by
  obtain ⟨hfirst, hpart⟩ := isElementName_letter hletter
  refine ⟨?_, by simp [ofLetter], .inl rfl, by simp [ofLetter], by simp [ofLetter]⟩
  simp [ofLetter, isElementName, hfirst, hpart]

theorem IsSpelled.keepAttribute (hd : d.IsSpelled) :
    d.keepAttribute.IsSpelled ∧ ∀ a ∈ d.keepAttribute.attributes, a.IsWritable := by
  have hkept : d.keepAttribute.IsSpelled := by
    rw [Draft.keepAttribute]
    split
    · exact hd
    · rename_i hne
      split
      · exact ⟨hd.isElementName_tagName, hd.isWritable_of_mem, .inl rfl, by simp, hd.nodup_names⟩
      · rename_i hnew
        refine ⟨hd.isElementName_tagName, ?_, .inl rfl, by simp, ?_⟩
        · intro a ha
          rcases List.mem_cons.mp ha with rfl | hold
          · rcases hd.isAttributeName_name with hempty | hname
            · simp [hempty] at hne
            · exact ⟨hname, by simpa using hd.null_not_mem⟩
          · exact hd.isWritable_of_mem a hold
        · refine List.nodup_cons.mpr ⟨?_, hd.nodup_names⟩
          simpa using hnew
  exact ⟨hkept, hkept.isWritable_of_mem⟩

theorem IsSpelled.startAttribute (hd : d.IsSpelled) {c : Char} (hspace : isSpace c = false)
    (hslash : c ≠ '/') (hend : c ≠ '>') : (d.startAttribute c).IsSpelled := by
  obtain ⟨hkept, hattributes⟩ := hd.keepAttribute
  have hpart := isNamePart_nameChar hspace hslash hend
  refine ⟨hkept.isElementName_tagName, hattributes, .inr ?_, by simp [Draft.startAttribute],
    hkept.nodup_names⟩
  simp [Draft.startAttribute, isAttributeName, hpart]

theorem IsSpelled.pushName (hd : d.IsSpelled) {c : Char} (hspace : isSpace c = false)
    (hslash : c ≠ '/') (hend : c ≠ '>') (hequals : c ≠ '=') :
    Draft.IsSpelled { d with name := nameChar c :: d.name } := by
  have hpart := isNamePart_nameChar hspace hslash hend
  have hsign : nameChar c ≠ '=' := nameChar_ne (by decide) hequals
  refine ⟨hd.isElementName_tagName, hd.isWritable_of_mem, .inr ?_, hd.null_not_mem,
    hd.nodup_names⟩
  rcases hd.isAttributeName_name with hempty | hname
  · simp [hempty, isAttributeName, hpart]
  · have hne : d.name.reverse ≠ [] := by
      intro hempty
      rw [hempty] at hname
      cases hname
    simp only [isAttributeName, Bool.and_eq_true] at hname
    obtain ⟨⟨-, hall⟩, htail⟩ := hname
    rw [List.reverse_cons, isAttributeName, List.tail_append_of_ne_nil hne]
    simp only [List.all_append, hall, htail, Bool.true_and, Bool.and_eq_true]
    exact ⟨⟨by simp, by simp [hpart]⟩, by simp [hsign]⟩

theorem IsSpelled.pushTagName (hd : d.IsSpelled) {c : Char} (hspace : isSpace c = false)
    (hslash : c ≠ '/') (hend : c ≠ '>') :
    Draft.IsSpelled { d with tagName := nameChar c :: d.tagName } := by
  have hpart := isNamePart_nameChar hspace hslash hend
  refine ⟨?_, hd.isWritable_of_mem, hd.isAttributeName_name, hd.null_not_mem, hd.nodup_names⟩
  have hname := hd.isElementName_tagName
  simp only [isElementName, Bool.and_eq_true] at hname ⊢
  obtain ⟨hfirst, hall⟩ := hname
  rw [List.reverse_cons, List.all_append, hall]
  refine ⟨?_, by simp [hpart]⟩
  cases hreverse : d.tagName.reverse with
  | nil => rw [hreverse] at hfirst; cases hfirst
  | cons first rest =>
      rw [hreverse] at hfirst
      exact hfirst

theorem IsSpelled.pushValue (hd : d.IsSpelled) {c : Char} (hnull : c ≠ '\x00') :
    (d.pushValue c).IsSpelled :=
  ⟨hd.isElementName_tagName, hd.isWritable_of_mem, hd.isAttributeName_name,
    by simpa [Draft.pushValue] using ⟨hnull.symm, hd.null_not_mem⟩, hd.nodup_names⟩

theorem IsSpelled.foldl_pushValue {t : Text} (hnull : '\x00' ∉ t) :
    ∀ {d : Draft}, d.IsSpelled → (t.foldl Draft.pushValue d).IsSpelled := by
  induction t with
  | nil => exact fun hd => hd
  | cons c t ih =>
      intro d hd
      simp only [List.mem_cons, not_or] at hnull
      exact ih hnull.2 (hd.pushValue (Ne.symm hnull.1))

/-- The token of a tag. -/
theorem IsSpelled.delivers_finish (hd : d.IsSpelled) (selfClosing : Bool) :
    Delivers (d.finish selfClosing) := by
  have hlower : Text.lower d.tagName.reverse = d.tagName.reverse := by
    have hname := hd.isElementName_tagName
    rw [isElementName, Bool.and_eq_true] at hname
    exact lower_eq_self_of_isNamePart hname.2
  refine delivers_token trivial ?_
  rw [Draft.token]
  split
  · trivial
  · constructor
    · apply Tag.isWritable_ofName
      rw [hlower]
      exact hd.isElementName_tagName
    · constructor
      · intro a ha
        exact hd.keepAttribute.2 a (List.mem_reverse.mp ha)
      · rw [List.map_reverse]
        exact List.pairwise_reverse.mpr (hd.keepAttribute.1.nodup_names.imp Ne.symm)

end Draft

/-! ### Text -/

theorem null_not_mem_of_isAlpha {name : Text} (hletters : ∀ c ∈ name, c.isAlpha = true) :
    '\x00' ∉ name := by
  intro hnull
  exact absurd (hletters _ hnull) (by decide)

theorem delivers_scriptStep (phase : ScriptPhase) (c : Char) : Delivers (scriptStep phase c) := by
  have hgo (phase : ScriptPhase) :
      Delivers (.text (.script phase), [.char (visible c)]) :=
    delivers_token trivial (visible_ne_null c)
  unfold scriptStep
  cases phase with
  | plain =>
      dsimp only
      split
      · exact delivers_silent trivial
      · exact hgo _
  | commented dashes =>
      dsimp only
      split
      · exact hgo _
      · split
        · exact delivers_silent trivial
        · split <;> exact hgo _
  | nested dashes =>
      dsimp only
      split
      · exact hgo _
      · split
        · exact delivers_token trivial (by decide : '<' ≠ '\x00')
        · split <;> exact hgo _

theorem delivers_textStep (content : Content) (c : Char) : Delivers (textStep content c) := by
  have hvisible (content : Content) : Delivers (.text content, [.char (visible c)]) :=
    delivers_token trivial (visible_ne_null c)
  unfold textStep
  cases content with
  | data =>
      dsimp only
      split
      · exact delivers_silent trivial
      · split
        · exact delivers_silent trivial
        · split
          · exact delivers_token trivial trivial
          · rename_i hnull
            exact delivers_token trivial hnull
  | escapable closer =>
      dsimp only
      split
      · exact delivers_silent trivial
      · split
        · exact delivers_silent trivial
        · exact hvisible _
  | verbatim closer =>
      dsimp only
      split
      · exact delivers_silent trivial
      · exact hvisible _
  | script phase => exact delivers_scriptStep phase c
  | plaintext => exact hvisible _

theorem delivers_textAfter {before : List Token} (hbefore : ∀ token ∈ before, token.IsSpelled)
    (content : Content) (c : Char) : Delivers (textAfter before content c) := by
  obtain ⟨hstate, htokens⟩ := delivers_textStep content c
  refine ⟨hstate, ?_⟩
  intro token htoken
  rcases List.mem_append.mp htoken with hfirst | hlater
  · exact hbefore token hfirst
  · exact htokens token hlater

theorem isSpelled_of_mem_meaningTokens {m : Reference.Meaning} (hnull : '\x00' ∉ m.text) :
    ∀ token ∈ meaningTokens m, token.IsSpelled := by
  intro token htoken
  rcases List.mem_append.mp htoken with hflaw | hchar
  · split at hflaw
    · rw [List.mem_singleton.mp hflaw]
      trivial
    · cases hflaw
  · exact isSpelled_of_mem_chars hnull token hchar

theorem delivers_referenceStep (content : Content) {read : Reference} (hread : read.IsRead)
    (c : Char) : Delivers (referenceStep content read c) := by
  rw [referenceStep]
  split
  · rename_i next hnext
    exact delivers_silent (hread.continue hnext)
  · have hmeaning := isSpelled_of_mem_meaningTokens
      (hread.null_not_mem_settle false (some c))
    dsimp only
    split
    · exact ⟨trivial, hmeaning⟩
    · exact delivers_textAfter hmeaning content c

theorem delivers_closerOpenStep (content : Content) (c : Char) :
    Delivers (closerOpenStep content c) := by
  rw [closerOpenStep]
  split
  · exact delivers_silent trivial
  · split
    · exact delivers_chars trivial (by decide)
    · split
      · rename_i hword
        rw [Bool.and_eq_true] at hword
        refine delivers_chars trivial ?_
        rw [List.mem_cons, not_or]
        refine ⟨by decide, ?_⟩
        apply null_not_mem_of_isAlpha
        intro d hd
        rw [List.mem_singleton.mp hd]
        exact hword.2
      · exact delivers_textAfter (isSpelled_of_mem_chars (t := ['<']) (by decide)) content c

theorem delivers_closerSlashStep (content : Content) (c : Char) :
    Delivers (closerSlashStep content c) := by
  rw [closerSlashStep]
  split
  · rename_i hletter
    exact delivers_silent ⟨by simp, by simpa using hletter⟩
  · exact delivers_textAfter (isSpelled_of_mem_chars (by decide)) content c

/-- The letters of a closer make a tag. -/
theorem isSpelled_closer {name : Text} (hne : name ≠ [])
    (hletters : ∀ c ∈ name, c.isAlpha = true) :
    Draft.IsSpelled ⟨true, name.map nameChar, [], [], []⟩ := by
  refine ⟨?_, by simp, .inl rfl, by simp, by simp⟩
  simp only [isElementName, Bool.and_eq_true, List.all_reverse, List.all_map, List.all_eq_true]
  refine ⟨?_, fun c hc => (isElementName_letter (hletters c hc)).2⟩
  obtain ⟨first, hfirst⟩ : ∃ first, name.reverse.head? = some first := by
    cases hreverse : name.reverse with
    | nil => exact absurd (List.reverse_eq_nil_iff.mp hreverse) hne
    | cons first rest => exact ⟨first, rfl⟩
  have hmem : first ∈ name := List.mem_reverse.mp (List.mem_of_head? hfirst)
  rw [← List.map_reverse, List.head?_map, hfirst]
  exact (isElementName_letter (hletters first hmem)).1

theorem delivers_closerNameStep (content : Content) {name : Text} (hne : name ≠ [])
    (hletters : ∀ c ∈ name, c.isAlpha = true) (c : Char) :
    Delivers (closerNameStep content name c) := by
  have hdraft := isSpelled_closer hne hletters
  unfold closerNameStep
  dsimp only
  split
  · exact delivers_silent hdraft
  · split
    · exact delivers_silent hdraft
    · split
      · exact hdraft.delivers_finish false
      · split
        · rename_i hletter
          apply delivers_silent
          refine ⟨by simp, ?_⟩
          intro d hd
          rcases List.mem_cons.mp hd with rfl | hold
          · exact hletter
          · exact hletters d hold
        · refine delivers_textAfter (isSpelled_of_mem_chars ?_) content c
          have hnull := null_not_mem_of_isAlpha hletters
          simpa using hnull

theorem endsWord_ne_null {c : Char} (hends : endsWord c = true) : c ≠ '\x00' := by
  rintro rfl
  cases hends

theorem isAlpha_ne_null {c : Char} (hletter : c.isAlpha = true) : c ≠ '\x00' := by
  rintro rfl
  cases hletter

theorem delivers_scriptBangStep (dashes : Nat) (c : Char) :
    Delivers (scriptBangStep dashes c) := by
  rw [scriptBangStep]
  split
  · split <;> exact delivers_token trivial (by decide : '-' ≠ '\x00')
  · exact delivers_textStep _ c

theorem delivers_nestWordStep (word : Text) (c : Char) : Delivers (nestWordStep word c) := by
  rw [nestWordStep]
  split
  · rename_i hends
    split <;> exact delivers_token trivial (endsWord_ne_null hends)
  · split
    · rename_i hletter
      exact delivers_token trivial (isAlpha_ne_null hletter)
    · exact delivers_textStep _ c

theorem delivers_nestedOpenStep (c : Char) : Delivers (nestedOpenStep c) := by
  rw [nestedOpenStep]
  split
  · exact delivers_token trivial (by decide : '/' ≠ '\x00')
  · exact delivers_textStep _ c

theorem delivers_unnestWordStep (word : Text) (c : Char) : Delivers (unnestWordStep word c) := by
  rw [unnestWordStep]
  split
  · rename_i hends
    split <;> exact delivers_token trivial (endsWord_ne_null hends)
  · split
    · rename_i hletter
      exact delivers_token trivial (isAlpha_ne_null hletter)
    · exact delivers_textStep _ c

/-! ### Tags -/

theorem delivers_bogusCommentStep {content : Text}
    (hcontent : '>' ∉ content ∧ '\x00' ∉ content) (c : Char) :
    Delivers (bogusCommentStep content c) := by
  rw [bogusCommentStep]
  split
  · exact delivers_token trivial (isComment_of_not_mem hcontent.1 hcontent.2)
  · rename_i hend
    refine delivers_silent ⟨?_, ?_⟩
    · have hvisible : '>' ≠ visible c := by
        intro heq
        rw [visible] at heq
        split at heq
        · exact absurd heq (by decide)
        · exact hend heq.symm
      simpa using ⟨hvisible, hcontent.1⟩
    · simpa using ⟨(visible_ne_null c).symm, hcontent.2⟩

theorem delivers_tagOpenStep (c : Char) : Delivers (tagOpenStep c) := by
  rw [tagOpenStep]
  split
  · exact delivers_silent ⟨by simp, by simp⟩
  · split
    · exact delivers_silent trivial
    · split
      · rename_i hletter
        exact delivers_silent (Draft.isSpelled_ofLetter false hletter)
      · split
        · exact delivers_bogusCommentStep ⟨by simp, by simp⟩ c
        · exact delivers_textAfter (isSpelled_of_mem_chars (t := ['<']) (by decide)) .data c

theorem delivers_endTagOpenStep (c : Char) : Delivers (endTagOpenStep c) := by
  rw [endTagOpenStep]
  split
  · rename_i hletter
    exact delivers_silent (Draft.isSpelled_ofLetter true hletter)
  · split
    · exact delivers_token trivial trivial
    · exact delivers_bogusCommentStep ⟨by simp, by simp⟩ c

variable {d : Draft}

theorem delivers_tagNameStep (hd : d.IsSpelled) (c : Char) : Delivers (tagNameStep d c) := by
  rw [tagNameStep]
  split
  · exact delivers_silent hd
  · rename_i hspace
    split
    · exact delivers_silent hd
    · rename_i hslash
      split
      · exact hd.delivers_finish false
      · rename_i hend
        exact delivers_silent (hd.pushTagName (by simpa using hspace) hslash hend)

theorem delivers_beforeAttributeStep (hd : d.IsSpelled) (c : Char) :
    Delivers (beforeAttributeStep d c) := by
  rw [beforeAttributeStep]
  split
  · exact delivers_silent hd
  · rename_i hspace
    split
    · exact delivers_silent hd
    · rename_i hslash
      split
      · exact hd.delivers_finish false
      · rename_i hend
        exact delivers_silent (hd.startAttribute (by simpa using hspace) hslash hend)

theorem delivers_attributeNameStep (hd : d.IsSpelled) (c : Char) :
    Delivers (attributeNameStep d c) := by
  rw [attributeNameStep]
  split
  · exact delivers_silent hd
  · rename_i hspace
    split
    · exact delivers_silent hd
    · rename_i hslash
      split
      · exact delivers_silent hd
      · rename_i hequals
        split
        · exact hd.delivers_finish false
        · rename_i hend
          exact delivers_silent (hd.pushName (by simpa using hspace) hslash hend hequals)

theorem delivers_afterAttributeNameStep (hd : d.IsSpelled) (c : Char) :
    Delivers (afterAttributeNameStep d c) := by
  rw [afterAttributeNameStep]
  split
  · exact delivers_silent hd
  · rename_i hspace
    split
    · exact delivers_silent hd
    · rename_i hslash
      split
      · exact delivers_silent hd
      · split
        · exact hd.delivers_finish false
        · rename_i hend
          exact delivers_silent (hd.startAttribute (by simpa using hspace) hslash hend)

theorem delivers_valueStep (quoting : Quoting) (hd : d.IsSpelled) (c : Char) :
    Delivers (valueStep quoting d c) := by
  have hpush := hd.pushValue (visible_ne_null c)
  unfold valueStep
  split
  · exact delivers_silent ⟨hd, trivial⟩
  · cases quoting with
    | double | single =>
        dsimp only
        split
        · exact delivers_silent hd
        · exact delivers_silent hpush
    | bare =>
        dsimp only
        split
        · exact delivers_silent hd
        · split
          · exact hd.delivers_finish false
          · exact delivers_silent hpush

theorem delivers_beforeValueStep (hd : d.IsSpelled) (c : Char) :
    Delivers (beforeValueStep d c) := by
  rw [beforeValueStep]
  split
  · exact delivers_silent hd
  · split
    · exact delivers_silent hd
    · split
      · exact delivers_silent hd
      · split
        · exact hd.delivers_finish false
        · exact delivers_valueStep .bare hd c

theorem delivers_valueReferenceStep (quoting : Quoting) (hd : d.IsSpelled) {read : Reference}
    (hread : read.IsRead) (c : Char) : Delivers (valueReferenceStep quoting d read c) := by
  rw [valueReferenceStep]
  split
  · rename_i next hnext
    exact delivers_silent ⟨hd, hread.continue hnext⟩
  · have hpushed := hd.foldl_pushValue (hread.null_not_mem_settle true (some c))
    dsimp only
    split
    · exact delivers_silent hpushed
    · exact delivers_valueStep quoting hpushed c

theorem delivers_selfClosingStep (hd : d.IsSpelled) (c : Char) :
    Delivers (selfClosingStep d c) := by
  rw [selfClosingStep]
  split
  · exact hd.delivers_finish true
  · exact delivers_beforeAttributeStep hd c

/-! ### Declarations and comments -/

/-- What may become one of the words after an exclamation mark is no end. -/
theorem not_mem_of_isPrefixOf {read : Text} {word : Text} {c : Char} (hc : c ∈ read)
    (hlead : read.isPrefixOf word = true) (hword : '>' ∉ word ∧ '\x00' ∉ word) :
    c ≠ '>' ∧ c ≠ '\x00' := by
  have hmem : c ∈ word := (List.isPrefixOf_iff_prefix.mp hlead).subset hc
  constructor
  · rintro rfl
    exact hword.1 hmem
  · rintro rfl
    exact hword.2 hmem

theorem delivers_declarationStep (foreign : Bool) {word : Text}
    (hword : '>' ∉ word ∧ '\x00' ∉ word) (c : Char) :
    Delivers (declarationStep foreign word c) := by
  unfold declarationStep
  dsimp only
  split
  · exact delivers_silent isReplayed_start
  · split
    · exact delivers_silent trivial
    · split
      · exact delivers_silent trivial
      · split
        · rename_i hlead
          have hc : c ≠ '>' ∧ c ≠ '\x00' := by
            have hmem : c ∈ (c :: word).reverse := by simp
            have hlower : c.toLower ∈ Text.lower (c :: word).reverse :=
              List.mem_map_of_mem hmem
            simp only [Bool.or_eq_true, Bool.and_eq_true] at hlead
            rcases hlead with (hdashes | hdoctype) | ⟨-, hdata⟩
            · exact not_mem_of_isPrefixOf hmem hdashes (by decide)
            · obtain ⟨hend, hnull⟩ := not_mem_of_isPrefixOf hlower hdoctype (by decide)
              constructor
              · rintro rfl
                exact hend (by decide)
              · rintro rfl
                exact hnull (by decide)
            · exact not_mem_of_isPrefixOf hmem hdata (by decide)
          exact delivers_silent ⟨by simpa using ⟨hc.1.symm, hword.1⟩,
            by simpa using ⟨hc.2.symm, hword.2⟩⟩
        · exact delivers_bogusCommentStep hword c

theorem delivers_commentStep {phase : CommentPhase} {content : Text}
    (hreplayed : IsReplayed phase content) (c : Char) :
    Delivers (commentStep phase content c) := by
  rcases commentStep_cases phase content c with ⟨-, hend⟩ | ⟨phase', content', hgoes⟩
  · rw [hend]
    exact delivers_token trivial (isComment_of_closable hreplayed.closable)
  · rw [hgoes.step_eq]
    exact delivers_silent (hreplayed.goesOn hgoes)

theorem delivers_doctypeStep (phase : DoctypePhase) (d : Doctype) (c : Char) :
    Delivers (doctypeStep phase d c) := by
  fun_cases doctypeStep phase d c
  all_goals first | exact delivers_silent trivial | exact delivers_token trivial trivial

theorem delivers_characterDataStep (brackets : Nat) (c : Char) :
    Delivers (characterDataStep brackets c) := by
  unfold characterDataStep
  dsimp only
  split
  · split
    · exact delivers_silent trivial
    · exact delivers_token trivial (by decide : ']' ≠ '\x00')
  · split
    · exact delivers_silent trivial
    · refine ⟨trivial, ?_⟩
      intro token htoken
      rcases List.mem_append.mp htoken with hheld | hlast
      · refine isSpelled_of_mem_chars ?_ token hheld
        simp [List.mem_replicate]
      · rw [List.mem_singleton.mp hlast]
        split
        · trivial
        · rename_i hnull
          exact hnull

/-! ## Steps and the end -/

/-- Each character preserves the spelling and completes only tokens that are spelled so. -/
theorem isSpelled_step (foreign : Bool) {s : State} (hs : s.IsSpelled) (c : Char) :
    Delivers (step foreign s c) := by
  cases s with
  | text content => exact delivers_textStep content c
  | reference content read => exact delivers_referenceStep content hs c
  | tagOpen => exact delivers_tagOpenStep c
  | endTagOpen => exact delivers_endTagOpenStep c
  | tagName d => exact delivers_tagNameStep hs c
  | beforeAttribute d => exact delivers_beforeAttributeStep hs c
  | attributeName d => exact delivers_attributeNameStep hs c
  | afterAttributeName d => exact delivers_afterAttributeNameStep hs c
  | beforeValue d => exact delivers_beforeValueStep hs c
  | value quoting d => exact delivers_valueStep quoting hs c
  | valueReference quoting d read => exact delivers_valueReferenceStep quoting hs.1 hs.2 c
  | afterValue d => exact delivers_beforeAttributeStep hs c
  | selfClosing d => exact delivers_selfClosingStep hs c
  | closerOpen content => exact delivers_closerOpenStep content c
  | closerSlash content => exact delivers_closerSlashStep content c
  | closerName content name => exact delivers_closerNameStep content hs.1 hs.2 c
  | scriptBang dashes => exact delivers_scriptBangStep dashes c
  | nestWord word => exact delivers_nestWordStep word c
  | nestedOpen => exact delivers_nestedOpenStep c
  | unnestWord word => exact delivers_unnestWordStep word c
  | declaration word => exact delivers_declarationStep foreign hs c
  | comment phase content => exact delivers_commentStep hs c
  | bogusComment content => exact delivers_bogusCommentStep hs c
  | doctype phase d => exact delivers_doctypeStep phase d c
  | characterData brackets => exact delivers_characterDataStep brackets c

/-- So does the end of the markup. -/
theorem isSpelled_finish {s : State} (hs : s.IsSpelled) :
    ∀ token ∈ finish s, token.IsSpelled := by
  have hcomment {content : Text} (hcontent : IsComment content) :
      ∀ token ∈ [Token.comment content], token.IsSpelled := by
    intro token htoken
    rw [List.mem_singleton.mp htoken]
    exact hcontent
  unfold finish
  split
  · exact isSpelled_of_mem_meaningTokens (Reference.IsRead.null_not_mem_settle hs false none)
  · exact isSpelled_of_mem_chars (by decide)
  · exact isSpelled_of_mem_chars (by decide)
  · exact isSpelled_of_mem_chars (by decide)
  · exact isSpelled_of_mem_chars (by decide)
  · apply isSpelled_of_mem_chars
    have hnull := null_not_mem_of_isAlpha hs.2
    simpa using hnull
  · exact hcomment (isComment_of_not_mem hs.1 hs.2)
  · exact hcomment (isComment_of_closable hs.closable)
  · exact hcomment (isComment_of_not_mem hs.1 hs.2)
  · intro token htoken
    rw [List.mem_singleton.mp htoken]
    trivial
  · apply isSpelled_of_mem_chars
    simp [List.mem_replicate]
  · simp

end Lexer

end Letterpress
