/-
# Templates

A template is fixed markup with places for data: values between double quotes and
remarks in comments. Whatever the data, a template is read as with no data at all: the
lexer comes to a state that differs in data only (`State.blank`), and the tokens have
the same outlines. So the outline of a template is a matter of evaluating it without
data (`Template.outline?`), and two ways to fill it match (`matches_fill`).
-/

import Letterpress.Proofs.Markup.Passing

namespace Letterpress

/-- An attribute without its value. -/
def Attribute.blank (a : Attribute) : Attribute := ⟨a.name, []⟩

namespace Lexer

/-- A tag being read, without values. -/
def Draft.blank (d : Draft) : Draft :=
  { d with attributes := d.attributes.map Attribute.blank, value := [] }

/-- A state without the values of attributes and the content of a comment. -/
def State.blank : State → State
  | .tagName d => .tagName d.blank
  | .beforeAttribute d => .beforeAttribute d.blank
  | .attributeName d => .attributeName d.blank
  | .afterAttributeName d => .afterAttributeName d.blank
  | .beforeValue d => .beforeValue d.blank
  | .value quoting d => .value quoting d.blank
  | .valueReference quoting d read => .valueReference quoting d.blank read
  | .afterValue d => .afterValue d.blank
  | .selfClosing d => .selfClosing d.blank
  | .comment phase _ => .comment phase []
  | s => s

/-- What a step leads to, without data. -/
def blankResult (result : State × List Token) : State × List Token :=
  (result.1.blank, result.2.map Token.outline)

variable {s s' : State} {d : Draft} {c : Char}

theorem Draft.blank_blank (d : Draft) : d.blank.blank = d.blank := by
  simp [blank, Attribute.blank, Function.comp_def]

theorem Draft.blank_pushValue (d : Draft) (c : Char) : (d.pushValue c).blank = d.blank := rfl

theorem Draft.blank_foldl_pushValue (d : Draft) (t : Text) :
    (t.foldl pushValue d).blank = d.blank := by
  induction t generalizing d with
  | nil => rfl
  | cons c t ih => rw [List.foldl_cons, ih, blank_pushValue]

theorem Draft.blank_keepAttribute (d : Draft) :
    d.blank.keepAttribute.blank = d.keepAttribute.blank := by
  have hname : d.blank.name = d.name := rfl
  have hany (name : Text) : (d.blank.attributes.any fun a => a.name == name) =
      d.attributes.any fun a => a.name == name := by
    rw [blank, List.any_map]
    rfl
  unfold keepAttribute
  simp only [hany, hname]
  by_cases hempty : d.name.reverse.isEmpty = true
  · rw [if_pos hempty, if_pos hempty]
    exact d.blank_blank
  · rw [if_neg hempty, if_neg hempty]
    by_cases hold : (d.attributes.any fun a => a.name == d.name.reverse) = true
    · rw [if_pos hold, if_pos hold]
      simp [blank, Attribute.blank, Function.comp_def]
    · rw [if_neg hold, if_neg hold]
      simp [blank, Attribute.blank, Function.comp_def]

theorem Draft.blank_startAttribute (d : Draft) (c : Char) :
    (d.blank.startAttribute c).blank = (d.startAttribute c).blank := by
  have hkept := d.blank_keepAttribute
  simp only [blank, Draft.mk.injEq] at hkept
  simp only [startAttribute, blank, hkept]

theorem blankResult_finish (d : Draft) (selfClosing : Bool) :
    blankResult (d.blank.finish selfClosing) = blankResult (d.finish selfClosing) := by
  have hattributes := congrArg (fun e : Draft => e.attributes.reverse) d.blank_keepAttribute
  simp only [Draft.blank, ← List.map_reverse] at hattributes
  have htoken : (d.blank.token selfClosing).outline = (d.token selfClosing).outline := by
    unfold Draft.token
    by_cases hclosing : d.closing = true
    · rw [if_pos hclosing, if_pos (show d.blank.closing = true from hclosing)]
      rfl
    · rw [if_neg hclosing, if_neg (show ¬d.blank.closing = true from hclosing)]
      exact congrArg (fun as => Token.startTag ⟨Tag.ofName d.tagName.reverse, as, selfClosing⟩)
        hattributes
  simp only [blankResult, Draft.finish, List.map_cons, List.map_nil, htoken]

/-! ## Steps -/

/-- Going on in a tag. -/
theorem blankResult_of_blank (f : Draft → State) (hf : ∀ d, (f d).blank = f d.blank) (d : Draft) :
    blankResult (f d.blank, []) = blankResult (f d, []) := by
  simp only [blankResult, hf, d.blank_blank]

theorem blankResult_tagNameStep (d : Draft) (c : Char) :
    blankResult (tagNameStep d.blank c) = blankResult (tagNameStep d c) := by
  unfold tagNameStep
  split
  · exact blankResult_of_blank .beforeAttribute (fun _ => rfl) d
  · split
    · exact blankResult_of_blank .selfClosing (fun _ => rfl) d
    · split
      · exact blankResult_finish d false
      · exact blankResult_of_blank (fun e => .tagName { e with tagName := nameChar c :: e.tagName })
          (fun _ => rfl) d

theorem blankResult_startAttribute (d : Draft) (c : Char) :
    blankResult (.attributeName (d.blank.startAttribute c), []) =
      blankResult (.attributeName (d.startAttribute c), []) :=
  congrArg (fun e => (State.attributeName e, [])) (d.blank_startAttribute c)

theorem blankResult_beforeAttributeStep (d : Draft) (c : Char) :
    blankResult (beforeAttributeStep d.blank c) = blankResult (beforeAttributeStep d c) := by
  unfold beforeAttributeStep
  split
  · exact blankResult_of_blank .beforeAttribute (fun _ => rfl) d
  · split
    · exact blankResult_of_blank .selfClosing (fun _ => rfl) d
    · split
      · exact blankResult_finish d false
      · exact blankResult_startAttribute d c

theorem blankResult_attributeNameStep (d : Draft) (c : Char) :
    blankResult (attributeNameStep d.blank c) = blankResult (attributeNameStep d c) := by
  unfold attributeNameStep
  split
  · exact blankResult_of_blank .afterAttributeName (fun _ => rfl) d
  · split
    · exact blankResult_of_blank .selfClosing (fun _ => rfl) d
    · split
      · exact blankResult_of_blank .beforeValue (fun _ => rfl) d
      · split
        · exact blankResult_finish d false
        · exact blankResult_of_blank (fun e => .attributeName { e with name := nameChar c :: e.name })
            (fun _ => rfl) d

theorem blankResult_afterAttributeNameStep (d : Draft) (c : Char) :
    blankResult (afterAttributeNameStep d.blank c) = blankResult (afterAttributeNameStep d c) := by
  unfold afterAttributeNameStep
  split
  · exact blankResult_of_blank .afterAttributeName (fun _ => rfl) d
  · split
    · exact blankResult_of_blank .selfClosing (fun _ => rfl) d
    · split
      · exact blankResult_of_blank .beforeValue (fun _ => rfl) d
      · split
        · exact blankResult_finish d false
        · exact blankResult_startAttribute d c

theorem blankResult_valueStep (quoting : Quoting) (d : Draft) (c : Char) :
    blankResult (valueStep quoting d.blank c) = blankResult (valueStep quoting d c) := by
  have hpush (quoting : Quoting) (ch : Char) :
      blankResult (.value quoting (d.blank.pushValue ch), []) =
        blankResult (.value quoting (d.pushValue ch), []) :=
    congrArg (fun e => (State.value quoting e, [])) d.blank_blank
  unfold valueStep
  split
  · exact blankResult_of_blank (.valueReference quoting · .ampersand) (fun _ => rfl) d
  · cases quoting with
    | double | single =>
        dsimp only
        split
        · exact blankResult_of_blank .afterValue (fun _ => rfl) d
        · exact hpush _ _
    | bare =>
        dsimp only
        split
        · exact blankResult_of_blank .beforeAttribute (fun _ => rfl) d
        · split
          · exact blankResult_finish d false
          · exact hpush _ _

theorem blankResult_beforeValueStep (d : Draft) (c : Char) :
    blankResult (beforeValueStep d.blank c) = blankResult (beforeValueStep d c) := by
  unfold beforeValueStep
  split
  · exact blankResult_of_blank .beforeValue (fun _ => rfl) d
  · split
    · exact blankResult_of_blank (.value .double) (fun _ => rfl) d
    · split
      · exact blankResult_of_blank (.value .single) (fun _ => rfl) d
      · split
        · exact blankResult_finish d false
        · exact blankResult_valueStep .bare d c

theorem blankResult_valueReferenceStep (quoting : Quoting) (d : Draft) (read : Reference)
    (c : Char) :
    blankResult (valueReferenceStep quoting d.blank read c) =
      blankResult (valueReferenceStep quoting d read c) := by
  unfold valueReferenceStep
  cases read.continue? c with
  | some read => exact blankResult_of_blank (.valueReference quoting · read) (fun _ => rfl) d
  | none =>
      have hblank : ((read.settle true (some c)).text.foldl Draft.pushValue d.blank).blank =
          ((read.settle true (some c)).text.foldl Draft.pushValue d).blank := by
        rw [Draft.blank_foldl_pushValue, Draft.blank_foldl_pushValue, d.blank_blank]
      dsimp only
      split
      · exact congrArg (fun e => (State.value quoting e, [])) hblank
      · rw [← blankResult_valueStep, hblank, blankResult_valueStep]

theorem blankResult_selfClosingStep (d : Draft) (c : Char) :
    blankResult (selfClosingStep d.blank c) = blankResult (selfClosingStep d c) := by
  unfold selfClosingStep
  split
  · exact blankResult_finish d true
  · exact blankResult_beforeAttributeStep d c

theorem blankResult_commentStep (phase : CommentPhase) (content : Text) (c : Char) :
    blankResult (commentStep phase [] c) = blankResult (commentStep phase content c) := by
  cases phase
  all_goals
    unfold commentStep
    dsimp only
    repeat' split
    all_goals rfl

/-- A step without data leads to what a step with data does, but for the data. -/
theorem blankResult_step (s : State) (c : Char) :
    blankResult (step false s.blank c) = blankResult (step false s c) := by
  cases s with
  | tagName d => exact blankResult_tagNameStep d c
  | beforeAttribute d => exact blankResult_beforeAttributeStep d c
  | attributeName d => exact blankResult_attributeNameStep d c
  | afterAttributeName d => exact blankResult_afterAttributeNameStep d c
  | beforeValue d => exact blankResult_beforeValueStep d c
  | value quoting d => exact blankResult_valueStep quoting d c
  | valueReference quoting d read => exact blankResult_valueReferenceStep quoting d read c
  | afterValue d => exact blankResult_beforeAttributeStep d c
  | selfClosing d => exact blankResult_selfClosingStep d c
  | comment phase content => exact blankResult_commentStep phase content c
  | _ => rfl

/-! ## Texts -/

theorem mindsVocabulary_blank (s : State) (c : Char) :
    s.blank.mindsVocabulary c = s.mindsVocabulary c := by
  cases s <;> rfl

theorem all_isPlain_of_map {ts us : List Token} (hmap : ts.map Token.outline = us.map Token.outline) :
    ts.all Token.isPlain = us.all Token.isPlain := by
  have hall (ts : List Token) : ts.all Token.isPlain = (ts.map Token.outline).all Token.isPlain := by
    rw [List.all_map]
    congr 1
    funext token
    cases token <;> rfl
  rw [hall, hmap, ← hall]

variable {u u' : State} {ts : List Token} {t : Text}

/-- States that differ in data only are left for such states, with tokens that do so too. -/
theorem exists_passes_of_blank (hblank : s.blank = u.blank) (hpasses : Passes u t ts u') :
    ∃ s' ts', Passes s t ts' s' ∧ s'.blank = u'.blank ∧
      ts'.map Token.outline = ts.map Token.outline := by
  induction t generalizing s u ts with
  | nil =>
      cases hpasses
      exact ⟨s, [], rfl, hblank, rfl⟩
  | cons c t ih =>
      obtain ⟨next, first, rest, hstep, hrest, rfl⟩ := hpasses.exists_of_cons
      obtain ⟨hsame, hminds, hplain⟩ := passStep_eq_some_iff.mp hstep
      have hresult : blankResult (step false s c) = blankResult (next, first) := by
        rw [← hsame, ← blankResult_step s, hblank, blankResult_step]
      obtain ⟨hstate, htokens⟩ := Prod.mk.inj hresult
      obtain ⟨s', rest', hpasses', hblank', hmap⟩ := ih hstate hrest
      have hfirst : passStep s c = some ((step false s c).1, (step false s c).2) := by
        refine passStep_eq_some_iff.mpr ⟨rfl, ?_, ?_⟩
        · rw [← mindsVocabulary_blank, hblank, mindsVocabulary_blank, hminds]
        · rw [all_isPlain_of_map htokens, hplain]
      refine ⟨s', _, .cons hfirst hpasses', hblank', ?_⟩
      rw [List.map_append, List.map_append, hmap]
      exact congrArg (· ++ _) htokens

end Lexer

/-! ## Line ends and comments under escaping -/

/-- Escaping leaves line ends alone. -/
theorem Reader.normalizeNewlines_escapeAttribute (t : Text) :
    normalizeNewlines (escapeAttribute t) = escapeAttribute (normalizeNewlines t) := by
  induction t using normalizeNewlines.induct with
  | case1 t ih =>
      rw [normalizeNewlines.eq_1]
      exact congrArg ('\n' :: ·) ih
  | case2 t hnot ih =>
      rw [normalizeNewlines.eq_2 _ hnot]
      have hnot' (u : Text) (heq : escapeAttribute t = '\n' :: u) : False := by
        have hstart : ['\n'] <+: t :=
          prefix_of_prefix_escapeAttribute (by decide) (heq ▸ ⟨u, rfl⟩)
        obtain ⟨u, rfl⟩ := hstart
        exact hnot u rfl
      refine (normalizeNewlines.eq_2 _ hnot').trans ?_
      exact congrArg ('\n' :: ·) ih
  | case3 c t hnot hne ih =>
      rw [normalizeNewlines.eq_3 c t hnot hne]
      have hreturn : '\r' ∉ [c] := fun hmem => hne (List.mem_singleton.mp hmem).symm
      have hcons (u : Text) : escapeAttribute (c :: u) = escapeAttribute [c] ++ escapeAttribute u :=
        by simp [escapeAttribute]
      rw [hcons t, hcons (normalizeNewlines t),
        normalizeNewlines_append_left (not_mem_escapeAttribute (by decide) hreturn), ih]
  | case4 => rfl

/-- Escaping ends no comment. -/
theorem Lexer.EndsComment.of_escapeAttribute {t : Text} (hends : EndsComment (escapeAttribute t)) :
    EndsComment t :=
  hends.imp (infix_of_infix_escapeAttribute (by decide) (by decide))
    (infix_of_infix_escapeAttribute (by decide) (by decide))

/-! ## Templates -/

/-- A part of a template. -/
inductive Part
  | fixed (t : Text)
  /-- A number as it is. -/
  | number
  /-- A value between double quotes, to be escaped. -/
  | value
  /-- Text that is taken as it is, and the fixed text behind it. -/
  | raw (behind : Text)

/-- Markup with places for data. -/
abbrev Template : Type := List Part

namespace Template

open Lexer Reader

/-- The template with data in its places, in order. -/
def fill : Template → List Text → Text
  | [], _ => []
  | .fixed t :: parts, data => t ++ fill parts data
  | .number :: parts, data => data.headD [] ++ fill parts data.tail
  | .value :: parts, data => escapeAttribute (data.headD []) ++ fill parts data.tail
  | .raw behind :: parts, data => data.headD [] ++ (behind ++ fill parts data.tail)

/-- Whether data can stand in the places of the template; `safe` says so of text that is taken as
it is. -/
def Admits (safe : Text → Prop) : Template → List Text → Prop
  | [], _ => True
  | .fixed _ :: parts, data => Admits safe parts data
  | .number :: parts, data =>
    (data.headD []).all Char.isDigit = true ∧ Admits safe parts data.tail
  | .value :: parts, data => Admits safe parts data.tail
  | .raw _ :: parts, data => safe (data.headD []) ∧ Admits safe parts data.tail

/-- Whether the template begins with fixed text, and not with a byte order mark. -/
def beginsFixed : Template → Bool
  | .fixed t :: _ => t.head?.any (· != '\uFEFF')
  | _ => false

variable {parts : Template} {data data' : List Text} {s u u' : State} {ts : List Token} {n : Text}

theorem exists_head?_fill (hbegins : parts.beginsFixed = true) :
    ∃ c, c ≠ '\uFEFF' ∧ ∀ data, (parts.fill data).head? = some c := by
  cases parts with
  | nil => cases hbegins
  | cons part parts =>
      cases part with
      | fixed t =>
          cases t with
          | nil => cases hbegins
          | cons c t => exact ⟨c, by simpa [beginsFixed] using hbegins, fun _ => rfl⟩
      | _ => cases hbegins

theorem not_mem_number {c : Char} (hnumber : n.all Char.isDigit = true) (hc : c.isDigit = false) :
    c ∉ n :=
  fun hmem => Bool.eq_false_iff.mp hc (List.all_eq_true.mp hnumber c hmem)

/-! ### In a document -/

/-- Whether a text cannot go on with what ends a comment. -/
def isApart (t : Text) : Bool := t.head?.any fun c => c != '-' && c != '>' && c != '!'

/-- What the template is read as without data, if its places are such that data can stand in
them. -/
def run : Template → State → Option (State × List Token)
  | [], s => some (s, [])
  | .fixed t :: parts, s =>
    (pass s t).bind fun (next, tokens) =>
      (run parts next).map fun (final, more) => (final, tokens ++ more)
  | .number :: parts, .value .double d => run parts (.value .double d)
  | .number :: parts, .comment .body content => run parts (.comment .body content)
  | .value :: parts, .value .double d => run parts (.value .double d)
  | .raw behind :: parts, .comment .body content =>
    if isApart behind then
      (pass (.comment .body content) behind).bind fun (next, tokens) =>
        (run parts next).map fun (final, more) => (final, tokens ++ more)
    else none
  | _, _ => none

/-- The outline of a template that stands between two tags, if its places are such that data can
stand in them and no rule looks at the attributes in it. -/
def outline? (parts : Template) : Option (List Token) :=
  match run parts (.text .data) with
  | some (.text .data, tokens) =>
    if parts.beginsFixed && tokens.all (!·.isReadWithAttributes) then
      some (tokens.map Token.outline)
    else none
  | _ => none

theorem exists_of_run_number {result : State × List Token}
    (hrun : run (.number :: parts) u = some result) :
    ((∃ d, u = .value .double d) ∨ ∃ content, u = .comment .body content) ∧
      run parts u = some result := by
  cases u with
  | value quoting d =>
      cases quoting with
      | double => exact ⟨.inl ⟨d, rfl⟩, hrun⟩
      | _ => cases hrun
  | comment phase content =>
      cases phase with
      | body => exact ⟨.inr ⟨content, rfl⟩, hrun⟩
      | _ => cases hrun
  | _ => cases hrun

theorem exists_of_run_value {result : State × List Token}
    (hrun : run (.value :: parts) u = some result) :
    (∃ d, u = .value .double d) ∧ run parts u = some result := by
  cases u with
  | value quoting d =>
      cases quoting with
      | double => exact ⟨⟨d, rfl⟩, hrun⟩
      | _ => cases hrun
  | _ => cases hrun

theorem exists_of_run_raw {behind : Text} {result : State × List Token}
    (hrun : run (.raw behind :: parts) u = some result) :
    (∃ content, u = .comment .body content) ∧
      (∃ c t, behind = c :: t ∧ c ≠ '-' ∧ c ≠ '>' ∧ c ≠ '!') ∧
      run (.fixed behind :: parts) u = some result := by
  cases u with
  | comment phase content =>
      cases phase with
      | body =>
          rw [run] at hrun
          split at hrun
          · rename_i hapart
            refine ⟨⟨content, rfl⟩, ?_, hrun⟩
            cases behind with
            | nil => cases hapart
            | cons c t =>
                refine ⟨c, t, rfl, ?_⟩
                simpa [isApart, and_assoc] using hapart
          · cases hrun
      | _ => cases hrun
  | _ => cases hrun

theorem exists_of_blank_value {d : Draft} (hblank : s.blank = (State.value .double d).blank) :
    ∃ e, s = .value .double e := by
  cases s with
  | value quoting e =>
      cases quoting with
      | double => exact ⟨e, rfl⟩
      | _ => cases hblank
  | _ => cases hblank

theorem exists_of_blank_comment {content : Text}
    (hblank : s.blank = (State.comment .body content).blank) :
    ∃ content', s = .comment .body content' := by
  cases s with
  | comment phase content' =>
      cases phase with
      | body => exact ⟨content', rfl⟩
      | _ => cases hblank
  | _ => cases hblank

/-- A value leads on between its quotes. -/
theorem exists_passes_value {d : Draft} (v : Text)
    (hblank : s.blank = (State.value .double d).blank) :
    ∃ s', Passes s (escapeAttribute v) [] s' ∧ s'.blank = (State.value .double d).blank := by
  obtain ⟨e, rfl⟩ := exists_of_blank_value hblank
  exact ⟨_, passes_escapeAttribute v e, hblank⟩

/-- A number leads on between the quotes of a value or in a comment. -/
theorem exists_passes_number (hnumber : n.all Char.isDigit = true)
    (hplace : (∃ d, u = .value .double d) ∨ ∃ content, u = .comment .body content)
    (hblank : s.blank = u.blank) : ∃ s', Passes s n [] s' ∧ s'.blank = u.blank := by
  induction n generalizing s with
  | nil => exact ⟨s, .nil, hblank⟩
  | cons c n ih =>
      simp only [List.all_cons, Bool.and_eq_true] at hnumber
      have hne {d : Char} (hd : d.isDigit = false) : c ≠ d := by
        rintro rfl
        exact Bool.eq_false_iff.mp hd hnumber.1
      have hnext : ∃ next, step false s c = (next, []) ∧ s.mindsVocabulary c = false ∧
          next.blank = u.blank := by
        rcases hplace with ⟨d, rfl⟩ | ⟨content, rfl⟩
        · obtain ⟨e, rfl⟩ := exists_of_blank_value hblank
          have hamp : c ≠ '&' := hne rfl
          have hquote : c ≠ '"' := hne rfl
          refine ⟨.value .double (e.pushValue (visible c)), ?_, rfl, hblank⟩
          simp [step, valueStep, hamp, hquote]
        · obtain ⟨content', rfl⟩ := exists_of_blank_comment hblank
          have hdash : c ≠ '-' := hne rfl
          refine ⟨.comment .body (visible c :: content'), ?_, rfl, rfl⟩
          simp [step, commentStep, hdash]
      obtain ⟨next, hstep, hminds, hsame⟩ := hnext
      obtain ⟨s', hpasses, hlast⟩ := ih hnumber.2 hsame
      exact ⟨s', .silent hminds hstep hpasses, hlast⟩

/-- Text that ends no comment, and a text that is read behind it. -/
theorem exists_passes_raw {v t : Text} {c : Char} {x y : Text} (hsafe : ¬EndsComment v)
    (hdash : c ≠ '-') (hend : c ≠ '>') (hbang : c ≠ '!')
    (hpasses : Passes (.comment .body x) (c :: t) ts u') :
    ∃ s' ts', Passes (.comment .body y) (v ++ c :: t) ts' s' ∧ s'.blank = u'.blank ∧
      ts'.map Token.outline = ts.map Token.outline := by
  obtain ⟨read, hremark⟩ := passesInComment_snoc hsafe hdash hend hbang y
  obtain ⟨next, first, rest, hstep, hrest, rfl⟩ := hpasses.exists_of_cons
  have hbody : commentStep .body x c = (.comment .body (visible c :: x), []) := by
    simp [commentStep, hdash]
  have hpair : (State.comment .body (visible c :: x), []) = (next, first) :=
    hbody.symm.trans (passStep_eq_some_iff.mp hstep).1
  cases hpair
  have hblank : (State.comment .body read).blank = (State.comment .body (visible c :: x)).blank :=
    rfl
  obtain ⟨s', ts', hpasses', hlast, hmap⟩ := exists_passes_of_blank hblank hrest
  refine ⟨s', [] ++ ts', ?_, hlast, hmap⟩
  have hall := hremark.append hpasses'
  rwa [List.append_assoc] at hall

/-- A template is read as it is without data, but for the data. -/
theorem exists_passes_fill (hadmits : parts.Admits (¬EndsComment ·) data)
    (hrun : parts.run u = some (u', ts)) (hblank : s.blank = u.blank) :
    ∃ s' ts', Passes s (parts.fill data) ts' s' ∧ s'.blank = u'.blank ∧
      ts'.map Token.outline = ts.map Token.outline := by
  induction parts generalizing data s u ts with
  | nil =>
      cases hrun
      exact ⟨s, [], rfl, hblank, rfl⟩
  | cons part parts ih =>
      cases part with
      | fixed t =>
          obtain ⟨⟨next, first⟩, hfirst, hmapped⟩ := Option.bind_eq_some_iff.mp hrun
          obtain ⟨⟨final, rest⟩, hrest, hpair⟩ := Option.map_eq_some_iff.mp hmapped
          cases hpair
          obtain ⟨between, first', hpasses, hbetween, hmap⟩ := exists_passes_of_blank hblank hfirst
          obtain ⟨s', rest', hpasses', hlast, hmap'⟩ := ih hadmits hrest hbetween
          refine ⟨s', first' ++ rest', hpasses.append hpasses', hlast, ?_⟩
          rw [List.map_append, List.map_append, hmap, hmap']
      | number =>
          obtain ⟨hplace, hrest⟩ := exists_of_run_number hrun
          obtain ⟨between, hnumber, hbetween⟩ := exists_passes_number hadmits.1 hplace hblank
          obtain ⟨s', ts', hpasses, hlast, hmap⟩ := ih hadmits.2 hrest hbetween
          exact ⟨s', [] ++ ts', hnumber.append hpasses, hlast, hmap⟩
      | value =>
          obtain ⟨⟨d, rfl⟩, hrest⟩ := exists_of_run_value hrun
          obtain ⟨between, hvalue, hbetween⟩ := exists_passes_value (data.headD []) hblank
          have hdata : Admits (¬EndsComment ·) parts data.tail := hadmits
          obtain ⟨s', ts', hpasses, hlast, hmap⟩ := ih hdata hrest hbetween
          exact ⟨s', [] ++ ts', hvalue.append hpasses, hlast, hmap⟩
      | raw behind =>
          obtain ⟨⟨content, rfl⟩, ⟨c, t, rfl, hdash, hend, hbang⟩, hfixed⟩ := exists_of_run_raw hrun
          obtain ⟨content', rfl⟩ := exists_of_blank_comment hblank
          obtain ⟨⟨next, first⟩, hfirst, hmapped⟩ := Option.bind_eq_some_iff.mp hfixed
          obtain ⟨⟨final, rest⟩, hrest, hpair⟩ := Option.map_eq_some_iff.mp hmapped
          cases hpair
          obtain ⟨between, first', hpasses, hbetween, hmap⟩ :=
            exists_passes_raw (y := content') hadmits.1 hdash hend hbang hfirst
          obtain ⟨s', rest', hpasses', hlast, hmap'⟩ := ih hadmits.2 hrest hbetween
          refine ⟨s', first' ++ rest', ?_, hlast, ?_⟩
          · rw [fill, ← List.append_assoc]
            exact hpasses.append hpasses'
          · rw [List.map_append, List.map_append, hmap, hmap']

/-- A template with an outline is read as tokens with that outline, whatever the data. -/
theorem exists_passes_of_outline {outlines : List Token} (houtline : parts.outline? = some outlines)
    (hadmits : parts.Admits (¬EndsComment ·) data) :
    ∃ ts, Passes (.text .data) (parts.fill data) ts (.text .data) ∧
      ts.map Token.outline = outlines ∧ ts.all (!·.isReadWithAttributes) = true := by
  rw [outline?] at houtline
  split at houtline
  · rename_i tokens hrun
    split at houtline
    · rename_i hchecks
      obtain ⟨-, hread⟩ := (Bool.and_eq_true ..).mp hchecks
      obtain ⟨s, ts, hpasses, hblank, hmap⟩ := exists_passes_fill hadmits hrun rfl
      have hstate : s = .text .data := by
        cases s
        all_goals cases hblank
        all_goals rfl
      have houtlines (ts : List Token) : (ts.all fun t => !t.isReadWithAttributes) =
          (ts.map Token.outline).all fun t => !t.isReadWithAttributes := by
        rw [List.all_map]
        congr 1
        funext token
        cases token <;> rfl
      refine ⟨ts, hstate ▸ hpasses, hmap.trans (Option.some.inj houtline), ?_⟩
      rw [houtlines, hmap, ← houtlines]
      exact hread
    · cases houtline
  · cases houtline

theorem beginsFixed_of_outline {outlines : List Token} (houtline : parts.outline? = some outlines) :
    parts.beginsFixed = true := by
  rw [outline?] at houtline
  split at houtline
  · split at houtline
    · rename_i hchecks
      exact ((Bool.and_eq_true ..).mp hchecks).1
    · cases houtline
  · cases houtline

/-- Templates with the same outline match, whatever the data. -/
theorem matches_fill {parts' : Template} (hsome : parts.outline?.isSome = true)
    (hsame : parts.outline? = parts'.outline?) (hadmits : parts.Admits (¬EndsComment ·) data)
    (hadmits' : parts'.Admits (¬EndsComment ·) data') :
    Matches (parts.fill data) (parts'.fill data') := by
  obtain ⟨outlines, houtline⟩ := Option.isSome_iff_exists.mp hsome
  have houtline' := hsame.symm.trans houtline
  obtain ⟨ts, hpasses, hmap, hread⟩ := exists_passes_of_outline houtline hadmits
  obtain ⟨us, hpasses', hmap', -⟩ := exists_passes_of_outline houtline' hadmits'
  have hhead {parts : Template} (houtline : parts.outline? = some outlines) (data : List Text) :
      parts.fill data ≠ [] ∧ (parts.fill data).head? ≠ some '\uFEFF' := by
    obtain ⟨c, hmark, hhead⟩ := exists_head?_fill (beginsFixed_of_outline houtline)
    refine ⟨fun hnil => ?_, fun heq => hmark (Option.some.inj ((hhead data).symm.trans heq))⟩
    have hnone := hhead data
    rw [hnil] at hnone
    cases hnone
  obtain ⟨hne, hmark⟩ := hhead houtline data
  obtain ⟨hne', hmark'⟩ := hhead houtline' data'
  exact ⟨iff_of_false hne hne', hmark, hmark', ts, us, hpasses, hpasses', hmap.trans hmap'.symm,
    hread⟩

/-! ### In a style sheet -/

/-- Whether the template, as the text of a style sheet, has no tags of its own, and the text
behind what is taken as it is cannot go on with an end tag. -/
def isStyle : Template → Bool
  | [] => true
  | .fixed t :: parts => !t.contains '<' && isStyle parts
  | .number :: parts => isStyle parts
  | .raw behind :: parts =>
    behind.head?.any (fun c => !c.isAlpha && !endsWord c) && !behind.contains '<' && isStyle parts
  | .value :: _ => false

/-- Filled with texts that have no end tag, such a template stays in a style sheet. -/
theorem passesInStyle_fill (hstyle : parts.isStyle = true)
    (hadmits : parts.Admits (¬HoldsEndTag .style ·) data) : PassesInStyle (parts.fill data) := by
  have hnil : PassesInStyle [] := ⟨[], .nil⟩
  induction parts generalizing data with
  | nil => exact hnil
  | cons part parts ih =>
      cases part with
      | fixed t =>
          simp only [isStyle, Bool.and_eq_true, Bool.not_eq_true', List.contains_eq_mem,
            decide_eq_false_iff_not] at hstyle
          exact (passesInStyle_of_not_mem hstyle.1).append (ih hstyle.2 hadmits)
      | number =>
          exact (passesInStyle_of_not_mem (not_mem_number hadmits.1 rfl)).append
            (ih hstyle hadmits.2)
      | value => cases hstyle
      | raw behind =>
          simp only [isStyle, Bool.and_eq_true, Bool.not_eq_true', List.contains_eq_mem,
            decide_eq_false_iff_not] at hstyle
          obtain ⟨⟨happart, hopen⟩, hrest⟩ := hstyle
          cases behind with
          | nil => cases happart
          | cons c t =>
              simp only [List.head?_cons, Option.any_some, Bool.and_eq_true,
                Bool.not_eq_true'] at happart
              simp only [List.mem_cons, not_or] at hopen
              have hsnoc := passesInStyle_snoc hadmits.1 (Ne.symm hopen.1) happart.1 happart.2
              have hall := (hsnoc.append (passesInStyle_of_not_mem hopen.2)).append
                (ih hrest hadmits.2)
              simpa [fill] using hall

/-- What such a template is filled to stays in a style sheet, and no byte order mark begins it. -/
theorem isStyle_fill (hbegins : parts.beginsFixed = true) (hstyle : parts.isStyle = true)
    (hadmits : parts.Admits (¬HoldsEndTag .style ·) data) :
    PassesInStyle (parts.fill data) ∧ (parts.fill data).head?.any (· != '\uFEFF') = true := by
  obtain ⟨first, hmark, hhead⟩ := exists_head?_fill hbegins
  refine ⟨passesInStyle_fill hstyle hadmits, ?_⟩
  rw [hhead]
  simpa using hmark

/-! ### Line ends -/

/-- Whether the template begins with text other than a line feed. -/
def startsInLine : Template → Bool
  | .fixed t :: _ => t.head?.any (· != '\n')
  | _ => false

/-- Whether the fixed text has no carriage returns, and none that ends data would go together with
the text behind it. -/
def keepsLines : Template → Bool
  | [] => true
  | .fixed t :: parts => !t.contains '\r' && keepsLines parts
  | .number :: parts => startsInLine parts && keepsLines parts
  | .value :: parts => startsInLine parts && keepsLines parts
  | .raw behind :: parts =>
    startsInLine [.fixed behind] && !behind.contains '\r' && keepsLines parts

theorem head?_fill_ne (hstarts : startsInLine parts = true) (data : List Text) (rest : Text) :
    (parts.fill data ++ rest).head? ≠ some '\n' := by
  cases parts with
  | nil => cases hstarts
  | cons part parts =>
      cases part with
      | fixed t =>
          cases t with
          | nil => cases hstarts
          | cons c t => simpa [startsInLine, fill] using hstarts
      | _ => cases hstarts

/-- Line ends in a filled template are those of the data. -/
theorem normalizeNewlines_fill (hkeeps : parts.keepsLines = true) (data : List Text)
    (rest : Text) : normalizeNewlines (parts.fill data ++ rest) =
      parts.fill (data.map normalizeNewlines) ++ normalizeNewlines rest := by
  have hhead (data : List Text) :
      (data.map normalizeNewlines).headD [] = normalizeNewlines (data.headD []) := by
    cases data <;> rfl
  have htail (data : List Text) :
      (data.map normalizeNewlines).tail = data.tail.map normalizeNewlines :=
    List.map_tail.symm
  induction parts generalizing data with
  | nil => rfl
  | cons part parts ih =>
      cases part with
      | fixed t =>
          simp only [keepsLines, Bool.and_eq_true, Bool.not_eq_true', List.contains_eq_mem,
            decide_eq_false_iff_not] at hkeeps
          rw [fill, List.append_assoc, normalizeNewlines_append_left hkeeps.1, ih hkeeps.2, fill,
            List.append_assoc]
      | number =>
          simp only [keepsLines, Bool.and_eq_true] at hkeeps
          rw [fill, List.append_assoc,
            normalizeNewlines_append (.inr (head?_fill_ne hkeeps.1 data.tail rest)),
            ih hkeeps.2, fill, hhead, htail, List.append_assoc]
      | value =>
          simp only [keepsLines, Bool.and_eq_true] at hkeeps
          rw [fill, List.append_assoc,
            normalizeNewlines_append (.inr (head?_fill_ne hkeeps.1 data.tail rest)),
            normalizeNewlines_escapeAttribute, ih hkeeps.2, fill, hhead, htail, List.append_assoc]
      | raw behind =>
          simp only [keepsLines, Bool.and_eq_true, Bool.not_eq_true', List.contains_eq_mem,
            decide_eq_false_iff_not] at hkeeps
          obtain ⟨⟨hstarts, hreturn⟩, hrest⟩ := hkeeps
          have hbehind := head?_fill_ne hstarts [] (fill parts data.tail ++ rest)
          simp only [fill, List.append_nil] at hbehind
          rw [fill, List.append_assoc, List.append_assoc, normalizeNewlines_append (.inr hbehind),
            normalizeNewlines_append_left hreturn, ih hrest, fill, hhead, htail, List.append_assoc,
            List.append_assoc]

/-! ### Templates that may be left out -/

variable {x y : Option Text} {f g : Text → List Text}

/-- The template with data, or nothing if there are none. -/
def fillIf (parts : Template) (data? : Option (List Text)) : Text :=
  (data?.map parts.fill).getD []

theorem matches_fillIf (houtline : parts.outline?.isSome = true) (hsome : x.isSome = y.isSome)
    (hx : ∀ t ∈ x, parts.Admits (¬EndsComment ·) (f t))
    (hy : ∀ t ∈ y, parts.Admits (¬EndsComment ·) (g t)) :
    Matches (parts.fillIf (x.map f)) (parts.fillIf (y.map g)) := by
  cases x with
  | none =>
      cases y with
      | none => exact .nil
      | some u => cases hsome
  | some t =>
      cases y with
      | none => cases hsome
      | some u => exact matches_fill houtline rfl (hx t rfl) (hy u rfl)

theorem normalizeNewlines_fillIf (hkeeps : parts.keepsLines = true)
    (data? : Option (List Text)) (rest : Text) :
    normalizeNewlines (parts.fillIf data? ++ rest) =
      parts.fillIf (data?.map (List.map normalizeNewlines)) ++ normalizeNewlines rest := by
  cases data? with
  | none => rfl
  | some data => exact normalizeNewlines_fill hkeeps data rest

end Template

end Letterpress
