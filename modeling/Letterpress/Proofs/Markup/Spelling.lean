/-
# Written parts of markup and their tokens

What the lexer reads where escaped text, attributes and tags were written:
`reads_escapeText`, `reads_startTagMarkup` and `reads_endTagMarkup`. Escaping is
undone whatever the text spells, references included, for no ampersand is left
as it was. Text must not hold U+0000, which the lexer never delivers; in a value
U+FFFD is read for it (`Attribute.read`).

Names have to be such that the lexer takes them as they stand; `isElementName`
and `isAttributeName` say when it does.
-/

import Letterpress.Markup.Written
import Letterpress.Proofs.Markup.Scanning

namespace Letterpress

open Lexer

/-- Characters that go on with the name of an element or an attribute and stay as they are. -/
def isNamePart (c : Char) : Bool := nameChar c == c && !isSpace c && c != '/' && c != '>'

/-- Names of elements that are read as they are written. -/
def isElementName (n : Text) : Bool := n.head?.any Char.isAlpha && n.all isNamePart

/-- Names of attributes that are read as they are written. An equals sign can only come
first. -/
def isAttributeName (n : Text) : Bool :=
  !n.isEmpty && n.all isNamePart && n.tail.all (· != '=')

/-- A tag that is read again where its name is written. -/
structure Tag.IsWritable (tag : Tag) : Prop where
  isElementName_name : isElementName tag.name = true
  ofName_name : Tag.ofName tag.name = tag

/-- The tags that are supplied where markup leaves them out, and those that rows are made of. -/
def Tag.supplied : List Tag :=
  [.html, .head, .body, .p, .br, .colgroup, .tbody, .tr, .td, .img, .strong]

theorem Tag.isWritable_of_supplied {tag : Tag} (hsupplied : tag ∈ supplied) : tag.IsWritable := by
  have hall : ∀ tag ∈ supplied, isElementName tag.name = true ∧ ofName tag.name = tag := by
    decide +kernel
  exact ⟨(hall tag hsupplied).1, (hall tag hsupplied).2⟩

/-- An attribute that is read again where it is written. -/
structure Attribute.IsWritable (a : Attribute) : Prop where
  isAttributeName_name : isAttributeName a.name = true
  null_not_mem : '\x00' ∉ a.value

/-- What is read where an attribute is written. -/
def Attribute.read (a : Attribute) : Attribute := ⟨a.name, a.value.map Lexer.visible⟩

/-! ## Escaping -/

/-- What follows the ampersand of a character that is escaped in a value. -/
def escapes : List Text := ["amp;", "quot;", "nbsp;"]

/-- A character is escaped with a reference or stands as it is. -/
theorem escapeAttribute_cons_cases (c : Char) (t : Text) :
    (∃ name ∈ escapes, escapeAttribute (c :: t) = '&' :: name ++ escapeAttribute t) ∨
      escapeAttribute (c :: t) = c :: escapeAttribute t := by
  rw [escapeAttribute, List.flatMap_cons, ← escapeAttribute]
  split
  · exact .inl ⟨"amp;", by decide, rfl⟩
  · exact .inl ⟨"quot;", by decide, rfl⟩
  · exact .inl ⟨"nbsp;", by decide, rfl⟩
  · exact .inr rfl

/-- What an escaped text begins with, other than a reference, begins the text. -/
theorem prefix_of_prefix_escapeAttribute {lead t : Text} (hlead : '&' ∉ lead)
    (hstart : lead <+: escapeAttribute t) : lead <+: t := by
  induction lead generalizing t with
  | nil => exact List.nil_prefix
  | cons d lead ih =>
      simp only [List.mem_cons, not_or] at hlead
      cases t with
      | nil => exact hstart
      | cons c t =>
          rcases escapeAttribute_cons_cases c t with ⟨name, -, heq⟩ | heq
          · rw [heq, List.cons_append, List.cons_prefix_cons] at hstart
            exact absurd hstart.1.symm hlead.1
          · rw [heq, List.cons_prefix_cons] at hstart
            exact List.cons_prefix_cons.mpr ⟨hstart.1, ih hlead.2 hstart.2⟩

/-- A reference that an escape writes has no part in a text that starts with another character. -/
theorem infix_of_infix_append {d : Char} {lead t u : Text} (hnot : d ∉ t)
    (hpart : d :: lead <:+: t ++ u) : d :: lead <:+: u := by
  induction t with
  | nil => exact hpart
  | cons c t ih =>
      simp only [List.mem_cons, not_or] at hnot
      rcases List.infix_cons_iff.mp hpart with hstart | hrest
      · exact absurd (List.cons_prefix_cons.mp hstart).1 hnot.1
      · exact ih hnot.2 hrest

/-- What is in an escaped text, other than of a reference, is in the text. -/
theorem infix_of_infix_escapeAttribute {d : Char} {lead t : Text} (hlead : '&' ∉ d :: lead)
    (hnames : ∀ name ∈ escapes, d ∉ name) (hpart : d :: lead <:+: escapeAttribute t) :
    d :: lead <:+: t := by
  induction t with
  | nil => exact hpart
  | cons c t ih =>
      rcases escapeAttribute_cons_cases c t with ⟨name, hname, heq⟩ | heq
      · rw [heq] at hpart
        have hnot : d ∉ '&' :: name := by
          simp only [List.mem_cons, not_or] at hlead ⊢
          exact ⟨Ne.symm hlead.1, hnames name hname⟩
        exact (ih (infix_of_infix_append hnot hpart)).trans (List.suffix_cons c t).isInfix
      · rw [heq] at hpart
        rcases List.infix_cons_iff.mp hpart with hstart | hrest
        · rw [← heq] at hstart
          exact (prefix_of_prefix_escapeAttribute hlead hstart).isInfix
        · exact (ih hrest).trans (List.suffix_cons c t).isInfix

/-- The characters that come in where a tree is written. -/
def writingMarks : Text := "<!-/ =\">&amp;&quot;&nbsp;&lt;&gt;"

section Marks

variable {d : Char}

theorem not_mem_of_subset_writingMarks (hd : d ∉ writingMarks) {mark : Text}
    (hmarks : mark ⊆ writingMarks) : d ∉ mark := fun hmem => hd (hmarks hmem)

/-- Escaping brings in no characters but those that markup is written with. -/
theorem not_mem_flatMap_of_escapes {escape : Char → Text}
    (hescape : ∀ c, escape c = [c] ∨ escape c ⊆ writingMarks) (hd : d ∉ writingMarks) {t : Text}
    (ht : d ∉ t) : d ∉ t.flatMap escape := by
  intro hmem
  obtain ⟨c, hc, hescaped⟩ := List.mem_flatMap.mp hmem
  rcases hescape c with hsame | hmarks
  · rw [hsame] at hescaped
    exact ht (List.mem_singleton.mp hescaped ▸ hc)
  · exact not_mem_of_subset_writingMarks hd hmarks hescaped

theorem not_mem_escapeText {t : Text} (hd : d ∉ writingMarks) (ht : d ∉ t) :
    d ∉ escapeText t := by
  refine not_mem_flatMap_of_escapes (fun c => ?_) hd ht
  split
  all_goals first
    | exact .inl rfl
    | exact .inr (by decide)

theorem not_mem_escapeAttribute {v : Text} (hd : d ∉ writingMarks) (hv : d ∉ v) :
    d ∉ escapeAttribute v := by
  refine not_mem_flatMap_of_escapes (fun c => ?_) hd hv
  split
  all_goals first
    | exact .inl rfl
    | exact .inr (by decide)

theorem Attribute.not_mem_markup {a : Attribute} (hd : d ∉ writingMarks) (hname : d ∉ a.name)
    (hvalue : d ∉ a.value) : d ∉ a.markup := by
  have hspace : d ∉ ' ' :: a.name := by
    have hne : d ∉ [' '] := not_mem_of_subset_writingMarks hd (by decide)
    simpa [hname] using hne
  have hquote : d ∉ ['"'] := not_mem_of_subset_writingMarks hd (by decide)
  have hequals : d ∉ ['=', '"'] := not_mem_of_subset_writingMarks hd (by decide)
  exact List.not_mem_append (List.not_mem_append (List.not_mem_append hspace hequals)
    (not_mem_escapeAttribute hd hvalue)) hquote

theorem not_mem_startTagMarkup {tag : Tag} {as : Attributes} (hd : d ∉ writingMarks)
    (hname : d ∉ tag.name) (has : ∀ a ∈ as.toList, d ∉ a.markup) :
    d ∉ startTagMarkup tag as := by
  have hopen : d ∉ '<' :: tag.name := by
    have hne : d ∉ ['<'] := not_mem_of_subset_writingMarks hd (by decide)
    simpa [hname] using hne
  have hattributes : d ∉ as.toList.flatMap Attribute.markup := by
    intro hmem
    obtain ⟨a, ha, hin⟩ := List.mem_flatMap.mp hmem
    exact has a ha hin
  have hclose : d ∉ ['>'] := not_mem_of_subset_writingMarks hd (by decide)
  exact List.not_mem_append (List.not_mem_append hopen hattributes) hclose

theorem not_mem_endTagMarkup {tag : Tag} (hd : d ∉ writingMarks) (hname : d ∉ tag.name) :
    d ∉ endTagMarkup tag := by
  have hopen : d ∉ ['<', '/'] := not_mem_of_subset_writingMarks hd (by decide)
  have hclose : d ∉ ['>'] := not_mem_of_subset_writingMarks hd (by decide)
  exact List.not_mem_append (List.not_mem_append hopen hname) hclose

end Marks

namespace Lexer

theorem map_visible_eq_self {t : Text} (hnull : '\x00' ∉ t) : t.map visible = t := by
  refine (List.map_congr_left ?_).trans (List.map_id t)
  intro c hc
  have hne : c ≠ '\x00' := by
    rintro rfl
    exact hnull hc
  rw [visible, if_neg hne, id]

end Lexer

theorem Attribute.read_eq_self {a : Attribute} (hnull : '\x00' ∉ a.value) : a.read = a := by
  rw [read, Lexer.map_visible_eq_self hnull]

namespace Lexer

variable (switch : Tag → Option Content)

/-! ## Text and values -/

theorem step_data {c : Char} (hamp : c ≠ '&') (hlt : c ≠ '<') (hnull : c ≠ '\x00') :
    step false (.text .data) c = (.text .data, [.char c]) := by
  simp [step, textStep, hamp, hlt, hnull]

/-- Text without references and tags is read as its characters. -/
theorem reads_plain {t : Text} (hplain : t.all fun c => c ≠ '&' && c ≠ '<' && c ≠ '\x00') :
    Reads switch (.text .data) t (chars t) (.text .data) := by
  induction t with
  | nil => exact .nil
  | cons c t ih =>
      simp only [List.all_cons, Bool.and_eq_true, decide_eq_true_eq] at hplain
      obtain ⟨⟨⟨hamp, hlt⟩, hnull⟩, hrest⟩ := hplain
      exact .token (step_data hamp hlt hnull) rfl (ih (by simpa using hrest))

/-- A reference that escaped text is written with is read as its character, where an ampersand
begins a reference. -/
theorem passes_escaped {content : Content}
    (hopen : step false (.text content) '&' = (.reference content .ampersand, []))
    {written : Text} {c : Char}
    (hescape : (written, c) ∈
      [("amp;".toList, '&'), ("lt;".toList, '<'), ("gt;".toList, '>'), ("nbsp;".toList, '\u00A0')]) :
    Passes (.text content) ('&' :: written) (chars [c]) (.text content) := by
  have hfirst : passStep (.text content) '&' = some (.reference content .ampersand, []) :=
    passStep_eq_some_iff.mpr ⟨hopen, rfl, rfl⟩
  simp only [List.mem_cons, Prod.mk.injEq, List.not_mem_nil, or_false] at hescape
  rcases hescape with ⟨rfl, rfl⟩ | ⟨rfl, rfl⟩ | ⟨rfl, rfl⟩ | ⟨rfl, rfl⟩
  all_goals exact .cons hfirst rfl

/-- Escaped text is read as the characters of the text wherever references are read. -/
theorem passes_escapeText_of {content : Content}
    (hopen : step false (.text content) '&' = (.reference content .ampersand, []))
    (hplain : ∀ c, c ≠ '&' → c ≠ '<' → c ≠ '\x00' →
      step false (.text content) c = (.text content, [.char c]))
    {t : Text} (hnull : '\x00' ∉ t) :
    Passes (.text content) (escapeText t) (chars t) (.text content) := by
  induction t with
  | nil => exact .nil
  | cons c t ih =>
      simp only [List.mem_cons, not_or] at hnull
      have hrest := ih hnull.2
      rw [escapeText, List.flatMap_cons, ← escapeText]
      show Passes _ _ (chars [c] ++ chars t) _
      split
      · exact .append (passes_escaped hopen (by decide)) hrest
      · exact .append (passes_escaped hopen (by decide)) hrest
      · exact .append (passes_escaped hopen (by decide)) hrest
      · exact .append (passes_escaped hopen (by decide)) hrest
      · rename_i hamp hlt hgt hspace
        exact .token rfl rfl (hplain c hamp hlt (Ne.symm hnull.1)) hrest

theorem passes_escapeText {t : Text} (hnull : '\x00' ∉ t) :
    Passes (.text .data) (escapeText t) (chars t) (.text .data) :=
  passes_escapeText_of rfl (fun _ hamp hlt hnull => step_data hamp hlt hnull) hnull

theorem reads_escapeText {t : Text} (hnull : '\x00' ∉ t) :
    Reads switch (.text .data) (escapeText t) (chars t) (.text .data) :=
  (passes_escapeText hnull).reads_of_resume fun token htoken s => by
    obtain ⟨c, -, rfl⟩ := List.mem_map.mp htoken
    rfl

/-- A draft after more characters of the value being read. -/
def Draft.withValue (d : Draft) (v : Text) : Draft := { d with value := v.reverse ++ d.value }

/-- An escaped value is read as the value, made visible. -/
theorem passes_escapeAttribute (v : Text) (d : Draft) :
    Passes (.value .double d) (escapeAttribute v) []
      (.value .double (d.withValue (v.map visible))) := by
  induction v generalizing d with
  | nil => exact .nil
  | cons c v ih =>
      have hrest := ih (d.pushValue (visible c))
      have hvalue : (d.pushValue (visible c)).withValue (v.map visible) =
          d.withValue ((c :: v).map visible) := by
        simp [Draft.pushValue, Draft.withValue]
      rw [hvalue] at hrest
      rw [escapeAttribute, List.flatMap_cons, ← escapeAttribute]
      show Passes _ _ ([] ++ []) _
      split
      · exact .append rfl hrest
      · exact .append rfl hrest
      · exact .append rfl hrest
      · rename_i hamp hquote hspace
        have hstep : step false (.value .double d) c =
            (.value .double (d.pushValue (visible c)), []) := by
          simp only [step, valueStep, if_neg (show ¬ c = '&' from fun h => hamp h),
            if_neg (show ¬ c = '"' from fun h => hquote h)]
        exact .silent rfl hstep hrest

/-! ## Names -/

theorem isNamePart_iff {c : Char} :
    isNamePart c = true ↔ nameChar c = c ∧ isSpace c = false ∧ c ≠ '/' ∧ c ≠ '>' := by
  simp [isNamePart, and_assoc]

/-- The rest of the name of an element. -/
theorem passes_tagName {n : Text} (hname : n.all isNamePart) (d : Draft) :
    Passes (.tagName d) n [] (.tagName { d with tagName := n.reverse ++ d.tagName }) := by
  induction n generalizing d with
  | nil => exact .nil
  | cons c n ih =>
      simp only [List.all_cons, Bool.and_eq_true] at hname
      obtain ⟨hsame, hspace, hslash, hend⟩ := isNamePart_iff.mp hname.1
      have hstep : step false (.tagName d) c =
          (.tagName { d with tagName := c :: d.tagName }, []) := by
        simp [step, tagNameStep, hspace, hslash, hend, hsame]
      have hrest := ih hname.2 { d with tagName := c :: d.tagName }
      simp only [List.reverse_cons, List.append_assoc, List.singleton_append]
      exact .silent rfl hstep hrest

/-- A name of an element, from its first letter. -/
theorem passes_elementName {s : State} {closing : Bool} {n : Text}
    (hname : isElementName n = true)
    (hopen : ∀ c, c.isAlpha = true → s.mindsVocabulary c = false ∧
      step false s c = (.tagName (.ofLetter closing c), [])) :
    Passes s n [] (.tagName ⟨closing, n.reverse, [], [], []⟩) := by
  cases n with
  | nil => simp [isElementName] at hname
  | cons c n =>
      simp only [isElementName, List.head?_cons, Option.any_some, List.all_cons,
        Bool.and_eq_true] at hname
      obtain ⟨hletter, hfirst, hrest⟩ := hname
      have hdraft : Draft.ofLetter closing c = ⟨closing, [c], [], [], []⟩ := by
        rw [Draft.ofLetter, (isNamePart_iff.mp hfirst).1]
      have hread := passes_tagName hrest ⟨closing, [c], [], [], []⟩
      obtain ⟨hminds, hstep⟩ := hopen c hletter
      rw [List.reverse_cons]
      exact .silent hminds (hdraft ▸ hstep) hread

/-- The rest of the name of an attribute. -/
theorem passes_attributeName {n : Text} (hname : n.all isNamePart) (hequals : n.all (· != '='))
    (d : Draft) :
    Passes (.attributeName d) n []
      (.attributeName { d with name := n.reverse ++ d.name }) := by
  induction n generalizing d with
  | nil => exact .nil
  | cons c n ih =>
      simp only [List.all_cons, Bool.and_eq_true, bne_iff_ne] at hname hequals
      obtain ⟨hsame, hspace, hslash, hend⟩ := isNamePart_iff.mp hname.1
      have hstep : step false (.attributeName d) c =
          (.attributeName { d with name := c :: d.name }, []) := by
        simp [step, attributeNameStep, hspace, hslash, hend, hequals.1, hsame]
      have hrest := ih hname.2 hequals.2 { d with name := c :: d.name }
      simp only [List.reverse_cons, List.append_assoc, List.singleton_append]
      exact .silent rfl hstep hrest

/-! ## Attributes -/

/-- The attributes that a draft has got, with the one being read. -/
def Draft.kept (d : Draft) : List Attribute := d.keepAttribute.attributes.reverse

/-- A draft that has just read an attribute. -/
def Draft.withAttribute (d : Draft) (a : Attribute) : Draft :=
  { d.keepAttribute with name := a.name.reverse, value := a.value.reverse }

theorem Draft.keepAttribute_closing (d : Draft) : d.keepAttribute.closing = d.closing := by
  simp only [keepAttribute]
  split
  · rfl
  · split <;> rfl

theorem Draft.keepAttribute_tagName (d : Draft) : d.keepAttribute.tagName = d.tagName := by
  simp only [keepAttribute]
  split
  · rfl
  · split <;> rfl

/-- A further name is kept. -/
theorem Draft.kept_withAttribute {d : Draft} {a : Attribute} (hne : a.name ≠ [])
    (hnew : a.name ∉ d.kept.map Attribute.name) :
    (d.withAttribute a).kept = d.kept ++ [a] := by
  have hother : (d.keepAttribute.attributes.any fun b => b.name == a.name) = false := by
    apply List.any_eq_false.mpr
    intro b hb heq
    apply hnew
    exact List.mem_map.mpr ⟨b, List.mem_reverse.mpr hb, beq_iff_eq.mp heq⟩
  have hnonempty : a.name.isEmpty = false := by simp [hne]
  rw [kept, keepAttribute]
  simp only [withAttribute, hnonempty, Bool.false_eq_true, if_false, List.reverse_reverse, hother,
    List.reverse_cons]
  simp [kept]

/-- One attribute. -/
theorem passes_attribute {a : Attribute} (hname : isAttributeName a.name = true) (d : Draft) :
    Passes (.beforeAttribute d) (a.name ++ "=\"" ++ escapeAttribute a.value ++ "\"") []
      (.afterValue (d.withAttribute a.read)) := by
  obtain ⟨name, value⟩ := a
  cases name with
  | nil => simp [isAttributeName] at hname
  | cons c n =>
      simp only [isAttributeName, List.isEmpty_cons, Bool.not_false, Bool.true_and,
        List.all_cons, List.tail_cons, Bool.and_eq_true] at hname
      obtain ⟨⟨hfirst, hrest⟩, hequals⟩ := hname
      obtain ⟨hsame, hspace, hslash, hend⟩ := isNamePart_iff.mp hfirst
      have hstep : step false (.beforeAttribute d) c =
          (.attributeName { d.keepAttribute with name := [c], value := [] }, []) := by
        simp [step, beforeAttributeStep, hspace, hslash, hend, Draft.startAttribute, hsame]
      have hn := passes_attributeName hrest hequals
        { d.keepAttribute with name := [c], value := [] }
      have hvalue := passes_escapeAttribute value
        { d.keepAttribute with name := n.reverse ++ [c], value := [] }
      have hquoted := (hvalue.append (u := ['"']) (.silent rfl rfl .nil))
      have hdraft : Draft.withValue { d.keepAttribute with name := n.reverse ++ [c], value := [] }
          (value.map visible) = d.withAttribute (Attribute.read ⟨c :: n, value⟩) := by
        simp [Draft.withValue, Draft.withAttribute, Attribute.read]
      rw [hdraft] at hquoted
      have hall := Passes.silent rfl hstep
        (hn.append (.silent (c := '=') rfl rfl (.silent (c := '"') rfl rfl hquoted)))
      simpa using hall

/-- States in which a space leads on to the attributes and an angle bracket ends the tag. -/
structure AtGap (s : State) (d : Draft) : Prop where
  step_space : step false s ' ' = (.beforeAttribute d, [])
  step_end : step false s '>' = d.finish false
  mindsVocabulary_eq : ∀ c, s.mindsVocabulary c = false

theorem atGap_tagName (d : Draft) : AtGap (.tagName d) d := ⟨rfl, rfl, fun _ => rfl⟩

theorem atGap_afterValue (d : Draft) : AtGap (.afterValue d) d := ⟨rfl, rfl, fun _ => rfl⟩

/-- Attributes of different names, up to where the tag may end. -/
theorem passes_attributes {as : List Attribute}
    (hnames : ∀ a ∈ as, isAttributeName a.name = true)
    (hnodup : (as.map Attribute.name).Nodup) {s : State} {d : Draft} (hgap : AtGap s d)
    (hnew : ∀ a ∈ as, a.name ∉ d.kept.map Attribute.name) :
    ∃ s' d', Passes s (as.flatMap Attribute.markup) [] s' ∧ AtGap s' d' ∧
      d'.kept = d.kept ++ as.map Attribute.read ∧ d'.tagName = d.tagName ∧
      d'.closing = d.closing := by
  induction as generalizing s d with
  | nil => exact ⟨s, d, .nil, hgap, by simp, rfl, rfl⟩
  | cons a as ih =>
      simp only [List.mem_cons, forall_eq_or_imp, List.map_cons, List.nodup_cons] at *
      have hkept : (d.withAttribute a.read).kept = d.kept ++ [a.read] := by
        refine Draft.kept_withAttribute ?_ hnew.1
        intro hempty
        have hname : isAttributeName [] = true := hempty ▸ hnames.1
        simp [isAttributeName] at hname
      obtain ⟨s', d', hreads, hgap', hkept', hname', hclosing'⟩ :=
        ih hnames.2 hnodup.2 (atGap_afterValue (d.withAttribute a.read)) (by
          intro b hb hmem
          rw [hkept, List.map_append] at hmem
          rcases List.mem_append.mp hmem with hold | hlast
          · exact hnew.2 b hb hold
          · exact hnodup.1 (List.mem_map.mpr ⟨b, hb, List.mem_singleton.mp hlast⟩))
      have hall := Passes.silent (hgap.mindsVocabulary_eq ' ') hgap.step_space
        ((passes_attribute hnames.1 d).append hreads)
      refine ⟨s', d', by simpa [Attribute.markup] using hall, hgap', ?_,
        hname'.trans d.keepAttribute_tagName, hclosing'.trans d.keepAttribute_closing⟩
      rw [hkept', hkept, List.append_assoc, List.singleton_append]

/-! ## Tags -/

/-- Reading of a start tag up to where it may end. -/
theorem passes_startTag {tag : Tag} {as : List Attribute} (htag : tag.IsWritable)
    (hnames : ∀ a ∈ as, isAttributeName a.name = true)
    (hnodup : (as.map Attribute.name).Nodup) :
    ∃ s d, Passes (.text .data) ('<' :: tag.name ++ as.flatMap Attribute.markup) [] s ∧
      AtGap s d ∧
      ∀ selfClosing, d.token selfClosing = .startTag ⟨tag, as.map Attribute.read, selfClosing⟩ := by
  have hopen : ∀ c, c.isAlpha = true → State.tagOpen.mindsVocabulary c = false ∧
      step false .tagOpen c = (.tagName (.ofLetter false c), []) := by
    intro c hletter
    have hne : c ≠ '!' ∧ c ≠ '/' := by
      constructor <;> rintro rfl <;> simp at hletter
    exact ⟨rfl, by simp [step, tagOpenStep, hne.1, hne.2, hletter]⟩
  have hname := passes_elementName htag.isElementName_name hopen
  obtain ⟨s, d, hreads, hgap, hkept, htagName, hclosing⟩ :=
    passes_attributes hnames hnodup (atGap_tagName ⟨false, tag.name.reverse, [], [], []⟩)
      (by simp [Draft.kept, Draft.keepAttribute])
  refine ⟨s, d, .silent rfl rfl (hname.append hreads), hgap, ?_⟩
  intro selfClosing
  rw [Draft.token, htagName, hclosing, List.reverse_reverse, htag.ofName_name, if_neg (by simp)]
  exact congrArg (fun kept => Token.startTag ⟨tag, kept, selfClosing⟩) hkept

/-- A written start tag is read as the tag with its attributes. -/
theorem reads_startTagMarkup {tag : Tag} {as : Attributes} (htag : tag.IsWritable)
    (hnames : ∀ a ∈ as.toList, isAttributeName a.name = true) :
    Reads switch (.text .data) (startTagMarkup tag as)
      [.startTag ⟨tag, as.toList.map Attribute.read, false⟩]
      (resume switch (.text .data)
        (.startTag ⟨tag, as.toList.map Attribute.read, false⟩)) := by
  obtain ⟨s, d, hpasses, hgap, htoken⟩ := passes_startTag htag hnames as.nodup_names
  have hend := hgap.step_end
  rw [Draft.finish, htoken] at hend
  exact hpasses.reads.append (.last hend)

/-- A start tag that is written as one without content is read as such. -/
theorem reads_selfClosingTag {tag : Tag} {as : List Attribute} (htag : tag.IsWritable)
    (hnames : ∀ a ∈ as, isAttributeName a.name = true)
    (hnodup : (as.map Attribute.name).Nodup) :
    Reads switch (.text .data) ('<' :: tag.name ++ as.flatMap Attribute.markup ++ " />")
      [.startTag ⟨tag, as.map Attribute.read, true⟩]
      (resume switch (.text .data) (.startTag ⟨tag, as.map Attribute.read, true⟩)) := by
  obtain ⟨s, d, hpasses, hgap, htoken⟩ := passes_startTag htag hnames hnodup
  have hend : step false (.selfClosing d) '>' =
      (.text .data, [.startTag ⟨tag, as.map Attribute.read, true⟩]) := by
    rw [← htoken]
    rfl
  exact hpasses.reads.append (.silent hgap.step_space (.silent (c := '/') rfl (.last hend)))

/-- Reading of an end tag up to where it ends. -/
theorem passes_endTag {tag : Tag} (htag : tag.IsWritable) :
    ∃ s, Passes (.text .data) ("</" ++ tag.name) [] s ∧ s.mindsVocabulary '>' = false ∧
      step false s '>' = (.text .data, [.endTag tag]) := by
  have hopen : ∀ c, c.isAlpha = true → State.endTagOpen.mindsVocabulary c = false ∧
      step false .endTagOpen c = (.tagName (.ofLetter true c), []) := by
    intro c hletter
    exact ⟨rfl, by simp [step, endTagOpenStep, hletter]⟩
  have hname := passes_elementName htag.isElementName_name hopen
  refine ⟨_, .silent (c := '<') rfl rfl (.silent (c := '/') rfl rfl hname), rfl, ?_⟩
  have htoken : Draft.token ⟨true, tag.name.reverse, [], [], []⟩ false = .endTag tag := by
    rw [Draft.token, if_pos rfl, List.reverse_reverse, htag.ofName_name]
  simp [step, tagNameStep, isSpace, Draft.finish, htoken]

/-- A written end tag is read as the end of its element. -/
theorem reads_endTagMarkup {tag : Tag} (htag : tag.IsWritable) :
    Reads switch (.text .data) (endTagMarkup tag) [.endTag tag] (.text .data) := by
  obtain ⟨s, hpasses, -, hend⟩ := passes_endTag htag
  exact hpasses.reads.append (.last hend)

end Lexer

end Letterpress
