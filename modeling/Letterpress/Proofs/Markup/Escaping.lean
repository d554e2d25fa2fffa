/-
# Escaping undone

What is written where data stand in markup is read as the data, whatever they spell:
escaped text as its characters, and a written start tag as one start tag with its
attributes (`emitAll_written`). This holds between any two tags and under any tree, and it
leaves what follows as it is, so that pieces of markup can be put together.

Names are those that an editor writes. That an element is found again in the tree is not
claimed: where its start tag may not stand, it is dropped or moved.
-/

import Letterpress.Proofs.Markup.EditorTree
import Letterpress.Proofs.Markup.Lexing
import Letterpress.Proofs.Markup.Passing

namespace Letterpress

open Lexer

/-- A small letter, and behind it small letters, digits and hyphens. -/
def Tag.isPlainlyNamed (tag : Tag) : Bool :=
  tag.name.head?.any Char.isLower && tag.name.all isPlainNameChar

/-- An element whose start tag an editor might have written, with any tag of a plain name. -/
def Element.isPlainlyWritten (e : Element) : Bool :=
  e.tag.isPlainlyNamed && e.attributes.toList.all Attribute.isEditable

namespace Tag

variable {tag : Tag}

theorem isNamePart_of_isPlainlyNamed (hplain : tag.isPlainlyNamed = true) {c : Char}
    (hc : c ∈ tag.name) : isNamePart c = true ∧ c ≠ '=' ∧ c ≠ '\r' := by
  rw [isPlainlyNamed, Bool.and_eq_true] at hplain
  exact isNamePart_of_isPlainNameChar (List.all_eq_true.mp hplain.2 c hc)

theorem isElementName_of_isPlainlyNamed (hplain : tag.isPlainlyNamed = true) :
    isElementName tag.name = true := by
  have hparts : tag.name.all isNamePart = true :=
    List.all_eq_true.mpr fun c hc => (isNamePart_of_isPlainlyNamed hplain hc).1
  rw [isElementName, hparts, Bool.and_true]
  rw [isPlainlyNamed, Bool.and_eq_true] at hplain
  cases hname : tag.name with
  | nil =>
      rw [hname] at hplain
      cases hplain.1
  | cons c rest =>
      rw [hname] at hplain
      exact Bool.or_eq_true_iff.mpr (.inr hplain.1)

/-- A plain name is the name of the tag that is read where it is written. -/
theorem name_ofName_of_isPlainlyNamed (hplain : tag.isPlainlyNamed = true) :
    (ofName tag.name).name = tag.name := by
  have hparts : tag.name.all isNamePart = true :=
    List.all_eq_true.mpr fun c hc => (isNamePart_of_isPlainlyNamed hplain hc).1
  rw [name_ofName, lower_eq_self_of_isNamePart hparts]

theorem isWritable_ofName_of_isPlainlyNamed (hplain : tag.isPlainlyNamed = true) :
    (ofName tag.name).IsWritable where
  isElementName_name := by
    rw [name_ofName_of_isPlainlyNamed hplain, isElementName_of_isPlainlyNamed hplain]
  ofName_name := by rw [name_ofName_of_isPlainlyNamed hplain]

end Tag

/-- The start tag of an element, and what is written behind it. -/
theorem Element.exists_outerMarkup_eq (e : Element) :
    ∃ behind, e.outerMarkup = startTagMarkup e.tag e.attributes ++ behind :=
  ⟨_, Node.markup.eq_def ..⟩

/-- A character is written as itself or as a reference, so no byte order mark is made. -/
theorem exists_escapeText_cons (c : Char) (t : Text) :
    ∃ first rest, escapeText (c :: t) = first :: rest ∧ (first = '&' ∨ first = c) := by
  rw [escapeText, List.flatMap_cons]
  split
  · exact ⟨_, _, rfl, .inl rfl⟩
  · exact ⟨_, _, rfl, .inl rfl⟩
  · exact ⟨_, _, rfl, .inl rfl⟩
  · exact ⟨_, _, rfl, .inl rfl⟩
  · exact ⟨_, _, rfl, .inr rfl⟩

namespace Reader

variable {r : Reader} {t : Text}

/-- The character that completes a token. -/
theorem emit_of_token {s σ : State} {b : Builder} {c : Char} {token : Token}
    (hminds : s.mindsVocabulary c = false) (hstep : step false s c = (σ, [token])) :
    (⟨s, b, false⟩ : Reader).emit c = [token] := by
  simp only [emit, step_eq_of_mindsVocabulary hminds, hstep, Bool.false_and, Bool.false_eq_true,
    if_false]

/-- Escaped text is read as its characters, and more text may follow. -/
theorem emitAll_escapeText (hlexer : r.lexer = .text .data) (hnull : '\x00' ∉ t)
    (hmark : r.atStart = true → t.head? ≠ some '\uFEFF') :
    r.emitAll (escapeText t) = chars t ∧ (r.feedAll (escapeText t)).lexer = .text .data := by
  have hpasses := passes_escapeText hnull
  cases t with
  | nil => exact ⟨rfl, hlexer⟩
  | cons c t =>
      obtain ⟨first, rest, hescaped, hfirst⟩ := exists_escapeText_cons c t
      have hkept : r.atStart = false ∨ first ≠ '\uFEFF' := by
        rcases hfirst with rfl | rfl
        · exact .inr (by decide)
        · cases hstart : r.atStart with
          | false => exact .inl rfl
          | true => exact .inr fun hc => hmark hstart (congrArg some hc)
      rw [hescaped] at hpasses ⊢
      obtain ⟨hfeed, hemit⟩ := feedAll_of_passes_cons hlexer hpasses hkept
      exact ⟨hemit, by rw [hfeed]⟩

/-- A written start tag is read as one, with the tag that its name is the name of. -/
theorem emitAll_startTagMarkup {tag : Tag} {as : Attributes} (hlexer : r.lexer = .text .data)
    (htag : tag.isPlainlyNamed = true) (has : ∀ a ∈ as.toList, a.isEditable = true) :
    r.emitAll (startTagMarkup tag as) = [.startTag ⟨Tag.ofName tag.name, as.toList, false⟩] := by
  have hwritable {a : Attribute} (ha : a ∈ as.toList) : a.IsWritable :=
    Attribute.isWritable_of_isEditable (has a ha)
  obtain ⟨s, d, hpasses, hgap, htoken⟩ :=
    passes_startTag (Tag.isWritable_ofName_of_isPlainlyNamed htag)
      (fun a ha => (hwritable ha).isAttributeName_name) as.nodup_names
  rw [Tag.name_ofName_of_isPlainlyNamed htag] at hpasses
  have hend := hgap.step_end
  rw [Draft.finish, htoken, Attribute.map_read_of_isEditable has] at hend
  obtain ⟨hfeed, hemit⟩ := feedAll_of_passes hlexer hpasses rfl
  rw [startTagMarkup, emitAll_append, hemit, hfeed, List.nil_append]
  have hlast := emit_of_token (b := r.builder.takeAll []) (hgap.mindsVocabulary_eq '>') hend
  show emit _ '>' ++ [] = _
  rw [hlast]
  rfl

/-- Between two tags, escaping is undone in front of any text: the characters of a text are read
where it was escaped, and one start tag with the name and the attributes of an element where the
element was written. -/
theorem emitAll_written (hlexer : r.lexer = .text .data) (more : Text) :
    (∀ t : Text, '\x00' ∉ t → '\r' ∉ t → (r.atStart = true → t.head? ≠ some '\uFEFF') →
      r.emitAll (normalizeNewlines (escapeText t ++ more)) =
          chars t ++ (r.feedAll (escapeText t)).emitAll (normalizeNewlines more) ∧
        (r.feedAll (escapeText t)).lexer = .text .data) ∧
    ∀ e : Element, e.isPlainlyWritten = true → ∃ tag behind, tag.name = e.tag.name ∧
      e.outerMarkup = startTagMarkup e.tag e.attributes ++ behind ∧
      r.emitAll (normalizeNewlines (e.outerMarkup ++ more)) =
        .startTag ⟨tag, e.attributes.toList, false⟩ ::
          (r.feedAll (startTagMarkup e.tag e.attributes)).emitAll
            (normalizeNewlines (behind ++ more)) := by
  constructor
  · intro t hnull hreturn hmark
    obtain ⟨hemit, hdata⟩ := emitAll_escapeText hlexer hnull hmark
    refine ⟨?_, hdata⟩
    rw [normalizeNewlines_append_left (not_mem_escapeText (by decide) hreturn), emitAll_append,
      hemit]
  · intro e hplain
    simp only [Element.isPlainlyWritten, Bool.and_eq_true, List.all_eq_true] at hplain
    obtain ⟨htag, has⟩ := hplain
    obtain ⟨behind, hmarkup⟩ := e.exists_outerMarkup_eq
    have hname : '\r' ∉ e.tag.name :=
      fun hmem => (Tag.isNamePart_of_isPlainlyNamed htag hmem).2.2 rfl
    refine ⟨Tag.ofName e.tag.name, behind, Tag.name_ofName_of_isPlainlyNamed htag, hmarkup, ?_⟩
    rw [hmarkup, List.append_assoc,
      normalizeNewlines_append_left (return_not_mem_startTagMarkup hname has), emitAll_append,
      emitAll_startTagMarkup hlexer htag has]
    rfl

/-- An element whose value spells a reference, a tag and the end of a value. -/
def quotingElement : Element :=
  ⟨.other "x-1", .ofList [⟨"title", "&quot;<b>\"\u00A0"⟩, ⟨"data-2", []⟩], [.text "t"]⟩

theorem emitAll_written_quoting :
    (start .content).lexer = .text .data ∧
      (start .content).emitAll (normalizeNewlines (escapeText "&lt;b>&" ++ "amp;")) =
        chars "&lt;b>&" ++ ((start .content).feedAll (escapeText "&lt;b>&")).emitAll
          (normalizeNewlines "amp;") ∧
      ∃ tag behind, tag.name = quotingElement.tag.name ∧
        quotingElement.outerMarkup =
          startTagMarkup quotingElement.tag quotingElement.attributes ++ behind ∧
        (start .content).emitAll (normalizeNewlines (quotingElement.outerMarkup ++ "<br>")) =
          .startTag ⟨tag, quotingElement.attributes.toList, false⟩ ::
            ((start .content).feedAll (startTagMarkup quotingElement.tag
              quotingElement.attributes)).emitAll (normalizeNewlines (behind ++ "<br>")) := by
  have hdata : (start .content).lexer = .text .data := rfl
  refine ⟨hdata, ?_, (emitAll_written hdata "<br>").2 quotingElement (by decide)⟩
  exact ((emitAll_written hdata "amp;").1 "&lt;b>&" (by decide) (by decide)
    (fun _ => by decide)).1

end Reader

end Letterpress
