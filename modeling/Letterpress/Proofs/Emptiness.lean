/-
# Imports without content

An import fails exactly if nothing but white space stands behind the byte order marks at the
start, and the failure is always the same (`ofOctets_spec`). This is found out before the body
of a document is taken, so a document with nothing in its body is imported all the same, as
nothing. Of the nodes of a body only white space is written as white space: tags and comments
have brackets, and a no-break space is written as a reference.
-/

import Letterpress.Proofs.Importing
import Letterpress.Proofs.Text.Trimming

namespace Letterpress

/-! ## Octets that are not a text -/

namespace Utf8

theorem exists_not_char_of_textOf {ps : List Piece} {offset : Nat} {fault : Fault}
    (h : textOf offset ps = .error fault) : ∃ p ∈ ps, ∀ c, p ≠ .char c := by
  induction ps generalizing offset fault with
  | nil => cases h
  | cons p ps ih =>
      cases p with
      | char c =>
          cases hrest : textOf (offset + c.utf8Size) ps with
          | error fault' =>
              obtain ⟨p, hp, hne⟩ := ih hrest
              exact ⟨p, List.mem_cons_of_mem _ hp, hne⟩
          | ok t =>
              rw [textOf, hrest] at h
              cases h
      | malformed length => exact ⟨_, List.mem_cons_self, fun c h => by cases h⟩
      | cut length => exact ⟨_, List.mem_cons_self, fun c h => by cases h⟩

/-- Octets that are not a text are read with a mark. -/
theorem mark_mem_decodeLossy {bytes : Octets} {fault : Fault} (h : decode bytes = .error fault) :
    '\uFFFD' ∈ decodeLossy bytes := by
  obtain ⟨p, hp, hne⟩ := exists_not_char_of_textOf h
  refine List.mem_map.mpr ⟨p, hp, ?_⟩
  cases p with
  | char c => exact absurd rfl (hne c)
  | malformed length => rfl
  | cut length => rfl

end Utf8

/-! ## Markup of white space -/

theorem Text.isBlankText_trim (t : Text) : isBlankText (trim t) = isBlankText t := by
  obtain ⟨v, w, hv, hw, heq⟩ := exists_trim_eq t
  conv => rhs; rw [heq]
  simp [isBlankText, List.all_append, hv, hw]

namespace Node

/-- Whether a node is a text that is written as white space. -/
def isWhite : Node → Bool
  | .text content => content.all fun c => isBlank c && c != '\u00A0'
  | _ => false

/-- Escaping makes a no-break space visible, and nothing else. -/
theorem isBlankText_escapeText (t : Text) :
    Text.isBlankText (escapeText t) = (Node.text t).isWhite := by
  rw [Text.isBlankText, escapeText, List.all_flatMap, isWhite]
  congr 1
  funext c
  split
  case h_5 hamp hlt hgt hspace => simpa using fun _ => hspace
  all_goals decide

theorem isBlankText_markup (n : Node) : Text.isBlankText (n.markup false) = n.isWhite := by
  cases n with
  | element tag attributes children =>
      rw [markup, startTagMarkup]
      rfl
  | text content => exact isBlankText_escapeText content
  | comment content => rfl

theorem isBlankText_markupOfAll (ns : List Node) :
    Text.isBlankText (markupOfAll false ns) = ns.all isWhite := by
  induction ns with
  | nil => rfl
  | cons n ns ih =>
      rw [markupOfAll, List.all_cons, ← isBlankText_markup, ← ih]
      exact List.all_append

end Node

theorem tag_parseBody (t : Text) : (parseBody t).tag = .body := by
  rw [parseBody]
  cases hbody : parseBody? t with
  | none => rfl
  | some e =>
      simp only [parseBody?, Option.bind_eq_some_iff, Option.map_eq_some_iff] at hbody
      obtain ⟨-, -, -, -, rfl⟩ := hbody
      rfl

/-! ## Imports -/

namespace Import

/-- Octets of byte order marks, if any, and of white space behind them. -/
def IsEmptyInput (bytes : Octets) : Prop :=
  ∃ marks blanks : Text, marks.all (· == '\uFEFF') ∧ Text.isBlankText blanks ∧
    bytes = Utf8.encode (marks ++ blanks)

theorem isBlankText_withoutMarks_iff {t : Text} : Text.isBlankText (withoutMarks t) = true ↔
    ∃ marks blanks : Text, marks.all (· == '\uFEFF') ∧ Text.isBlankText blanks ∧
      t = marks ++ blanks := by
  constructor
  · intro hblank
    exact ⟨t.takeWhile (· == '\uFEFF'), withoutMarks t, List.all_takeWhile, hblank,
      List.takeWhile_append_dropWhile.symm⟩
  · rintro ⟨marks, blanks, hmarks, hblank, rfl⟩
    rw [withoutMarks, List.dropWhile_append_of_pos (List.all_eq_true.mp hmarks)]
    exact List.all_eq_true.mpr fun c hc =>
      List.all_eq_true.mp hblank c ((List.dropWhile_sublist _).mem hc)

/-- A text with a replacement in it is never blank. -/
theorem isBlankText_textOf_iff (bytes : Octets) :
    Text.isBlankText (withoutMarks (textOf bytes).1) = true ↔ IsEmptyInput bytes := by
  rw [isBlankText_withoutMarks_iff, IsEmptyInput]
  refine exists_congr fun marks => exists_congr fun blanks => and_congr_right fun hmarks =>
    and_congr_right fun hblank => ?_
  rw [← Utf8.decode_eq_ok_iff, textOf]
  cases hdecode : Utf8.decode bytes with
  | ok t => simp
  | error fault =>
      refine iff_of_false (fun heq => ?_) fun h => by cases h
      change Utf8.decodeLossy bytes = marks ++ blanks at heq
      have hmark := heq ▸ Utf8.mark_mem_decodeLossy hdecode
      rcases List.mem_append.mp hmark with hmem | hmem
      · exact absurd (List.all_eq_true.mp hmarks _ hmem) (by decide)
      · exact absurd (List.all_eq_true.mp hblank _ hmem) (by decide)

/-- What is imported of a text with something in it is nothing only of a document with nothing
in its body. -/
theorem isBlankText_bodyOf_iff {t : Text} (ht : Text.isBlankText t = false) :
    Text.isBlankText (bodyOf t) = true ↔
      isDocument t = true ∧ (parseBody t).children.all Node.isWhite = true := by
  rw [bodyOf, Text.isBlankText_trim]
  split
  case isTrue hdocument =>
    rw [Element.innerMarkup, tag_parseBody]
    simp [hdocument, Tag.isRawText, Node.isBlankText_markupOfAll]
  case isFalse hdocument =>
    simp [hdocument, ht]

/-- An import fails exactly on empty input, and then as one of an empty document. An import that
succeeds is one of nothing exactly for a document with nothing but white space in its body. -/
theorem ofOctets_spec (bytes : Octets) :
    match ofOctets bytes with
    | .error failure => failure = .emptyDocument ∧ failure.kind = .conversion ∧ IsEmptyInput bytes
    | .ok imported => ¬ IsEmptyInput bytes ∧
        (Text.isBlankText imported.html = true ↔
          isDocument (withoutMarks (textOf bytes).1) = true ∧
          (parseBody (withoutMarks (textOf bytes).1)).children.all Node.isWhite = true) := by
  rw [ofOctets, ← isBlankText_textOf_iff]
  cases hblank : Text.isBlankText (withoutMarks (textOf bytes).1) with
  | true => simp [hblank, Failure.kind]
  | false => simp [hblank, isBlankText_bodyOf_iff hblank]

section Sample

/-- A document with a title and an empty body. -/
def emptyBody : Text := "<html><head><title>x</title></head><body>\n</body></html>"

/-- A document with an empty body is imported, as nothing. -/
theorem ofOctets_emptyBody :
    ofOctets (Utf8.encode emptyBody) = .ok ⟨[], [.wholeDocument]⟩ := by
  have hblank : Text.isBlankText (withoutMarks emptyBody) = false := by decide
  have hdocument : isDocument (withoutMarks emptyBody) = true := by decide
  have hbody : bodyOf (withoutMarks emptyBody) = [] := by decide +kernel
  rw [ofOctets_of_decode (Utf8.decode_encode emptyBody) hblank, hbody, hdocument]
  rfl

end Sample

end Import

end Letterpress
