/-
# Imported fragments

A text counts as a whole document if it has an open bracket with `html` or `body` behind it,
in any case. No text with one of these tags is missed, since a start tag stands in the text
that it is read from. The letters may also stand where there is no tag, though: in a comment,
in the value of an attribute, or at the beginning of a longer name. A text that is neither
blank nor such a document is imported as it stands (`ofOctets_eq_fragment_iff`); of every
other one the body is kept.
-/

import Letterpress.Import
import Letterpress.Proofs.Markup.TagTexts
import Letterpress.Proofs.Text.Encoding
import Letterpress.Proofs.Text.Order

namespace Letterpress

variable {b : Builder} {t name : Text} {bytes : Octets}

/-- A text has an open bracket with a name behind it, in any case. -/
def OpensTag (name t : Text) : Prop := '<' :: name <:+: Text.lower t

instance : Decidable (OpensTag name t) :=
  decidable_of_iff (Text.occursIn ('<' :: name) (Text.lower t) = true) Text.occursIn_iff

/-- Names are made of the letters in the text, apart from U+0000. -/
theorem Lexer.lower_eq_of_lower_map_nameChar {raw : Text} (hmark : '\uFFFD' ∉ name)
    (h : Text.lower (raw.map nameChar) = name) : Text.lower raw = name := by
  have hsame : ∀ c ∈ raw, (nameChar c).toLower = c.toLower := by
    intro c hc
    have hnull : c.toLower ≠ '\x00' := by
      intro hnull
      refine hmark (h ▸ List.mem_map.mpr ⟨nameChar c, List.mem_map_of_mem hc, ?_⟩)
      rw [nameChar, hnull]
      decide
    rw [nameChar, visible, if_neg hnull, Text.toLower_toLower]
  rw [← h, Text.lower, Text.lower, List.map_map]
  exact (List.map_congr_left hsame).symm

/-- A start tag stands in the text that it is read from. -/
theorem opensTag_of_startTag_mem_tokens {s : StartTag} (h : .startTag s ∈ Reader.tokens b t)
    (hname : s.tag.name = name) (hmark : '\uFFFD' ∉ name) (hline : '\n' ∉ name) :
    OpensTag name t := by
  obtain ⟨raw, hraw, htag⟩ := Reader.exists_infix_of_startTag_mem_tokens h
  rw [htag, Tag.name_ofName] at hname
  have hlower := Lexer.lower_eq_of_lower_map_nameChar hmark hname
  have hline' : '\n' ∉ '<' :: raw := by
    intro hmem
    rcases List.mem_cons.mp hmem with heq | hmem
    · exact absurd heq (by decide)
    · exact hline (hlower ▸ List.mem_map.mpr ⟨'\n', hmem, by decide⟩)
  have hinfix := (Reader.infix_of_infix_normalizeNewlines hline' hraw).map Char.toLower
  rw [List.map_cons] at hinfix
  exact hlower ▸ hinfix

/-- Whether a token is a start tag of the outer parts of a document. -/
def Token.opensDocument : Token → Bool
  | .startTag s =>
    ["html".toList, "head".toList, "body".toList, "frameset".toList].contains s.tag.name
  | _ => false

namespace Import

theorem isDocument_iff : isDocument t = true ↔ OpensTag "html" t ∨ OpensTag "body" t := by
  rw [isDocument, Bool.or_eq_true, Text.occursIn_iff, Text.occursIn_iff]
  rfl

theorem ofOctets_of_decode (hdecode : Utf8.decode bytes = .ok t)
    (hblank : Text.isBlankText (withoutMarks t) = false) :
    ofOctets bytes = .ok ⟨bodyOf (withoutMarks t),
      if isDocument (withoutMarks t) then [.wholeDocument] else []⟩ := by
  have htext : textOf bytes = (t, []) := by simp only [textOf, hdecode]
  simp [ofOctets, htext, hblank]

/-- A text that is not blank is imported as it stands exactly if it opens neither of the tags of
a document. Otherwise its body is imported, and this is said. A text that is read with such a
tag opens it. -/
theorem ofOctets_eq_fragment_iff (hdecode : Utf8.decode bytes = .ok t)
    (hblank : Text.isBlankText (withoutMarks t) = false) :
    (ofOctets bytes = .ok ⟨Text.trim (withoutMarks t), []⟩ ↔
      ¬ OpensTag "html" (withoutMarks t) ∧ ¬ OpensTag "body" (withoutMarks t)) ∧
    (OpensTag "html" (withoutMarks t) ∨ OpensTag "body" (withoutMarks t) →
      ofOctets bytes =
        .ok ⟨Text.trim (parseBody (withoutMarks t)).innerMarkup, [.wholeDocument]⟩) ∧
    ∀ b s, .startTag s ∈ Reader.tokens b (withoutMarks t) →
      (s.tag.name = "html".toList → OpensTag "html" (withoutMarks t)) ∧
      (s.tag.name = "body".toList → OpensTag "body" (withoutMarks t)) := by
  rw [ofOctets_of_decode hdecode hblank, bodyOf, ← not_or, ← isDocument_iff]
  refine ⟨?_, ?_, fun b s hs => ⟨fun hname => ?_, fun hname => ?_⟩⟩
  · cases hdocument : isDocument (withoutMarks t) with
    | true => simp
    | false => simp
  · intro hdocument
    simp [hdocument]
  · exact opensTag_of_startTag_mem_tokens hs hname (by decide) (by decide)
  · exact opensTag_of_startTag_mem_tokens hs hname (by decide) (by decide)

section Sample

/-- A fragment behind a byte order mark that speaks of a tag. -/
def markedFragment : Text := "\uFEFF\n<p>A &lt;body> in a <bold> word</p>\n"

theorem ofOctets_eq_fragment_iff_marked :
    Utf8.decode (Utf8.encode markedFragment) = .ok markedFragment ∧
    Text.isBlankText (withoutMarks markedFragment) = false ∧
    ofOctets (Utf8.encode markedFragment) =
      .ok ⟨"<p>A &lt;body> in a <bold> word</p>", []⟩ := by
  have hdecode := Utf8.decode_encode markedFragment
  have hblank : Text.isBlankText (withoutMarks markedFragment) = false := by decide
  have hfragment := (ofOctets_eq_fragment_iff hdecode hblank).1.mpr (by decide)
  have htrim : Text.trim (withoutMarks markedFragment) =
      "<p>A &lt;body> in a <bold> word</p>" := by decide
  rw [htrim] at hfragment
  exact ⟨hdecode, hblank, hfragment⟩

/-- A fragment with a style sheet before its content, and a comment behind it. -/
def styledFragment : Text := "<style>p{}</style><p>x</p><!-- <body> -->"

/-- A comment makes a document of this fragment, and its style sheet is dropped. -/
theorem comment_makes_document :
    (Reader.tokens .document styledFragment).all (!·.opensDocument) = true ∧
    Text.isBlankText (withoutMarks styledFragment) = false ∧
    Text.trim (withoutMarks styledFragment) = styledFragment ∧
    ofOctets (Utf8.encode styledFragment) =
      .ok ⟨"<p>x</p><!-- <body> -->", [.wholeDocument]⟩ := by
  have hblank : Text.isBlankText (withoutMarks styledFragment) = false := by decide
  have hdocument : isDocument (withoutMarks styledFragment) = true := by decide
  have hbody : bodyOf (withoutMarks styledFragment) = "<p>x</p><!-- <body> -->" := by
    decide +kernel
  refine ⟨by decide +kernel, hblank, by decide, ?_⟩
  rw [ofOctets_of_decode (Utf8.decode_encode styledFragment) hblank, hbody, hdocument]
  rfl

end Sample

end Import

end Letterpress
