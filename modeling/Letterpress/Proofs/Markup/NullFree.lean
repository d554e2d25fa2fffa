/-
# Markup without U+0000

A tree that is spelled as the lexer delivers it is written without U+0000: names
and comments had it replaced, and text and values do not hold it.
-/

import Letterpress.Proofs.Markup.Comments
import Letterpress.Proofs.Markup.Lexing

namespace Letterpress

namespace Lexer

variable {switch : Tag → Option Content} {phase : CommentPhase} {content t : Text}

/-- The first token that comes out of a comment is the comment, and it holds no U+0000 if what
has been taken of it does not. -/
theorem head?_scan_comment (hcontent : '\x00' ∉ content.reverse ++ phase.held) {token : Token}
    (hhead : (scan switch (.comment phase content) t).2.head? = some token) :
    ∃ whole, token = .comment whole ∧ '\x00' ∉ whole := by
  induction t generalizing phase content with
  | nil => cases hhead
  | cons c t ih =>
      have hstep : step false (.comment phase content) c = commentStep phase content c := rfl
      rcases commentStep_cases phase content c with ⟨rfl, hend⟩ | ⟨phase', content', hgoes⟩
      · have hscan : (scan switch (.comment phase content) ('>' :: t)).2.head? =
            some (.comment content.reverse) := by
          rw [scan, scanStep, hstep, hend]
          rfl
        rw [hscan] at hhead
        cases hhead
        exact ⟨_, rfl, fun hmem => hcontent (List.mem_append_left _ hmem)⟩
      · have hscan : (scan switch (.comment phase content) (c :: t)).2 =
            (scan switch (.comment phase' content') t).2 := by
          rw [scan, scanStep, hstep, hgoes.step_eq]
          rfl
        have hread : '\x00' ∉ content'.reverse ++ phase'.held := by
          rw [hgoes.read_eq]
          exact List.not_mem_append hcontent
            fun hmem => visible_ne_null c (List.mem_singleton.mp hmem).symm
        rw [hscan] at hhead
        exact ih hread hhead

end Lexer

theorem IsComment.null_not_mem {t : Text} (ht : IsComment t) : '\x00' ∉ t := by
  have hreads := ht.reads fun _ => none
  have hscan : Lexer.scan (fun _ => none) (.text .data) ("<!--" ++ t ++ "-->") =
      Lexer.scan (fun _ => none) (.comment .start []) (t ++ "-->") := rfl
  have hhead : (Lexer.scan (fun _ => none) (.comment .start []) (t ++ "-->")).2.head? =
      some (.comment t) := by
    rw [← hscan, hreads]
    rfl
  obtain ⟨whole, heq, hnull⟩ := Lexer.head?_scan_comment List.not_mem_nil hhead
  cases heq
  exact hnull

/-! ## Names -/

theorem null_not_mem_of_isNamePart {name : Text} (hname : name.all isNamePart = true) :
    '\x00' ∉ name := fun hmem => absurd (List.all_eq_true.mp hname _ hmem) (by decide)

theorem Tag.IsWritable.null_not_mem_name {tag : Tag} (htag : tag.IsWritable) :
    '\x00' ∉ tag.name := by
  have hname := htag.isElementName_name
  simp only [isElementName, Bool.and_eq_true] at hname
  exact null_not_mem_of_isNamePart hname.2

theorem Attribute.IsWritable.null_not_mem_name {a : Attribute} (ha : a.IsWritable) :
    '\x00' ∉ a.name := by
  have hname := ha.isAttributeName_name
  simp only [isAttributeName, Bool.and_eq_true] at hname
  exact null_not_mem_of_isNamePart hname.1.2

/-! ## Trees -/

theorem Attribute.IsWritable.null_not_mem_markup {a : Attribute} (ha : a.IsWritable) :
    '\x00' ∉ a.markup := not_mem_markup (by decide) ha.null_not_mem_name ha.null_not_mem

namespace Node

mutual

theorem null_not_mem_markup :
    ∀ (raw : Bool) (n : Node), n.IsSpelled Attribute.IsWritable → '\x00' ∉ n.markup raw
  | raw, .element tag attributes children, ⟨htag, hattributes, hchildren⟩ => by
      refine List.not_mem_append (not_mem_startTagMarkup (by decide) htag.null_not_mem_name
        fun a ha => (hattributes a ha).null_not_mem_markup) ?_
      split
      · exact List.not_mem_nil
      · exact List.not_mem_append (null_not_mem_markupOfAll _ children hchildren)
          (not_mem_endTagMarkup (by decide) htag.null_not_mem_name)
  | true, .text _, htext => htext
  | false, .text _, htext => not_mem_escapeText (by decide) htext
  | raw, .comment _, hcomment =>
      List.not_mem_append (List.not_mem_append (by decide) hcomment.null_not_mem) (by decide)

theorem null_not_mem_markupOfAll :
    ∀ (raw : Bool) (ns : List Node), AllSpelled Attribute.IsWritable ns →
      '\x00' ∉ markupOfAll raw ns
  | _, [], _ => List.not_mem_nil
  | raw, n :: rest, ⟨hfirst, hrest⟩ =>
      List.not_mem_append (null_not_mem_markup raw n hfirst)
        (null_not_mem_markupOfAll raw rest hrest)

end

end Node

end Letterpress
