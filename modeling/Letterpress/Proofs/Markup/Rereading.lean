/-
# Reading a written tree

A written node is read as `Node.tokens`: the start tag, the tokens of the
children and the end tag of an element, the characters of a text, one comment.
Elements without an end tag are read without their children, for these are not
written. Two things have to be known of the tree. Its names, texts and comments
are spelled such that they are read as they stand (`Node.IsSpelled`, which also
says what it is told to of each attribute), and text that is written as it is ends
where it should (`Element.IsVerbatim`).

Nothing is said here about the tree that a reader makes of the tokens.
-/

import Letterpress.Proofs.Markup.Spelling

namespace Letterpress

open Lexer

/-- A comment that is read again where it is written, whatever the tree around it. -/
def IsComment (t : Text) : Prop :=
  Passes (.text .data) ("<!--" ++ t ++ "-->") [.comment t] (.text .data)

theorem IsComment.reads {t : Text} (ht : IsComment t) (switch : Tag → Option Content) :
    Reads switch (.text .data) ("<!--" ++ t ++ "-->") [.comment t] (.text .data) :=
  Passes.reads_of_resume ht fun token htoken s => by
    rw [List.mem_singleton.mp htoken]
    rfl

/-- An attribute whose name is read again where it is written. -/
def Attribute.IsNamed (a : Attribute) : Prop := isAttributeName a.name = true

namespace Node

/-- Whether the node is text. -/
def isText : Node → Bool
  | .text _ => true
  | _ => false

mutual

/-- The tokens that a written node is read as. -/
def tokens : Node → List Token
  | .element tag attributes children =>
    .startTag ⟨tag, attributes.toList.map Attribute.read, false⟩ ::
      if tag.isVoid then [] else tokensOfAll children ++ [.endTag tag]
  | .text t => chars t
  | .comment t => [.comment t]

/-- The tokens that written neighbours are read as. -/
def tokensOfAll : List Node → List Token
  | [] => []
  | n :: rest => n.tokens ++ tokensOfAll rest

end

mutual

/-- The elements that a written node shows, from the outside in. -/
def writtenElements : Node → List Element
  | .element tag attributes children =>
    ⟨tag, attributes, children⟩ :: if tag.isVoid then [] else writtenElementsOfAll children
  | _ => []

/-- The elements that written neighbours show. -/
def writtenElementsOfAll : List Node → List Element
  | [] => []
  | n :: rest => n.writtenElements ++ writtenElementsOfAll rest

end

mutual

/-- What is written is in the tree. -/
theorem writtenElements_sublist : ∀ n : Node, n.writtenElements.Sublist n.elements
  | .element tag attributes children => by
      rw [writtenElements, elements]
      split
      · exact .cons_cons _ (List.nil_sublist _)
      · exact .cons_cons _ (writtenElementsOfAll_sublist children)
  | .text _ => .slnil
  | .comment _ => .slnil

theorem writtenElementsOfAll_sublist :
    ∀ ns : List Node, (writtenElementsOfAll ns).Sublist (elementsOfAll ns)
  | [] => .slnil
  | n :: rest => (writtenElements_sublist n).append (writtenElementsOfAll_sublist rest)

end

variable {p q : Attribute → Prop}

mutual

/-- Everything in the node is spelled such that it is read as it stands, and every attribute
satisfies `p`. -/
def IsSpelled (p : Attribute → Prop) : Node → Prop
  | .element tag attributes children =>
    tag.IsWritable ∧ (∀ a ∈ attributes.toList, p a) ∧ AllSpelled p children
  | .text t => '\x00' ∉ t
  | .comment t => IsComment t

/-- Neighbouring nodes are spelled such that they are read as they stand. -/
def AllSpelled (p : Attribute → Prop) : List Node → Prop
  | [] => True
  | n :: rest => n.IsSpelled p ∧ AllSpelled p rest

end

theorem isSpelled_of_mem {ns : List Node} {n : Node} (hspelled : AllSpelled p ns) (hn : n ∈ ns) :
    n.IsSpelled p := by
  induction ns with
  | nil => cases hn
  | cons m rest ih =>
      rcases List.mem_cons.mp hn with rfl | hlater
      · exact hspelled.1
      · exact ih hspelled.2 hlater

mutual

/-- Changing attributes changes only what is known of attributes. -/
theorem isSpelled_mapAttributes {f : Tag → Attributes → Attributes}
    (hf : ∀ tag as, (∀ a ∈ as.toList, p a) → ∀ a ∈ (f tag as).toList, q a) :
    ∀ n : Node, n.IsSpelled p → (n.mapAttributes f).IsSpelled q
  | .element tag attributes children, ⟨htag, hattributes, hchildren⟩ =>
      ⟨htag, hf tag attributes hattributes, allSpelled_mapAttributesOfAll hf children hchildren⟩
  | .text _, hspelled => hspelled
  | .comment _, hspelled => hspelled

theorem allSpelled_mapAttributesOfAll {f : Tag → Attributes → Attributes}
    (hf : ∀ tag as, (∀ a ∈ as.toList, p a) → ∀ a ∈ (f tag as).toList, q a) :
    ∀ ns : List Node, AllSpelled p ns → AllSpelled q (mapAttributesOfAll f ns)
  | [], _ => trivial
  | n :: rest, ⟨hfirst, hrest⟩ =>
      ⟨isSpelled_mapAttributes hf n hfirst, allSpelled_mapAttributesOfAll hf rest hrest⟩

end

end Node

/-- The element holds only text, which is written as it is and read as it is up to the end tag
of the element. -/
structure Element.IsVerbatim (switch : Tag → Option Content) (e : Element) : Prop where
  isText_of_mem : ∀ n ∈ e.children, n.isText = true
  reads_children : Reads switch ((switch e.tag).elim (.text .data) .text)
    (Node.markupOfAll true e.children ++ endTagMarkup e.tag)
    (Node.tokensOfAll e.children ++ [.endTag e.tag]) (.text .data)

/-- Elements without an end tag are not read as raw text. -/
theorem Tag.isRawText_of_isVoid {tag : Tag} (hvoid : tag.isVoid = true) :
    tag.isRawText = false := by
  unfold Tag.isVoid at hvoid
  split at hvoid
  all_goals first | rfl | cases hvoid

namespace Node

variable {switch : Tag → Option Content} {p : Attribute → Prop}

mutual

/-- A written node is read as its tokens. -/
theorem reads_markup (hswitch : ∀ tag, tag.isRawText = false → switch tag = none)
    (hnamed : ∀ a, p a → a.IsNamed) :
    ∀ n : Node, n.IsSpelled p →
      (∀ e ∈ n.writtenElements, e.tag.isRawText = true → e.IsVerbatim switch) →
      Reads switch (.text .data) (n.markup false) n.tokens (.text .data)
  | .element tag attributes children, hspelled, hverbatim => by
      obtain ⟨htag, hattributes, hchildren⟩ := hspelled
      have hstart := reads_startTagMarkup switch htag fun a ha => hnamed a (hattributes a ha)
      rw [markup, tokens]
      by_cases hvoid : tag.isVoid = true
      · rw [if_pos hvoid, if_pos hvoid, List.append_nil]
        simpa [resume, hswitch tag (Tag.isRawText_of_isVoid hvoid)] using hstart
      · rw [if_neg hvoid, if_neg hvoid]
        by_cases hraw : tag.isRawText = true
        · have hself := hverbatim ⟨tag, attributes, children⟩ (by simp [writtenElements]) hraw
          rw [hraw]
          exact hstart.append hself.reads_children
        · rw [Bool.not_eq_true] at hraw
          have hinner := reads_markupOfAll hswitch hnamed children hchildren
            (fun e he => hverbatim e (by simp [writtenElements, hvoid, he]))
          rw [hraw]
          simp only [resume, hswitch tag hraw, Option.elim] at hstart
          exact hstart.append (hinner.append (reads_endTagMarkup switch htag))
  | .text t, hspelled, _ => by
      rw [markup, tokens]
      exact reads_escapeText switch hspelled
  | .comment t, hspelled, _ => IsComment.reads hspelled switch

/-- Written neighbours are read as their tokens. -/
theorem reads_markupOfAll (hswitch : ∀ tag, tag.isRawText = false → switch tag = none)
    (hnamed : ∀ a, p a → a.IsNamed) :
    ∀ ns : List Node, AllSpelled p ns →
      (∀ e ∈ writtenElementsOfAll ns, e.tag.isRawText = true → e.IsVerbatim switch) →
      Reads switch (.text .data) (markupOfAll false ns) (tokensOfAll ns) (.text .data)
  | [], _, _ => .nil
  | n :: rest, hspelled, hverbatim =>
      .append
        (reads_markup hswitch hnamed n hspelled.1
          fun e he => hverbatim e (by simp [writtenElementsOfAll, he]))
        (reads_markupOfAll hswitch hnamed rest hspelled.2
          fun e he => hverbatim e (by simp [writtenElementsOfAll, he]))

end

end Node

end Letterpress
