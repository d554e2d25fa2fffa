/-
# Trees built of what the lexer delivers

A tree under construction is spelled such that it can be written and read again as
long as everything that goes into it is. `Builder.IsSpelled` says so of the tree, of
the formatting that may be reopened, and of text that a table holds back. It is a
likeness of a reading with itself: what is alike is what is the same and spelled so.
-/

import Letterpress.Proofs.Markup.Lexing
import Letterpress.Proofs.Markup.Likeness

namespace Letterpress

namespace Forest

/-- Everything in the forest is spelled such that it is read again where it is written. -/
def IsSpelled : Forest → Prop
  | .empty => True
  | .element _ _ tag attributes children older =>
    tag.IsWritable ∧ (∀ a ∈ attributes, a.IsWritable) ∧ children.IsSpelled ∧ older.IsSpelled
  | .text t older => '\x00' ∉ t ∧ older.IsSpelled
  | .comment t older => IsComment t ∧ older.IsSpelled

/-- Forests that are the same and spelled so. -/
def SameSpelled (f g : Forest) : Prop := g = f ∧ f.IsSpelled

variable {forest other : Forest} {edit edit' : Forest → Forest} {target : Nat}

theorem IsSpelled.pushChar (hforest : forest.IsSpelled) {c : Char} (hc : c ≠ '\x00') :
    (forest.pushChar c).IsSpelled := by
  have hsingle : '\x00' ∉ [c] := by simpa using hc.symm
  cases forest with
  | text t older => exact ⟨by simpa using ⟨hc.symm, hforest.1⟩, hforest.2⟩
  | empty => exact ⟨hsingle, hforest⟩
  | element => exact ⟨hsingle, hforest⟩
  | comment => exact ⟨hsingle, hforest⟩

theorem IsSpelled.onto (hforest : forest.IsSpelled) (hother : other.IsSpelled) :
    (forest.onto other).IsSpelled := by
  induction forest with
  | empty => exact hother
  | element id vocabulary tag attributes children older _ ih =>
      exact ⟨hforest.1, hforest.2.1, hforest.2.2.1, ih hforest.2.2.2⟩
  | text t older ih => exact ⟨hforest.1, ih hforest.2⟩
  | comment t older ih => exact ⟨hforest.1, ih hforest.2⟩

theorem IsSpelled.addAttributes (hforest : forest.IsSpelled) {more : List Attribute}
    (hmore : ∀ a ∈ more, a.IsWritable) : (forest.addAttributes target more).IsSpelled := by
  induction forest with
  | empty => trivial
  | element id vocabulary tag attributes children older ihChildren ihOlder =>
      obtain ⟨htag, hattributes, hchildren, holder⟩ := hforest
      rw [Forest.addAttributes]
      split
      · refine ⟨htag, ?_, hchildren, holder⟩
        intro a ha
        rcases List.mem_append.mp ha with hold | hnew
        · exact hattributes a hold
        · exact hmore a (List.mem_filter.mp hnew).1
      · exact ⟨htag, hattributes, ihChildren hchildren, ihOlder holder⟩
  | text t older ih => exact ⟨hforest.1, ih hforest.2⟩
  | comment t older ih => exact ⟨hforest.1, ih hforest.2⟩

theorem IsSpelled.editInside (hforest : forest.IsSpelled)
    (hedit : ∀ {f g}, SameSpelled f g → SameSpelled (edit f) (edit' g)) :
    Option.Rel SameSpelled (forest.editInside? target edit) (forest.editInside? target edit') := by
  induction forest with
  | empty => exact .none
  | element id vocabulary tag attributes children older ihChildren ihOlder =>
      obtain ⟨htag, hattributes, hchildren, holder⟩ := hforest
      have hinner := ihChildren hchildren
      rw [editInside?, editInside?]
      split
      · obtain ⟨heq, hedited⟩ := hedit ⟨rfl, hchildren⟩
        exact .some ⟨by rw [heq], htag, hattributes, hedited, holder⟩
      · generalize children.editInside? target edit = x,
          children.editInside? target edit' = y at hinner
        cases hinner with
        | some hchanged =>
            obtain ⟨rfl, hspelled⟩ := hchanged
            exact .some ⟨rfl, htag, hattributes, hspelled, holder⟩
        | none =>
            apply Likeness.map_of_rel (ihOlder holder)
            rintro f g ⟨rfl, hspelled⟩
            exact ⟨rfl, htag, hattributes, hchildren, hspelled⟩
  | text t older ih =>
      apply Likeness.map_of_rel (ih hforest.2)
      rintro f g ⟨rfl, hspelled⟩
      exact ⟨rfl, hforest.1, hspelled⟩
  | comment t older ih =>
      apply Likeness.map_of_rel (ih hforest.2)
      rintro f g ⟨rfl, hspelled⟩
      exact ⟨rfl, hforest.1, hspelled⟩

theorem IsSpelled.editBefore (hforest : forest.IsSpelled)
    (hedit : ∀ {f g}, SameSpelled f g → SameSpelled (edit f) (edit' g)) :
    Option.Rel SameSpelled (forest.editBefore? target edit) (forest.editBefore? target edit') := by
  induction forest with
  | empty => exact .none
  | element id vocabulary tag attributes children older ihChildren ihOlder =>
      obtain ⟨htag, hattributes, hchildren, holder⟩ := hforest
      have hinner := ihChildren hchildren
      rw [editBefore?, editBefore?]
      split
      · obtain ⟨heq, hedited⟩ := hedit ⟨rfl, holder⟩
        exact .some ⟨by rw [heq], htag, hattributes, hchildren, hedited⟩
      · generalize children.editBefore? target edit = x,
          children.editBefore? target edit' = y at hinner
        cases hinner with
        | some hchanged =>
            obtain ⟨rfl, hspelled⟩ := hchanged
            exact .some ⟨rfl, htag, hattributes, hspelled, holder⟩
        | none =>
            apply Likeness.map_of_rel (ihOlder holder)
            rintro f g ⟨rfl, hspelled⟩
            exact ⟨rfl, htag, hattributes, hchildren, hspelled⟩
  | text t older ih =>
      apply Likeness.map_of_rel (ih hforest.2)
      rintro f g ⟨rfl, hspelled⟩
      exact ⟨rfl, hforest.1, hspelled⟩
  | comment t older ih =>
      apply Likeness.map_of_rel (ih hforest.2)
      rintro f g ⟨rfl, hspelled⟩
      exact ⟨rfl, hforest.1, hspelled⟩

theorem IsSpelled.detach? (hforest : forest.IsSpelled) {part rest : Forest}
    (hresult : forest.detach? target = some (part, rest)) : part.IsSpelled ∧ rest.IsSpelled := by
  induction forest generalizing part rest with
  | empty => cases hresult
  | element id vocabulary tag attributes children older ihChildren ihOlder =>
      obtain ⟨htag, hattributes, hchildren, holder⟩ := hforest
      rw [Forest.detach?] at hresult
      split at hresult
      · cases hresult
        exact ⟨⟨htag, hattributes, hchildren, trivial⟩, holder⟩
      · split at hresult
        · rename_i found changed hfound
          cases hresult
          obtain ⟨hpart, hchanged⟩ := ihChildren hchildren hfound
          exact ⟨hpart, htag, hattributes, hchanged, holder⟩
        · obtain ⟨⟨found, changed⟩, hfound, hpair⟩ := Option.map_eq_some_iff.mp hresult
          cases hpair
          obtain ⟨hpart, hchanged⟩ := ihOlder holder hfound
          exact ⟨hpart, htag, hattributes, hchildren, hchanged⟩
  | text t older ih =>
      obtain ⟨⟨found, changed⟩, hfound, hpair⟩ := Option.map_eq_some_iff.mp hresult
      cases hpair
      exact ⟨(ih hforest.2 hfound).1, hforest.1, (ih hforest.2 hfound).2⟩
  | comment t older ih =>
      obtain ⟨⟨found, changed⟩, hfound, hpair⟩ := Option.map_eq_some_iff.mp hresult
      cases hpair
      exact ⟨(ih hforest.2 hfound).1, hforest.1, (ih hforest.2 hfound).2⟩

end Forest

/-- Leaving out the vocabulary leaves a name that an attribute may have. -/
theorem Builder.isAttributeName_localName {n : Text} (hname : isAttributeName n = true) :
    isAttributeName (localName n) = true := by
  rw [localName]
  cases hfind : localName.qualified.find? fun entry => entry.1.toList == n with
  | none => exact hname
  | some entry =>
      have hall : ∀ entry ∈ localName.qualified, isAttributeName entry.2.toList = true := by decide
      exact hall entry (List.mem_of_find?_eq_some hfind)

/-- A reading is alike to itself in everything that is spelled such that it is read again. -/
def Likeness.spelled : Likeness where
  trees := Forest.SameSpelled
  attributes _ as bs := bs = as ∧ ∀ a ∈ as, a.IsWritable
  names := Tag.IsWritable
  comments x y := y = x ∧ IsComment x
  chars c := c ≠ '\x00'
  trees_empty := ⟨rfl, trivial⟩
  trees_pushChar := by
    rintro f g c hc ⟨rfl, hspelled⟩
    exact ⟨rfl, hspelled.pushChar hc⟩
  trees_comment := by
    rintro f g x y ⟨rfl, hcomment⟩ ⟨rfl, hspelled⟩
    exact ⟨rfl, hcomment, hspelled⟩
  trees_element := by
    rintro f g p q tag as bs id vocabulary hname ⟨rfl, has⟩ ⟨rfl, hchildren⟩ ⟨rfl, hspelled⟩
    exact ⟨rfl, hname, has, hchildren, hspelled⟩
  trees_onto := by
    rintro f g p q ⟨rfl, hpart⟩ ⟨rfl, hspelled⟩
    exact ⟨rfl, hpart.onto hspelled⟩
  trees_editInside := by
    rintro f g edit edit' target hedit ⟨rfl, hspelled⟩
    exact hspelled.editInside hedit
  trees_editBefore := by
    rintro f g edit edit' target hedit ⟨rfl, hspelled⟩
    exact hspelled.editBefore hedit
  trees_addAttributes := by
    rintro f g tag as bs target ⟨rfl, has⟩ ⟨rfl, hspelled⟩
    exact ⟨rfl, hspelled.addAttributes has⟩
  trees_detach := by
    rintro f g target ⟨rfl, hspelled⟩
    cases hparts : g.detach? target with
    | none => exact .none
    | some parts =>
        obtain ⟨hpart, hrest⟩ := hspelled.detach? hparts
        exact .some ⟨⟨rfl, hpart⟩, rfl, hrest⟩
  attributes_nil _ := ⟨rfl, nofun⟩
  attributes_localName := by
    rintro tag as bs ⟨rfl, has⟩
    refine ⟨rfl, ?_⟩
    intro renamed hrenamed
    obtain ⟨a, ha, rfl⟩ := List.mem_map.mp hrenamed
    have hwritable := has a ha
    exact ⟨Builder.isAttributeName_localName hwritable.isAttributeName_name, hwritable.null_not_mem⟩
  attributes_image has := has
  eq_of_attributes _ has := has.1.symm
  names_supplied := Tag.isWritable_of_supplied
  chars_replacement := by decide

/-- Everything that is in the tree or may still come into it is spelled such that it is read
again where it is written. -/
def Builder.IsSpelled (b : Builder) : Prop := Likeness.spelled.Builders b b

theorem Builder.IsSpelled.tree {b : Builder} (hb : b.IsSpelled) : b.tree.IsSpelled := hb.trees.2

/-- A token that is spelled so is alike to itself. -/
theorem Token.IsSpelled.tokens {token : Token} (htoken : token.IsSpelled) :
    Likeness.spelled.Tokens token token := by
  cases token with
  | startTag t => exact .startTag ⟨rfl, rfl, htoken.1, rfl, htoken.2.1⟩
  | comment content => exact .comment ⟨rfl, htoken⟩
  | char c => exact .char htoken
  | doctype d => exact .doctype d
  | endTag tag => exact .endTag tag
  | null => exact .null
  | flaw => exact .flaw
  | done => exact .done

end Letterpress
