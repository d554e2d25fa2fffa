/-
# Parsed trees can be written and read again

Whatever text a tree is parsed from, its names, texts and comments are spelled such
that they are read as they stand where the tree is written:
`parseFragment_allSpelled`. A reader keeps its lexer and its builder so from one
character to the next, and finishing the tree changes no spelling.
-/

import Letterpress.Markup.Parsing
import Letterpress.Proofs.Markup.Building
import Letterpress.Proofs.Markup.Restyling
import Letterpress.Proofs.Markup.Taking

namespace Letterpress

/-! ## A reader between two characters -/

/-- What is in the tree, and what is being read, is spelled such that it is read again. -/
structure Reader.IsSpelled (r : Reader) : Prop where
  lexer : r.lexer.IsSpelled
  builder : r.builder.IsSpelled

namespace Reader

theorem isSpelled_start {b : Builder} (hb : b.IsSpelled) : (start b).IsSpelled := ⟨trivial, hb⟩

namespace IsSpelled

variable {r : Reader}

theorem take (hr : r.IsSpelled) {token : Token} (htoken : token.IsSpelled) :
    (r.take token).IsSpelled := by
  have htaken : (r.builder.take token).1.IsSpelled :=
    (Likeness.Builders.take hr.builder htoken.tokens).builders
  unfold Reader.take
  split
  all_goals
    rename_i hresult
    rw [hresult] at htaken
  · exact ⟨trivial, htaken⟩
  · exact ⟨hr.lexer, htaken⟩
  · exact ⟨hr.lexer, htaken⟩

theorem foldl_take {tokens : List Token} (htokens : ∀ token ∈ tokens, token.IsSpelled)
    (hr : r.IsSpelled) : (tokens.foldl Reader.take r).IsSpelled := by
  induction tokens generalizing r with
  | nil => exact hr
  | cons token tokens ih =>
      have htaken : (r.take token).IsSpelled := hr.take (htokens token List.mem_cons_self)
      apply ih _ htaken
      intro other hother
      exact htokens other (List.mem_cons_of_mem _ hother)

theorem feed (hr : r.IsSpelled) (c : Char) : (r.feed c).IsSpelled := by
  unfold Reader.feed
  split
  · exact ⟨hr.lexer, hr.builder⟩
  · obtain ⟨hlexer, htokens⟩ :=
      Lexer.isSpelled_step (r.builder.current.vocabulary != .html) hr.lexer c
    exact foldl_take htokens ⟨hlexer, hr.builder⟩

theorem feedAll (hr : r.IsSpelled) (t : Text) : (r.feedAll t).IsSpelled := by
  induction t generalizing r with
  | nil => exact hr
  | cons c t ih => exact ih (hr.feed c)

theorem finish (hr : r.IsSpelled) : r.finish.IsSpelled := by
  have hend : ∀ token ∈ Lexer.finish r.lexer ++ [Token.done], token.IsSpelled := by
    intro token htoken
    rcases List.mem_append.mp htoken with hread | hdone
    · exact Lexer.isSpelled_finish hr.lexer token hread
    · rw [List.mem_singleton.mp hdone]
      trivial
  exact (foldl_take hend hr).builder.tree

end IsSpelled

/-- Whatever the text, the tree that it is read as is spelled such that it is read again. -/
theorem isSpelled_read {b : Builder} (hb : b.IsSpelled) (t : Text) : (read b t).IsSpelled :=
  ((isSpelled_start hb).feedAll _).finish

end Reader

/-! ## Finished content -/

/-- Setting attributes one after another brings in no other names and values. -/
theorem Attributes.isWritable_of_mem_ofList {as : List Attribute}
    (has : ∀ a ∈ as, a.IsWritable) : ∀ a ∈ (ofList as).toList, a.IsWritable := by
  intro a ha
  obtain ⟨b, hb, rfl⟩ := mem_ofList ha
  have hwritable := has b hb
  rw [Lexer.lower_eq_self_of_isAttributeName hwritable.isAttributeName_name]
  exact hwritable

namespace Forest

variable {forest : Forest}

theorem IsSpelled.nodesBefore (hforest : forest.IsSpelled) {later : List Node}
    (hlater : Node.AllSpelled Attribute.IsWritable later) :
    Node.AllSpelled Attribute.IsWritable (forest.nodesBefore later) := by
  induction forest generalizing later with
  | empty => exact hlater
  | element id vocabulary tag attributes children older ihChildren ihOlder =>
      obtain ⟨htag, hattributes, hchildren, holder⟩ := hforest
      have helement : (Node.element tag (.ofList attributes) (children.nodesBefore [])).IsSpelled
          Attribute.IsWritable :=
        ⟨htag, Attributes.isWritable_of_mem_ofList hattributes, ihChildren hchildren trivial⟩
      exact ihOlder holder ⟨helement, hlater⟩
  | text t older ih =>
      have htext : '\x00' ∉ t.reverse := by
        rw [List.mem_reverse]
        exact hforest.1
      exact ih hforest.2 ⟨htext, hlater⟩
  | comment t older ih => exact ih hforest.2 ⟨hforest.1, hlater⟩

theorem IsSpelled.nodes (hforest : forest.IsSpelled) :
    Node.AllSpelled Attribute.IsWritable forest.nodes :=
  hforest.nodesBefore trivial

theorem IsSpelled.childNamed? (hforest : forest.IsSpelled) {target : Tag}
    {attributes : List Attribute} {children : Forest}
    (hchild : forest.childNamed? target = some (attributes, children)) :
    children.IsSpelled := by
  induction forest with
  | empty => cases hchild
  | element id vocabulary tag attributes' children' older _ ih =>
      rcases Option.or_eq_some_iff.mp hchild with holder | ⟨-, hself⟩
      · exact ih hforest.2.2.2 holder
      · split at hself
        · cases hself
          exact hforest.2.2.1
        · cases hself
  | text t older ih => exact ih hforest.2 hchild
  | comment t older ih => exact ih hforest.2 hchild

end Forest

theorem Builder.isSpelled_content : Builder.content.IsSpelled := by
  have hdocument : Builder.document.IsSpelled := ⟨⟨rfl, trivial⟩, rfl, nofun, nofun⟩
  have hroot := Likeness.Builders.openRoot hdocument (Likeness.spelled.attributes_nil .html)
  exact hroot.update (fun d => { d with mode := .inBody, fragment := true }) (fun _ _ => rfl) rfl
    rfl

/-- Whatever markup a tree is parsed from, it can be written and read again. -/
theorem parseFragment_allSpelled (h : Text) :
    Node.AllSpelled Attribute.IsWritable (parseFragment h).children := by
  have htree := Reader.isSpelled_read Builder.isSpelled_content h
  unfold parseFragment
  split
  · rename_i hroot
    exact (htree.childNamed? hroot).nodes
  · trivial

end Letterpress
