/-
# Where elements of a tree come from

While one token is taken, elements may come into the tree that is built: the element of
a start tag, copies of formatting that is reopened, and elements that markup leaves out. A
`Supply` says which. `Builder.KeepsTo` says that everything in a tree was there before or
came from the supply, with the attributes that it came with: no step changes the attributes
of an element inside the root.

That holds only as long as no tag reaches the root, the head or the body by itself, which
the content of a body never lets it do: `KeepsTo` also says which rules may apply and
which elements may be open.
-/

import Letterpress.Markup.Tree.Rules

namespace Letterpress

/-! ## Elements in a forest -/

/-- An element of a tree by itself, without what is in it. -/
structure Held where
  id : Nat
  vocabulary : Vocabulary
  tag : Tag
  attributes : List Attribute
  deriving DecidableEq

namespace Forest

/-- The elements of a forest from the outside in, in document order. -/
def held : Forest → List Held
  | .empty => []
  | .element id vocabulary tag attributes children older =>
    older.held ++ ⟨id, vocabulary, tag, attributes⟩ :: children.held
  | .text _ older => older.held
  | .comment _ older => older.held

/-- All elements in the forest are such. -/
def Holds (p : Held → Prop) (f : Forest) : Prop := ∀ h ∈ f.held, p h

variable {p q : Held → Prop} {f g : Forest} {edit : Forest → Forest} {target id : Nat}
  {vocabulary : Vocabulary} {tag : Tag} {attributes : List Attribute} {children older : Forest}

theorem Holds.mono (hf : f.Holds p) (himp : ∀ h, p h → q h) : f.Holds q :=
  fun h hh => himp h (hf h hh)

@[simp]
theorem holds_empty : Holds p .empty := fun _ hh => absurd hh List.not_mem_nil

@[simp]
theorem holds_element : (Forest.element id vocabulary tag attributes children older).Holds p ↔
    p ⟨id, vocabulary, tag, attributes⟩ ∧ children.Holds p ∧ older.Holds p := by
  simp only [Holds, held, List.mem_append, List.mem_cons]
  constructor
  · intro hall
    exact ⟨hall _ (.inr (.inl rfl)), fun h hh => hall h (.inr (.inr hh)),
      fun h hh => hall h (.inl hh)⟩
  · rintro ⟨hself, hchildren, holder⟩ h (hh | rfl | hh)
    · exact holder h hh
    · exact hself
    · exact hchildren h hh

@[simp]
theorem holds_text {t : Text} : (Forest.text t older).Holds p ↔ older.Holds p := Iff.rfl

@[simp]
theorem holds_comment {t : Text} : (Forest.comment t older).Holds p ↔ older.Holds p := Iff.rfl

theorem Holds.pushChar (hf : f.Holds p) (c : Char) : (f.pushChar c).Holds p := by
  cases f with
  | text t older => exact hf
  | _ => exact hf

theorem Holds.onto (hf : f.Holds p) (hg : g.Holds p) : (f.onto g).Holds p := by
  induction f with
  | empty => exact hg
  | element id vocabulary tag attributes children older _ ih =>
      obtain ⟨hself, hchildren, holder⟩ := holds_element.mp hf
      exact holds_element.mpr ⟨hself, hchildren, ih holder⟩
  | text t older ih => exact ih hf
  | comment t older ih => exact ih hf

theorem Holds.editInside? (hedit : ∀ {f : Forest}, f.Holds p → (edit f).Holds p) (hf : f.Holds p)
    (hedited : f.editInside? target edit = some g) : g.Holds p := by
  induction f generalizing g with
  | empty => cases hedited
  | element id vocabulary tag attributes children older ihChildren ihOlder =>
      obtain ⟨hself, hchildren, holder⟩ := holds_element.mp hf
      rw [Forest.editInside?] at hedited
      split at hedited
      · cases hedited
        exact holds_element.mpr ⟨hself, hedit hchildren, holder⟩
      · split at hedited
        · rename_i changed hchanged
          cases hedited
          exact holds_element.mpr ⟨hself, ihChildren hchildren hchanged, holder⟩
        · obtain ⟨changed, hchanged, rfl⟩ := Option.map_eq_some_iff.mp hedited
          exact holds_element.mpr ⟨hself, hchildren, ihOlder holder hchanged⟩
  | text t older ih =>
      obtain ⟨changed, hchanged, rfl⟩ := Option.map_eq_some_iff.mp hedited
      exact holds_text.mpr (ih hf hchanged)
  | comment t older ih =>
      obtain ⟨changed, hchanged, rfl⟩ := Option.map_eq_some_iff.mp hedited
      exact holds_comment.mpr (ih hf hchanged)

theorem Holds.editBefore? (hedit : ∀ {f : Forest}, f.Holds p → (edit f).Holds p) (hf : f.Holds p)
    (hedited : f.editBefore? target edit = some g) : g.Holds p := by
  induction f generalizing g with
  | empty => cases hedited
  | element id vocabulary tag attributes children older ihChildren ihOlder =>
      obtain ⟨hself, hchildren, holder⟩ := holds_element.mp hf
      rw [Forest.editBefore?] at hedited
      split at hedited
      · cases hedited
        exact holds_element.mpr ⟨hself, hchildren, hedit holder⟩
      · split at hedited
        · rename_i changed hchanged
          cases hedited
          exact holds_element.mpr ⟨hself, ihChildren hchildren hchanged, holder⟩
        · obtain ⟨changed, hchanged, rfl⟩ := Option.map_eq_some_iff.mp hedited
          exact holds_element.mpr ⟨hself, hchildren, ihOlder holder hchanged⟩
  | text t older ih =>
      obtain ⟨changed, hchanged, rfl⟩ := Option.map_eq_some_iff.mp hedited
      exact holds_text.mpr (ih hf hchanged)
  | comment t older ih =>
      obtain ⟨changed, hchanged, rfl⟩ := Option.map_eq_some_iff.mp hedited
      exact holds_comment.mpr (ih hf hchanged)

theorem Holds.detach? (hf : f.Holds p) {part rest : Forest}
    (hdetached : f.detach? target = some (part, rest)) : part.Holds p ∧ rest.Holds p := by
  induction f generalizing part rest with
  | empty => cases hdetached
  | element id vocabulary tag attributes children older ihChildren ihOlder =>
      obtain ⟨hself, hchildren, holder⟩ := holds_element.mp hf
      rw [Forest.detach?] at hdetached
      split at hdetached
      · cases hdetached
        exact ⟨holds_element.mpr ⟨hself, hchildren, holds_empty⟩, holder⟩
      · split at hdetached
        · rename_i found changed hfound
          cases hdetached
          obtain ⟨hpart, hchanged⟩ := ihChildren hchildren hfound
          exact ⟨hpart, holds_element.mpr ⟨hself, hchanged, holder⟩⟩
        · obtain ⟨⟨found, changed⟩, hfound, hpair⟩ := Option.map_eq_some_iff.mp hdetached
          cases hpair
          obtain ⟨hpart, hchanged⟩ := ihOlder holder hfound
          exact ⟨hpart, holds_element.mpr ⟨hself, hchildren, hchanged⟩⟩
  | text t older ih =>
      obtain ⟨⟨found, changed⟩, hfound, hpair⟩ := Option.map_eq_some_iff.mp hdetached
      cases hpair
      obtain ⟨hpart, hchanged⟩ := ih hf hfound
      exact ⟨hpart, hchanged⟩
  | comment t older ih =>
      obtain ⟨⟨found, changed⟩, hfound, hpair⟩ := Option.map_eq_some_iff.mp hdetached
      cases hpair
      obtain ⟨hpart, hchanged⟩ := ih hf hfound
      exact ⟨hpart, hchanged⟩

/-! ## Trees with a root -/

/-- The tree is the root element, and all elements inside it are such. -/
def IsRooted (p : Held → Prop) (f : Forest) : Prop :=
  ∃ attributes inner, f = .element 0 .html .html attributes inner .empty ∧ inner.Holds p

theorem IsRooted.mono (hf : f.IsRooted p) (himp : ∀ h, p h → q h) : f.IsRooted q := by
  obtain ⟨attributes, inner, rfl, hinner⟩ := hf
  exact ⟨attributes, inner, rfl, hinner.mono himp⟩

theorem IsRooted.editInside? (hedit : ∀ {f : Forest}, f.Holds p → (edit f).Holds p)
    (hf : f.IsRooted p) : ((f.editInside? target edit).getD f).IsRooted p := by
  obtain ⟨attributes, inner, rfl, hinner⟩ := hf
  rw [Forest.editInside?]
  split
  · exact ⟨_, _, rfl, hedit hinner⟩
  · split
    · rename_i changed hchanged
      exact ⟨_, _, rfl, hinner.editInside? hedit hchanged⟩
    · exact ⟨_, _, rfl, hinner⟩

/-- Nothing goes before the root. -/
theorem IsRooted.editBefore? (hedit : ∀ {f : Forest}, f.Holds p → (edit f).Holds p)
    (hf : f.IsRooted p) (htarget : target ≠ 0) (hedited : f.editBefore? target edit = some g) :
    g.IsRooted p := by
  obtain ⟨attributes, inner, rfl, hinner⟩ := hf
  rw [Forest.editBefore?, if_neg htarget.symm] at hedited
  split at hedited
  · rename_i changed hchanged
    cases hedited
    exact ⟨_, _, rfl, hinner.editBefore? hedit hchanged⟩
  · cases hedited

/-- The root is not taken out. -/
theorem IsRooted.detach? (hf : f.IsRooted p) (htarget : target ≠ 0) {part rest : Forest}
    (hdetached : f.detach? target = some (part, rest)) : part.Holds p ∧ rest.IsRooted p := by
  obtain ⟨attributes, inner, rfl, hinner⟩ := hf
  rw [Forest.detach?, if_neg htarget.symm] at hdetached
  split at hdetached
  · rename_i found changed hfound
    cases hdetached
    obtain ⟨hpart, hchanged⟩ := hinner.detach? hfound
    exact ⟨hpart, _, _, rfl, hchanged⟩
  · cases hdetached

/-- More attributes for the root leave what is inside as it is. -/
theorem IsRooted.addAttributes (hf : f.IsRooted p) (more : List Attribute) :
    (f.addAttributes 0 more).IsRooted p := by
  obtain ⟨attributes, inner, rfl, hinner⟩ := hf
  rw [Forest.addAttributes, if_pos rfl]
  exact ⟨_, _, rfl, hinner⟩

end Forest

/-! ## What may be open -/

/-- The tags of the elements around all content. -/
def Tag.isOuter : Tag → Bool
  | .html | .head | .body => true
  | _ => false

/-- Start tags of elements that are reopened. -/
def StartGroup.isFormatting : StartGroup → Bool
  | .anchor | .formatting | .nobr => true
  | _ => false

/-- Start tags that the rules of a body take for elements of content. -/
def StartGroup.isInner : StartGroup → Bool
  | .root | .body | .misplaced => false
  | _ => true

theorem Tag.isOuter_eq_false {tag : Tag} (hgroup : tag.startGroup.isInner = true) :
    tag.isOuter = false := by
  unfold isOuter
  split
  · exact nomatch hgroup
  · exact nomatch hgroup
  · exact nomatch hgroup
  · rfl

theorem Tag.isOuter_eq_false_of_isFormatting {tag : Tag}
    (hformatting : tag.startGroup.isFormatting = true) : tag.isOuter = false := by
  apply isOuter_eq_false
  cases hgroup : tag.startGroup
  all_goals first | rfl | (rw [hgroup] at hformatting; cases hformatting)

/-- Whether the rules are those of content, with no text of a table at hand. -/
def Mode.isContent : Mode → Bool
  | .initial | .beforeHtml | .beforeHead | .inHead | .afterHead | .inTableText => false
  | _ => true

/-- An open element inside the root. -/
structure OpenElement.IsInner (e : OpenElement) : Prop where
  id_ne_zero : e.id ≠ 0
  not_isOuter : e.satisfies Tag.isOuter = false

/-- The root is open around all other elements, or nothing is. -/
structure Stack.IsContent (s : Stack) : Prop where
  isInner_or_eq : ∀ e ∈ s, e.IsInner ∨ e = Builder.root
  pairwise : s.Pairwise fun e _ => e.IsInner

namespace Stack.IsContent

variable {s u : Stack} {e : OpenElement}

theorem sublist (hs : s.IsContent) (hsub : u.Sublist s) : Stack.IsContent u :=
  ⟨fun e he => hs.isInner_or_eq e (hsub.subset he), hs.pairwise.sublist hsub⟩

theorem cons (hs : s.IsContent) (he : e.IsInner) : Stack.IsContent (e :: s) :=
  ⟨List.forall_mem_cons.mpr ⟨.inl he, hs.isInner_or_eq⟩,
    List.pairwise_cons.mpr ⟨fun _ _ => he, hs.pairwise⟩⟩

theorem append {inner : Stack} (hs : s.IsContent) (hinner : ∀ e ∈ inner, e.IsInner) :
    Stack.IsContent (inner ++ s) := by
  induction inner with
  | nil => exact hs
  | cons e inner ih =>
      obtain ⟨he, hrest⟩ := List.forall_mem_cons.mp hinner
      exact (ih hrest).cons he

/-- Nothing is open outside the root. -/
theorem eq_nil_of_root (hs : Stack.IsContent (Builder.root :: s)) : s = [] := by
  cases s with
  | nil => rfl
  | cons e s =>
      have hroot := (List.pairwise_cons.mp hs.pairwise).1 e List.mem_cons_self
      exact absurd rfl hroot.id_ne_zero

end Stack.IsContent

/-- An element that a tag other than the root's names is inside the root. -/
theorem OpenElement.isInner_of_is {e : OpenElement} {tag : Tag}
    (he : e.IsInner ∨ e = Builder.root) (htag : tag ≠ .html) (hnamed : e.is tag = true) :
    e.IsInner := by
  rcases he with he | rfl
  · exact he
  · have hroot : Tag.html = tag := by simpa [Builder.root, OpenElement.is] using hnamed
    exact absurd hroot.symm htag

namespace Formatting

theorem mem_replace {id : Nat} {entry f : Formatting} {fs : List Formatting}
    (hf : f ∈ replace id entry fs) : f = entry ∨ f ∈ fs := by
  obtain ⟨g, hg, hreplaced⟩ := List.mem_map.mp hf
  split at hreplaced
  · exact .inl hreplaced.symm
  · exact .inr (hreplaced ▸ hg)

theorem mem_insertAfter {id : Nat} {entry f : Formatting} {fs : List Formatting}
    (hf : f ∈ insertAfter id entry fs) : f = entry ∨ f ∈ fs := by
  induction fs with
  | nil => exact .inr hf
  | cons g fs ih =>
      rw [insertAfter] at hf
      split at hf
      · exact (List.mem_cons.mp hf)
      · rcases List.mem_cons.mp hf with rfl | hrest
        · exact .inr List.mem_cons_self
        · exact (ih hrest).imp_right (List.mem_cons_of_mem g)

end Formatting

/-! ## What may come into a tree -/

/-- What there was when something began, and what may be added. -/
structure Supply where
  /-- The number of the first element that is new. -/
  first : Nat
  /-- The elements that were there. -/
  old : Held → Prop
  /-- The names and attributes that formatting may be reopened with. -/
  entries : List (Tag × List Attribute)
  /-- What new elements may be. -/
  allows : Held → Prop

namespace Supply

/-- The element was there, or it is new and may be. -/
def Covers (p : Supply) (nextId : Nat) (h : Held) : Prop :=
  p.old h ∨ p.first ≤ h.id ∧ h.id < nextId ∧ p.allows h

/-- Formatting that the supply may reopen. -/
def Knows (p : Supply) : Formatting → Prop
  | .marker => True
  | .element _ tag attributes => (tag, attributes) ∈ p.entries

/-- The tags of elements that content is given where markup leaves them out. -/
def implied : List Tag := [.p, .br, .colgroup, .tbody, .tr]

theorem not_isOuter_of_implied {tag : Tag} (htag : tag ∈ implied) : tag.isOuter = false := by
  revert tag
  decide

/-- Formatting may be reopened. -/
structure Reopens (p : Supply) : Prop where
  copies : ∀ (id : Nat), ∀ entry ∈ p.entries, p.allows ⟨id, .html, entry.1, entry.2⟩
  isFormatting : ∀ entry ∈ p.entries, entry.1.startGroup.isFormatting = true

/-- All elements that no tag wrote may be added. -/
structure IsOpen (p : Supply) : Prop extends p.Reopens where
  implied : ∀ (id : Nat), ∀ tag ∈ implied, p.allows ⟨id, .html, tag, []⟩

variable {p : Supply} {h : Held} {nextId later : Nat} {tag : Tag} {attributes : List Attribute}

theorem Covers.mono (hcovers : p.Covers nextId h) (hle : nextId ≤ later) : p.Covers later h :=
  hcovers.imp_right fun ⟨hfirst, hlt, hallowed⟩ => ⟨hfirst, Nat.lt_of_lt_of_le hlt hle, hallowed⟩

/-- A copy of formatting is covered from the next number on. -/
theorem Reopens.covers_copy (hp : p.Reopens) (hentry : (tag, attributes) ∈ p.entries)
    (hle : p.first ≤ nextId) : p.Covers (nextId + 1) ⟨nextId, .html, tag, attributes⟩ :=
  .inr ⟨hle, Nat.lt_succ_self nextId, hp.copies nextId _ hentry⟩

theorem Reopens.isInner_copy (hp : p.Reopens) (hentry : (tag, attributes) ∈ p.entries)
    (hpos : 0 < p.first) (hle : p.first ≤ nextId) :
    OpenElement.IsInner ⟨nextId, .html, tag, false⟩ where
  id_ne_zero := Nat.ne_of_gt (Nat.lt_of_lt_of_le hpos hle)
  not_isOuter := Tag.isOuter_eq_false_of_isFormatting (hp.isFormatting _ hentry)

end Supply

namespace Builder

/-- The tree is a root with nothing in it but what the supply covers, and nothing but content is
open or can be read. -/
structure KeepsTo (p : Supply) (b : Builder) : Prop where
  fragment_eq : b.fragment = true
  first_pos : 0 < p.first
  first_le : p.first ≤ b.nextId
  tree : b.tree.IsRooted (p.Covers b.nextId)
  stack : b.stack.IsContent
  formatting : ∀ entry ∈ b.formatting, p.Knows entry
  mode : b.mode.isContent = true
  returnMode : b.returnMode.isContent = true
  templateModes : ∀ mode ∈ b.templateModes, mode.isContent = true

namespace KeepsTo

variable {p q : Supply} {b : Builder} {edit : Forest → Forest} {s : Stack} {tag : Tag}

theorem mono (h : b.KeepsTo p) (hpos : 0 < q.first) (hle : q.first ≤ b.nextId)
    (hcovers : ∀ x, p.Covers b.nextId x → q.Covers b.nextId x)
    (hentries : ∀ entry ∈ p.entries, entry ∈ q.entries) : b.KeepsTo q where
  fragment_eq := h.fragment_eq
  first_pos := hpos
  first_le := hle
  tree := h.tree.mono hcovers
  stack := h.stack
  formatting entry hentry := by
    have hknown := h.formatting entry hentry
    cases entry with
    | marker => trivial
    | element id tag attributes => exact hentries _ hknown
  mode := h.mode
  returnMode := h.returnMode
  templateModes := h.templateModes

/-! ### Closing elements and choosing rules -/

theorem withStack (h : b.KeepsTo p) (hs : s.IsContent) : KeepsTo p { b with stack := s } :=
  { h with stack := hs }

/-- Elements may always be closed. -/
theorem onStack (h : b.KeepsTo p) {change : Stack → Stack}
    (hchange : (change b.stack).Sublist b.stack) : (b.onStack change).KeepsTo p :=
  h.withStack (h.stack.sublist hchange)

theorem setMode (h : b.KeepsTo p) (mode : Mode) (hmode : mode.isContent = true) :
    (b.setMode mode).KeepsTo p :=
  { h with mode := hmode }

theorem close (h : b.KeepsTo p) : b.close.KeepsTo p := h.onStack (List.tail_sublist _)

theorem closeIf (h : b.KeepsTo p) (tag : Tag) : (b.closeIf tag).KeepsTo p := by
  unfold Builder.closeIf
  split
  · exact h.close
  · exact h

theorem sublist_closeThrough (holds : OpenElement → Bool) (s : Stack) :
    (s.closeThrough holds).Sublist s :=
  (List.tail_sublist _).trans (List.dropWhile_sublist _)

theorem closeThrough (h : b.KeepsTo p) (tag : Tag) : (b.closeThrough tag).KeepsTo p :=
  h.onStack (sublist_closeThrough _ _)

theorem closeTo (h : b.KeepsTo p) (holds : OpenElement → Bool) : (b.closeTo holds).KeepsTo p :=
  h.onStack (List.dropWhile_sublist _)

theorem closeImplied (h : b.KeepsTo p) : b.closeImplied.KeepsTo p :=
  h.onStack (List.dropWhile_sublist _)

theorem closeImpliedBut (h : b.KeepsTo p) (tag : Tag) : (b.closeImpliedBut tag).KeepsTo p :=
  h.onStack (List.dropWhile_sublist _)

theorem closeParagraph (h : b.KeepsTo p) : b.closeParagraph.KeepsTo p := by
  unfold Builder.closeParagraph
  split
  · exact (h.closeImpliedBut .p).closeThrough .p
  · exact h

theorem forbidFrames (h : b.KeepsTo p) : b.forbidFrames.KeepsTo p := { h with }

theorem mark (h : b.KeepsTo p) : b.mark.KeepsTo p :=
  { h with formatting := List.forall_mem_cons.mpr ⟨trivial, h.formatting⟩ }

/-- Formatting may always be forgotten. -/
theorem withFormatting (h : b.KeepsTo p) {formatting : List Formatting}
    (hsub : formatting.Sublist b.formatting) : KeepsTo p { b with formatting } :=
  { h with formatting := fun entry hentry => h.formatting entry (hsub.subset hentry) }

theorem clearToMarker (h : b.KeepsTo p) : b.clearToMarker.KeepsTo p :=
  h.withFormatting ((List.tail_sublist _).trans (List.dropWhile_sublist _))

/-- The body of a document is not open. -/
theorem body?_eq_none (h : b.KeepsTo p) : b.body? = none := by
  unfold Builder.body?
  split
  · rename_i first e rest hreverse
    have hmem : e ∈ b.stack := List.mem_reverse.mp (hreverse ▸ by simp)
    split
    · rename_i hbody
      have hinner := OpenElement.isInner_of_is (h.stack.isInner_or_eq e hmem) (by decide) hbody
      have houter := hinner.not_isOuter
      simp only [OpenElement.is, Bool.and_eq_true, beq_iff_eq] at hbody
      simp [OpenElement.satisfies, hbody, Tag.isOuter] at houter
    · rfl
  · rfl

theorem isContent_selectMode (s : Stack) : (modeOfStack.selectMode s).isContent = true := by
  induction s with
  | nil => rfl
  | cons e s ih =>
      rw [modeOfStack.selectMode]
      split
      · rfl
      · split
        · rfl
        · exact ih

/-- The rules that content calls for are those of content. -/
theorem isContent_modeOfStack (h : b.KeepsTo p) : b.modeOfStack.isContent = true := by
  have hgo (s : Stack) (hs : s.IsContent) : (modeOfStack.go b s).isContent = true := by
    induction s with
    | nil => rfl
    | cons e outer ih =>
        have hrest := ih (hs.sublist (List.sublist_cons_self e outer))
        rcases hs.isInner_or_eq e List.mem_cons_self with he | rfl
        · rw [modeOfStack.go]
          split
          · exact hrest
          · rename_i hhtml
            have hvocabulary : e.vocabulary = .html := by simpa using hhtml
            have houter : e.tag.isOuter = false := by
              simpa [OpenElement.satisfies, hvocabulary] using he.not_isOuter
            split
            case h_1 => exact isContent_selectMode outer
            case h_2 | h_3 =>
              split
              · exact hrest
              · rfl
            case h_11 =>
              cases hmodes : b.templateModes with
              | nil => rfl
              | cons mode modes =>
                  exact h.templateModes mode (hmodes ▸ List.mem_cons_self)
            case h_12 | h_13 | h_14 =>
              rename_i htag
              rw [htag] at houter
              cases houter
            case h_15 => exact hrest
            all_goals rfl
        · obtain rfl := hs.eq_nil_of_root
          simp [modeOfStack.go, Builder.root, h.fragment_eq, Mode.isContent]
  exact hgo b.stack h.stack

theorem resetMode (h : b.KeepsTo p) : b.resetMode.KeepsTo p :=
  h.setMode b.modeOfStack h.isContent_modeOfStack

/-! ### Adding to the tree -/

/-- What a table displaces goes before an element inside the root. -/
theorem table_ne_zero (hs : s.IsContent) {table instead : Nat}
    (hplace : fosterPlace s = .beforeTable table instead) : table ≠ 0 := by
  induction s with
  | nil => cases hplace
  | cons e outer ih =>
      rw [fosterPlace] at hplace
      split at hplace
      · cases hplace
      · split at hplace
        · rename_i htable
          cases hplace
          exact (OpenElement.isInner_of_is (hs.isInner_or_eq e List.mem_cons_self) (by decide)
            htable).id_ne_zero
        · exact ih (hs.sublist (List.sublist_cons_self e outer)) hplace

/-- An edit at the place for content changes the tree inside the root. -/
theorem exists_editAt_eq (h : b.KeepsTo p) (target : OpenElement) {holds : Held → Prop}
    (edit : Forest → Forest) (htree : b.tree.IsRooted holds)
    (hedit : ∀ {f : Forest}, f.Holds holds → (edit f).Holds holds) :
    ∃ tree, b.editAt (b.placeFor target) edit = { b with tree } ∧ tree.IsRooted holds := by
  unfold Builder.editAt
  split
  · exact ⟨_, rfl, htree.editInside? hedit⟩
  · rename_i table instead hplace
    have htable : table ≠ 0 := by
      unfold placeFor at hplace
      split at hplace
      · exact table_ne_zero h.stack hplace
      · cases hplace
    split
    · rename_i tree hedited
      exact ⟨_, rfl, htree.editBefore? hedit htable hedited⟩
    · exact ⟨_, rfl, htree.editInside? hedit⟩

theorem editAt (h : b.KeepsTo p) (target : OpenElement)
    (hedit : ∀ {f : Forest}, f.Holds (p.Covers b.nextId) → (edit f).Holds (p.Covers b.nextId)) :
    (b.editAt (b.placeFor target) edit).KeepsTo p := by
  obtain ⟨tree, heq, htree⟩ := h.exists_editAt_eq target edit h.tree hedit
  rw [heq]
  exact { h with tree := htree }

theorem addChar (h : b.KeepsTo p) (c : Char) : (b.addChar c).KeepsTo p :=
  h.editAt b.current fun hf => hf.pushChar c

theorem addComment (h : b.KeepsTo p) (content : Text) : (b.addComment content).KeepsTo p :=
  h.editAt b.current fun hf => hf

/-- An element that may be added is added and opened. -/
theorem openIn (h : b.KeepsTo p) {vocabulary : Vocabulary} {attributes : List Attribute}
    (hallows : p.allows ⟨b.nextId, vocabulary, tag, attributes⟩)
    (hinner : vocabulary = .html → tag.isOuter = false) :
    (b.openIn vocabulary tag attributes).KeepsTo p := by
  have hnew : p.Covers (b.nextId + 1) ⟨b.nextId, vocabulary, tag, attributes⟩ :=
    .inr ⟨h.first_le, Nat.lt_succ_self _, hallows⟩
  obtain ⟨tree, heq, htree⟩ := h.exists_editAt_eq b.current
    (.element b.nextId vocabulary tag attributes .empty ·)
    (h.tree.mono fun _ hx => hx.mono (Nat.le_succ _))
    fun hf => Forest.holds_element.mpr ⟨hnew, Forest.holds_empty, hf⟩
  have hopened : OpenElement.IsInner ⟨b.nextId, vocabulary, tag,
      annotatesMarkup vocabulary tag attributes⟩ := by
    refine ⟨Nat.ne_of_gt (Nat.lt_of_lt_of_le h.first_pos h.first_le), ?_⟩
    cases hhtml : vocabulary == .html with
    | false => simp [OpenElement.satisfies, hhtml]
    | true => simp [OpenElement.satisfies, hinner (beq_iff_eq.mp hhtml)]
  unfold Builder.openIn Builder.add
  rw [heq]
  exact { h with
    first_le := Nat.le_succ_of_le h.first_le
    tree := htree
    stack := h.stack.cons hopened }

/-- An element that markup leaves out is added and opened. -/
theorem openImplied (h : b.KeepsTo p) (hallows : p.allows ⟨b.nextId, .html, tag, []⟩)
    (hinner : tag.isOuter = false) : (b.openImplied tag).KeepsTo p :=
  h.openIn hallows fun _ => hinner

/-! ### Formatting -/

/-- Formatting that the supply knows may be reopened. -/
theorem reopen (h : b.KeepsTo p) (hp : p.Reopens) {entry : Formatting} (hknown : p.Knows entry) :
    (b.reopen entry).KeepsTo p := by
  cases entry with
  | marker => exact h
  | element id tag attributes =>
      have hopened := h.openIn (hp.copies b.nextId _ hknown) fun _ =>
        Tag.isOuter_eq_false_of_isFormatting (hp.isFormatting _ hknown)
      exact { hopened with
        formatting := by
          intro f hf
          rcases Formatting.mem_replace hf with rfl | hold
          · exact hknown
          · exact hopened.formatting f hold }

theorem reopenFormatting (h : b.KeepsTo p) (hp : p.Reopens) : b.reopenFormatting.KeepsTo p := by
  have hfold (entries : List Formatting) (hknown : ∀ entry ∈ entries, p.Knows entry) :
      ∀ {b : Builder}, b.KeepsTo p → (entries.foldl Builder.reopen b).KeepsTo p := by
    induction entries with
    | nil => exact fun h => h
    | cons entry entries ih =>
        intro b h
        obtain ⟨hfirst, hrest⟩ := List.forall_mem_cons.mp hknown
        exact ih hrest (h.reopen hp hfirst)
  refine hfold _ ?_ h
  intro entry hentry
  exact h.formatting entry ((List.takeWhile_sublist _).subset (List.mem_reverse.mp hentry))

theorem endElement (h : b.KeepsTo p) (tag : Tag) : (b.endElement tag).KeepsTo p := by
  have hsub {s rest : Stack} (hgo : endElement.go tag s = some rest) : rest.Sublist s := by
    induction s with
    | nil => cases hgo
    | cons e outer ih =>
        rw [endElement.go] at hgo
        split at hgo
        · cases hgo
          exact List.sublist_cons_self _ _
        · split at hgo
          · cases hgo
          · exact (ih hgo).trans (List.sublist_cons_self e outer)
  unfold Builder.endElement
  split
  · exact h
  · rename_i rest hgo
    exact h.withStack (h.stack.sublist (hsub hgo))

end KeepsTo

/-! ## Splitting formatting around a block -/

/-- What splitting has done so far draws on the supply, too. -/
structure Splitting.KeepsTo (p : Supply) (b : Builder) (s : Splitting) : Prop where
  nextId_le : b.nextId ≤ s.nextId
  formatting : ∀ entry ∈ s.formatting, p.Knows entry
  kept : ∀ e ∈ s.kept, e.IsInner
  part : s.part.Holds (p.Covers s.nextId)

namespace Splitting.KeepsTo

variable {p : Supply} {b : Builder} {s : Splitting}

theorem step (hs : s.KeepsTo p b) (h : b.KeepsTo p) (hp : p.Reopens) (count : Nat)
    (e : OpenElement) : (s.step count e).KeepsTo p b := by
  unfold Splitting.step
  split
  · rename_i found tag attributes hfound
    have hknown := hs.formatting _ (List.mem_of_find?_eq_some hfound)
    have hfirst := Nat.le_trans h.first_le hs.nextId_le
    split
    · exact { hs with formatting := fun f hf => hs.formatting f (List.mem_of_mem_eraseP hf) }
    · refine ⟨Nat.le_succ_of_le hs.nextId_le, ?_, ?_, ?_⟩
      · intro f hf
        rcases Formatting.mem_replace hf with rfl | hold
        · exact hknown
        · exact hs.formatting f hold
      · exact List.forall_mem_cons.mpr ⟨hp.isInner_copy hknown h.first_pos hfirst, hs.kept⟩
      · exact Forest.holds_element.mpr ⟨hp.covers_copy hknown hfirst,
          hs.part.mono fun _ hx => hx.mono (Nat.le_succ _), Forest.holds_empty⟩
  · exact hs

theorem run (hs : s.KeepsTo p b) (h : b.KeepsTo p) (hp : p.Reopens) (count : Nat)
    (between : Stack) : (s.run count between).KeepsTo p b := by
  induction between generalizing s count with
  | nil => exact hs
  | cons e outer ih => exact ih (hs.step h hp (count + 1) e) (count + 1)

end Splitting.KeepsTo

namespace KeepsTo

variable {p : Supply} {b : Builder} {tag : Tag} {id : Nat} {attributes : List Attribute}
  {inner outer : Stack} {block : OpenElement}

/-- Splitting formatting adds copies of it only. -/
theorem splitAround (h : b.KeepsTo p) (hp : p.Reopens) (hentry : (tag, attributes) ∈ p.entries)
    (hinner : ∀ e ∈ inner, e.IsInner) (hblock : block.IsInner) (houter : outer.IsContent)
    (between : Stack) : (b.splitAround id tag attributes inner block between outer).KeepsTo p := by
  unfold Builder.splitAround
  split
  · exact h
  · rename_i part tree hdetached
    obtain ⟨hpart, htree⟩ := h.tree.detach? hblock.id_ne_zero hdetached
    have hstart : Splitting.KeepsTo p b ⟨b.formatting, b.nextId, [], part, none⟩ :=
      ⟨Nat.le_refl _, h.formatting, by simp, hpart⟩
    have hrun := hstart.run h hp 0 between
    generalize Splitting.run ⟨b.formatting, b.nextId, [], part, none⟩ 0 between = s at hrun
    have hfirst := Nat.le_trans h.first_le hrun.nextId_le
    have hlater {x : Held} (hx : p.Covers s.nextId x) : p.Covers (s.nextId + 1) x :=
      hx.mono (Nat.le_succ _)
    have hcopy := hp.covers_copy hentry hfirst
    -- The block comes back with the copies around it, and the last copy goes inside it.
    have hwithout : KeepsTo p { b with tree } := { h with tree := htree }
    obtain ⟨moved, heq, hmoved⟩ := hwithout.exists_editAt_eq (outer.head?.getD root)
      s.part.onto (htree.mono fun _ hx => hlater (hx.mono hrun.nextId_le))
      fun hf => (hrun.part.mono fun _ => hlater).onto hf
    have hwrap {f : Forest} (hf : f.Holds (p.Covers (s.nextId + 1))) :
        (Forest.element s.nextId .html tag attributes f .empty).Holds (p.Covers (s.nextId + 1)) :=
      Forest.holds_element.mpr ⟨hcopy, hf, Forest.holds_empty⟩
    have hopen : Stack.IsContent (inner ++ ⟨s.nextId, .html, tag, false⟩ :: block ::
        (s.kept.reverse ++ outer)) := by
      have hreversed : ∀ e ∈ s.kept.reverse, e.IsInner :=
        fun e he => hrun.kept e (List.mem_reverse.mp he)
      have hkept := houter.append hreversed
      exact ((hkept.cons hblock).cons (hp.isInner_copy hentry h.first_pos hfirst)).append hinner
    dsimp only
    rw [attach, heq]
    exact { h with
      first_le := Nat.le_succ_of_le hfirst
      tree := hmoved.editInside? hwrap
      stack := hopen
      formatting := by
        intro f hf
        split at hf
        · rcases Formatting.mem_replace hf with rfl | hold
          · exact hentry
          · exact hrun.formatting f hold
        · rcases Formatting.mem_insertAfter (List.mem_of_mem_eraseP hf) with rfl | hold
          · exact hentry
          · exact hrun.formatting f hold }

/-- What is open inside an open element is inside the root. -/
theorem isInner_of_mem_takeWhile {s : Stack} (hs : s.IsContent) (isIt : OpenElement → Bool)
    (hsome : s.any isIt = true) : ∀ e ∈ s.takeWhile (fun e => !isIt e), e.IsInner := by
  induction s with
  | nil => simp
  | cons first s ih =>
      rw [List.takeWhile_cons]
      split
      · rename_i hnot
        have hfirst : isIt first = false := by simpa using hnot
        have hrest : s.any isIt = true := by simpa [hfirst] using hsome
        obtain ⟨e, he, -⟩ := List.any_eq_true.mp hrest
        refine List.forall_mem_cons.mpr ⟨(List.pairwise_cons.mp hs.pairwise).1 e he, ?_⟩
        exact ih (hs.sublist (List.sublist_cons_self _ _)) hrest
      · simp

theorem endFormattingOnce (h : b.KeepsTo p) (hp : p.Reopens) (tag : Tag) :
    (b.endFormattingOnce tag).1.KeepsTo p := by
  unfold Builder.endFormattingOnce
  split
  · rename_i id found attributes hfound
    have hmem := (List.takeWhile_sublist _).subset (List.mem_of_find?_eq_some hfound)
    have hentry := h.formatting _ hmem
    have hdropped : (Formatting.drop id b.formatting).Sublist b.formatting := List.eraseP_sublist
    dsimp only
    split
    · exact h.withFormatting hdropped
    · split
      · exact h
      · rename_i hopen _
        have hinside := isInner_of_mem_takeWhile h.stack (fun e => e.id == id)
          (by simpa using hopen)
        have houter := h.stack.sublist (sublist_closeThrough (fun e => e.id == id) b.stack)
        split
        · exact (h.withStack houter).withFormatting hdropped
        · rename_i block inner hblocks
          have hsub : ∀ e ∈ block :: inner, e.IsInner := by
            intro e he
            rw [← hblocks] at he
            exact hinside e (List.mem_reverse.mp ((List.dropWhile_sublist _).subset he))
          obtain ⟨hblock, hinner⟩ := List.forall_mem_cons.mp hsub
          exact h.splitAround hp hentry (fun e he => hinner e (List.mem_reverse.mp he)) hblock
            houter _
  · exact h.endElement tag

theorem endFormattingRounds (h : b.KeepsTo p) (hp : p.Reopens) (rounds : Nat) (tag : Tag) :
    (endFormattingRounds rounds b tag).KeepsTo p := by
  induction rounds generalizing b with
  | zero => exact h
  | succ rounds ih =>
      have honce := h.endFormattingOnce hp tag
      unfold Builder.endFormattingRounds
      split
      · rename_i ended heq
        rw [heq] at honce
        exact honce
      · rename_i split heq
        rw [heq] at honce
        exact ih honce

theorem endFormatting (h : b.KeepsTo p) (hp : p.Reopens) (tag : Tag) :
    (b.endFormatting tag).KeepsTo p := by
  unfold Builder.endFormatting
  dsimp only
  split
  · exact h.close
  · exact h.endFormattingRounds hp 8 tag

theorem endOpenAnchor (h : b.KeepsTo p) (hp : p.Reopens) : b.endOpenAnchor.KeepsTo p := by
  unfold Builder.endOpenAnchor
  split
  · have hended := h.endFormatting hp .a
    exact (hended.withFormatting List.eraseP_sublist).withStack
      (hended.stack.sublist List.filter_sublist)
  · exact h

end KeepsTo

end Builder

end Letterpress
