/-
# Likeness of two readings

What two readings of markup may differ in without the rules of tree construction
treating them differently. A `Likeness` says which trees, attributes, names, comments
and characters count as alike, with the laws that the elementary edits of a tree need.
Two states are alike if their trees are and they agree in all else
(`Likeness.Builders`). Here the elementary steps keep states alike: adding, opening
and closing, moving parts of the tree, and splitting formatting around a block.

A property that every rule preserves is the case where the two readings are the same:
what counts as alike is then what is equal and has the property.
-/

import Mathlib.Data.Option.Basic
import Letterpress.Markup.Tree.Rules
import Letterpress.Proofs.Markup.Spelling

namespace Letterpress

/-- The groups of start tags whose attributes a rule looks at: formatting is opened again with its
attributes, and an input may be hidden. -/
def StartGroup.isReadWithAttributes : StartGroup → Bool
  | .formatting | .anchor | .nobr | .input => true
  | _ => false

/-- Tags whose attributes a rule looks at. An annotation may hold markup. -/
def Tag.isReadWithAttributes (tag : Tag) : Bool :=
  tag == .annotationXml || tag.startGroup.isReadWithAttributes

theorem Tag.isReadWithAttributes_of_startGroup {tag : Tag}
    (hgroup : tag.startGroup.isReadWithAttributes = true) : tag.isReadWithAttributes = true := by
  rw [isReadWithAttributes, hgroup, Bool.or_true]

/-- What counts as alike in two readings. -/
structure Likeness where
  trees : Forest → Forest → Prop
  /-- Attributes of an element with the tag. -/
  attributes : Tag → List Attribute → List Attribute → Prop
  /-- The names that elements may have. -/
  names : Tag → Prop
  comments : Text → Text → Prop
  /-- The characters that text may have. -/
  chars : Char → Prop
  trees_empty : trees .empty .empty
  trees_pushChar {f g : Forest} {c : Char} (hc : chars c) (hfg : trees f g) :
    trees (f.pushChar c) (g.pushChar c)
  trees_comment {f g : Forest} {x y : Text} (hxy : comments x y) (hfg : trees f g) :
    trees (.comment x f) (.comment y g)
  trees_element {f g p q : Forest} {tag : Tag} {as bs : List Attribute} (id : Nat)
    (vocabulary : Vocabulary) (hname : names tag) (has : attributes tag as bs) (hpq : trees p q)
    (hfg : trees f g) :
    trees (.element id vocabulary tag as p f) (.element id vocabulary tag bs q g)
  trees_onto {f g p q : Forest} (hpq : trees p q) (hfg : trees f g) :
    trees (p.onto f) (q.onto g)
  trees_editInside {f g : Forest} {edit edit' : Forest → Forest} (target : Nat)
    (hedit : ∀ {f g}, trees f g → trees (edit f) (edit' g)) (hfg : trees f g) :
    Option.Rel trees (f.editInside? target edit) (g.editInside? target edit')
  trees_editBefore {f g : Forest} {edit edit' : Forest → Forest} (target : Nat)
    (hedit : ∀ {f g}, trees f g → trees (edit f) (edit' g)) (hfg : trees f g) :
    Option.Rel trees (f.editBefore? target edit) (g.editBefore? target edit')
  trees_addAttributes {f g : Forest} {tag : Tag} {as bs : List Attribute} (target : Nat)
    (has : attributes tag as bs) (hfg : trees f g) :
    trees (f.addAttributes target as) (g.addAttributes target bs)
  trees_detach {f g : Forest} (target : Nat) (hfg : trees f g) :
    Option.Rel (fun x y => trees x.1 y.1 ∧ trees x.2 y.2) (f.detach? target) (g.detach? target)
  attributes_nil (tag : Tag) : attributes tag [] []
  attributes_localName {tag : Tag} {as bs : List Attribute} (has : attributes tag as bs) :
    attributes tag (as.map fun a => { a with name := Builder.localName a.name })
      (bs.map fun a => { a with name := Builder.localName a.name })
  attributes_image {as bs : List Attribute} (has : attributes .image as bs) :
    attributes .img as bs
  eq_of_attributes {tag : Tag} {as bs : List Attribute}
    (htag : tag.isReadWithAttributes = true) (has : attributes tag as bs) : as = bs
  names_supplied {tag : Tag} (htag : tag ∈ Tag.supplied) : names tag
  chars_replacement : chars '\uFFFD'

namespace Likeness

/-! ## Tokens and states -/

/-- Start tags that are alike. -/
structure Starts (L : Likeness) (t u : StartTag) : Prop where
  tag_eq : u.tag = t.tag
  selfClosing_eq : u.selfClosing = t.selfClosing
  name : L.names t.tag
  attributes : L.attributes t.tag t.attributes u.attributes

/-- Tokens that are alike. -/
inductive Tokens (L : Likeness) : Token → Token → Prop
  | doctype (d : Doctype) : Tokens L (.doctype d) (.doctype d)
  | startTag {t u : StartTag} (ht : L.Starts t u) : Tokens L (.startTag t) (.startTag u)
  | endTag (tag : Tag) : Tokens L (.endTag tag) (.endTag tag)
  | comment {x y : Text} (hxy : L.comments x y) : Tokens L (.comment x) (.comment y)
  | char {c : Char} (hc : L.chars c) : Tokens L (.char c) (.char c)
  | null : Tokens L .null .null
  | flaw : Tokens L .flaw .flaw
  | done : Tokens L .done .done

/-- An entry whose element may be opened again in both readings. -/
def Entry (L : Likeness) : Formatting → Prop
  | .marker => True
  | .element _ tag attributes => L.names tag ∧ L.attributes tag attributes attributes

/-- States that are alike: the trees are, and nothing else differs. -/
structure Builders (L : Likeness) (b c : Builder) : Prop where
  trees : L.trees b.tree c.tree
  rest_eq : c = { b with tree := c.tree }
  formatting : ∀ entry ∈ b.formatting, L.Entry entry
  tableText : ∀ c ∈ b.tableText, L.chars c

/-- Edits that turn trees that are alike into such trees. -/
def Edits (L : Likeness) (edit edit' : Forest → Forest) : Prop :=
  ∀ {f g : Forest}, L.trees f g → L.trees (edit f) (edit' g)

variable {L : Likeness} {b c : Builder} {t u : StartTag} {tag : Tag} {as bs : List Attribute}

/-! ## Formatting that may be opened again -/

section Formatting

variable {fs : List Formatting} {entry : Formatting}

theorem entry_makeRoom (hfs : ∀ f ∈ fs, L.Entry f) (t : StartTag) :
    ∀ f ∈ Formatting.makeRoom t fs, L.Entry f := by
  by_cases hfull : 3 ≤ (Formatting.sinceMarker fs).countP (Formatting.isWrittenBy t)
  · have hroom : Formatting.makeRoom t fs = ((Formatting.sinceMarker fs).reverse.eraseP
        (Formatting.isWrittenBy t)).reverse ++ fs.drop (Formatting.sinceMarker fs).length :=
      if_pos hfull
    rw [hroom]
    intro f hf
    rcases List.mem_append.mp hf with hrecent | hold
    · have hmem := List.mem_of_mem_eraseP (List.mem_reverse.mp hrecent)
      exact hfs f ((List.takeWhile_sublist _).subset (List.mem_reverse.mp hmem))
    · exact hfs f (List.mem_of_mem_drop hold)
  · have hroom : Formatting.makeRoom t fs = fs := if_neg hfull
    rw [hroom]
    exact hfs

theorem entry_replace (hfs : ∀ f ∈ fs, L.Entry f) (hentry : L.Entry entry) (id : Nat) :
    ∀ f ∈ Formatting.replace id entry fs, L.Entry f := by
  intro f hf
  obtain ⟨g, hg, rfl⟩ := List.mem_map.mp hf
  split
  · exact hentry
  · exact hfs g hg

theorem entry_insertAfter (hfs : ∀ f ∈ fs, L.Entry f) (hentry : L.Entry entry) (id : Nat) :
    ∀ f ∈ Formatting.insertAfter id entry fs, L.Entry f := by
  induction fs with
  | nil => exact hfs
  | cons f fs ih =>
      obtain ⟨hfirst, hrest⟩ := List.forall_mem_cons.mp hfs
      rw [Formatting.insertAfter]
      split
      · exact List.forall_mem_cons.mpr ⟨hentry, hfs⟩
      · exact List.forall_mem_cons.mpr ⟨hfirst, ih hrest⟩

theorem entry_drop (hfs : ∀ f ∈ fs, L.Entry f) (id : Nat) :
    ∀ f ∈ Formatting.drop id fs, L.Entry f :=
  fun f hf => hfs f (List.eraseP_sublist.subset hf)

end Formatting

/-- Start tags whose attributes a rule looks at are the same. -/
theorem Starts.eq_of_isReadWithAttributes (ht : L.Starts t u)
    (htag : t.tag.isReadWithAttributes = true) : u = t := by
  have hattributes := L.eq_of_attributes htag ht.attributes
  obtain ⟨htags, hclosing, -, -⟩ := ht
  cases t with
  | mk tag attributes selfClosing =>
      cases u with
      | mk tag' attributes' selfClosing' =>
          dsimp only at htags hclosing hattributes
          rw [htags, hclosing, hattributes]

theorem getD_of_rel {α : Type} {R : α → α → Prop} {x y : Option α} {d e : α}
    (hxy : Option.Rel R x y) (hde : R d e) : R (x.getD d) (y.getD e) := by
  cases hxy with
  | some hvalues => exact hvalues
  | none => exact hde

theorem map_of_rel {α β : Type} {R : α → α → Prop} {S : β → β → Prop} {x y : Option α}
    {f g : α → β} (hxy : Option.Rel R x y) (hfg : ∀ a b, R a b → S (f a) (g b)) :
    Option.Rel S (x.map f) (y.map g) := by
  cases hxy with
  | some hvalues => exact .some (hfg _ _ hvalues)
  | none => exact .none

theorem annotatesMarkup_eq (has : L.attributes tag as bs) (vocabulary : Vocabulary) :
    Builder.annotatesMarkup vocabulary tag bs = Builder.annotatesMarkup vocabulary tag as := by
  by_cases htag : tag = .annotationXml
  · rw [L.eq_of_attributes (by rw [htag]; rfl) has]
  · have hother : (tag == Tag.annotationXml) = false := beq_eq_false_iff_ne.mpr htag
    rw [Builder.annotatesMarkup, Builder.annotatesMarkup, hother, Bool.and_false, Bool.false_and,
      Bool.false_and]

namespace Builders

/-! ## What states that are alike agree in -/

section Agreement

variable (h : L.Builders b c)
include h

theorem observe {α : Type} (look : Builder → α)
    (hlook : ∀ (b : Builder) (tree : Forest), look { b with tree := tree } = look b) :
    look c = look b :=
  (congrArg look h.rest_eq).trans (hlook b c.tree)

theorem stack_eq : c.stack = b.stack :=
  h.observe Builder.stack fun _ _ => rfl

theorem nextId_eq : c.nextId = b.nextId :=
  h.observe Builder.nextId fun _ _ => rfl

theorem formatting_eq : c.formatting = b.formatting :=
  h.observe Builder.formatting fun _ _ => rfl

theorem mode_eq : c.mode = b.mode :=
  h.observe Builder.mode fun _ _ => rfl

theorem returnMode_eq : c.returnMode = b.returnMode :=
  h.observe Builder.returnMode fun _ _ => rfl

theorem templateModes_eq : c.templateModes = b.templateModes :=
  h.observe Builder.templateModes fun _ _ => rfl

theorem head_eq : c.head = b.head :=
  h.observe Builder.head fun _ _ => rfl

theorem form_eq : c.form = b.form :=
  h.observe Builder.form fun _ _ => rfl

theorem framesAllowed_eq : c.framesAllowed = b.framesAllowed :=
  h.observe Builder.framesAllowed fun _ _ => rfl

theorem tableText_eq : c.tableText = b.tableText :=
  h.observe Builder.tableText fun _ _ => rfl

theorem dropsNewline_eq : c.dropsNewline = b.dropsNewline :=
  h.observe Builder.dropsNewline fun _ _ => rfl

theorem old_eq : c.old = b.old :=
  h.observe Builder.old fun _ _ => rfl

theorem fragment_eq : c.fragment = b.fragment :=
  h.observe Builder.fragment fun _ _ => rfl

theorem current_eq : c.current = b.current :=
  h.observe Builder.current fun _ _ => rfl

theorem body?_eq : c.body? = b.body? :=
  h.observe Builder.body? fun _ _ => rfl

theorem modeOfStack_eq : c.modeOfStack = b.modeOfStack := by
  apply h.observe Builder.modeOfStack
  intro b tree
  have hgo (stack : Stack) : Builder.modeOfStack.go { b with tree := tree } stack =
      Builder.modeOfStack.go b stack := by
    induction stack with
    | nil => rfl
    | cons e outer ih => simp only [Builder.modeOfStack.go, ih]
  exact hgo b.stack

theorem has_eq (scope : Scope) (tag : Tag) : c.has scope tag = b.has scope tag :=
  h.observe (Builder.has · scope tag) fun _ _ => rfl

theorem currentIs_eq (tag : Tag) : c.currentIs tag = b.currentIs tag :=
  h.observe (Builder.currentIs · tag) fun _ _ => rfl

theorem placeFor_eq (target : OpenElement) : c.placeFor target = b.placeFor target :=
  h.observe (Builder.placeFor · target) fun _ _ => rfl

theorem inTemplate_eq : c.stack.inTemplate = b.stack.inTemplate := by rw [h.stack_eq]

end Agreement

/-! ## Steps that leave the tree alone -/

/-- The tree of each state gives way to another. -/
theorem setTree (h : L.Builders b c) {f g : Forest} (hfg : L.trees f g) :
    L.Builders { b with tree := f } { c with tree := g } :=
  ⟨hfg, congrArg (fun d : Builder => { d with tree := g }) h.rest_eq, h.formatting, h.tableText⟩

/-- The formatting of both states gives way to another. -/
theorem setFormatting (h : L.Builders b c) {fs : List Formatting} (hfs : ∀ f ∈ fs, L.Entry f) :
    L.Builders { b with formatting := fs } { c with formatting := fs } :=
  ⟨h.trees, congrArg (fun d : Builder => { d with formatting := fs }) h.rest_eq, hfs, h.tableText⟩

/-- The text that a table holds back gives way to another. -/
theorem setTableText (h : L.Builders b c) {text : Text} (htext : ∀ ch ∈ text, L.chars ch) :
    L.Builders { b with tableText := text } { c with tableText := text } :=
  ⟨h.trees, congrArg (fun d : Builder => { d with tableText := text }) h.rest_eq, h.formatting,
    htext⟩

/-- A step that neither looks at the tree nor at what text and formatting are kept. -/
theorem update (h : L.Builders b c) (step : Builder → Builder)
    (htree : ∀ (b : Builder) (tree : Forest),
      step { b with tree := tree } = { step b with tree := tree })
    (hformatting : (step b).formatting = b.formatting)
    (htext : (step b).tableText = b.tableText) : L.Builders (step b) (step c) := by
  have htrees (d : Builder) : (step d).tree = d.tree := by
    have hsame : step d = { step d with tree := d.tree } := htree d d.tree
    rw [hsame]
  refine ⟨?_, ?_, ?_, ?_⟩
  · rw [htrees, htrees]
    exact h.trees
  · rw [htrees]
    exact (congrArg step h.rest_eq).trans (htree b c.tree)
  · rw [hformatting]
    exact h.formatting
  · rw [htext]
    exact h.tableText

theorem onStack (h : L.Builders b c) (change : Stack → Stack) :
    L.Builders (b.onStack change) (c.onStack change) :=
  h.update (Builder.onStack · change) (fun _ _ => rfl) rfl rfl

theorem setMode (h : L.Builders b c) (mode : Mode) :
    L.Builders (b.setMode mode) (c.setMode mode) :=
  h.update (Builder.setMode · mode) (fun _ _ => rfl) rfl rfl

theorem forbidFrames (h : L.Builders b c) : L.Builders b.forbidFrames c.forbidFrames :=
  h.update Builder.forbidFrames (fun _ _ => rfl) rfl rfl

theorem close (h : L.Builders b c) : L.Builders b.close c.close := h.onStack _

theorem closeIf (h : L.Builders b c) (tag : Tag) : L.Builders (b.closeIf tag) (c.closeIf tag) := by
  rw [Builder.closeIf, Builder.closeIf, h.currentIs_eq]
  split
  · exact h.close
  · exact h

theorem closeThrough (h : L.Builders b c) (tag : Tag) :
    L.Builders (b.closeThrough tag) (c.closeThrough tag) :=
  h.onStack _

theorem closeTo (h : L.Builders b c) (p : OpenElement → Bool) :
    L.Builders (b.closeTo p) (c.closeTo p) :=
  h.onStack _

theorem closeImplied (h : L.Builders b c) : L.Builders b.closeImplied c.closeImplied := h.onStack _

theorem closeImpliedBut (h : L.Builders b c) (tag : Tag) :
    L.Builders (b.closeImpliedBut tag) (c.closeImpliedBut tag) :=
  h.onStack _

theorem closeParagraph (h : L.Builders b c) : L.Builders b.closeParagraph c.closeParagraph := by
  rw [Builder.closeParagraph, Builder.closeParagraph, h.has_eq]
  split
  · exact (h.closeImpliedBut .p).closeThrough .p
  · exact h

theorem mark (h : L.Builders b c) : L.Builders b.mark c.mark := by
  rw [Builder.mark, Builder.mark, h.formatting_eq]
  exact h.setFormatting (List.forall_mem_cons.mpr ⟨trivial, h.formatting⟩)

theorem clearToMarker (h : L.Builders b c) : L.Builders b.clearToMarker c.clearToMarker := by
  rw [Builder.clearToMarker, Builder.clearToMarker, h.formatting_eq]
  apply h.setFormatting
  intro f hf
  exact h.formatting f (((List.tail_sublist _).trans (List.dropWhile_sublist _)).subset hf)

theorem resetMode (h : L.Builders b c) : L.Builders b.resetMode c.resetMode := by
  rw [Builder.resetMode, Builder.resetMode, h.modeOfStack_eq]
  exact h.setMode _

/-! ## Adding and opening -/

/-- An edit that may fail leaves the trees alone where it does. -/
theorem getD_editInside (h : L.Builders b c) {edit edit' : Forest → Forest}
    (hedit : L.Edits edit edit') (id : Nat) :
    L.trees ((b.tree.editInside? id edit).getD b.tree)
      ((c.tree.editInside? id edit').getD c.tree) :=
  getD_of_rel (L.trees_editInside id hedit h.trees) h.trees

theorem editAt (h : L.Builders b c) {edit edit' : Forest → Forest} (hedit : L.Edits edit edit')
    (place : Place) : L.Builders (b.editAt place edit) (c.editAt place edit') := by
  cases place with
  | inside id => exact h.setTree (h.getD_editInside hedit id)
  | beforeTable table instead =>
      have hbefore := L.trees_editBefore table hedit h.trees
      rw [Builder.editAt, Builder.editAt]
      generalize b.tree.editBefore? table edit = x, c.tree.editBefore? table edit' = y at hbefore
      cases hbefore with
      | some hfg => exact h.setTree hfg
      | none => exact h.setTree (h.getD_editInside hedit instead)

theorem add (h : L.Builders b c) {edit edit' : Forest → Forest} (hedit : L.Edits edit edit') :
    L.Builders (b.add edit) (c.add edit') := by
  rw [Builder.add, Builder.add, h.current_eq, h.placeFor_eq]
  exact h.editAt hedit _

theorem addChar (h : L.Builders b c) {ch : Char} (hch : L.chars ch) :
    L.Builders (b.addChar ch) (c.addChar ch) :=
  h.add fun hfg => L.trees_pushChar hch hfg

theorem addComment (h : L.Builders b c) {x y : Text} (hxy : L.comments x y) :
    L.Builders (b.addComment x) (c.addComment y) :=
  h.add fun hfg => L.trees_comment hxy hfg

theorem openIn (h : L.Builders b c) (vocabulary : Vocabulary) (hname : L.names tag)
    (has : L.attributes tag as bs) :
    L.Builders (b.openIn vocabulary tag as) (c.openIn vocabulary tag bs) := by
  have hedit : L.Edits (.element b.nextId vocabulary tag as .empty ·)
      (.element b.nextId vocabulary tag bs .empty ·) :=
    fun hfg => L.trees_element b.nextId vocabulary hname has L.trees_empty hfg
  let push (d : Builder) : Builder :=
    { d with
      nextId := b.nextId + 1
      stack := ⟨b.nextId, vocabulary, tag, Builder.annotatesMarkup vocabulary tag as⟩ :: b.stack }
  have hpushed := (h.add hedit).update push (fun _ _ => rfl) rfl rfl
  unfold Builder.openIn
  rw [h.nextId_eq, h.stack_eq, annotatesMarkup_eq has]
  exact hpushed

theorem openElement (h : L.Builders b c) (ht : L.Starts t u) :
    L.Builders (b.openElement t) (c.openElement u) := by
  rw [Builder.openElement, Builder.openElement, ht.tag_eq]
  exact h.openIn .html ht.name ht.attributes

theorem openImplied (h : L.Builders b c) (htag : tag ∈ Tag.supplied) :
    L.Builders (b.openImplied tag) (c.openImplied tag) :=
  h.openIn .html (L.names_supplied htag) (L.attributes_nil tag)

theorem addEmpty (h : L.Builders b c) (ht : L.Starts t u) :
    L.Builders (b.addEmpty t) (c.addEmpty u) :=
  (h.openElement ht).close

theorem openText (h : L.Builders b c) (ht : L.Starts t u) (content : Lexer.Content) :
    L.Builders (b.openText t content).1 (c.openText u content).1 := by
  have hopened := (h.openElement ht).update
    (fun d => { d with returnMode := b.mode, mode := .text }) (fun _ _ => rfl) rfl rfl
  unfold Builder.openText
  rw [h.mode_eq]
  exact hopened

theorem openRoot (h : L.Builders b c) (has : L.attributes .html as bs) :
    L.Builders (b.openRoot as) (c.openRoot bs) := by
  have hroot := L.trees_element 0 .html (L.names_supplied (by decide)) has L.trees_empty
    L.trees_empty
  exact (h.setTree hroot).update (fun d => { d with nextId := 1, stack := [Builder.root] })
    (fun _ _ => rfl) rfl rfl

/-! ## Formatting -/

theorem foldl {α : Type} {step step' : Builder → α → Builder} {xs : List α}
    (hstep : ∀ x ∈ xs, ∀ {b c : Builder}, L.Builders b c → L.Builders (step b x) (step' c x))
    (h : L.Builders b c) : L.Builders (xs.foldl step b) (xs.foldl step' c) := by
  induction xs generalizing b c with
  | nil => exact h
  | cons x xs ih =>
      have hfirst := hstep x List.mem_cons_self h
      exact ih (fun y hy => hstep y (List.mem_cons_of_mem _ hy)) hfirst

theorem reopen (h : L.Builders b c) {entry : Formatting} (hentry : L.Entry entry) :
    L.Builders (b.reopen entry) (c.reopen entry) := by
  cases entry with
  | marker => exact h
  | element id tag attributes =>
      have hopened := h.openIn .html hentry.1 hentry.2
      have hagain : L.Entry (.element b.nextId tag attributes) := hentry
      unfold Builder.reopen
      dsimp only
      rw [hopened.formatting_eq, h.nextId_eq]
      exact hopened.setFormatting (entry_replace hopened.formatting hagain id)

theorem reopenFormatting (h : L.Builders b c) :
    L.Builders b.reopenFormatting c.reopenFormatting := by
  have hforce (f : Formatting) : c.isInForce f = b.isInForce f :=
    h.observe (Builder.isInForce · f) fun _ _ => by cases f <;> rfl
  unfold Builder.reopenFormatting
  simp only [h.formatting_eq, hforce]
  apply foldl _ h
  intro entry hentry b' c' h'
  apply h'.reopen
  exact h.formatting entry ((List.takeWhile_sublist _).subset (List.mem_reverse.mp hentry))

/-- A formatting element is opened with the same attributes in both readings. -/
theorem openFormatting (h : L.Builders b c) (ht : L.Starts t u)
    (htag : t.tag.isReadWithAttributes = true) :
    L.Builders (b.openFormatting t) (c.openFormatting u) := by
  have hsame := ht.eq_of_isReadWithAttributes htag
  subst hsame
  have hopened := h.openElement ht
  have hentry : L.Entry (.element b.nextId u.tag u.attributes) := ⟨ht.name, ht.attributes⟩
  unfold Builder.openFormatting
  dsimp only
  rw [h.nextId_eq, h.formatting_eq]
  exact hopened.setFormatting
    (List.forall_mem_cons.mpr ⟨hentry, entry_makeRoom h.formatting u⟩)

theorem endElement (h : L.Builders b c) (tag : Tag) :
    L.Builders (b.endElement tag) (c.endElement tag) := by
  unfold Builder.endElement
  rw [h.stack_eq]
  split
  · exact h
  · rename_i rest _
    exact h.onStack fun _ => rest

theorem attach (h : L.Builders b c) (target : OpenElement) {p q : Forest} (hpq : L.trees p q) :
    L.Builders (b.attach target p) (c.attach target q) := by
  rw [Builder.attach, Builder.attach, h.placeFor_eq]
  exact h.editAt (fun hfg => L.trees_onto hpq hfg) _

end Builders

/-! ## Splitting -/

/-- Splittings that are alike: the parts around the block are, and nothing else differs. -/
structure Splittings (L : Likeness) (s r : Builder.Splitting) : Prop where
  parts : L.trees s.part r.part
  rest_eq : r = { s with part := r.part }
  formatting : ∀ entry ∈ s.formatting, L.Entry entry

namespace Splittings

variable {s r : Builder.Splitting}

theorem step (h : L.Splittings s r) (count : Nat) (e : OpenElement) :
    L.Splittings (s.step count e) (r.step count e) := by
  obtain ⟨fs, nextId, kept, p, bookmark⟩ := s
  obtain ⟨fs', nextId', kept', q, bookmark'⟩ := r
  obtain ⟨hparts, hrest, hformatting⟩ := h
  cases hrest
  unfold Builder.Splitting.step
  dsimp only
  split
  · rename_i id tag attributes hentry
    have hold := hformatting _ (List.mem_of_find?_eq_some hentry)
    have hcopy : L.Entry (.element nextId tag attributes) := hold
    split
    · exact ⟨hparts, rfl, entry_drop hformatting e.id⟩
    · exact ⟨L.trees_element _ _ hold.1 hold.2 hparts L.trees_empty, rfl,
        entry_replace hformatting hcopy e.id⟩
  · exact ⟨hparts, rfl, hformatting⟩

theorem run (h : L.Splittings s r) (count : Nat) (between : Stack) :
    L.Splittings (s.run count between) (r.run count between) := by
  induction between generalizing s r count with
  | nil => exact h
  | cons e outer ih => exact ih (h.step (count + 1) e) (count + 1)

end Splittings

namespace Builders

theorem splitAround (h : L.Builders b c) (id : Nat) (hname : L.names tag)
    (has : L.attributes tag as as) (inner : Stack) (block : OpenElement) (between outer : Stack) :
    L.Builders (b.splitAround id tag as inner block between outer)
      (c.splitAround id tag as inner block between outer) := by
  have hdetached := L.trees_detach block.id h.trees
  unfold Builder.splitAround
  generalize b.tree.detach? block.id = x, c.tree.detach? block.id = y at hdetached
  cases hdetached with
  | none => exact h
  | some hparts =>
      rename_i found found'
      obtain ⟨p, f⟩ := found
      obtain ⟨q, g⟩ := found'
      have hstart : L.Splittings ⟨b.formatting, b.nextId, [], p, none⟩
          ⟨c.formatting, c.nextId, [], q, none⟩ :=
        ⟨hparts.1, by rw [h.formatting_eq, h.nextId_eq], h.formatting⟩
      have hrun := hstart.run 0 between
      dsimp only
      generalize Builder.Splitting.run ⟨b.formatting, b.nextId, [], p, none⟩ 0 between = s,
        Builder.Splitting.run ⟨c.formatting, c.nextId, [], q, none⟩ 0 between = r at hrun
      obtain ⟨fs, copy, kept, p', bookmark⟩ := s
      obtain ⟨fs', copy', kept', q', bookmark'⟩ := r
      obtain ⟨hpart, hrest, hfs⟩ := hrun
      cases hrest
      have hmoved := (h.setTree hparts.2).attach (outer.head?.getD Builder.root) hpart
      have hwrap : L.Edits (.element copy .html tag as · .empty)
          (.element copy .html tag as · .empty) :=
        fun hfg => L.trees_element copy .html hname has hfg L.trees_empty
      have hcopy : L.Entry (.element copy tag as) := ⟨hname, has⟩
      have hsplit (gs : List Formatting) (hgs : ∀ f ∈ gs, L.Entry f) :=
        ((hmoved.setTree (hmoved.getD_editInside hwrap block.id)).setFormatting hgs).update
          (fun d => { d with
            nextId := copy + 1
            stack := inner ++ ⟨copy, .html, tag, false⟩ :: block :: (kept.reverse ++ outer) })
          (fun _ _ => rfl) rfl rfl
      cases bookmark with
      | none => exact hsplit _ (entry_replace hfs hcopy id)
      | some innermost => exact hsplit _ (entry_drop (entry_insertAfter hfs hcopy innermost) id)

theorem endFormattingOnce (h : L.Builders b c) (tag : Tag) :
    L.Builders (b.endFormattingOnce tag).1 (c.endFormattingOnce tag).1 ∧
      (c.endFormattingOnce tag).2 = (b.endFormattingOnce tag).2 := by
  unfold Builder.endFormattingOnce
  rw [h.formatting_eq, h.stack_eq]
  split
  · rename_i id entryTag attributes hfind
    have hentry := h.formatting _
      ((List.takeWhile_sublist _).subset (List.mem_of_find?_eq_some hfind))
    have hdropped (stack : Stack) :=
      (h.setFormatting (entry_drop h.formatting id)).onStack fun _ => stack
    dsimp only
    split
    · exact ⟨hdropped b.stack, rfl⟩
    · split
      · exact ⟨h, rfl⟩
      · split
        · exact ⟨hdropped _, rfl⟩
        · exact ⟨h.splitAround id hentry.1 hentry.2 _ _ _ _, rfl⟩
  · exact ⟨h.endElement tag, rfl⟩

theorem endFormattingRounds (h : L.Builders b c) (rounds : Nat) (tag : Tag) :
    L.Builders (Builder.endFormattingRounds rounds b tag)
      (Builder.endFormattingRounds rounds c tag) := by
  induction rounds generalizing b c with
  | zero => exact h
  | succ rounds ih =>
      obtain ⟨honce, hmore⟩ := h.endFormattingOnce tag
      rw [Builder.endFormattingRounds, Builder.endFormattingRounds]
      generalize b.endFormattingOnce tag = x, c.endFormattingOnce tag = y at honce hmore
      obtain ⟨b', more⟩ := x
      obtain ⟨c', more'⟩ := y
      cases hmore
      cases more with
      | false => exact honce
      | true => exact ih honce

theorem endFormatting (h : L.Builders b c) (tag : Tag) :
    L.Builders (b.endFormatting tag) (c.endFormatting tag) := by
  unfold Builder.endFormatting
  rw [h.current_eq, h.currentIs_eq, h.formatting_eq]
  dsimp only
  split
  · exact h.close
  · exact h.endFormattingRounds 8 tag

theorem endOpenAnchor (h : L.Builders b c) : L.Builders b.endOpenAnchor c.endOpenAnchor := by
  unfold Builder.endOpenAnchor
  rw [h.formatting_eq]
  split
  · rename_i id _ _ _
    have hended := h.endFormatting .a
    have hdropped := hended.setFormatting (entry_drop hended.formatting id)
    dsimp only
    rw [hended.formatting_eq, hended.stack_eq]
    exact hdropped.onStack fun _ => (b.endFormatting .a).stack.without id
  · exact h

end Builders

end Likeness

end Letterpress
