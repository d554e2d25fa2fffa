/-
# The open elements and the tree around them

While markup nests properly, the open elements are exactly the latest element at
each level of the tree: a spine, with the finished content hanging off it.
`Builder.Stands frames inner ground b` says that a builder is in such a state,
with `inner` the finished content of the innermost element and `ground` telling
whether all this is in a body or in a cell of a table. Formatting in force
is then formatting that is still open, so nothing has to be reopened; of many
equal formatting elements some may have lost their entry, hence the entries are
only a sublist of the spine.

This module has what the elementary steps do to a spine. Which start and end tags
amount to these steps is the matter of the rules.
-/

import Letterpress.Markup.Tree.Rules
import Mathlib.Data.List.Nodup

namespace Letterpress

/-- An open element of plain markup with the finished siblings before it. -/
structure Frame where
  id : Nat
  tag : Tag
  attributes : List Attribute
  older : Forest

namespace Frame

/-- The frame as an open element. -/
def opened (f : Frame) : OpenElement := ⟨f.id, .html, f.tag, false⟩

/-- The frame as an entry of the formatting. -/
def entry (f : Frame) : Formatting := .element f.id f.tag f.attributes

/-- The element of the frame with its children, after its siblings. -/
def wrap (f : Frame) (children : Forest) : Forest :=
  .element f.id .html f.tag f.attributes children f.older

/-- The frames nested around the children of the innermost, which comes first. -/
def nest (frames : List Frame) (inner : Forest) : Forest :=
  frames.foldl (fun children f => f.wrap children) inner

theorem nest_cons (f : Frame) (outer : List Frame) (inner : Forest) :
    nest (f :: outer) inner = nest outer (f.wrap inner) := rfl

/-- What is changed inside is changed inside all frames around. -/
theorem editInside?_nest {target : Nat} {edit : Forest → Forest} {frames : List Frame}
    {inner inner' : Forest} (hinner : inner.editInside? target edit = some inner')
    (hother : target ∉ frames.map Frame.id) :
    (nest frames inner).editInside? target edit = some (nest frames inner') := by
  induction frames generalizing inner inner' with
  | nil => exact hinner
  | cons f outer ih =>
      simp only [List.map_cons, List.mem_cons, not_or] at hother
      have hwrap : (f.wrap inner).editInside? target edit = some (f.wrap inner') := by
        simp only [wrap, Forest.editInside?, if_neg (Ne.symm hother.1), hinner]
      exact ih hwrap hother.2

/-- The innermost frame is found at the end of the spine. -/
theorem editInside?_nest_cons {f : Frame} {outer : List Frame} (edit : Forest → Forest)
    (inner : Forest) (hnodup : ((f :: outer).map Frame.id).Nodup) :
    (nest (f :: outer) inner).editInside? f.id edit = some (nest (f :: outer) (edit inner)) := by
  rw [List.map_cons, List.nodup_cons] at hnodup
  have hwrap : (f.wrap inner).editInside? f.id edit = some (f.wrap (edit inner)) := by
    simp only [wrap, Forest.editInside?, if_pos]
  rw [nest_cons, nest_cons]
  exact editInside?_nest hwrap hnodup.1

end Frame

/-- Elements that the list of formatting remembers. -/
def Tag.isFormatting : Tag → Bool
  | .a | .b | .big | .code | .em | .font | .i | .s | .small | .strike | .strong | .tt | .u => true
  | _ => false

/-- Where running content stands. -/
inductive Ground
  /-- In the content of a body that is read by itself. -/
  | content
  /-- In the body of a document. -/
  | document
  /-- In a table cell of such content. -/
  | cell

namespace Ground

/-- The rules of running content. -/
def mode : Ground → Mode
  | content | document => .inBody
  | cell => .inCell

/-- How many markers stand below the formatting that began there. -/
def markers : Ground → Nat
  | content | document => 0
  | cell => 1

/-- Whether content is read rather than a document. -/
def isFragment : Ground → Bool
  | content | cell => true
  | document => false

end Ground

/-- Markup has nested properly so far: the open elements are a spine of the tree. -/
structure Builder.Stands (frames : List Frame) (inner : Forest) (ground : Ground)
    (b : Builder) : Prop where
  tree_eq : b.tree = Frame.nest frames inner
  stack_eq : b.stack = frames.map Frame.opened
  mode_eq : b.mode = ground.mode
  fostering_eq : b.fostering = false
  dropsNewline_eq : b.dropsNewline = false
  templateModes_eq : b.templateModes = []
  tableText_eq : b.tableText = []
  fragment_eq : b.fragment = ground.isFragment
  nodup_ids : (frames.map Frame.id).Nodup
  id_lt : ∀ f ∈ frames, f.id < b.nextId
  exists_entries : ∃ entries : List Frame, entries.Sublist frames ∧
    (∀ f ∈ entries, f.tag.isFormatting = true) ∧
    b.formatting = entries.map Frame.entry ++ List.replicate ground.markers .marker

namespace Formatting

variable {entries : List Frame} {markers : Nat}

/-- The entries of frames all come after the latest marker. -/
theorem sinceMarker_entries :
    sinceMarker (entries.map Frame.entry ++ List.replicate markers .marker) =
      entries.map Frame.entry := by
  induction entries with
  | nil => cases markers with
      | zero => rfl
      | succ n => rfl
  | cons f entries ih =>
      rw [sinceMarker, List.map_cons, List.cons_append, List.takeWhile_cons_of_pos (by rfl)]
      exact congrArg _ ih

/-- Making room drops entries and reorders none. -/
theorem makeRoom_entries (entries : List Frame) (markers : Nat) (t : StartTag) :
    ∃ kept : List Frame, kept.Sublist entries ∧
      makeRoom t (entries.map Frame.entry ++ List.replicate markers .marker) =
        kept.map Frame.entry ++ List.replicate markers .marker := by
  rw [makeRoom, sinceMarker_entries]
  split
  · have hsub : (((entries.map Frame.entry).reverse.eraseP (isWrittenBy t)).reverse).Sublist
        (entries.map Frame.entry) := by
      have herase := (List.eraseP_sublist (p := isWrittenBy t)
        (l := (entries.map Frame.entry).reverse)).reverse
      rwa [List.reverse_reverse] at herase
    obtain ⟨kept, hkept, heq⟩ := List.sublist_map_iff.mp hsub
    refine ⟨kept, hkept, ?_⟩
    rw [heq, List.drop_left]
  · exact ⟨entries, List.Sublist.refl entries, rfl⟩

end Formatting

namespace Builder.Stands

variable {f : Frame} {frames outer : List Frame} {inner : Forest} {ground : Ground} {b : Builder}

/-! ## What the state answers -/

theorem current_html (h : Stands frames inner ground b) : b.current.vocabulary = .html := by
  rw [Builder.current, h.stack_eq]
  cases frames with
  | nil => rfl
  | cons f outer => rfl

theorem current_eq (h : Stands (f :: outer) inner ground b) : b.current = f.opened := by
  rw [Builder.current, h.stack_eq]
  rfl

theorem currentIs_eq (h : Stands (f :: outer) inner ground b) (tag : Tag) :
    b.currentIs tag = (f.tag == tag) := by
  rw [Builder.currentIs, h.stack_eq]
  rfl

/-- An element that is open nowhere is in no scope. -/
theorem hasInScope_eq_false {scope : Scope} {p : OpenElement → Bool}
    (hnone : ∀ f ∈ frames, p f.opened = false) :
    Stack.hasInScope scope p (frames.map Frame.opened) = false := by
  induction frames with
  | nil => rfl
  | cons f outer ih =>
      rw [List.map_cons, Stack.hasInScope, hnone f (by simp),
        ih fun g hg => hnone g (by simp [hg])]
      simp

/-- The current element is in every scope. -/
theorem has_current (h : Stands (f :: outer) inner ground b) (scope : Scope) :
    b.has scope f.tag = true := by
  rw [Builder.has, h.stack_eq, List.map_cons, Stack.hasInScope]
  simp [OpenElement.is, Frame.opened]

/-- No formatting was closed behind the reader's back. -/
theorem reopenFormatting_eq (h : Stands frames inner ground b) : b.reopenFormatting = b := by
  obtain ⟨entries, hsub, -, hformatting⟩ := h.exists_entries
  have hforce : b.formatting.takeWhile (fun x => !b.isInForce x) = [] := by
    rw [hformatting]
    cases entries with
    | nil => cases ground with
        | _ => rfl
    | cons g entries =>
        have hmem : g ∈ frames := hsub.subset (by simp)
        have hopen : b.isInForce g.entry = true := by
          rw [Frame.entry, Builder.isInForce, h.stack_eq]
          exact List.any_eq_true.mpr ⟨g.opened, List.mem_map_of_mem hmem, by simp [Frame.opened]⟩
        rw [List.map_cons, List.cons_append, List.takeWhile_cons_of_neg (by simp [hopen])]
  rw [Builder.reopenFormatting, hforce]
  rfl

/-- Without an open paragraph none is closed. -/
theorem closeParagraph_eq (h : Stands frames inner ground b)
    (hnone : ∀ f ∈ frames, f.tag ≠ .p) : b.closeParagraph = b := by
  have hhas : b.has .button .p = false := by
    rw [Builder.has, h.stack_eq]
    apply hasInScope_eq_false
    intro f hf
    simp [OpenElement.is, Frame.opened, hnone f hf]
  rw [Builder.closeParagraph, hhas]
  rfl

/-- Without an open anchor none is ended. -/
theorem endOpenAnchor_eq (h : Stands frames inner ground b)
    (hnone : ∀ f ∈ frames, f.tag ≠ .a) : b.endOpenAnchor = b := by
  obtain ⟨entries, hsub, -, hformatting⟩ := h.exists_entries
  have hfind : (Formatting.sinceMarker b.formatting).find? (·.hasTag .a) = none := by
    rw [hformatting, Formatting.sinceMarker_entries]
    apply List.find?_eq_none.mpr
    intro x hx
    obtain ⟨g, hg, rfl⟩ := List.mem_map.mp hx
    simp [Frame.entry, Formatting.hasTag, hnone g (hsub.subset hg)]
  rw [Builder.endOpenAnchor, hfind]

/-! ## What the steps do -/

theorem forbidFrames (h : Stands frames inner ground b) :
    Stands frames inner ground b.forbidFrames :=
  ⟨h.tree_eq, h.stack_eq, h.mode_eq, h.fostering_eq, h.dropsNewline_eq, h.templateModes_eq,
    h.tableText_eq, h.fragment_eq, h.nodup_ids, h.id_lt, h.exists_entries⟩

/-- Content goes into the innermost element. -/
theorem add_eq (h : Stands (f :: outer) inner ground b) (edit : Forest → Forest) :
    b.add edit = { b with tree := Frame.nest (f :: outer) (edit inner) } := by
  have hplace : b.placeFor b.current = .inside f.id := by
    rw [Builder.placeFor, h.fostering_eq, h.current_eq]
    rfl
  rw [Builder.add, hplace, Builder.editAt, h.tree_eq,
    Frame.editInside?_nest_cons edit inner h.nodup_ids]
  rfl

theorem add (h : Stands (f :: outer) inner ground b) (edit : Forest → Forest) :
    Stands (f :: outer) (edit inner) ground (b.add edit) := by
  rw [h.add_eq edit]
  exact ⟨rfl, h.stack_eq, h.mode_eq, h.fostering_eq, h.dropsNewline_eq, h.templateModes_eq,
    h.tableText_eq, h.fragment_eq, h.nodup_ids, h.id_lt, h.exists_entries⟩

/-- The frame of an element that is opened now. -/
def opening (b : Builder) (tag : Tag) (attributes : List Attribute) (inner : Forest) : Frame :=
  ⟨b.nextId, tag, attributes, inner⟩

theorem openElement_eq (h : Stands (f :: outer) inner ground b) (t : StartTag) :
    b.openElement t =
      { b with
        tree := Frame.nest (opening b t.tag t.attributes inner :: f :: outer) .empty
        nextId := b.nextId + 1
        stack := (opening b t.tag t.attributes inner :: f :: outer).map Frame.opened } := by
  rw [Builder.openElement, Builder.openIn, h.add_eq, List.map_cons, ← h.stack_eq]
  rfl

/-- Opening an element makes the spine longer. -/
theorem openElement (h : Stands (f :: outer) inner ground b) (t : StartTag) :
    Stands (opening b t.tag t.attributes inner :: f :: outer) .empty ground
      (b.openElement t) := by
  obtain ⟨entries, hsub, htags, hformatting⟩ := h.exists_entries
  have hfresh : b.nextId ∉ (f :: outer).map Frame.id := by
    intro hmem
    obtain ⟨g, hg, heq⟩ := List.mem_map.mp hmem
    exact absurd (h.id_lt g hg) (by omega)
  rw [h.openElement_eq t]
  refine ⟨rfl, rfl, h.mode_eq, h.fostering_eq, h.dropsNewline_eq, h.templateModes_eq,
    h.tableText_eq, h.fragment_eq,
    List.nodup_cons.mpr ⟨hfresh, h.nodup_ids⟩, ?_, entries, hsub.cons _, htags, hformatting⟩
  intro g hg
  rcases List.mem_cons.mp hg with rfl | hold
  · exact Nat.lt_succ_self b.nextId
  · exact Nat.lt_succ_of_lt (h.id_lt g hold)

/-- So does opening a formatting element. -/
theorem openFormatting (h : Stands (f :: outer) inner ground b) (t : StartTag)
    (htag : t.tag.isFormatting = true) :
    Stands (opening b t.tag t.attributes inner :: f :: outer) .empty ground
      (b.openFormatting t) := by
  obtain ⟨entries, hsub, htags, hformatting⟩ := h.exists_entries
  obtain ⟨kept, hkept, hroom⟩ := Formatting.makeRoom_entries entries ground.markers t
  have hopen := h.openElement t
  refine ⟨hopen.tree_eq, hopen.stack_eq, hopen.mode_eq, hopen.fostering_eq,
    hopen.dropsNewline_eq, hopen.templateModes_eq, hopen.tableText_eq, hopen.fragment_eq,
    hopen.nodup_ids, hopen.id_lt, opening b t.tag t.attributes inner :: kept,
    (hkept.trans hsub).cons_cons _, ?_, ?_⟩
  · intro g hg
    rcases List.mem_cons.mp hg with rfl | hold
    · exact htag
    · exact htags g (hkept.subset hold)
  · rw [Builder.openFormatting]
    simp only [hformatting, hroom]
    rfl

/-- Closing the innermost element leaves it as content of the one around it. -/
theorem close_of_entries (h : Stands (f :: outer) inner ground b) {entries : List Frame}
    (hsub : entries.Sublist outer) (htags : ∀ g ∈ entries, g.tag.isFormatting = true)
    {formatting : List Formatting}
    (hformatting : formatting =
      entries.map Frame.entry ++ List.replicate ground.markers .marker) :
    Stands outer (f.wrap inner) ground
      { b with stack := outer.map Frame.opened, formatting := formatting } :=
  ⟨h.tree_eq, rfl, h.mode_eq, h.fostering_eq, h.dropsNewline_eq, h.templateModes_eq, h.tableText_eq,
    h.fragment_eq,
    (List.nodup_cons.mp h.nodup_ids).2, fun g hg => h.id_lt g (by simp [hg]),
    entries, hsub, htags, hformatting⟩

theorem close_eq (h : Stands (f :: outer) inner ground b) :
    b.close = { b with stack := outer.map Frame.opened } := by
  rw [Builder.close, Builder.onStack, h.stack_eq]
  rfl

/-- An element that is no formatting has no entry. -/
theorem close (h : Stands (f :: outer) inner ground b) (htag : f.tag.isFormatting = false) :
    Stands outer (f.wrap inner) ground b.close := by
  obtain ⟨entries, hsub, htags, hformatting⟩ := h.exists_entries
  have hshorter : entries.Sublist outer := by
    rcases List.sublist_cons_iff.mp hsub with hshorter | ⟨rest, rfl, -⟩
    · exact hshorter
    · simp [htags f (by simp)] at htag
  rw [h.close_eq]
  exact h.close_of_entries hshorter htags hformatting

/-- Ending the formatting that is current takes its entry away, if it still has one. -/
theorem endFormatting (h : Stands (f :: outer) inner ground b) :
    Stands outer (f.wrap inner) ground (b.endFormatting f.tag) := by
  obtain ⟨entries, hsub, htags, hformatting⟩ := h.exists_entries
  have hfresh := (List.nodup_cons.mp h.nodup_ids).1
  have hcurrent : b.currentIs f.tag = true := by simp [h.currentIs_eq]
  rcases List.sublist_cons_iff.mp hsub with hshorter | ⟨rest, rfl, hrest⟩
  · -- Of more than three equal elements the outer ones lose their entries.
    have hnone : b.formatting.any (·.isElement b.current.id) = false := by
      rw [h.current_eq, hformatting, List.any_append, Bool.or_eq_false_iff]
      constructor
      · apply List.any_eq_false.mpr
        intro x hx heq
        obtain ⟨g, hg, rfl⟩ := List.mem_map.mp hx
        have hid : g.id = f.id := beq_iff_eq.mp heq
        exact hfresh (hid ▸ List.mem_map_of_mem (hshorter.subset hg))
      · apply List.any_eq_false.mpr
        intro x hx
        simp [List.eq_of_mem_replicate hx, Formatting.isElement]
    rw [Builder.endFormatting, hcurrent, hnone]
    show Stands outer (f.wrap inner) ground b.close
    rw [h.close_eq]
    exact h.close_of_entries hshorter htags hformatting
  · have hlisted : b.formatting.any (·.isElement b.current.id) = true := by
      rw [h.current_eq, hformatting]
      simp [Frame.entry, Formatting.isElement, Frame.opened]
    have hfind : (Formatting.sinceMarker b.formatting).find? (·.hasTag f.tag) = some f.entry := by
      rw [hformatting, Formatting.sinceMarker_entries]
      simp [Frame.entry, Formatting.hasTag]
    have honce : b.endFormattingOnce f.tag =
        ({ b with
            stack := outer.map Frame.opened
            formatting :=
              rest.map Frame.entry ++ List.replicate ground.markers .marker }, false) := by
      rw [Builder.endFormattingOnce, hfind]
      simp [Frame.entry, h.stack_eq, Frame.opened, Stack.hasInScope, Stack.closeThrough,
        hformatting, Formatting.drop, Formatting.isElement]
    rw [Builder.endFormatting, hcurrent, hlisted]
    simp only [Bool.not_true, Bool.and_false, Bool.false_eq_true, if_false,
      Builder.endFormattingRounds, honce]
    have hresttags : ∀ g ∈ rest, g.tag.isFormatting = true := by
      intro g hg
      apply htags g
      simp [hg]
    exact h.close_of_entries hrest hresttags rfl

end Builder.Stands

end Letterpress
