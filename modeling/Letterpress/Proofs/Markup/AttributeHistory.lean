/-
# Histories of attributes

Attributes are what the calls that set and remove names have made of none. Such calls
are kept as a list, and what the attributes hold is said of the list alone: the value
of a name is the one that it was given last (`heldValue?`), and a name takes its place
with the first call that sets it since it was last removed (`EntersAt`).

That attributes are this map (`records_edited`) follows call by call from what one call
changes: setting a name that is there leaves the names alone, setting another puts it
last, and removing a name takes out no more than that name, since stored names differ.
-/

import Letterpress.Proofs.Markup.Restyling
import Letterpress.Proofs.Text.Letters
import Mathlib.Data.List.Induction

namespace Letterpress

/-! ## Taking a name out -/

/-- Without a name its value is gone, and nothing else changes under others. -/
theorem Attribute.find?_eraseP {name other : Text} {as : List Attribute}
    (hdistinct : as.Pairwise fun a b => Text.sameName a.name b.name = false) :
    ((as.eraseP fun a => Text.sameName a.name name).find? fun a => Text.sameName a.name other) =
      if Text.sameName name other then none
      else as.find? fun a => Text.sameName a.name other := by
  induction as with
  | nil => simp
  | cons a rest ih =>
      obtain ⟨hfirst, hrest⟩ := List.pairwise_cons.mp hdistinct
      cases hname : Text.sameName a.name name with
      | true =>
          have hother : Text.sameName a.name other = Text.sameName name other := by
            rw [Text.sameName, beq_iff_eq.mp hname, Text.sameName]
          rw [List.eraseP_cons, hname, cond_true, List.find?_cons, hother]
          cases hfound : Text.sameName name other with
          | true =>
              refine List.find?_eq_none.mpr fun b hb hsame => ?_
              have hboth := (beq_iff_eq.mp hname).trans (beq_iff_eq.mp hfound)
              exact beq_eq_false_iff_ne.mp (hfirst b hb) (hboth.trans (beq_iff_eq.mp hsame).symm)
          | false => rfl
      | false =>
          rw [List.eraseP_cons, hname, cond_false, List.find?_cons, List.find?_cons, ih hrest]
          cases hfound : Text.sameName a.name other with
          | true =>
              have hne : Text.lower name ≠ Text.lower other := fun hsame =>
                beq_eq_false_iff_ne.mp hname ((beq_iff_eq.mp hfound).trans hsame.symm)
              simp [Text.sameName, hne]
          | false => rfl

namespace Attributes

/-- Stored names differ in more than the case of their letters. -/
theorem pairwise_sameName (as : Attributes) :
    as.toList.Pairwise fun a b => Text.sameName a.name b.name = false := by
  refine (List.pairwise_map.mp as.nodup_names).imp_of_mem ?_
  intro a b ha hb hne
  rw [Text.sameName, as.lower_name a ha, as.lower_name b hb]
  exact beq_false_of_ne hne

/-- Stored names have no capitals. -/
theorem isUpper_eq_false {as : Attributes} {a : Attribute} (ha : a ∈ as.toList) {c : Char}
    (hc : c ∈ a.name) : c.isUpper = false := by
  have hlower : a.name.map Char.toLower = a.name.map id := by
    rw [List.map_id]
    exact as.lower_name a ha
  have hself : c.toLower = c := List.map_inj_left.mp hlower c hc
  rw [← Bool.not_eq_true]
  intro hupper
  obtain ⟨-, -, hshift⟩ := Text.toNat_toLower (of_decide_eq_true hupper)
  rw [hself] at hshift
  omega

theorem get?_erase (as : Attributes) (name other : Text) :
    (as.erase name).get? other = if Text.sameName name other then none else as.get? other := by
  rw [get?, erase, Attribute.find?_eraseP as.pairwise_sameName]
  split <;> rfl

theorem remove_fst (as : Attributes) (name : Text) : (as.remove name).1 = as.get? name := by
  rw [get?, List.find?_eq_bind_findIdx?_getElem?, remove]

/-- What is stored under a name has a value. -/
theorem isSome_get?_iff {as : Attributes} {name : Text} :
    (as.get? name).isSome = true ↔ as.toList.any fun a => Text.sameName a.name name := by
  rw [get?, Option.isSome_map, List.find?_isSome, List.any_eq_true]

/-! ## Calls -/

/-- A call that changes attributes. -/
inductive Edit
  | set (name value : Text)
  | remove (name : Text)
  deriving DecidableEq

namespace Edit

/-- The attributes after a call. -/
def apply (as : Attributes) : Edit → Attributes
  | set name value => as.set name value
  | remove name => (as.remove name).2

/-- Whether a call gives a name a value, in whatever spelling. -/
def sets (name : Text) : Edit → Bool
  | set other _ => Text.sameName other name
  | remove _ => false

/-- Whether a call takes a name out, in whatever spelling. -/
def removes (name : Text) : Edit → Bool
  | set _ _ => false
  | remove other => Text.sameName other name

/-- The value that a call leaves its name with. -/
def value? : Edit → Option Text
  | set _ value => some value
  | remove _ => none

theorem value?_of_sets {e : Edit} {name : Text} (h : e.sets name = true) :
    e.value?.isSome = true := by
  cases e with
  | set other value => rfl
  | remove other => cases h

theorem of_removes {e : Edit} {name : Text} (h : e.removes name = true) :
    e.value? = none ∧ e.sets name = false := by
  cases e with
  | set other value => cases h
  | remove other => exact ⟨rfl, rfl⟩

end Edit

/-- The attributes after calls, the first of which finds none. -/
def edited (es : List Edit) : Attributes := es.foldl Edit.apply empty

theorem edited_snoc (es : List Edit) (e : Edit) :
    edited (es ++ [e]) = Edit.apply (edited es) e :=
  List.foldl_append

/-! ## What calls leave -/

/-- The value that calls leave a name with: the last one that it was given, unless the name has
been removed since. -/
def heldValue? (es : List Edit) (name : Text) : Option Text :=
  (es.reverse.find? fun e => e.sets name || e.removes name).bind Edit.value?

/-- The call at place `i` is one of those. -/
def HappensAt (es : List Edit) (those : Edit → Bool) (i : Nat) : Prop :=
  ∃ e, es[i]? = some e ∧ those e = true

/-- The call at place `i` brings the name in: it is the first to set the name since the name was
last removed. -/
structure EntersAt (es : List Edit) (name : Text) (i : Nat) : Prop where
  set : HappensAt es (Edit.sets name) i
  stays : ∀ j, i < j → ¬ HappensAt es (Edit.removes name) j
  first : ∀ k, k < i → HappensAt es (Edit.sets name) k →
    ∃ j, k < j ∧ j < i ∧ HappensAt es (Edit.removes name) j

variable {es : List Edit} {e : Edit} {those : Edit → Bool} {name : Text} {i j : Nat}

theorem heldValue?_snoc (es : List Edit) (e : Edit) (name : Text) :
    heldValue? (es ++ [e]) name =
      if e.sets name || e.removes name then e.value? else heldValue? es name := by
  rw [heldValue?, List.reverse_append, List.reverse_singleton, List.singleton_append,
    List.find?_cons]
  split
  · rename_i h
    rw [if_pos h]
    rfl
  · rename_i h
    rw [h]
    rfl

theorem HappensAt.lt_length (h : HappensAt es those i) : i < es.length := by
  obtain ⟨e, he, -⟩ := h
  exact (List.getElem?_eq_some_iff.mp he).1

/-- A call happens where it did, or it is the last one. -/
theorem happensAt_snoc :
    HappensAt (es ++ [e]) those i ↔
      HappensAt es those i ∨ i = es.length ∧ those e = true := by
  rcases Nat.lt_trichotomy i es.length with hlt | rfl | hgt
  · simp [HappensAt, List.getElem?_append_left hlt, Nat.ne_of_lt hlt]
  · simp [HappensAt]
  · have hlater {es : List Edit} (hlength : es.length ≤ i) : ¬ HappensAt es those i :=
      fun h => Nat.not_le_of_gt h.lt_length hlength
    have hall : (es ++ [e]).length ≤ i := by
      rw [List.length_append]
      exact hgt
    simp [hlater hall, hlater (Nat.le_of_lt hgt), Nat.ne_of_gt hgt]

theorem happensAt_snoc_of_lt (hlt : i < es.length) :
    HappensAt (es ++ [e]) those i ↔ HappensAt es those i := by
  rw [happensAt_snoc, or_iff_left]
  exact fun h => Nat.ne_of_lt hlt h.1

theorem happensAt_snoc_of_not (hother : those e = false) :
    HappensAt (es ++ [e]) those i ↔ HappensAt es those i := by
  simp [happensAt_snoc, hother]

theorem happensAt_length (hlast : those e = true) : HappensAt (es ++ [e]) those es.length :=
  happensAt_snoc.mpr (.inr ⟨rfl, hlast⟩)

namespace EntersAt

theorem lt_length (h : EntersAt es name i) : i < es.length := h.set.lt_length

/-- One call brings a name in. -/
theorem unique (hi : EntersAt es name i) (hj : EntersAt es name j) : i = j := by
  have hle {i j : Nat} (hi : EntersAt es name i) (hj : EntersAt es name j) : j ≤ i := by
    by_contra hlt
    obtain ⟨r, hbehind, -, hremoved⟩ := hj.first i (Nat.lt_of_not_le hlt) hi.set
    exact hi.stays r hbehind hremoved
  exact Nat.le_antisymm (hle hj hi) (hle hi hj)

/-- What has come in stays in its place until it is removed. -/
theorem snoc (h : EntersAt es name i) (hkeep : e.removes name = false) :
    EntersAt (es ++ [e]) name i where
  set := (happensAt_snoc_of_lt h.lt_length).mpr h.set
  stays j hj hremoved := h.stays j hj ((happensAt_snoc_of_not hkeep).mp hremoved)
  first k hk hset := by
    obtain ⟨j, hkj, hji, hremoved⟩ :=
      h.first k hk ((happensAt_snoc_of_lt (Nat.lt_trans hk h.lt_length)).mp hset)
    exact ⟨j, hkj, hji, (happensAt_snoc_of_lt (Nat.lt_trans hji h.lt_length)).mpr hremoved⟩

/-- A name that came in before the last call came in with the calls before it. -/
theorem of_snoc (h : EntersAt (es ++ [e]) name i) (hlt : i < es.length) : EntersAt es name i where
  set := (happensAt_snoc_of_lt hlt).mp h.set
  stays j hj hremoved := h.stays j hj (happensAt_snoc.mpr (.inl hremoved))
  first k hk hset := by
    obtain ⟨j, hkj, hji, hremoved⟩ := h.first k hk (happensAt_snoc.mpr (.inl hset))
    exact ⟨j, hkj, hji, (happensAt_snoc_of_lt (Nat.lt_trans hji hlt)).mp hremoved⟩

theorem of_snoc_of_not_sets (h : EntersAt (es ++ [e]) name i) (hother : e.sets name = false) :
    EntersAt es name i :=
  h.of_snoc ((happensAt_snoc_of_not hother).mp h.set).lt_length

/-- The last call brings no name in that is there. -/
theorem of_snoc_of_entersAt (h : EntersAt (es ++ [e]) name i) (hthere : EntersAt es name j) :
    EntersAt es name i := by
  rcases happensAt_snoc.mp h.set with hold | ⟨rfl, -⟩
  · exact h.of_snoc hold.lt_length
  · obtain ⟨r, hbehind, hbefore, hremoved⟩ :=
      h.first j hthere.lt_length (happensAt_snoc.mpr (.inl hthere.set))
    exact absurd ((happensAt_snoc_of_lt hbefore).mp hremoved) (hthere.stays r hbehind)

end EntersAt

/-- A name has no value exactly if it has been removed since whatever set it. -/
theorem heldValue?_eq_none_iff (es : List Edit) (name : Text) :
    heldValue? es name = none ↔
      ∀ k, HappensAt es (Edit.sets name) k → ∃ j, k < j ∧ HappensAt es (Edit.removes name) j := by
  induction es using List.reverseRecOn with
  | nil => simp [heldValue?, HappensAt]
  | append_singleton es e ih =>
      rw [heldValue?_snoc]
      cases hremoves : e.removes name with
      | true =>
          obtain ⟨hnone, hkeep⟩ := Edit.of_removes hremoves
          simp only [hkeep, Bool.or_true, if_true, hnone, true_iff]
          intro k hset
          have hold := (happensAt_snoc_of_not hkeep).mp hset
          exact ⟨es.length, hold.lt_length, happensAt_length hremoves⟩
      | false =>
          simp only [happensAt_snoc_of_not hremoves, Bool.or_false]
          cases hsets : e.sets name with
          | true =>
              have hvalue : e.value? ≠ none :=
                Option.isSome_iff_ne_none.mp (Edit.value?_of_sets hsets)
              refine iff_of_false (by simpa using hvalue) fun hall => ?_
              obtain ⟨j, hbehind, hold⟩ := hall es.length (happensAt_length hsets)
              exact Nat.lt_asymm hbehind hold.lt_length
          | false => simpa [happensAt_snoc_of_not hsets] using ih

/-- A name has a value exactly if a call has brought it in. -/
theorem exists_entersAt_iff (es : List Edit) (name : Text) :
    (∃ i, EntersAt es name i) ↔ (heldValue? es name).isSome = true := by
  constructor
  · rintro ⟨i, h⟩
    rw [Option.isSome_iff_ne_none, Ne, heldValue?_eq_none_iff]
    intro hall
    obtain ⟨j, hbehind, hremoved⟩ := hall i h.set
    exact h.stays j hbehind hremoved
  · induction es using List.reverseRecOn with
    | nil => exact fun h => by cases h
    | append_singleton es e ih =>
        intro hheld
        have hkeep : e.removes name = false := by
          rw [← Bool.not_eq_true]
          intro hremoves
          simp [heldValue?_snoc, hremoves, (Edit.of_removes hremoves).1] at hheld
        cases hbefore : heldValue? es name with
        | some value =>
            obtain ⟨i, h⟩ := ih (by rw [hbefore]; rfl)
            exact ⟨i, h.snoc hkeep⟩
        | none =>
            have hsets : e.sets name = true := by
              rw [← Bool.not_eq_false]
              intro hother
              simp [heldValue?_snoc, hother, hkeep, hbefore] at hheld
            refine ⟨es.length, happensAt_length hsets, ?_, ?_⟩
            · intro j hj hremoved
              have hlt := hremoved.lt_length
              rw [List.length_append, List.length_singleton] at hlt
              omega
            · intro k hk hset
              obtain ⟨j, hbehind, hremoved⟩ := (heldValue?_eq_none_iff es name).mp hbefore k
                ((happensAt_snoc_of_lt hk).mp hset)
              exact ⟨j, hbehind, hremoved.lt_length, happensAt_snoc.mpr (.inl hremoved)⟩

theorem get?_edited (es : List Edit) (name : Text) :
    (edited es).get? name = heldValue? es name := by
  induction es using List.reverseRecOn with
  | nil => rfl
  | append_singleton es e ih =>
      rw [edited_snoc, heldValue?_snoc]
      cases e with
      | set other value =>
          rw [Edit.apply, get?_set, ih]
          simp [Edit.sets, Edit.removes, Edit.value?]
      | remove other =>
          rw [Edit.apply, remove, get?_erase, ih]
          simp [Edit.sets, Edit.removes, Edit.value?]

/-- A stored name has been brought in. -/
theorem exists_entersAt_of_mem (hname : name ∈ (edited es).toList.map Attribute.name) :
    ∃ i, EntersAt es name i := by
  obtain ⟨a, ha, rfl⟩ := List.mem_map.mp hname
  rw [exists_entersAt_iff, ← get?_edited, isSome_get?_iff, List.any_eq_true]
  exact ⟨a, ha, beq_self_eq_true _⟩

/-! ## Order -/

/-- The name `first` has come in before the name `second`. -/
def EntersBefore (es : List Edit) (first second : Text) : Prop :=
  ∀ i j, EntersAt es first i → EntersAt es second j → i < j

variable {first second : Text}

/-- One more call brings in neither of two names that are there. -/
theorem EntersBefore.snoc (h : EntersBefore es first second) (hfirst : ∃ i, EntersAt es first i)
    (hsecond : ∃ j, EntersAt es second j) : EntersBefore (es ++ [e]) first second := by
  obtain ⟨_, hfirst⟩ := hfirst
  obtain ⟨_, hsecond⟩ := hsecond
  intro i j hi hj
  exact h i j (hi.of_snoc_of_entersAt hfirst) (hj.of_snoc_of_entersAt hsecond)

/-- A name that is not there can only come in with the last call, behind a name that is. -/
theorem entersBefore_snoc_of_new (hfirst : ∃ i, EntersAt es first i)
    (hnew : ¬ ∃ j, EntersAt es second j) : EntersBefore (es ++ [e]) first second := by
  obtain ⟨_, hfirst⟩ := hfirst
  intro i j hi hj
  rcases happensAt_snoc.mp hj.set with hset | ⟨rfl, -⟩
  · exact absurd ⟨j, hj.of_snoc hset.lt_length⟩ hnew
  · exact (hi.of_snoc_of_entersAt hfirst).lt_length

theorem pairwise_entersBefore (es : List Edit) :
    ((edited es).toList.map Attribute.name).Pairwise (EntersBefore es) := by
  induction es using List.reverseRecOn with
  | nil => exact .nil
  | append_singleton es e ih =>
      rw [edited_snoc]
      cases e with
      | remove other =>
          refine (ih.sublist (List.eraseP_sublist.map Attribute.name)).imp ?_
          intro first second hbefore i j hi hj
          exact hbefore i j (hi.of_snoc_of_not_sets rfl) (hj.of_snoc_of_not_sets rfl)
      | set other value =>
          have hkept : ((edited es).toList.map Attribute.name).Pairwise
              (EntersBefore (es ++ [.set other value])) := by
            refine ih.imp_of_mem fun hfirst hsecond hbefore => ?_
            exact hbefore.snoc (exists_entersAt_of_mem hfirst) (exists_entersAt_of_mem hsecond)
          have hnames : (Edit.apply (edited es) (.set other value)).toList.map Attribute.name =
              if (edited es).toList.any (fun a => Text.sameName a.name other) then
                (edited es).toList.map Attribute.name
              else (edited es).toList.map Attribute.name ++ [Text.lower other] :=
            Attribute.names_setIn other value (edited es).toList
          rw [hnames]
          split
          · exact hkept
          · rename_i hnew
            have habsent : ¬ ∃ j, EntersAt es (Text.lower other) j := by
              rw [exists_entersAt_iff, ← get?_edited, isSome_get?_iff]
              simpa only [Text.sameName, Text.lower_lower] using hnew
            refine List.pairwise_append.mpr ⟨hkept, List.pairwise_singleton _ _, ?_⟩
            intro first hfirst second hsecond
            rw [List.mem_singleton.mp hsecond]
            exact entersBefore_snoc_of_new (exists_entersAt_of_mem hfirst) habsent

/-- What calls make of attributes that are empty at first. -/
structure Records (es : List Edit) (as : Attributes) : Prop where
  /-- Stored names differ in more than the case of their letters. -/
  distinct : as.toList.Pairwise fun a b => Text.sameName a.name b.name = false
  /-- Stored names have no capitals. -/
  small : ∀ a ∈ as.toList, ∀ c ∈ a.name, c.isUpper = false
  /-- In any spelling a name has the value that it was given last and that has not been removed
  since. -/
  get? : ∀ name, as.get? name = heldValue? es name
  contains : ∀ name, as.contains name = (heldValue? es name).isSome
  remove : ∀ name, (as.remove name).1 = heldValue? es name
  /-- Each stored name has been brought in by one call. -/
  entered : ∀ a ∈ as.toList, ∃! i, EntersAt es a.name i
  /-- Names stand in the order in which they have come in. -/
  ordered : as.toList.Pairwise fun a b => EntersBefore es a.name b.name

/-- Attributes are an ordered map from names, in whatever case, to values. -/
theorem records_edited (es : List Edit) : Records es (edited es) where
  distinct := (edited es).pairwise_sameName
  small _ ha _ hc := isUpper_eq_false ha hc
  get? := get?_edited es
  contains name := by rw [contains, get?_edited]
  remove name := by rw [remove_fst, get?_edited]
  entered a ha := by
    obtain ⟨i, hi⟩ := exists_entersAt_of_mem (List.mem_map_of_mem ha)
    exact ⟨i, hi, fun j hj => hj.unique hi⟩
  ordered := List.pairwise_map.mp (pairwise_entersBefore es)

/-- A name that is removed and set again comes last. -/
example : (edited [.set "Href" "a", .set "id" "b", .set "HREF" "c", .remove "href",
    .set "hRef" "d", .set "ID" "e"]).toList = [⟨"id", "e"⟩, ⟨"href", "d"⟩] := by decide

end Attributes

end Letterpress
