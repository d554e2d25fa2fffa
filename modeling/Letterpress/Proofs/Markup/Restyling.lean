/-
# Trees that differ in attributes

The passes over a content tree change attributes and nothing else. `Alike r`
says so of two trees: they agree in tags, texts, comments and the order of
children, and `r` relates the attributes of every element before and after. A
statement about a pass is then one about the attributes of a single element.

The laws of setting an attribute stand here as well: a value set is found again,
and attributes of other names keep their names, values and order.
-/

import Letterpress.Markup.Node

namespace Letterpress

/-! ## Setting an attribute -/

namespace Attribute

/-- A value is found under its name, and nothing else changes under others. -/
theorem find?_setIn (name value other : Text) (as : List Attribute) :
    ((setIn name value as).find? fun a => Text.sameName a.name other).map Attribute.value =
      if Text.sameName name other then some value
      else (as.find? fun a => Text.sameName a.name other).map Attribute.value := by
  induction as with
  | nil => simp [setIn, Text.sameName]
  | cons a rest ih =>
      by_cases hsame : Text.sameName a.name name
      · have hother : Text.sameName a.name other = Text.sameName name other := by
          rw [Text.sameName, beq_iff_eq.mp hsame, Text.sameName]
        by_cases hfound : Text.sameName name other <;> simp [setIn, hsame, hother, hfound]
      · by_cases hfound : Text.sameName a.name other
        · have hname : Text.sameName name other = false := by
            rw [← Bool.not_eq_true]
            intro hname
            exact hsame (beq_iff_eq.mpr ((beq_iff_eq.mp hfound).trans (beq_iff_eq.mp hname).symm))
          simp [setIn, hsame, hfound, hname]
        · simpa [setIn, hsame, hfound] using ih

/-- Giving a name the value that it has changes nothing. -/
theorem setIn_eq_self {name value : Text} {as : List Attribute}
    (hvalue : (as.find? fun a => Text.sameName a.name name).map Attribute.value = some value) :
    setIn name value as = as := by
  induction as with
  | nil => cases hvalue
  | cons a rest ih =>
      by_cases hsame : Text.sameName a.name name
      · have hself : a.value = value := by simpa [hsame] using hvalue
        rw [setIn, if_pos hsame, ← hself]
      · rw [setIn, if_neg hsame, ih (by simpa [hsame] using hvalue)]

/-- Attributes of other names stay as they are. -/
theorem filter_setIn {keep : Text → Bool} {name : Text}
    (hother : ∀ n, Text.sameName n name = true → keep n = false) (value : Text)
    (as : List Attribute) :
    (setIn name value as).filter (fun a => keep a.name) = as.filter fun a => keep a.name := by
  induction as with
  | nil => simp [setIn, hother (Text.lower name) (by simp [Text.sameName])]
  | cons a rest ih =>
      by_cases hsame : Text.sameName a.name name
      · simp [setIn, hsame, hother a.name hsame]
      · simp [setIn, hsame, List.filter_cons, ih]

/-- A value is replaced in its place. -/
theorem setIn_append_cons {name value : Text} {earlier later : List Attribute} {a : Attribute}
    (hearlier : ∀ b ∈ earlier, Text.sameName b.name name = false)
    (hname : Text.sameName a.name name = true) :
    setIn name value (earlier ++ a :: later) = earlier ++ ⟨a.name, value⟩ :: later := by
  induction earlier with
  | nil => rw [List.nil_append, List.nil_append, setIn, if_pos hname]
  | cons b earlier ih =>
      have hother := hearlier b List.mem_cons_self
      rw [List.cons_append, List.cons_append, setIn, hother, if_neg Bool.false_ne_true,
        ih fun c hc => hearlier c (List.mem_cons_of_mem b hc)]

/-- A new name comes last. -/
theorem setIn_of_new {name : Text} (value : Text) {as : List Attribute}
    (hnew : ∀ a ∈ as, Text.sameName a.name name = false) :
    setIn name value as = as ++ [⟨Text.lower name, value⟩] := by
  induction as with
  | nil => rfl
  | cons a rest ih =>
      rw [setIn, hnew a (by simp), ih fun b hb => hnew b (by simp [hb])]
      rfl

/-- Setting a value adds nothing but the name with that value. -/
theorem mem_setIn {a : Attribute} {name value : Text} {as : List Attribute}
    (hlower : ∀ b ∈ as, Text.lower b.name = b.name) (ha : a ∈ setIn name value as) :
    a ∈ as ∨ a = ⟨Text.lower name, value⟩ := by
  induction as with
  | nil => exact .inr (List.mem_singleton.mp ha)
  | cons b rest ih =>
      rw [setIn] at ha
      split at ha
      · rename_i hsame
        have hname : b.name = Text.lower name := by
          rw [← hlower b (by simp)]
          exact beq_iff_eq.mp hsame
        rcases List.mem_cons.mp ha with hset | hrest
        · exact .inr (hname ▸ hset)
        · exact .inl (by simp [hrest])
      · rcases List.mem_cons.mp ha with hfirst | hrest
        · exact .inl (by simp [hfirst])
        · rcases ih (fun c hc => hlower c (by simp [hc])) hrest with hold | hnew
          · exact .inl (by simp [hold])
          · exact .inr hnew

end Attribute

namespace Attributes

theorem mem_set {as : Attributes} {a : Attribute} {name value : Text}
    (ha : a ∈ (as.set name value).toList) : a ∈ as.toList ∨ a = ⟨Text.lower name, value⟩ :=
  Attribute.mem_setIn as.lower_name ha

/-- What a list of attributes is set to comes from the list. -/
theorem mem_ofList {as : List Attribute} {a : Attribute} (ha : a ∈ (ofList as).toList) :
    ∃ b ∈ as, a = ⟨Text.lower b.name, b.value⟩ := by
  have hfold (more : List Attribute) (done : Attributes)
      (hmem : a ∈ (more.foldl (fun done b => done.set b.name b.value) done).toList) :
      a ∈ done.toList ∨ ∃ b ∈ more, a = ⟨Text.lower b.name, b.value⟩ := by
    induction more generalizing done with
    | nil => exact .inl hmem
    | cons b more ih =>
        rcases ih (done.set b.name b.value) hmem with hset | ⟨c, hc, heq⟩
        · rcases mem_set hset with hold | hnew
          · exact .inl hold
          · exact .inr ⟨b, by simp, hnew⟩
        · exact .inr ⟨c, by simp [hc], heq⟩
  rcases hfold as empty ha with hnone | hlisted
  · cases hnone
  · exact hlisted

theorem eq_of_toList {as bs : Attributes} (hlist : as.toList = bs.toList) : as = bs := by
  cases as
  cases bs
  cases hlist
  rfl

/-- Setting attributes of new names one after another lists them. -/
theorem toList_foldl_set (more : List Attribute) (done : Attributes)
    (hlower : ∀ a ∈ more, Text.lower a.name = a.name)
    (hnodup : ((done.toList ++ more).map Attribute.name).Nodup) :
    (more.foldl (fun done a => done.set a.name a.value) done).toList = done.toList ++ more := by
  induction more generalizing done with
  | nil => simp
  | cons a more ih =>
      have hnew : ∀ b ∈ done.toList, Text.sameName b.name a.name = false := by
        intro b hb
        rw [List.map_append, List.nodup_append] at hnodup
        have hne := hnodup.2.2 _ (List.mem_map_of_mem hb) a.name (by simp)
        rw [Text.sameName, done.lower_name b hb, hlower a (by simp)]
        exact beq_false_of_ne hne
      have hset : (done.set a.name a.value).toList = done.toList ++ [a] := by
        have hlist := Attribute.setIn_of_new a.value hnew
        rwa [hlower a (by simp)] at hlist
      rw [List.foldl_cons, ih (done.set a.name a.value) (fun b hb => hlower b (by simp [hb]))
        (by rw [hset]; simpa using hnodup), hset]
      simp

/-- Listing the attributes of an element and setting them again changes nothing. -/
theorem ofList_toList (as : Attributes) : ofList as.toList = as :=
  eq_of_toList (toList_foldl_set as.toList empty as.lower_name
    (by simpa [empty] using as.nodup_names))

/-- The attributes whose names satisfy `keep`, in order. -/
def those (keep : Text → Bool) (as : Attributes) : List Attribute :=
  as.toList.filter fun a => keep a.name

theorem get?_set (as : Attributes) (name value other : Text) :
    (as.set name value).get? other =
      if Text.sameName name other then some value else as.get? other :=
  Attribute.find?_setIn name value other as.toList

@[simp]
theorem get?_set_self (as : Attributes) (name value : Text) :
    (as.set name value).get? name = some value := by
  simp [get?_set, Text.sameName]

theorem set_eq_self {as : Attributes} {name value : Text} (hvalue : as.get? name = some value) :
    as.set name value = as :=
  eq_of_toList (Attribute.setIn_eq_self hvalue)

/-- Of the values that a name is given one after another it keeps the last. -/
theorem get?_foldl_set (more : List Attribute) (as : Attributes) (name : Text) :
    (more.foldl (fun as a => as.set a.name a.value) as).get? name =
      ((more.reverse.find? fun a => Text.sameName a.name name).map Attribute.value).or
        (as.get? name) := by
  induction more generalizing as with
  | nil => rfl
  | cons a more ih =>
      rw [List.foldl_cons, ih, get?_set, List.reverse_cons, List.find?_append]
      cases hlast : more.reverse.find? (fun a => Text.sameName a.name name) with
      | some b => rfl
      | none => by_cases hsame : Text.sameName a.name name <;> simp [hsame]

/-- Names that are given their values once more keep all attributes as they are. -/
theorem foldl_set_eq_self {more : List Attribute} {as : Attributes}
    (hvalues : ∀ a ∈ more, as.get? a.name = some a.value) :
    more.foldl (fun as a => as.set a.name a.value) as = as := by
  induction more with
  | nil => rfl
  | cons a more ih =>
      rw [List.foldl_cons, set_eq_self (hvalues a List.mem_cons_self)]
      exact ih fun b hb => hvalues b (List.mem_cons_of_mem a hb)

/-- A value that is found stands behind attributes of other names. -/
theorem exists_split_of_get? {as : Attributes} {name value : Text}
    (hget : as.get? name = some value) :
    ∃ earlier later, as.toList = earlier ++ ⟨Text.lower name, value⟩ :: later ∧
      ∀ b ∈ earlier, Text.sameName b.name name = false := by
  obtain ⟨⟨stored, value'⟩, hfind, rfl⟩ := Option.map_eq_some_iff.mp hget
  obtain ⟨hname, earlier, later, hsplit, hearlier⟩ := List.find?_eq_some_iff_append.mp hfind
  have hmem : (⟨stored, value'⟩ : Attribute) ∈ as.toList := hsplit ▸ List.mem_append_cons_self
  have hstored : stored = Text.lower name :=
    (as.lower_name _ hmem).symm.trans (beq_iff_eq.mp hname)
  subst hstored
  exact ⟨earlier, later, hsplit, fun b hb => by simpa using hearlier b hb⟩

theorem those_set {keep : Text → Bool} {name : Text}
    (hother : ∀ n, Text.sameName n name = true → keep n = false) (as : Attributes)
    (value : Text) : (as.set name value).those keep = as.those keep :=
  Attribute.filter_setIn hother value as.toList

/-- A name can be looked up among those kept, if it is one of them. -/
theorem get?_eq_of_those {keep : Text → Bool} {as bs : Attributes} {name : Text}
    (hthose : as.those keep = bs.those keep)
    (hkept : ∀ n, Text.sameName n name = true → keep n = true) :
    as.get? name = bs.get? name := by
  have hfind (cs : Attributes) :
      (cs.toList.find? fun a => Text.sameName a.name name) =
        (cs.those keep).find? fun a => Text.sameName a.name name := by
    rw [those, List.find?_filter]
    congr 1
    funext a
    cases hsame : Text.sameName a.name name with
    | true => simp [hkept a.name hsame]
    | false => simp
  rw [get?, get?, hfind as, hfind bs, hthose]

/-- A name stands at most once in the list. -/
theorem countP_sameName_le_one (as : Attributes) (name : Text) :
    as.toList.countP (fun a => Text.sameName a.name name) ≤ 1 := by
  have hcount : as.toList.countP (fun a => Text.sameName a.name name) =
      (as.toList.map Attribute.name).count (Text.lower name) := by
    rw [List.count, List.countP_map]
    apply List.countP_congr
    intro a ha
    simp [Text.sameName, as.lower_name a ha]
  rw [hcount]
  exact List.nodup_iff_count.mp as.nodup_names _

end Attributes

/-! ## Changing the attributes of a tree -/

namespace Node

variable {r : Tag → Attributes → Attributes → Prop}

mutual

/-- Nodes that differ at most in attributes, which `r` relates element by element. -/
inductive Alike (r : Tag → Attributes → Attributes → Prop) : Node → Node → Prop
  | element {tag : Tag} {before after : Attributes} {children children' : List Node} :
      r tag before after → AlikeAll r children children' →
      Alike r (.element tag before children) (.element tag after children')
  | text (content : Text) : Alike r (.text content) (.text content)
  | comment (content : Text) : Alike r (.comment content) (.comment content)

/-- Neighbouring nodes that differ at most in attributes. -/
inductive AlikeAll (r : Tag → Attributes → Attributes → Prop) : List Node → List Node → Prop
  | nil : AlikeAll r [] []
  | cons {n n' : Node} {rest rest' : List Node} :
      Alike r n n' → AlikeAll r rest rest' → AlikeAll r (n :: rest) (n' :: rest')

end

mutual

theorem alike_mapAttributes {f : Tag → Attributes → Attributes}
    (hf : ∀ tag as, r tag as (f tag as)) : ∀ n : Node, Alike r n (n.mapAttributes f)
  | .element tag attributes children => by
      rw [mapAttributes]
      exact .element (hf tag attributes) (alikeAll_mapAttributesOfAll hf children)
  | .text content => .text content
  | .comment content => .comment content

theorem alikeAll_mapAttributesOfAll {f : Tag → Attributes → Attributes}
    (hf : ∀ tag as, r tag as (f tag as)) :
    ∀ ns : List Node, AlikeAll r ns (mapAttributesOfAll f ns)
  | [] => .nil
  | n :: rest => .cons (alike_mapAttributes hf n) (alikeAll_mapAttributesOfAll hf rest)

end

variable (f : Tag → Attributes → Attributes)

mutual

theorem elements_mapAttributes :
    ∀ n : Node, (n.mapAttributes f).elements = n.elements.map (·.mapAttributes f)
  | .element tag attributes children => by
      rw [mapAttributes, elements, elements, elementsOfAll_mapAttributesOfAll children]
      rfl
  | .text _ => rfl
  | .comment _ => rfl

theorem elementsOfAll_mapAttributesOfAll :
    ∀ ns : List Node,
      elementsOfAll (mapAttributesOfAll f ns) = (elementsOfAll ns).map (·.mapAttributes f)
  | [] => rfl
  | n :: rest => by
      rw [mapAttributesOfAll, elementsOfAll, elementsOfAll, List.map_append,
        elements_mapAttributes n, elementsOfAll_mapAttributesOfAll rest]

end

variable {f}

mutual

/-- A pass that changes nothing at any element changes nothing. -/
theorem mapAttributes_eq_self :
    ∀ n : Node, (∀ e ∈ n.elements, f e.tag e.attributes = e.attributes) → n.mapAttributes f = n
  | .element tag attributes children, hself => by
      have hhere : f tag attributes = attributes :=
        hself ⟨tag, attributes, children⟩ List.mem_cons_self
      rw [mapAttributes, hhere, mapAttributesOfAll_eq_self children fun e he =>
        hself e (List.mem_cons_of_mem _ he)]
  | .text _, _ => rfl
  | .comment _, _ => rfl

theorem mapAttributesOfAll_eq_self :
    ∀ ns : List Node, (∀ e ∈ elementsOfAll ns, f e.tag e.attributes = e.attributes) →
      mapAttributesOfAll f ns = ns
  | [], _ => rfl
  | n :: rest, hself => by
      rw [mapAttributesOfAll,
        mapAttributes_eq_self n fun e he => hself e (List.mem_append_left _ he),
        mapAttributesOfAll_eq_self rest fun e he => hself e (List.mem_append_right _ he)]

end

end Node

namespace Element

/-- Trees that differ at most in attributes, which `r` relates element by element, the root
included. -/
def Alike (r : Tag → Attributes → Attributes → Prop) (e e' : Element) : Prop :=
  Node.Alike r e.toNode e'.toNode

/-- A pass relates every element's attributes as it does those of a single element. -/
theorem alike_mapAttributes {r : Tag → Attributes → Attributes → Prop}
    {f : Tag → Attributes → Attributes} (hf : ∀ tag as, r tag as (f tag as)) (e : Element) :
    e.Alike r (e.mapAttributes f) := Node.alike_mapAttributes hf e.toNode

/-- A pass over a tree is the pass over each of its elements. -/
theorem elements_mapAttributes (f : Tag → Attributes → Attributes) (e : Element) :
    (e.mapAttributes f).elements = e.elements.map (·.mapAttributes f) := by
  rw [elements, elements, List.map_cons]
  exact congrArg _ (Node.elementsOfAll_mapAttributesOfAll f e.children)

/-- A pass that keeps what it made of each element keeps what it made of the tree. -/
theorem mapAttributes_mapAttributes {f : Tag → Attributes → Attributes} {e : Element}
    (hkept : ∀ d ∈ e.elements, f d.tag (f d.tag d.attributes) = f d.tag d.attributes) :
    (e.mapAttributes f).mapAttributes f = e.mapAttributes f := by
  have hself : ∀ d ∈ (e.mapAttributes f).elements, f d.tag d.attributes = d.attributes := by
    intro d hd
    rw [elements_mapAttributes] at hd
    obtain ⟨before, hbefore, rfl⟩ := List.mem_map.mp hd
    exact hkept before hbefore
  have hroot : f e.tag (f e.tag e.attributes) = f e.tag e.attributes :=
    hkept e List.mem_cons_self
  rw [mapAttributes, Node.mapAttributesOfAll_eq_self (e.mapAttributes f).children
    fun d hd => hself d (List.mem_cons_of_mem _ hd)]
  exact congrArg (Element.mk e.tag · (e.mapAttributes f).children) hroot

end Element

end Letterpress
