/-
# The order of a walk

A walk meets every element of a tree once, and it goes up the lexicographic order of their paths:
a parent comes before what stands in it, and that before the next child (`map_snd_located`,
`pairwise_located`, `mem_located_iff`). A search for a tag is not a walk, as it leaves off at its
first success, on every level. What it finds is the first element with the tag that a walk meets
(`find?_eq_find?_elements`).

Two elements may look the same, so a place in a tree is told by its path and not by what stands
there. The root of a tree is an exception, for it is larger than everything inside it.
-/

import Letterpress.Markup.Path

namespace Letterpress

namespace Node

/-! ## Elements -/

theorem elementsOfAll_eq_flatMap (ns : List Node) : elementsOfAll ns = ns.flatMap elements := by
  induction ns with
  | nil => rfl
  | cons n ns ih => rw [elementsOfAll, List.flatMap_cons, ih]

theorem elementsOfAll_append (ns ms : List Node) :
    elementsOfAll (ns ++ ms) = elementsOfAll ns ++ elementsOfAll ms := by
  simp only [elementsOfAll_eq_flatMap, List.flatMap_append]

mutual

/-- A walk from an element onwards is a part of every walk that meets the element. -/
theorem elements_sublist_of_mem :
    ∀ (n : Node) {e : Element}, e ∈ n.elements → e.elements.Sublist n.elements
  | .element _ _ children, _, he => by
      rcases List.mem_cons.mp he with rfl | hinside
      · exact List.Sublist.refl _
      · exact (elements_sublist_elementsOfAll_of_mem children hinside).cons _

theorem elements_sublist_elementsOfAll_of_mem :
    ∀ (ns : List Node) {e : Element}, e ∈ elementsOfAll ns → e.elements.Sublist (elementsOfAll ns)
  | n :: rest, _, he => by
      rcases List.mem_append.mp he with hhere | hlater
      · exact (elements_sublist_of_mem n hhere).trans (List.sublist_append_left _ _)
      · exact (elements_sublist_elementsOfAll_of_mem rest hlater).trans
          (List.sublist_append_right _ _)

end

mutual

/-- A search finds the first element with the tag that a walk meets. -/
theorem find?_eq_find?_elements (tag : Tag) :
    ∀ n : Node, n.find? tag = n.elements.find? (·.tag = tag)
  | .element t attributes children => by
      rw [find?, elements, List.find?_cons]
      by_cases htag : t = tag
      · rw [if_pos htag, decide_eq_true htag]
      · rw [if_neg htag, decide_eq_false htag]
        exact findAmong?_eq_find?_elementsOfAll tag children
  | .text _ => rfl
  | .comment _ => rfl

theorem findAmong?_eq_find?_elementsOfAll (tag : Tag) :
    ∀ ns : List Node, findAmong? tag ns = (elementsOfAll ns).find? (·.tag = tag)
  | [] => rfl
  | n :: rest => by
      rw [findAmong?, elementsOfAll, List.find?_append, find?_eq_find?_elements tag n,
        findAmong?_eq_find?_elementsOfAll tag rest]

end

/-! ## Paths -/

mutual

/-- The elements of a node in the order of the walk, each with its path. -/
def located : Node → List (List Nat × Element)
  | .element tag attributes children =>
    ([], ⟨tag, attributes, children⟩) :: locatedAmong 0 children
  | _ => []

/-- The elements of neighbouring nodes with their paths from the parent, of which the first
element among the nodes is child number `i`. -/
def locatedAmong : Nat → List Node → List (List Nat × Element)
  | _, [] => []
  | i, n :: rest =>
    n.located.map (Prod.map (i :: ·) id) ++
      locatedAmong (if n.toElement?.isSome then i + 1 else i) rest

end

mutual

/-- Without their paths these are the elements that a walk meets. -/
theorem map_snd_located : ∀ n : Node, n.located.map Prod.snd = n.elements
  | .element _ _ children => congrArg (_ :: ·) (map_snd_locatedAmong 0 children)
  | .text _ => rfl
  | .comment _ => rfl

theorem map_snd_locatedAmong :
    ∀ (i : Nat) (ns : List Node), (locatedAmong i ns).map Prod.snd = elementsOfAll ns
  | _, [] => rfl
  | i, n :: rest => by
      rw [locatedAmong, elementsOfAll, List.map_append, List.map_map, map_snd_locatedAmong _ rest]
      exact congrArg (· ++ _) (map_snd_located n)

end

theorem locatedAmong_eq_flatMap (i : Nat) (ns : List Node) :
    locatedAmong i ns = ((ns.filterMap toElement?).zipIdx i).flatMap
      fun (c, j) => c.toNode.located.map (Prod.map (j :: ·) id) := by
  induction ns generalizing i with
  | nil => rfl
  | cons n rest ih =>
      rw [locatedAmong, ih]
      cases n with
      | element | text | comment => rfl

/-- A path to an element among neighbouring nodes begins with the number of a child and goes on
inside that child. -/
theorem mem_locatedAmong_iff {i : Nat} {ns : List Node} {path : List Nat} {e : Element} :
    (path, e) ∈ locatedAmong i ns ↔ ∃ j inner, path = (i + j) :: inner ∧
      ∃ c, (ns.filterMap toElement?)[j]? = some c ∧ (inner, e) ∈ c.toNode.located := by
  rw [locatedAmong_eq_flatMap, List.mem_flatMap]
  constructor
  · rintro ⟨⟨c, k⟩, hchild, hmem⟩
    obtain ⟨hfrom, hget⟩ := List.mem_zipIdx_iff_le_and_getElem?_sub.mp hchild
    obtain ⟨⟨inner, d⟩, hinner, hlocated⟩ := List.mem_map.mp hmem
    cases hlocated
    have hnumber : k = i + (k - i) := (Nat.add_sub_of_le hfrom).symm
    exact ⟨k - i, inner, congrArg (· :: inner) hnumber, c, hget, hinner⟩
  · rintro ⟨j, inner, rfl, c, hget, hinner⟩
    have hchild : (c, i + j) ∈ (ns.filterMap toElement?).zipIdx i := by
      rw [List.mem_zipIdx_iff_le_and_getElem?_sub, Nat.add_sub_cancel_left]
      exact ⟨Nat.le_add_right i j, hget⟩
    exact ⟨(c, i + j), hchild, List.mem_map_of_mem (f := Prod.map ((i + j) :: ·) id) hinner⟩

mutual

/-- The paths go up in lexicographic order. -/
theorem pairwise_located : ∀ n : Node, n.located.Pairwise (·.1 < ·.1)
  | .element _ _ children => by
      refine List.pairwise_cons.mpr ⟨?_, pairwise_locatedAmong 0 children⟩
      rintro ⟨path, e⟩ hmem
      obtain ⟨j, inner, rfl, -⟩ := mem_locatedAmong_iff.mp hmem
      exact List.nil_lt_cons _ _
  | .text _ => .nil
  | .comment _ => .nil

theorem pairwise_locatedAmong :
    ∀ (i : Nat) (ns : List Node), (locatedAmong i ns).Pairwise (·.1 < ·.1)
  | _, [] => .nil
  | i, n :: rest => by
      have hhere := (pairwise_located n).map (S := fun x y => x.1 < y.1) (Prod.map (i :: ·) id)
        fun _ _ h => List.cons_lt_cons_self.mpr h
      refine List.pairwise_append.mpr ⟨hhere, pairwise_locatedAmong _ rest, ?_⟩
      rintro ⟨path, e⟩ hpath ⟨later, d⟩ hlater
      obtain ⟨⟨inner, _⟩, hinner, hlocated⟩ := List.mem_map.mp hpath
      cases hlocated
      obtain ⟨j, further, rfl, -⟩ := mem_locatedAmong_iff.mp hlater
      -- Only an element has a path to it, and behind an element the numbers are greater.
      cases n with
      | text | comment => cases hinner
      | element tag attributes children =>
          have hnumber : i < i + 1 + j := by omega
          exact List.cons_lt_cons_iff.mpr (.inl hnumber)

end

end Node

/-- Where paths go up, the first element of a kind is the one with the least path. -/
theorem find?_eq_some_iff_least {l : List (List Nat × Element)}
    (hup : l.Pairwise (·.1 < ·.1)) {p : List Nat × Element → Bool} {x : List Nat × Element} :
    l.find? p = some x ↔ x ∈ l ∧ p x = true ∧ ∀ y ∈ l, y.1 < x.1 → p y = false := by
  constructor
  · intro hfind
    obtain ⟨hx, before, after, rfl, hbefore⟩ := List.find?_eq_some_iff_append.mp hfind
    refine ⟨List.mem_append_right _ List.mem_cons_self, hx, fun y hy hless => ?_⟩
    rcases List.mem_append.mp hy with hy | hy
    · simpa using hbefore y hy
    · rcases List.mem_cons.mp hy with rfl | hafter
      · exact absurd hless (List.lt_irrefl _)
      · have hgreater := (List.pairwise_cons.mp (List.pairwise_append.mp hup).2.1).1 y hafter
        exact absurd hless (List.lt_asymm hgreater)
  · rintro ⟨hmem, hx, hleast⟩
    obtain ⟨before, after, rfl⟩ := List.append_of_mem hmem
    have hbefore : ∀ y ∈ before, (!p y) = true := by
      intro y hy
      have hless := (List.pairwise_append.mp hup).2.2 y hy x List.mem_cons_self
      rw [hleast y (List.mem_append_left _ hy) hless]
      rfl
    exact List.find?_eq_some_iff_append.mpr ⟨hx, before, after, rfl, hbefore⟩

namespace Element

variable {root e : Element} {tag : Tag} {path : List Nat}

/-- The elements of a tree in the order of the walk, each with its path. -/
def located (root : Element) : List (List Nat × Element) := root.toNode.located

/-- The located elements are those that paths lead to. -/
theorem mem_located_iff : (path, e) ∈ root.located ↔ root.at? path = some e := by
  change (path, e) ∈ ([], root) :: Node.locatedAmong 0 root.children ↔ _
  induction path generalizing root with
  | nil => simp [Node.mem_locatedAmong_iff, at?, eq_comm]
  | cons i inner ih =>
      have hchild (c : Element) : (inner, e) ∈ c.toNode.located ↔ c.at? inner = some e := ih
      simp [Node.mem_locatedAmong_iff, at?, Option.bind_eq_some_iff, hchild, elementChildren,
        and_assoc]

/-- Inside a tree all paths but that of the root lead to elements. -/
theorem mem_locatedAmong_children_iff :
    (path, e) ∈ Node.locatedAmong 0 root.children ↔ path ≠ [] ∧ root.at? path = some e := by
  rw [← mem_located_iff]
  change _ ↔ _ ∧ _ ∈ ([], root) :: Node.locatedAmong 0 root.children
  cases path with
  | nil => simp [Node.mem_locatedAmong_iff]
  | cons i inner => simp

/-- No element stands inside itself. -/
theorem not_mem_elementsOfAll_children (root : Element) :
    root ∉ Node.elementsOfAll root.children := by
  intro hinside
  have hpart : (root :: Node.elementsOfAll root.children).Sublist
      (Node.elementsOfAll root.children) :=
    Node.elements_sublist_elementsOfAll_of_mem root.children hinside
  exact absurd hpart.length_le (Nat.not_succ_le_self _)

/-- Below the root, the path leads to an element with the tag, and no earlier one does. -/
structure IsFirstInside (root : Element) (tag : Tag) (path : List Nat) (e : Element) : Prop where
  ne_nil : path ≠ []
  at?_eq : root.at? path = some e
  tag_eq : e.tag = tag
  tag_ne : ∀ earlier < path, earlier ≠ [] → ∀ d, root.at? earlier = some d → d.tag ≠ tag

/-- An element is found exactly if it stands at the first of the paths to elements with the
tag. -/
theorem findInside?_eq_some_iff :
    root.findInside? tag = some e ↔ ∃ path, root.IsFirstInside tag path e := by
  have hlocated : root.findInside? tag =
      ((Node.locatedAmong 0 root.children).find? fun x => x.2.tag = tag).map Prod.snd := by
    rw [findInside?, Node.findAmong?_eq_find?_elementsOfAll, ← Node.map_snd_locatedAmong 0,
      List.find?_map]
    rfl
  have hleast (path : List Nat) :
      ((Node.locatedAmong 0 root.children).find? fun x => x.2.tag = tag) = some (path, e) ↔
        root.IsFirstInside tag path e := by
    rw [find?_eq_some_iff_least (Node.pairwise_locatedAmong 0 root.children),
      mem_locatedAmong_children_iff, decide_eq_true_iff]
    constructor
    · rintro ⟨⟨hne, hat⟩, htag, hearlier⟩
      refine ⟨hne, hat, htag, fun earlier hless hbelow d hd => ?_⟩
      exact of_decide_eq_false
        (hearlier (earlier, d) (mem_locatedAmong_children_iff.mpr ⟨hbelow, hd⟩) hless)
    · rintro ⟨hne, hat, htag, hearlier⟩
      refine ⟨⟨hne, hat⟩, htag, fun (earlier, d) hd hless => ?_⟩
      obtain ⟨hbelow, hat'⟩ := mem_locatedAmong_children_iff.mp hd
      exact decide_eq_false (hearlier earlier hless hbelow d hat')
  rw [hlocated, Option.map_eq_some_iff]
  constructor
  · rintro ⟨⟨path, d⟩, hfind, rfl⟩
    exact ⟨path, (hleast path).mp hfind⟩
  · rintro ⟨path, hfirst⟩
    exact ⟨(path, e), (hleast path).mpr hfirst, rfl⟩

/-- A search inside a tree answers with the first element with the tag in the order of the walk,
the root left out, and with none exactly if there is none. It never answers with the root, and
what it finds stands before all other such elements by its path as well. -/
theorem findInside?_finds_first (root : Element) (tag : Tag) :
    root.findInside? tag = root.elements.tail.find? (·.tag = tag) ∧
      (root.findInside? tag = none ↔ ∀ e ∈ root.elements.tail, e.tag ≠ tag) ∧
      root.findInside? tag ≠ some root ∧
      ∀ e, root.findInside? tag = some e ↔ ∃ path, root.IsFirstInside tag path e := by
  have hwalk : root.findInside? tag = root.elements.tail.find? (·.tag = tag) :=
    Node.findAmong?_eq_find?_elementsOfAll tag root.children
  refine ⟨hwalk, ?_, ?_, fun e => findInside?_eq_some_iff⟩
  · rw [hwalk, List.find?_eq_none]
    simp only [decide_eq_true_eq, ne_eq]
  · intro hself
    rw [hwalk] at hself
    exact not_mem_elementsOfAll_children root (List.mem_of_find?_eq_some hself)

/-- What stands deeper in an earlier child comes first, and a division that looks for a division
passes itself by. -/
example :
    let small : Node := .element .img (.ofList [⟨"src", "1.png"⟩]) []
    let large : Node := .element .img (.ofList [⟨"src", "2.png"⟩]) []
    let division : Element := ⟨.div, .empty, [.element .span .empty [small], large]⟩
    ((division.findInside? .img).bind (·.attribute? "src") = some "1.png") ∧
      (division.findInside? .div).isNone = true := by decide

end Element

end Letterpress
