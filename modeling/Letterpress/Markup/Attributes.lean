/-
# Attributes

The attributes of an element in the order in which they were first written.
Names are stored in small letters, each at most once, and are looked up in any
case. The list carries the proof of that, so no tree can hold an attribute
twice.
-/

import Letterpress.Text.Basic

namespace Letterpress

/-- One attribute. -/
structure Attribute where
  name : Text
  value : Text
  deriving DecidableEq

namespace Attribute

/-- The list after a name has got a value: in its place if it has one already, at the end
otherwise. -/
def setIn (name value : Text) : List Attribute → List Attribute
  | [] => [⟨Text.lower name, value⟩]
  | a :: rest =>
    if Text.sameName a.name name then ⟨a.name, value⟩ :: rest else a :: setIn name value rest

/-- Setting a value adds a name at most at the end, and then in small letters. -/
theorem names_setIn (name value : Text) (as : List Attribute) :
    (setIn name value as).map Attribute.name =
      if as.any (fun a => Text.sameName a.name name) then as.map Attribute.name
      else as.map Attribute.name ++ [Text.lower name] := by
  induction as with
  | nil => simp [setIn]
  | cons a rest ih =>
      by_cases hsame : Text.sameName a.name name
      · simp [setIn, hsame]
      · simp only [setIn, hsame, Bool.false_eq_true, if_false, List.map_cons, ih,
          List.any_cons, Bool.false_or]
        split <;> simp

end Attribute

/-- An ordered map from names, up to ASCII case, to values. -/
structure Attributes where
  toList : List Attribute
  /-- Names are stored in small letters. -/
  lower_name : ∀ a ∈ toList, Text.lower a.name = a.name
  /-- No name is stored twice. -/
  nodup_names : (toList.map Attribute.name).Nodup
  deriving DecidableEq

namespace Attributes

/-- No attributes. -/
def empty : Attributes := ⟨[], by simp, by simp⟩

/-- The value of a name. -/
def get? (as : Attributes) (name : Text) : Option Text :=
  (as.toList.find? fun a => Text.sameName a.name name).map Attribute.value

/-- Whether a name has a value. -/
def contains (as : Attributes) (name : Text) : Bool := (as.get? name).isSome

/-- Gives the name a value: in its place if it has one already, at the end otherwise. -/
def set (as : Attributes) (name value : Text) : Attributes where
  toList := Attribute.setIn name value as.toList
  lower_name := by
    have hnames : ∀ n ∈ (Attribute.setIn name value as.toList).map Attribute.name,
        Text.lower n = n := by
      intro n hn
      rw [Attribute.names_setIn] at hn
      split at hn
      · obtain ⟨a, ha, rfl⟩ := List.mem_map.mp hn
        exact as.lower_name a ha
      · rcases List.mem_append.mp hn with hold | hnew
        · obtain ⟨a, ha, rfl⟩ := List.mem_map.mp hold
          exact as.lower_name a ha
        · rw [List.mem_singleton.mp hnew, Text.lower_lower]
    exact fun a ha => hnames a.name (List.mem_map_of_mem ha)
  nodup_names := by
    rw [Attribute.names_setIn]
    split
    · exact as.nodup_names
    · rename_i habsent
      refine List.nodup_append.mpr ⟨as.nodup_names, by simp, ?_⟩
      intro n hn m hm heq
      obtain ⟨a, ha, rfl⟩ := List.mem_map.mp hn
      refine habsent (List.any_eq_true.mpr ⟨a, ha, ?_⟩)
      rw [List.mem_singleton.mp hm] at heq
      simp [Text.sameName, heq]

/-- The attributes without the name. -/
def erase (as : Attributes) (name : Text) : Attributes where
  toList := as.toList.eraseP fun a => Text.sameName a.name name
  lower_name := fun a ha => as.lower_name a (List.mem_of_mem_eraseP ha)
  nodup_names := (List.eraseP_sublist.map Attribute.name).nodup as.nodup_names

/-- Takes the name out: the value that stood at its place, and the attributes that are left. -/
def remove (as : Attributes) (name : Text) : Option Text × Attributes :=
  let place := as.toList.findIdx? fun a => Text.sameName a.name name
  ((place.bind fun i => as.toList[i]?).map Attribute.value, as.erase name)

/-- The attributes of a list set one after another, so a repeated name keeps its first place
and its last value. -/
def ofList (as : List Attribute) : Attributes :=
  as.foldl (fun done a => done.set a.name a.value) empty

/-- The author style. -/
def style? (as : Attributes) : Option Text := as.get? "style"

end Attributes

end Letterpress
