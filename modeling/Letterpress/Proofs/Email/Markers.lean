/-
# Markers of conditional regions

A scan of a text for the markers of conditional regions: it takes the next opener or
closer again and again, and gives up where they do not alternate. What is known of
the scan of a text put together from pieces is a law about `++`, provided that no
marker lies across a seam.

None does if the text before the seam ends with nothing that begins a marker, as a
piece of a template can be checked to (`isClean`), or if the text behind it starts
with a character that only begins markers or is in none (`isInner`). A marker starts
with a character that it has nowhere else, so no two of them overlap either.
-/

import Letterpress.Email.Conditional

namespace Letterpress

namespace Conditional

/-- What a scan for regions looks for. -/
inductive Marker
  | opens
  | closes
  deriving DecidableEq

namespace Marker

/-- The marker as it is written; openers have a condition behind it. -/
def text : Marker → Text
  | .opens => "<!--[if"
  | .closes => close

/-- No marker is in the text. -/
def IsMissing (t : Text) : Prop := ∀ m : Marker, Text.occursIn m.text t = false

instance (t : Text) : Decidable (IsMissing t) :=
  decidable_of_iff (Text.occursIn opens.text t = false ∧ Text.occursIn closes.text t = false)
    ⟨fun hboth m => by cases m <;> simp [hboth], fun hall => ⟨hall .opens, hall .closes⟩⟩

end Marker

/-! ## The scan -/

/-- Where a scan stops: a marker, and the texts before and after it. -/
structure Stop where
  before : Text
  marker : Marker
  after : Text

namespace Stop

/-- The stop of a scan that starts with `t` already. -/
def behind (t : Text) (stop : Stop) : Stop := { stop with before := t ++ stop.before }

/-- The stop of a scan whose text goes on with `u`. -/
def ahead (u : Text) (stop : Stop) : Stop := { stop with after := stop.after ++ u }

@[simp]
theorem behind_nil : behind [] = id := rfl

theorem behind_cons (c : Char) (t : Text) : behind [c] ∘ behind t = behind (c :: t) := rfl

end Stop

/-- The marker at the start of a text. -/
def markerAt? (t : Text) : Option (Marker × Text) :=
  ((Text.after? Marker.opens.text t).map (.opens, ·)).or
    ((Text.after? Marker.closes.text t).map (.closes, ·))

/-- The first marker in a text. -/
def next? : Text → Option Stop
  | [] => none
  | c :: t =>
    match markerAt? (c :: t) with
    | some (m, after) => some ⟨[], m, after⟩
    | none => (next? t).map (Stop.behind [c])

/-- A region that the scan found: what stands between its markers, and the text that goes on
behind it. -/
structure Region where
  content : Text
  after : Text
  deriving DecidableEq

/-- What a scan finds first. -/
inductive Found
  | nothing
  | region (r : Region)
  /-- A marker without its partner. -/
  | unpaired

/-- The first region of a text, if its first markers are an opener and a closer. -/
def firstRegion (t : Text) : Found :=
  match next? t with
  | none => .nothing
  | some ⟨_, .closes, _⟩ => .unpaired
  | some ⟨_, .opens, inside⟩ =>
    match next? inside with
    | some ⟨content, .closes, after⟩ => .region ⟨content, after⟩
    | _ => .unpaired

theorem markerAt?_eq_some {t after : Text} {m : Marker} (hsome : markerAt? t = some (m, after)) :
    t = m.text ++ after := by
  rcases Option.or_eq_some_iff.mp hsome with hopens | ⟨-, hcloses⟩
  · obtain ⟨rest, hrest, heq⟩ := Option.map_eq_some_iff.mp hopens
    cases heq
    exact Text.after?_eq_some_iff.mp hrest
  · obtain ⟨rest, hrest, heq⟩ := Option.map_eq_some_iff.mp hcloses
    cases heq
    exact Text.after?_eq_some_iff.mp hrest

theorem length_after_lt {t : Text} {stop : Stop} (hnext : next? t = some stop) :
    stop.after.length < t.length := by
  induction t generalizing stop with
  | nil => cases hnext
  | cons c t ih =>
      rw [next?] at hnext
      split at hnext
      · rename_i m after hat
        cases hnext
        have hlength := congrArg List.length (markerAt?_eq_some hat)
        rw [List.length_append] at hlength
        have hpos : 0 < m.text.length := by cases m <;> decide
        show after.length < _
        omega
      · obtain ⟨stop', hlater, rfl⟩ := Option.map_eq_some_iff.mp hnext
        have hshorter : stop'.after.length < t.length := ih hlater
        exact Nat.lt_succ_of_lt hshorter

theorem firstRegion_eq_region {t : Text} {r : Region} (hfirst : firstRegion t = .region r) :
    ∃ before inside, next? t = some ⟨before, .opens, inside⟩ ∧
      next? inside = some ⟨r.content, .closes, r.after⟩ := by
  rw [firstRegion] at hfirst
  split at hfirst
  · cases hfirst
  · cases hfirst
  · rename_i before inside hopens
    split at hfirst
    · rename_i content after hcloses
      cases hfirst
      exact ⟨before, inside, hopens, hcloses⟩
    · cases hfirst

/-- The regions of a text in their order, if its openers and closers alternate and none is left
open. -/
def regions? (t : Text) : Option (List Region) :=
  match _hfirst : firstRegion t with
  | .nothing => some []
  | .unpaired => none
  | .region r => (regions? r.after).map (r :: ·)
termination_by t.length
decreasing_by
  obtain ⟨before, inside, hopens, hcloses⟩ := firstRegion_eq_region _hfirst
  exact Nat.lt_trans (length_after_lt hcloses) (length_after_lt hopens)

/-! ## Seams -/

/-- The characters that markers have behind their first one. -/
def isInner (c : Char) : Bool := Marker.opens.text.tail.contains c ||
  Marker.closes.text.tail.contains c

/-- Whether a text begins with a marker, or a marker begins with it. -/
def beginsMarker (m : Marker) (t : Text) : Bool := m.text.isPrefixOf t || t.isPrefixOf m.text

/-- Whether no marker is in a text or begins at its end. -/
def isClean : Text → Bool
  | [] => true
  | c :: t =>
    (c != '<' || !beginsMarker .opens (c :: t) && !beginsMarker .closes (c :: t)) && isClean t

variable {t u : Text} {c : Char} {m : Marker}

theorem text_eq_cons (m : Marker) : m.text = '<' :: m.text.tail := by
  cases m <;> rfl

theorem not_mem_tail (hinner : isInner c = false) (m : Marker) : c ∉ m.text.tail := by
  simp only [isInner, Bool.or_eq_false_iff, List.contains_eq_mem, decide_eq_false_iff_not]
    at hinner
  cases m
  · exact hinner.1
  · exact hinner.2

/-- A marker does not reach over a character that it does not have inside. -/
theorem prefix_of_prefix_append (hinner : isInner c = false)
    (hstart : m.text <+: t ++ c :: u) (hne : t ≠ []) : m.text <+: t := by
  have hseam : t ++ [c] <+: t ++ c :: u := ⟨u, by simp⟩
  rcases List.prefix_or_prefix_of_prefix hstart (List.prefix_append t (c :: u)) with h | h
  · exact h
  rcases List.prefix_or_prefix_of_prefix hstart hseam with hshort | hlong
  · rcases List.prefix_concat_iff.mp hshort with heq | h'
    · refine absurd ?_ (not_mem_tail hinner m)
      obtain ⟨d, t, rfl⟩ := List.exists_cons_of_ne_nil hne
      rw [heq]
      simp
    · exact h'
  · refine absurd ?_ (not_mem_tail hinner m)
    obtain ⟨d, t, rfl⟩ := List.exists_cons_of_ne_nil hne
    obtain ⟨rest, heq⟩ := hlong
    rw [← heq]
    simp

theorem markerAt?_eq_none_iff : markerAt? t = none ↔ ∀ m : Marker, ¬ m.text <+: t := by
  constructor
  · rintro hnone m ⟨after, rfl⟩
    rw [markerAt?, Option.or_eq_none_iff, Option.map_eq_none_iff, Option.map_eq_none_iff] at hnone
    cases m
    · exact absurd (Text.after?_eq_some_iff.mpr rfl) (by rw [hnone.1]; exact nofun)
    · exact absurd (Text.after?_eq_some_iff.mpr rfl) (by rw [hnone.2]; exact nofun)
  · intro hnot
    cases hat : markerAt? t with
    | none => rfl
    | some found => exact absurd ⟨found.2, (markerAt?_eq_some hat).symm⟩ (hnot found.1)

theorem markerAt?_text_append (m : Marker) (u : Text) : markerAt? (m.text ++ u) = some (m, u) := by
  cases m <;> rfl

/-- What follows a marker does not matter to finding it. -/
theorem markerAt?_append {after : Text} (hat : markerAt? t = some (m, after)) (u : Text) :
    markerAt? (t ++ u) = some (m, after ++ u) := by
  rw [markerAt?_eq_some hat, List.append_assoc, markerAt?_text_append]

theorem next?_cons_of_none (hat : markerAt? (c :: t) = none) :
    next? (c :: t) = (next? t).map (Stop.behind [c]) := by
  rw [next?, hat]

theorem next?_cons_eq_none_iff :
    next? (c :: t) = none ↔ (∀ m : Marker, ¬ m.text <+: c :: t) ∧ next? t = none := by
  rw [← markerAt?_eq_none_iff]
  cases hat : markerAt? (c :: t) with
  | some found => simp [next?, hat]
  | none => simp [next?_cons_of_none hat]

theorem markerAt?_append_of_none (hat : markerAt? t = none) (hne : t ≠ [])
    (hinner : isInner c = false) : markerAt? (t ++ c :: u) = none := by
  rw [markerAt?_eq_none_iff] at hat ⊢
  intro m hstart
  exact hat m (prefix_of_prefix_append hinner hstart hne)

/-- The texts on both sides of a seam are scanned one after the other. -/
theorem next?_append (hinner : isInner c = false) (t u : Text) :
    next? (t ++ c :: u) =
      ((next? t).map (Stop.ahead (c :: u))).or ((next? (c :: u)).map (Stop.behind t)) := by
  induction t with
  | nil => simp [next?]
  | cons d t ih =>
      cases hat : markerAt? (d :: t) with
      | some found =>
          obtain ⟨m, after⟩ := found
          have happend := markerAt?_append hat (c :: u)
          rw [List.cons_append] at happend
          simp only [List.cons_append, next?, hat, happend, Option.map_some, Option.some_or,
            Stop.ahead]
      | none =>
          have happend := markerAt?_append_of_none (u := u) hat (List.cons_ne_nil d t) hinner
          rw [List.cons_append] at happend
          rw [List.cons_append, next?_cons_of_none happend, next?_cons_of_none hat, ih]
          cases next? t <;> cases next? (c :: u) <;> rfl

theorem next?_eq_none (hmissing : Marker.IsMissing t) : next? t = none := by
  induction t with
  | nil => rfl
  | cons c t ih =>
      have hnot (m : Marker) : m.text.isPrefixOf (c :: t) = false ∧
          Text.occursIn m.text t = false := by
        simpa [Text.occursIn] using hmissing m
      refine next?_cons_eq_none_iff.mpr ⟨fun m hstart => ?_, ih fun m => (hnot m).2⟩
      have hfalse := (hnot m).1
      rw [List.isPrefixOf_iff_prefix.mpr hstart] at hfalse
      cases hfalse

/-- Behind a text without markers a marker is found. -/
theorem next?_append_text (hnone : next? t = none) (m : Marker) (u : Text) :
    next? (t ++ (m.text ++ u)) = some ⟨t, m, u⟩ := by
  have hat : next? (m.text ++ u) = some ⟨[], m, u⟩ := by cases m <;> rfl
  have hcons : m.text ++ u = '<' :: (m.text.tail ++ u) := congrArg (· ++ u) (text_eq_cons m)
  rw [hcons, next?_append (by decide), hnone, ← hcons, hat]
  simp [Stop.behind]

/-! ## Clean texts -/

theorem beginsMarker_eq_false_iff :
    beginsMarker m t = false ↔ ¬ m.text <+: t ∧ ¬ t <+: m.text := by
  rw [beginsMarker, Bool.or_eq_false_iff, ← Bool.not_eq_true, ← Bool.not_eq_true,
    List.isPrefixOf_iff_prefix, List.isPrefixOf_iff_prefix]

theorem isClean_cons_iff : isClean (c :: t) = true ↔
    (∀ m : Marker, ¬ m.text <+: c :: t ∧ ¬ c :: t <+: m.text) ∧ isClean t = true := by
  rw [isClean, Bool.and_eq_true]
  refine and_congr_left' ?_
  by_cases hc : c = '<'
  · have hboth : (∀ m : Marker, ¬ m.text <+: c :: t ∧ ¬ c :: t <+: m.text) ↔
        beginsMarker .opens (c :: t) = false ∧ beginsMarker .closes (c :: t) = false := by
      rw [beginsMarker_eq_false_iff, beginsMarker_eq_false_iff]
      exact ⟨fun hall => ⟨hall .opens, hall .closes⟩, fun hall m => by cases m <;> simp [hall]⟩
    rw [hboth]
    simp [hc]
  · simp only [bne_iff_ne.mpr hc, Bool.true_or, true_iff]
    intro m
    rw [text_eq_cons m, List.cons_prefix_cons, List.cons_prefix_cons]
    exact ⟨fun h => hc h.1.symm, fun h => hc h.1⟩

theorem isClean_of_cons (hclean : isClean (c :: t) = true) : isClean t = true :=
  (isClean_cons_iff.mp hclean).2

theorem not_prefix_of_isClean (hclean : isClean (c :: t) = true) (u : Text) (m : Marker) :
    ¬ m.text <+: c :: t ++ u ∧ ¬ c :: t ++ u <+: m.text := by
  obtain ⟨hlong, hshort⟩ := (isClean_cons_iff.mp hclean).1 m
  constructor
  · intro hstart
    rcases List.prefix_or_prefix_of_prefix hstart (List.prefix_append (c :: t) u) with h | h
    · exact hlong h
    · exact hshort h
  · intro hstart
    exact hshort ((List.prefix_append (c :: t) u).trans hstart)

/-- A clean text is passed over. -/
theorem next?_append_of_isClean (hclean : isClean t = true) (u : Text) :
    next? (t ++ u) = (next? u).map (Stop.behind t) := by
  induction t with
  | nil => simp
  | cons c t ih =>
      have hat : markerAt? (c :: (t ++ u)) = none := by
        rw [markerAt?_eq_none_iff]
        exact fun m => (not_prefix_of_isClean hclean u m).1
      rw [List.cons_append, next?_cons_of_none hat, ih (isClean_of_cons hclean), Option.map_map,
        Stop.behind_cons]

theorem isClean_append (ht : isClean t = true) (hu : isClean u = true) :
    isClean (t ++ u) = true := by
  induction t with
  | nil => exact hu
  | cons c t ih =>
      exact isClean_cons_iff.mpr ⟨not_prefix_of_isClean ht u, ih (isClean_of_cons ht)⟩

/-- A text in which nothing begins a marker. -/
theorem isClean_of_not_mem (hnot : '<' ∉ t) : isClean t = true := by
  induction t with
  | nil => rfl
  | cons c t ih =>
      simp only [List.mem_cons, not_or] at hnot
      refine isClean_cons_iff.mpr ⟨fun m => ?_, ih hnot.2⟩
      rw [text_eq_cons m, List.cons_prefix_cons, List.cons_prefix_cons]
      exact ⟨fun h => hnot.1 h.1, fun h => hnot.1 h.1.symm⟩

/-- Whether a text starts with a character that is in no marker. -/
def startsOutside : Text → Bool
  | [] => false
  | c :: _ => !isInner c && c != '<'

theorem exists_cons_of_startsOutside (hstarts : startsOutside t = true) :
    ∃ c u, isInner c = false ∧ c ≠ '<' ∧ t = c :: u := by
  cases t with
  | nil => cases hstarts
  | cons c u =>
      simp only [startsOutside, Bool.and_eq_true, Bool.not_eq_true', bne_iff_ne] at hstarts
      exact ⟨c, u, hstarts.1, hstarts.2, rfl⟩

/-- A text without markers is clean up to a character that is in no marker. -/
theorem isClean_append_of_startsOutside (hnone : next? t = none)
    (hstarts : startsOutside u = true) (hu : isClean u = true) : isClean (t ++ u) = true := by
  obtain ⟨c, u, hinner, -, rfl⟩ := exists_cons_of_startsOutside hstarts
  induction t with
  | nil => exact hu
  | cons d t ih =>
      obtain ⟨hnot, hrest⟩ := next?_cons_eq_none_iff.mp hnone
      refine isClean_cons_iff.mpr ⟨fun m => ⟨fun hstart => ?_, fun hstart => ?_⟩, ih hrest⟩
      · exact hnot m (prefix_of_prefix_append hinner hstart (List.cons_ne_nil d t))
      · obtain ⟨rest, heq⟩ := hstart
        refine not_mem_tail hinner m ?_
        rw [← heq]
        simp

end Conditional

end Letterpress
