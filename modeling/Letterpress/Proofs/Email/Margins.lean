/-
# Margins behind author styles

The legacy pass asks of a hint whether the author declares its property. Margins have two forms,
one property for all sides and one for each side, so a hint can set a side that the author set
in the other form. Sides are resolved here as a client resolves them: declarations in order, the
last one in force, with one to four values for all sides at once.

`toLegacy_keeps_margin_iff` says of every side of every element whether the pass keeps it.
-/

import Letterpress.Markup.Parsing
import Letterpress.Proofs.Email.LegacyHints

namespace Letterpress

/-! ## Sides of a style -/

namespace Style

/-- The parts between blanks outside quotes and parentheses; the first goes on with a part that
the scan is inside of. -/
def spaced (s : Scan) : Text → List Text
  | [] => [[]]
  | c :: t =>
    if s == .top && isBlank c then [] :: spaced s t else consFirst c (spaced (s.step c) t)

/-- The values that stand side by side in the value of a declaration. -/
def values (t : Text) : List Text := (spaced .top t).filter fun v => !v.isEmpty

end Style

/-- The sides of a box. -/
inductive Side
  | top
  | right
  | bottom
  | left
  deriving DecidableEq

namespace Side

/-- The property for the margin of one side. -/
def marginProperty : Side → Text
  | top => "margin-top"
  | right => "margin-right"
  | bottom => "margin-bottom"
  | left => "margin-left"

/-- The value for a side among one to four values for all sides. -/
def ofShorthand? (side : Side) : List Text → Option Text
  | [all] => some all
  | [vertical, horizontal] =>
    match side with
    | top | bottom => some vertical
    | right | left => some horizontal
  | [above, horizontal, below] =>
    match side with
    | top => some above
    | bottom => some below
    | right | left => some horizontal
  | [above, onRight, below, onLeft] =>
    match side with
    | top => some above
    | right => some onRight
    | bottom => some below
    | left => some onLeft
  | _ => none

end Side

namespace Declaration

/-- What a declaration says of the margin of a side. -/
def margin? (d : Declaration) (side : Side) : Option Text :=
  if d.property = "margin".toList then side.ofShorthand? (Style.values d.value)
  else if d.property = side.marginProperty then some d.value
  else none

/-- The margin of a side that a list of declarations ends with. -/
def lastMargin? (ds : List Declaration) (side : Side) : Option Text :=
  ds.reverse.findSome? fun d => d.margin? side

variable {ds es : List Declaration} {side : Side}

theorem lastMargin?_append :
    lastMargin? (ds ++ es) side = (lastMargin? es side).or (lastMargin? ds side) := by
  rw [lastMargin?, List.reverse_append, List.findSome?_append]
  rfl

example : [Side.top, .right, .bottom, .left].map (lastMargin?
    (Style.declarations "margin-left: 1px; margin: 2px calc(1em + 3px); margin-top: 0")) =
      ["0", "calc(1em + 3px)", "2px", "calc(1em + 3px)"].map fun v => some v.toList := by
  decide +kernel

theorem lastMargin?_eq_none (h : ∀ d ∈ ds, d.margin? side = none) : lastMargin? ds side = none :=
  List.findSome?_eq_none_iff.mpr fun d hd => h d (List.mem_reverse.mp hd)

/-- Where no two declarations set a side, the one that sets it is in force. -/
theorem lastMargin?_eq_of_mem {d : Declaration} {value : Text}
    (halone : ds.Pairwise fun d e => d.margin? side = none ∨ e.margin? side = none)
    (hd : d ∈ ds) (hvalue : d.margin? side = some value) : lastMargin? ds side = some value := by
  obtain ⟨earlier, later, rfl⟩ := List.append_of_mem hd
  obtain ⟨-, hlater, -⟩ := List.pairwise_append.mp halone
  have hnone : lastMargin? later side = none := by
    apply lastMargin?_eq_none
    intro e he
    rcases (List.pairwise_cons.mp hlater).1 e he with hself | hother
    · rw [hvalue] at hself
      cases hself
    · exact hother
  rw [List.append_cons, lastMargin?_append, hnone, Option.none_or, lastMargin?_append]
  simp [lastMargin?, hvalue]

end Declaration

/-- The margin of a side under a style that may be missing. -/
def Style.margin? (style : Option Text) (side : Side) : Option Text :=
  Declaration.lastMargin? (Style.declarationsOf style) side

open Declaration

/-! ## Sides that the pass keeps -/

/-- No element gets two hints for one side. -/
theorem hintsFor_pairwise (tag : Tag) (side : Side) :
    (hintsFor tag).Pairwise fun h h' => h.margin? side = none ∨ h'.margin? side = none := by
  fun_cases hintsFor tag <;> cases side <;> decide

variable {tag : Tag} {before : Attributes} {side : Side}

/-- The hints that are added come behind the author's declarations. -/
theorem margin?_legacyAttributes (hcloses : ∀ style ∈ before.style?, Style.closes style = true) :
    Style.margin? (legacyAttributes tag before).style? side =
      (lastMargin? ((hintsFor tag).filter fun h =>
        h.property ∉ (Style.declarationsOf before.style?).map property) side).or
          (Style.margin? before.style? side) := by
  rw [Style.margin?, declarationsOf_legacyAttributes tag hcloses, lastMargin?_append]
  rfl

/-- A hint whose property the author does not declare decides over the sides it sets. -/
theorem margin?_legacyAttributes_of_missing
    (hcloses : ∀ style ∈ before.style?, Style.closes style = true) {h : Declaration}
    {hinted : Text} (hmem : h ∈ hintsFor tag) (hsets : h.margin? side = some hinted)
    (hmissing : h.property ∉ (Style.declarationsOf before.style?).map property) :
    Style.margin? (legacyAttributes tag before).style? side = some hinted := by
  have hadded : h ∈ (hintsFor tag).filter fun h =>
      h.property ∉ (Style.declarationsOf before.style?).map property :=
    List.mem_filter.mpr ⟨hmem, decide_eq_true hmissing⟩
  rw [margin?_legacyAttributes hcloses,
    lastMargin?_eq_of_mem ((hintsFor_pairwise tag side).filter _) hadded hsets, Option.some_or]

/-- Without such a hint a side stays as it is. -/
theorem margin?_legacyAttributes_of_declared
    (hcloses : ∀ style ∈ before.style?, Style.closes style = true)
    (hdeclared : ∀ h ∈ hintsFor tag, ∀ hinted, h.margin? side = some hinted →
      h.property ∈ (Style.declarationsOf before.style?).map property) :
    Style.margin? (legacyAttributes tag before).style? side =
      Style.margin? before.style? side := by
  rw [margin?_legacyAttributes hcloses, lastMargin?_eq_none, Option.none_or]
  intro h hadded
  obtain ⟨hmem, hmissing⟩ := List.mem_filter.mp hadded
  rw [Option.eq_none_iff_forall_ne_some]
  intro hinted hsets
  exact of_decide_eq_true hmissing (hdeclared h hmem hinted hsets)

/-- The legacy pass keeps the margin that a style which closes gives a side of its element
exactly if every hint of the element that sets this side is of a property that the author
declares or says the same. Otherwise the side has the hinted margin in the end. -/
theorem toLegacy_keeps_margin_iff (root : Element) :
    root.Alike
      (fun tag before after => (∀ style ∈ before.style?, Style.closes style = true) →
        ∀ side value, Style.margin? before.style? side = some value →
          (Style.margin? after.style? side = some value ↔
            ∀ h ∈ hintsFor tag, ∀ hinted, h.margin? side = some hinted →
              h.property ∈ (Style.declarationsOf before.style?).map property ∨
                hinted = value) ∧
          ∀ h ∈ hintsFor tag, ∀ hinted, h.margin? side = some hinted →
            h.property ∉ (Style.declarationsOf before.style?).map property →
            Style.margin? after.style? side = some hinted)
      (toLegacy root) := by
  apply Element.alike_mapAttributes
  intro tag before hcloses side value hvalue
  refine ⟨⟨?_, ?_⟩, fun h hmem hinted => margin?_legacyAttributes_of_missing hcloses hmem⟩
  · intro hkept h hmem hinted hsets
    rw [or_iff_not_imp_left]
    intro hmissing
    have hlost := margin?_legacyAttributes_of_missing hcloses hmem hsets hmissing
    exact Option.some.inj (hlost.symm.trans hkept)
  · intro hagrees
    by_cases hlost : ∃ h ∈ hintsFor tag, ∃ hinted, h.margin? side = some hinted ∧
        h.property ∉ (Style.declarationsOf before.style?).map property
    · obtain ⟨h, hmem, hinted, hsets, hmissing⟩ := hlost
      rw [margin?_legacyAttributes_of_missing hcloses hmem hsets hmissing,
        (hagrees h hmem hinted hsets).resolve_left hmissing]
    · rw [margin?_legacyAttributes_of_declared hcloses, hvalue]
      intro h hmem hinted hsets
      exact Decidable.byContradiction fun hmissing =>
        hlost ⟨h, hmem, hinted, hsets, hmissing⟩

/-- A paragraph whose style sets one side, and a list whose style sets all sides at once. -/
def spacedByAuthor : Element :=
  parseFragment "<p style=\"margin-top: 20px\">a</p><ul style=\"margin: 5px\"></ul>"

/-- The hint of the paragraph is for all sides and those of the list are for single sides, so
the author declares none of their properties. -/
theorem hints_replace_margins :
    spacedByAuthor.elements.map (fun e => (e.tag, e.style?)) =
      [(.body, none), (.p, some "margin-top: 20px".toList), (.ul, some "margin: 5px".toList)] ∧
    Style.closes "margin-top: 20px" = true ∧ Style.closes "margin: 5px" = true ∧
    spacedByAuthor.elements.map (fun e => Style.margin? e.style? .top) =
      [none, some "20px".toList, some "5px".toList] ∧
    (toLegacy spacedByAuthor).elements.map (fun e => Style.margin? e.style? .top) =
      [none, some "0".toList, some "0".toList] := by
  decide +kernel

end Letterpress
