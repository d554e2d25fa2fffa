/-
# Attributes promoted from styles

The legacy pass copies sizes and alignments to attributes when it has added its hints, so it
reads them from the author's style with the hints behind it. The main statement,
`toLegacy_promotes_author_style`, says that the hints make no difference: what an element gets
depends on what its author wrote, whatever that leaves open.

No hint is about a size or an alignment. Behind a style that leaves something open the hints
become part of the author's last declaration; but what it left open stands in that declaration,
and neither a length in pixels nor an alignment holds such a character. So the declaration gives
neither of them, with the hints or without.

Where styles close, a second pass finds the hints of the first and copies values to attributes
that have them already, so it changes nothing (`toLegacy_toLegacy`).
-/

import Letterpress.Markup.Parsing
import Letterpress.Proofs.Email.LegacyHints
import Letterpress.Proofs.Style.Unclosed

namespace Letterpress

open Declaration

/-! ## Reading past the hints -/

/-- The name of an alignment opens nothing. -/
theorem Alignment.parse?_eq_none {value : Text} {m : Char} (hopening : isOpening m = true)
    (hmem : m ∈ value) : Alignment.parse? value = none := by
  have hlower := Text.mem_lower_trim hopening hmem
  have hother (name : Text) (hname : name.any isOpening = false) :
      Text.lower (Text.trim value) ≠ name := by
    rintro rfl
    exact List.any_eq_false.mp hname m hlower hopening
  simp only [Alignment.parse?, hother ("left" : Text) (by decide),
    hother ("start" : Text) (by decide), hother ("center" : Text) (by decide),
    hother ("right" : Text) (by decide), hother ("end" : Text) (by decide), decide_false,
    Bool.or_self, Bool.false_eq_true, if_false]

variable {tag : Tag} {before : Attributes}

/-- What is read of a property that no hint is about does not depend on the hints, if it is read
in a form that opens nothing. -/
theorem bind_value?_withHints {α : Type} {read? : Text → Option α}
    (hread : ∀ {value : Text} {m : Char}, isOpening m = true → m ∈ value → read? value = none)
    {property : Text} (hproperty : property.any isOpening = false)
    (hother : ∀ h ∈ hintsFor tag, Text.sameName h.property property = false)
    (before : Attributes) :
    ((withHints tag before).style?.bind fun s => Style.value? s property).bind read? =
      (before.style?.bind fun s => Style.value? s property).bind read? := by
  by_cases hcloses : ∀ style ∈ before.style?, Style.closes style = true
  · have hnone : lastValue? ((hintsFor tag).filter fun h =>
        h.property ∉ (Style.declarationsOf before.style?).map Declaration.property) property =
          none :=
      lastValue?_eq_none_iff.mpr fun h hmem => hother h (List.mem_filter.mp hmem).1
    rw [← Style.lastValue?_declarationsOf, ← style?_legacyAttributes,
      declarationsOf_legacyAttributes tag hcloses, lastValue?_append, hnone, Option.none_or,
      Style.lastValue?_declarationsOf]
  · simp only [not_forall] at hcloses
    obtain ⟨style, hstyle, hopen⟩ := hcloses
    have hplain : ∀ h ∈ missingHints (hintsFor tag) before.style?, h.isPlain = true := by
      have hall : (hintsFor tag).all isPlain = true := by
        fun_cases hintsFor tag <;> decide
      intro h hmem
      rw [missingHints_hintsFor] at hmem
      exact List.all_eq_true.mp hall h (List.mem_filter.mp hmem).1
    have hopens : ∀ c ∈ property, isOpening c = false := fun c hc =>
      Bool.eq_false_iff.mpr (List.any_eq_false.mp hproperty c hc)
    have happend := Style.bind_value?_append_declarations_of_open hread hplain hopens
      (Bool.not_eq_true _ ▸ hopen)
    rw [style?_withHints, show before.style? = some style from hstyle] at *
    rw [Option.bind_assoc, happend]
    rfl

/-- The properties that are promoted are no hints. -/
theorem sameName_property_of_mem_hintsFor {h : Declaration} (hmem : h ∈ hintsFor tag) :
    ∀ property ∈ [("width" : Text), "height", "text-align"],
      Text.sameName h.property property = false := by
  have hall : ∀ h ∈ hintsFor tag, ∀ property ∈ [("width" : Text), "height", "text-align"],
      Text.sameName h.property property = false := by
    fun_cases hintsFor tag <;> decide
  exact hall h hmem

/-- A style says the same of an attribute with its hints as it does without them. -/
theorem styledAttribute?_withHints {name : Text} (hname : name ∈ promotedNames) (tag : Tag)
    (before : Attributes) :
    styledAttribute? tag (withHints tag before).style? name =
      styledAttribute? tag before.style? name := by
  have hother (property : Text) (hproperty : property ∈ [("width" : Text), "height", "text-align"]) :
      ∀ h ∈ hintsFor tag, Text.sameName h.property property = false :=
    fun h hmem => sameName_property_of_mem_hintsFor hmem property hproperty
  have halign := bind_value?_withHints Alignment.parse?_eq_none
    (by decide : "text-align".toList.any isOpening = false) (hother _ (by decide)) before
  rw [styledAttribute?, styledAttribute?, halign]
  split
  · rfl
  · rename_i hsize
    have hdimension : name ∈ [("width" : Text), "height", "text-align"] ∧
        name.any isOpening = false := by
      revert hsize
      revert name
      decide
    rw [bind_value?_withHints pixels?_eq_none hdimension.2 (hother _ hdimension.1) before]

/-! ## What an element gets -/

theorem get?_withHints {name : Text} (hname : Text.sameName "style" name = false) (tag : Tag)
    (before : Attributes) : (withHints tag before).get? name = before.get? name := by
  unfold withHints
  split
  · rw [Attributes.get?_set, hname, if_neg Bool.false_ne_true]
  · rfl

/-- A promoted attribute has what the author's style says, or else its value from before. -/
theorem get?_legacyAttributes_of_mem {name : Text} (hname : name ∈ promotedNames) (tag : Tag)
    (before : Attributes) :
    (legacyAttributes tag before).get? name =
      (styledAttribute? tag before.style? name).or (before.get? name) := by
  have hstyle : Text.sameName "style" name = false := by
    revert name
    decide
  have hsame : ∀ n ∈ promotedNames, ∀ m ∈ promotedNames, Text.sameName n m = true → n = m := by
    decide
  rw [legacyAttributes, Attributes.get?_foldl_set, get?_withHints hstyle,
    ← styledAttribute?_withHints hname]
  congr 1
  cases hfind : (promotedOf tag before).reverse.find? fun a => Text.sameName a.name name with
  | none =>
      rw [List.find?_eq_none] at hfind
      cases hstyled : styledAttribute? tag (withHints tag before).style? name with
      | none => rfl
      | some value =>
          have hmem : (⟨name, value⟩ : Attribute) ∈ promotedOf tag before :=
            mem_promotedOf_iff.mpr ⟨hname, hstyled⟩
          exact absurd (beq_self_eq_true _) (hfind _ (List.mem_reverse.mpr hmem))
  | some a =>
      have hmem := List.mem_reverse.mp (List.mem_of_find?_eq_some hfind)
      obtain ⟨hother, hstyled⟩ := mem_promotedOf_iff.mp hmem
      have hfound := List.find?_some hfind
      rw [← hsame _ hother _ hname hfound, hstyled]
      rfl

/-- The legacy pass sets widths, heights and alignments by the author's style alone, whether the
style closes or not. On images, tables and cells the width and the height are the author's last
ones in whole pixels, on divisions and paragraphs the alignment is the author's last one by its
name; where the style gives none, and on all other elements, the attribute stays as it was. -/
theorem toLegacy_promotes_author_style (root : Element) :
    root.Alike
      (fun tag before after => ∀ name ∈ promotedNames,
        after.get? name = (styledAttribute? tag before.style? name).or (before.get? name))
      (toLegacy root) :=
  Element.alike_mapAttributes
    (fun tag before _ hname => get?_legacyAttributes_of_mem hname tag before) root

/-! ## The pass once more -/

/-- Every hint of an element is declared in the end, by its author or by the pass. -/
theorem property_mem_of_mem_hintsFor
    (hcloses : ∀ style ∈ before.style?, Style.closes style = true) {h : Declaration}
    (hmem : h ∈ hintsFor tag) :
    h.property ∈ (Style.declarationsOf (legacyAttributes tag before).style?).map property := by
  rw [declarationsOf_legacyAttributes tag hcloses, List.map_append, List.mem_append]
  by_cases hset : h.property ∈ (Style.declarationsOf before.style?).map property
  · exact .inl hset
  · exact .inr (List.mem_map_of_mem (List.mem_filter.mpr ⟨hmem, decide_eq_true hset⟩))

/-- No hint is missing in the end. -/
theorem withHints_legacyAttributes
    (hcloses : ∀ style ∈ before.style?, Style.closes style = true) :
    withHints tag (legacyAttributes tag before) = legacyAttributes tag before := by
  have hmissing : missingHints (hintsFor tag) (legacyAttributes tag before).style? = [] := by
    rw [missingHints_hintsFor, List.filter_eq_nil_iff]
    intro h hmem
    simpa using property_mem_of_mem_hintsFor hcloses hmem
  rw [withHints, hmissing]
  rfl

theorem legacyAttributes_legacyAttributes
    (hcloses : ∀ style ∈ before.style?, Style.closes style = true) :
    legacyAttributes tag (legacyAttributes tag before) = legacyAttributes tag before := by
  have hhints : withHints tag (legacyAttributes tag before) = legacyAttributes tag before :=
    withHints_legacyAttributes hcloses
  rw [legacyAttributes, hhints]
  apply Attributes.foldl_set_eq_self
  intro a ha
  obtain ⟨hname, hstyled⟩ := mem_promotedOf_iff.mp ha
  rw [hhints, style?_legacyAttributes, styledAttribute?_withHints hname] at hstyled
  rw [get?_legacyAttributes_of_mem hname, hstyled, Option.some_or]

/-- Where the style of every element closes its quotes and parentheses, a second legacy pass
leaves the tree of the first as it is. -/
theorem toLegacy_toLegacy {root : Element}
    (hcloses : ∀ e ∈ root.elements, ∀ style ∈ e.style?, Style.closes style = true) :
    toLegacy (toLegacy root) = toLegacy root :=
  Element.mapAttributes_mapAttributes fun e he => legacyAttributes_legacyAttributes (hcloses e he)

/-- Hints become part of what a style leaves open, so that the next pass does not find them. -/
example :
    let root := parseFragment "<p style=\"'\">a</p>"
    (toLegacy (toLegacy root)).elements.map Element.style? ≠
      (toLegacy root).elements.map Element.style? := by
  decide +kernel

/-- Styles that are blank, end in semicolons, quote one, repeat a property or lack a colon. -/
def untidySample : Element :=
  parseFragment ("<div style=\"TEXT-ALIGN: end;; \" align=\"x\"><img width=\"1\" " ++
    "style=\"width: 9px; content: ';'; width: 240.5PX\"></div>" ++
    "<ul style=\" ; \"><li style=\"margin\">a</li></ul><p style=\"\">b</p>")

theorem toLegacy_toLegacy_untidy :
    (∀ e ∈ untidySample.elements, ∀ style ∈ e.style?, Style.closes style = true) ∧
      toLegacy (toLegacy untidySample) = toLegacy untidySample := by
  have hcloses : ∀ e ∈ untidySample.elements, ∀ style ∈ e.style?, Style.closes style = true := by
    decide +kernel
  exact ⟨hcloses, toLegacy_toLegacy hcloses⟩

end Letterpress
