/-
# Author styles under default styles

Inlining writes default styles before an author's style. The main statement,
`inlineStyles_keeps_author`, says for every element of every tree what is read
afterwards: the defaults, with blanks around the font gone, and then what the
author declared. Since the last declaration counts, an author's value stays in
force.

The font and the author's text are free, as long as each closes its quotes and
parentheses and the font holds no separator. Nothing is said of what is read
from texts that leave something open; such an element still changes in nothing
but its style.
-/

import Letterpress.Email.Inlined
import Letterpress.Proofs.Markup.Restyling
import Letterpress.Proofs.Style.Joining
import Letterpress.Proofs.Style.Values

namespace Letterpress

open Declaration

/-! ## What the defaults consist of -/

/-- The declarations that defaults are made of: plain ones, the font, and the alignment of a
division. -/
def IsDefault (font : Text) (alignment : Option Text) (d : Declaration) : Prop :=
  d.isPlain = true ∨ d = ⟨"font-family", font⟩ ∨ ∃ a ∈ alignment, d = ⟨"text-align", a⟩

variable {font : Text} {alignment : Option Text}

theorem isDefault_of_all_isPlain {ds : List Declaration} (hplain : ds.all isPlain = true) :
    ∀ d ∈ ds, IsDefault font alignment d := by
  intro d hd
  exact .inl (List.all_eq_true.mp hplain d hd)

theorem isDefault_of_mem_textDefaults {ds : List Declaration} (hplain : ds.all isPlain = true) :
    ∀ d ∈ textDefaults font ++ ds, IsDefault font alignment d := by
  intro d hd
  rcases List.mem_append.mp hd with hd | hd
  · rcases List.mem_cons.mp hd with rfl | hd
    · exact .inr (.inl rfl)
    · exact isDefault_of_all_isPlain (by decide) d hd
  · exact isDefault_of_all_isPlain hplain d hd

theorem isDefault_of_mem_defaultsFor (tag : Tag) :
    ∀ d ∈ defaultsFor tag font alignment, IsDefault font alignment d := by
  fun_cases defaultsFor tag font alignment
  case case1 => exact isDefault_of_mem_textDefaults (by decide)
  case case2 | case3 | case4 =>
    rw [List.append_assoc]
    exact isDefault_of_mem_textDefaults (by decide)
  case case13 => exact isDefault_of_mem_textDefaults (by decide)
  case case17 a _ =>
    intro d hd
    rcases List.mem_cons.mp hd with rfl | hd
    · exact .inr (.inr ⟨a, rfl, rfl⟩)
    · exact isDefault_of_all_isPlain (by decide) d hd
  all_goals exact isDefault_of_all_isPlain (by decide)

/-- The defaults are readable if the font and the alignment that go into them are whole. -/
theorem isReadable_of_mem_defaultsFor {tag : Tag} (hfont : Style.IsWhole font)
    (halignment : ∀ a ∈ alignment, Style.IsWhole a) :
    ∀ d ∈ defaultsFor tag font alignment, d.IsReadable := by
  intro d hd
  rcases isDefault_of_mem_defaultsFor tag d hd with hplain | rfl | ⟨a, ha, rfl⟩
  · exact isReadable_of_isPlain hplain
  · exact isReadable_of_isNameChar (by decide) (by decide) hfont
  · exact isReadable_of_isNameChar (by decide) (by decide) (halignment a ha)

/-- Reading the defaults back trims the font. -/
theorem map_trimmed_defaultsFor (tag : Tag) (halignment : ∀ a ∈ alignment, Text.trim a = a) :
    (defaultsFor tag font alignment).map trimmed = defaultsFor tag (Text.trim font) alignment := by
  fun_cases defaultsFor tag font alignment
  case case17 a hne =>
    simp only [defaultsFor, if_neg hne, List.map_cons, trimmed, halignment a rfl]
    rfl
  case case18 => simp_all [defaultsFor]
  case case16 a hempty => simp [defaultsFor, hempty]
  all_goals rfl

/-! ## What an element reads as -/

/-- The alignment that goes into the defaults of an element can be written into a style and
read back, if the author's style closes. -/
theorem isWhole_alignment {attributes : Attributes}
    (hcloses : ∀ style ∈ attributes.style?, Style.closes style = true) :
    ∀ a ∈ (attributes.style?.bind fun style => Style.value? style "text-align").map Text.lower,
      Style.IsWhole a ∧ Text.trim a = a := by
  intro a ha
  obtain ⟨value, hvalue, rfl⟩ := Option.map_eq_some_iff.mp ha
  obtain ⟨style, hstyle, hread⟩ := Option.bind_eq_some_iff.mp hvalue
  obtain ⟨d, hd, hsame, rfl⟩ := Style.exists_mem_of_value? hread
  have hproperty : d.property = "text-align" := by
    rw [← Style.lower_property_of_mem hd]
    exact (beq_iff_eq.mp hsame).trans (by decide)
  refine ⟨Style.isWhole_lower (Style.isWhole_value_of_mem (hcloses style hstyle) hd ?_), ?_⟩
  · rw [hproperty]
    decide
  · rw [Text.trim_lower, Style.trim_value_of_mem hd]

/-- The style of an element after inlining, if it gets one. -/
theorem exists_style_inlineAttributes {tag : Tag} {before : Attributes}
    (hfont : Style.IsWhole font)
    (hcloses : ∀ style ∈ before.style?, Style.closes style = true)
    (hne : defaultsOf font tag before ≠ []) :
    ∃ style, (inlineAttributes font tag before).style? = some style ∧
      Style.declarations style =
        defaultsOf (Text.trim font) tag before ++ Style.declarationsOf before.style? := by
  have halignment := isWhole_alignment hcloses
  obtain ⟨style, hprepend, hread⟩ := Style.declarations_prepend hne
    (isReadable_of_mem_defaultsFor hfont fun a ha => (halignment a ha).1) before.style?
  refine ⟨style, ?_, ?_⟩
  · rw [inlineAttributes, hprepend]
    exact before.get?_set_self "style" style
  · rw [hread, defaultsOf, map_trimmed_defaultsFor tag fun a ha => (halignment a ha).2]
    rfl

theorem inlineAttributes_eq_self {tag : Tag} {before : Attributes}
    (hnone : defaultsOf font tag before = []) : inlineAttributes font tag before = before := by
  simp [inlineAttributes, hnone, Style.prepend]

/-- Inlining sets no attribute but the style. -/
theorem those_inlineAttributes (font : Text) (tag : Tag) (before : Attributes) :
    (inlineAttributes font tag before).those (fun n => !Text.sameName n "style") =
      before.those fun n => !Text.sameName n "style" := by
  rw [inlineAttributes]
  split
  · exact Attributes.those_set (by simp) before _
  · rfl

theorem get?_inlineAttributes {name : Text} (hname : Text.sameName name "style" = false)
    (font : Text) (tag : Tag) (before : Attributes) :
    (inlineAttributes font tag before).get? name = before.get? name := by
  apply Attributes.get?_eq_of_those (those_inlineAttributes font tag before)
  intro n hn
  rw [Text.sameName, beq_iff_eq.mp hn, ← Text.sameName, hname, Bool.not_false]

/-! ## The tree -/

/-- Inlining keeps every tree as it is but for styles. An element without defaults keeps its
attributes. Any other one reads, if the texts that go into its style close, as the defaults and
then the author's declarations; so a property has the author's value, or else that of the last
default. -/
theorem inlineStyles_keeps_author (font : Text) (root : Element) :
    root.Alike
      (fun tag before after =>
        (defaultsOf font tag before = [] → after = before) ∧
        after.those (fun n => !Text.sameName n "style") =
          before.those (fun n => !Text.sameName n "style") ∧
        after.toList.countP (fun a => Text.sameName a.name "style") ≤ 1 ∧
        (Style.IsWhole font → (∀ style ∈ before.style?, Style.closes style = true) →
          defaultsOf font tag before ≠ [] →
          ∃ style, after.style? = some style ∧
            Style.declarations style =
              defaultsOf (Text.trim font) tag before ++ Style.declarationsOf before.style? ∧
            ∀ property, Style.value? style property =
              (before.style?.bind fun author => Style.value? author property).or
                (lastValue? (defaultsOf (Text.trim font) tag before) property)))
      (inlineStyles font root) := by
  apply Element.alike_mapAttributes
  intro tag before
  refine ⟨inlineAttributes_eq_self, those_inlineAttributes font tag before,
    Attributes.countP_sameName_le_one _ _, ?_⟩
  intro hfont hcloses hne
  obtain ⟨style, hstyle, hread⟩ := exists_style_inlineAttributes hfont hcloses hne
  refine ⟨style, hstyle, hread, ?_⟩
  intro property
  rw [Style.value?_eq_lastValue?, hread, lastValue?_append, Style.lastValue?_declarationsOf]

end Letterpress
