/-
# Hints behind author styles

The legacy pass adds declarations that an element lacks. The main statement,
`toLegacy_adds_missing_hints`, says for every element of every tree whose style
closes its quotes and parentheses what is read afterwards: what the author
declared, and then the hints for properties that the author left open. What the
author set keeps its value, and every hinted property has one.

The white space and semicolons that the pass takes off the author's text before
it adds hints declare nothing, so they do not enter the statement. Sizes and
alignments are promoted afterwards and leave the style alone.
-/

import Letterpress.Email.Outlook
import Letterpress.Proofs.Markup.Restyling
import Letterpress.Proofs.Style.Joining
import Letterpress.Proofs.Style.Values

namespace Letterpress

open Declaration

/-! ## Which hints are missing -/

theorem isReadable_of_mem_hintsFor {tag : Tag} {h : Declaration} (hmem : h ∈ hintsFor tag) :
    h.IsReadable := by
  have hall : (hintsFor tag).all isPlain = true := by
    fun_cases hintsFor tag <;> decide
  exact isReadable_of_isPlain (List.all_eq_true.mp hall h hmem)

theorem trimmed_of_mem_hintsFor {tag : Tag} {h : Declaration} (hmem : h ∈ hintsFor tag) :
    h.trimmed = h := by
  have hall : (hintsFor tag).all (fun h => decide (h.trimmed = h)) = true := by
    fun_cases hintsFor tag <;> decide
  exact of_decide_eq_true (List.all_eq_true.mp hall h hmem)

/-- Of declarations in small letters, a property in small letters has a value exactly if one
of them declares it. -/
theorem value?_isNone_iff {t property : Text} (hlower : Text.lower property = property) :
    (Style.value? t property).isNone = true ↔
      property ∉ (Style.declarations t).map Declaration.property := by
  rw [Option.isNone_iff_eq_none, Style.value?_eq_lastValue?, lastValue?_eq_none_iff,
    List.mem_map, not_exists]
  apply forall_congr'
  intro d
  rw [not_and]
  apply imp_congr_right
  intro hd
  rw [Text.sameName, Style.lower_property_of_mem hd, hlower, beq_eq_false_iff_ne]

/-- The hints that are added are those whose property the author does not declare. -/
theorem missingHints_hintsFor (tag : Tag) (author : Option Text) :
    missingHints (hintsFor tag) author = (hintsFor tag).filter fun h =>
      h.property ∉ (Style.declarationsOf author).map Declaration.property := by
  cases author with
  | none =>
      symm
      apply List.filter_eq_self.mpr
      intro h _
      simp [Style.declarationsOf]
  | some style =>
      apply List.filter_congr
      intro h hmem
      have hlower := (isReadable_of_mem_hintsFor hmem).lower_property
      rw [Bool.eq_iff_iff, value?_isNone_iff hlower, decide_eq_true_iff]
      rfl

/-! ## What an element reads as -/

theorem style?_withHints (tag : Tag) (before : Attributes) :
    (withHints tag before).style? =
      (Style.append before.style? (missingHints (hintsFor tag) before.style?)).or
        before.style? := by
  rw [withHints]
  split
  · rename_i style happend
    rw [happend, Option.some_or]
    exact before.get?_set_self "style" style
  · rename_i hnone
    rw [hnone, Option.none_or]

/-- The attributes that promotion writes. -/
def promotedNames : List Text := ["width", "height", "align"]

/-- What a style says that one of these attributes should be: a size in pixels on images, tables
and cells, and the name of an alignment on divisions and paragraphs. -/
def styledAttribute? (tag : Tag) (style : Option Text) (name : Text) : Option Text :=
  if name = "align".toList then
    if tag ∈ [.div, .p] then
      ((style.bind fun s => Style.value? s "text-align").bind Alignment.parse?).map Alignment.name
    else none
  else if tag ∈ [.img, .table, .td, .th] then
    ((style.bind fun s => Style.value? s name).bind pixels?).map Text.decimal
  else none

/-- Promotion writes those of its attributes that the style says something of. -/
theorem promoted_eq (tag : Tag) (style : Text) :
    promoted tag style = promotedNames.filterMap fun name =>
      (styledAttribute? tag (some style) name).map fun value => ⟨name, value⟩ := by
  have hsize (opt : Option Nat) (name : Text) : opt.map (fun px => ⟨name, Text.decimal px⟩) =
      (opt.map Text.decimal).map fun value => (⟨name, value⟩ : Attribute) :=
    (Option.map_map ..).symm
  fun_cases promoted tag style
  case case1 | case2 | case3 | case4 =>
    simp only [hsize]
    rfl
  case case5 | case6 =>
    simp only [promotedNames, styledAttribute?, List.filterMap_cons, Option.bind_some]
    cases (Style.value? style "text-align").bind Alignment.parse? <;> rfl
  case case7 himg htable htd hth hdiv hp =>
    symm
    rw [List.filterMap_eq_nil_iff]
    intro name _
    have haligned : tag ∉ [.div, .p] := by simpa using ⟨hdiv, hp⟩
    have hsized : tag ∉ [.img, .table, .td, .th] := by simpa using ⟨himg, htable, htd, hth⟩
    simp only [styledAttribute?, if_neg haligned, if_neg hsized, ite_self, Option.map_none]

theorem mem_promotedOf_iff {tag : Tag} {before : Attributes} {a : Attribute} :
    a ∈ promotedOf tag before ↔ a.name ∈ promotedNames ∧
      styledAttribute? tag (withHints tag before).style? a.name = some a.value := by
  have hnone (name : Text) : styledAttribute? tag none name = none := by
    rw [styledAttribute?]
    split <;> split <;> rfl
  rw [promotedOf]
  split
  · rename_i style hstyle
    rw [hstyle, promoted_eq, List.mem_filterMap]
    constructor
    · rintro ⟨name, hname, hvalue⟩
      obtain ⟨value, hstyled, rfl⟩ := Option.map_eq_some_iff.mp hvalue
      exact ⟨hname, hstyled⟩
    · rintro ⟨hname, hstyled⟩
      exact ⟨a.name, hname, by rw [hstyled]; rfl⟩
  · rename_i hstyle
    simp [hstyle, hnone]

theorem name_mem_of_mem_promotedOf {tag : Tag} {before : Attributes} {a : Attribute}
    (hmem : a ∈ promotedOf tag before) : a.name ∈ promotedNames :=
  (mem_promotedOf_iff.mp hmem).1

/-- Promotion leaves alone what it does not write. -/
theorem those_foldl_set {keep : Text → Bool} {more : List Attribute}
    (hother : ∀ a ∈ more, ∀ n, Text.sameName n a.name = true → keep n = false)
    (as : Attributes) :
    (more.foldl (fun as a => as.set a.name a.value) as).those keep = as.those keep := by
  induction more generalizing as with
  | nil => rfl
  | cons a more ih =>
      rw [List.foldl_cons, ih (fun b hb => hother b (List.mem_cons_of_mem a hb)),
        Attributes.those_set (hother a (by simp))]

/-- The style that an element has in the end is that with the hints. -/
theorem style?_legacyAttributes (tag : Tag) (before : Attributes) :
    (legacyAttributes tag before).style? = (withHints tag before).style? := by
  have hother : ∀ a ∈ promotedOf tag before, ∀ n, Text.sameName n a.name = true →
      Text.sameName n "style" = false := by
    intro a ha n hn
    have hname := name_mem_of_mem_promotedOf ha
    rw [Text.sameName, beq_eq_false_iff_ne, beq_iff_eq.mp hn]
    revert hname
    generalize a.name = name
    revert name
    decide
  have hthose := those_foldl_set hother (withHints tag before)
  apply Attributes.get?_eq_of_those hthose
  intro n hn
  exact hn

/-- What is read of an element in the end. -/
theorem declarationsOf_legacyAttributes (tag : Tag) {before : Attributes}
    (hcloses : ∀ style ∈ before.style?, Style.closes style = true) :
    Style.declarationsOf (legacyAttributes tag before).style? =
      Style.declarationsOf before.style? ++ (hintsFor tag).filter fun h =>
        h.property ∉ (Style.declarationsOf before.style?).map Declaration.property := by
  have hread : ∀ h ∈ missingHints (hintsFor tag) before.style?, h.IsReadable := by
    intro h hmem
    rw [missingHints_hintsFor] at hmem
    exact isReadable_of_mem_hintsFor (List.mem_filter.mp hmem).1
  rw [style?_legacyAttributes, style?_withHints, Style.declarations_append hread hcloses,
    missingHints_hintsFor]
  congr 1
  refine (List.map_congr_left fun h hmem => ?_).trans (List.map_id _)
  exact trimmed_of_mem_hintsFor (List.mem_filter.mp hmem).1

/-- No hint that is added gives another value to what the author set. -/
theorem lastValue?_missing_eq_none {tag : Tag} {author : Option Text} {property : Text}
    (hset : (lastValue? (Style.declarationsOf author) property).isSome = true) :
    lastValue? ((hintsFor tag).filter fun h =>
      h.property ∉ (Style.declarationsOf author).map Declaration.property) property = none := by
  obtain ⟨d, hd, hsame⟩ := isSome_lastValue?_iff.mp hset
  rw [lastValue?_eq_none_iff]
  intro h hmem
  obtain ⟨hhint, hmissing⟩ := List.mem_filter.mp hmem
  rw [← Bool.not_eq_true]
  intro hsame'
  refine of_decide_eq_true hmissing (List.mem_map.mpr ⟨d, hd, ?_⟩)
  rw [← Style.lower_property_of_mem_declarationsOf hd, beq_iff_eq.mp hsame,
    ← beq_iff_eq.mp hsame', (isReadable_of_mem_hintsFor hhint).lower_property]

/-- The names of attributes that the pass may set. -/
def isSetByLegacy (n : Text) : Bool :=
  (("style" : Text) :: promotedNames).any fun name => Text.sameName n name

theorem isSetByLegacy_of_sameName {n name : Text} (hsame : Text.sameName n name = true)
    (hmem : name ∈ ("style" : Text) :: promotedNames) : isSetByLegacy n = true :=
  List.any_eq_true.mpr ⟨name, hmem, hsame⟩

theorem those_legacyAttributes (tag : Tag) (before : Attributes) :
    (legacyAttributes tag before).those (fun n => !isSetByLegacy n) =
      before.those fun n => !isSetByLegacy n := by
  rw [legacyAttributes, those_foldl_set]
  · rw [withHints]
    split
    · apply Attributes.those_set
      intro n hn
      rw [isSetByLegacy_of_sameName hn (by simp), Bool.not_true]
    · rfl
  · intro a ha n hn
    rw [isSetByLegacy_of_sameName hn (List.mem_cons_of_mem _ (name_mem_of_mem_promotedOf ha)),
      Bool.not_true]

theorem get?_legacyAttributes {name : Text} (hname : isSetByLegacy name = false) (tag : Tag)
    (before : Attributes) : (legacyAttributes tag before).get? name = before.get? name := by
  apply Attributes.get?_eq_of_those (those_legacyAttributes tag before)
  intro n hn
  have hsame : isSetByLegacy n = isSetByLegacy name := by
    simp only [isSetByLegacy, Text.sameName, beq_iff_eq.mp hn]
  rw [hsame, hname, Bool.not_false]

/-! ## The tree -/

/-- The legacy pass keeps every tree as it is but for styles, sizes and alignments. An element
whose style closes reads as what the author declared, and then the hints in their order whose
property the author did not declare. So what the author declared keeps its value, and every
hinted property has one. -/
theorem toLegacy_adds_missing_hints (root : Element) :
    root.Alike
      (fun tag before after =>
        after.those (fun n => !isSetByLegacy n) = before.those (fun n => !isSetByLegacy n) ∧
        ((∀ style ∈ before.style?, Style.closes style = true) →
          Style.declarationsOf after.style? =
              Style.declarationsOf before.style? ++ ((hintsFor tag).filter fun h =>
                h.property ∉
                  (Style.declarationsOf before.style?).map Declaration.property) ∧
            (∀ property value,
              (before.style?.bind fun author => Style.value? author property) = some value →
              (after.style?.bind fun style => Style.value? style property) = some value) ∧
            ∀ h ∈ hintsFor tag,
              (after.style?.bind fun style => Style.value? style h.property).isSome = true))
      (toLegacy root) := by
  apply Element.alike_mapAttributes
  intro tag before
  refine ⟨those_legacyAttributes tag before, ?_⟩
  intro hcloses
  have hread := declarationsOf_legacyAttributes tag hcloses
  refine ⟨hread, ?_, ?_⟩
  · intro property value hvalue
    rw [← Style.lastValue?_declarationsOf] at hvalue ⊢
    rw [hread, lastValue?_append, lastValue?_missing_eq_none (by simp [hvalue]),
      Option.none_or, hvalue]
  · intro h hmem
    rw [← Style.lastValue?_declarationsOf, hread, isSome_lastValue?_iff]
    by_cases hset : h.property ∈ (Style.declarationsOf before.style?).map Declaration.property
    · obtain ⟨d, hd, heq⟩ := List.mem_map.mp hset
      exact ⟨d, List.mem_append_left _ hd, by simp [heq, Text.sameName]⟩
    · refine ⟨h, List.mem_append_right _ (List.mem_filter.mpr ⟨hmem, ?_⟩), ?_⟩
      · exact decide_eq_true hset
      · simp [Text.sameName]

end Letterpress
