/-
# The image that both dialects see

Each pass rewrites the style and the sizes of an image, which is where the image is
read from. The main statement, `passes_keep_images`, says that it is read the same
before and after: an `img` element whatever its author wrote into its style, and a
division around one if its own style closes its quotes and parentheses.

A style that leaves something open runs into the hints that the legacy pass writes
behind it. That can change what it gives a width, but never to a length in pixels,
so the width of such an image comes from the same place as before.
-/

import Letterpress.Email.ImageRef
import Letterpress.Proofs.Email.AuthorStyles
import Letterpress.Proofs.Email.Promotion
import Letterpress.Proofs.Markup.Showing
import Mathlib.Data.List.Forall2

namespace Letterpress

open Declaration

/-! ## The width that a style gives -/

/-- The pixels that a style gives the width. -/
def styledWidth? (style : Option Text) : Option Nat :=
  (style.bind fun s => Style.value? s "width").bind pixels?

/-- No default of an image is about its width, so the author's text is asked as before. -/
theorem styledWidth?_inlineAttributes (font : Text) (as : Attributes) :
    styledWidth? (inlineAttributes font .img as).style? = styledWidth? as.style? := by
  have hdefaults : defaultsOf font .img as =
      [⟨"max-width", "100%"⟩, ⟨"height", "auto"⟩, ⟨"display", "block"⟩] := rfl
  have hread : ∀ d ∈ defaultsOf font .img as, d.IsReadable := by
    intro d hd
    rw [hdefaults] at hd
    exact isReadable_of_isPlain (List.all_eq_true.mp (by decide) d hd)
  obtain ⟨style, hprepend, hdeclarations⟩ := Style.declarations_prepend
    (hdefaults ▸ List.cons_ne_nil _ _) hread as.style?
  have hstyle : (inlineAttributes font .img as).style? = some style := by
    rw [inlineAttributes, hprepend]
    exact as.get?_set_self "style" style
  have hvalue : Style.value? style "width" = as.style?.bind (Style.value? · "width") := by
    rw [Style.value?_eq_lastValue?, hdeclarations, lastValue?_append,
      Style.lastValue?_declarationsOf, hdefaults]
    exact Option.or_none
  rw [styledWidth?, styledWidth?, hstyle, Option.bind_some, hvalue]

/-- No hint for an image is about its width either. -/
theorem styledWidth?_legacyAttributes (as : Attributes) :
    styledWidth? (legacyAttributes .img as).style? = styledWidth? as.style? := by
  rw [style?_legacyAttributes]
  exact bind_value?_withHints pixels?_eq_none (by decide)
    (fun h hmem => sameName_property_of_mem_hintsFor hmem _ (by decide)) as

/-! ## Images -/

/-- What is read of an image depends on its style's width and three of its attributes. -/
theorem ofImage_congr {img img' : Element}
    (hsource : img'.attribute? "src" = img.attribute? "src")
    (halternative : img'.attribute? "alt" = img.attribute? "alt")
    (hstyled : styledWidth? img'.style? = styledWidth? img.style?)
    (hwidth : styledWidth? img.style? = none →
      img'.attribute? "width" = img.attribute? "width") :
    ImageRef.ofImage img' = ImageRef.ofImage img := by
  have hpixels (e : Element) : (ImageRef.ofImage e).width =
      ((styledWidth? e.style?).or ((e.attribute? "width").bind pixels?)).getD 0 := rfl
  have hsame : (ImageRef.ofImage img').width = (ImageRef.ofImage img).width := by
    rw [hpixels, hpixels, hstyled]
    cases hnone : styledWidth? img.style? with
    | none => rw [hwidth hnone]
    | some px => rfl
  simp only [ImageRef.ofImage, hsource, halternative, ImageRef.mk.injEq, true_and]
  exact hsame

theorem ofImage_inlineStyles (font : Text) {img : Element} (htag : img.tag = .img) :
    ImageRef.ofImage (inlineStyles font img) = ImageRef.ofImage img := by
  have hget (name : Text) (hname : Text.sameName name "style" = false) :
      (inlineStyles font img).attribute? name = img.attribute? name :=
    get?_inlineAttributes hname font img.tag img.attributes
  apply ofImage_congr (hget "src" rfl) (hget "alt" rfl)
  · have hstyled := styledWidth?_inlineAttributes font img.attributes
    rw [← htag] at hstyled
    exact hstyled
  · intro _
    exact hget "width" rfl

/-- The width is only promoted where the style gives one. -/
theorem get?_width_legacyAttributes {as : Attributes} (hnone : styledWidth? as.style? = none) :
    (legacyAttributes .img as).get? "width" = as.get? "width" := by
  have hstyled : styledAttribute? .img as.style? "width" = none :=
    congrArg (Option.map Text.decimal) hnone
  rw [get?_legacyAttributes_of_mem (by decide), hstyled, Option.none_or]

theorem ofImage_toLegacy {img : Element} (htag : img.tag = .img) :
    ImageRef.ofImage (toLegacy img) = ImageRef.ofImage img := by
  have hget (name : Text) (hname : isSetByLegacy name = false) :
      (toLegacy img).attribute? name = img.attribute? name :=
    get?_legacyAttributes hname img.tag img.attributes
  apply ofImage_congr (hget "src" (by decide)) (hget "alt" (by decide))
  · have hstyled := styledWidth?_legacyAttributes img.attributes
    rw [← htag] at hstyled
    exact hstyled
  · intro hnone
    have hwidth := get?_width_legacyAttributes hnone
    rw [← htag] at hwidth
    exact hwidth

/-! ## Divisions around an image -/

theorem Node.tag_of_findAmong? {tag : Tag} {e : Element} {ns : List Node}
    (hfind : findAmong? tag ns = some e) : e.tag = tag := by
  rw [findAmong?_eq_find?_elementsOfAll] at hfind
  have htag := List.find?_some hfind
  exact of_decide_eq_true htag

/-- The alignment that a style gives. -/
def styledAlignment? (style : Option Text) : Option Alignment :=
  (style.bind fun s => Style.value? s "text-align").bind Alignment.parse?

/-- A pass that keeps images keeps what a container shows, if it keeps the container's alignment
and what the editor recorded on it. -/
theorem ofContainer?_mapAttributes {f : Tag → Attributes → Attributes}
    (himage : ∀ img : Element, img.tag = .img →
      ImageRef.ofImage (img.mapAttributes f) = ImageRef.ofImage img)
    {e : Element}
    (hstyled : styledAlignment? (e.mapAttributes f).style? = styledAlignment? e.style?)
    (halignment : (e.mapAttributes f).attribute? "data-alignment" =
      e.attribute? "data-alignment")
    (hwidth : (e.mapAttributes f).attribute? "data-width" = e.attribute? "data-width") :
    ImageRef.ofContainer? (e.mapAttributes f) = ImageRef.ofContainer? e := by
  have hfind : (e.mapAttributes f).findInside? .img =
      (e.findInside? .img).map (·.mapAttributes f) :=
    Node.findAmong?_mapAttributesOfAll .img e.children
  simp only [styledAlignment?] at hstyled
  simp only [ImageRef.ofContainer?, hfind, hstyled, halignment, hwidth, Option.map_map]
  cases hinside : e.findInside? .img with
  | none => rfl
  | some img =>
      have htag : img.tag = .img := Node.tag_of_findAmong? hinside
      simp only [Option.map_some, Function.comp_apply, himage img htag]

/-- The style of an element closes its quotes and parentheses, if there is one. -/
def Element.StyleCloses (e : Element) : Prop := ∀ style ∈ e.style?, Style.closes style = true

variable {font : Text} {e : Element}

/-- The font does not enter into the styles of a division. -/
theorem inlineAttributes_div (font : Text) (as : Attributes) :
    inlineAttributes font .div as = inlineAttributes [] .div as := rfl

/-- A division gets the alignment as a default that it has already. -/
theorem styledAlignment?_inlineStyles (htag : e.tag = .div) (hcloses : e.StyleCloses) :
    styledAlignment? (inlineStyles font e).style? = styledAlignment? e.style? := by
  obtain ⟨tag, as, children⟩ := e
  subst htag
  show styledAlignment? (inlineAttributes font .div as).style? = styledAlignment? as.style?
  rw [inlineAttributes_div]
  by_cases hnone : defaultsOf [] .div as = []
  · rw [inlineAttributes_eq_self hnone]
  have hfont : Style.IsWhole [] := Style.isWhole_of_not_isMark rfl
  obtain ⟨style, hstyle, hread⟩ := exists_style_inlineAttributes hfont hcloses hnone
  rw [styledAlignment?, hstyle, Option.bind_some, Style.value?_eq_lastValue?, hread,
    lastValue?_append, Style.lastValue?_declarationsOf]
  -- a division without an alignment gets no defaults
  cases halign : as.style?.bind (Style.value? · "text-align") with
  | some value => rw [styledAlignment?, halign, Option.some_or]
  | none =>
      refine absurd ?_ hnone
      rw [defaultsOf, halign]
      rfl

/-- Inlining leaves nothing open that was not open. -/
theorem styleCloses_inlineStyles (htag : e.tag = .div) (hcloses : e.StyleCloses) :
    (inlineStyles font e).StyleCloses := by
  obtain ⟨tag, as, children⟩ := e
  subst htag
  have hcloses : ∀ style ∈ as.style?, Style.closes style = true := hcloses
  show ∀ style ∈ (inlineAttributes font .div as).style?, Style.closes style = true
  rw [inlineAttributes_div, inlineAttributes]
  have hfont : Style.IsWhole [] := Style.isWhole_of_not_isMark rfl
  have hread : ∀ d ∈ defaultsOf [] .div as, d.IsReadable := by
    intro d hd
    rw [defaultsOf] at hd
    exact isReadable_of_mem_defaultsFor hfont (fun a ha => (isWhole_alignment hcloses a ha).1) d hd
  have hprepend := Style.closes_prepend hread hcloses
  split
  · rename_i style hsome
    intro style' hstyle'
    rw [Attributes.style?, Attributes.get?_set_self] at hstyle'
    cases hstyle'
    exact hprepend style hsome
  · exact hcloses

theorem ofContainer?_inlineStyles (htag : e.tag = .div) (hcloses : e.StyleCloses) :
    ImageRef.ofContainer? (inlineStyles font e) = ImageRef.ofContainer? e :=
  ofContainer?_mapAttributes (fun _ himg => ofImage_inlineStyles font himg)
    (styledAlignment?_inlineStyles htag hcloses)
    (get?_inlineAttributes rfl font e.tag e.attributes)
    (get?_inlineAttributes rfl font e.tag e.attributes)

/-- A division gets no hints. -/
theorem style?_toLegacy_of_div (htag : e.tag = .div) : (toLegacy e).style? = e.style? := by
  have hstyle := style?_legacyAttributes e.tag e.attributes
  have hmissing : missingHints (hintsFor .div) e.style? = [] := by
    cases e.style? <;> rfl
  have happend : Style.append e.style? [] = none := rfl
  rw [style?_withHints, htag, show e.attributes.style? = e.style? from rfl, hmissing,
    happend, Option.none_or, ← htag] at hstyle
  exact hstyle

theorem ofContainer?_toLegacy (htag : e.tag = .div) :
    ImageRef.ofContainer? (toLegacy e) = ImageRef.ofContainer? e :=
  ofContainer?_mapAttributes (fun _ himg => ofImage_toLegacy himg)
    (congrArg styledAlignment? (style?_toLegacy_of_div htag))
    (get?_legacyAttributes (by decide) e.tag e.attributes)
    (get?_legacyAttributes (by decide) e.tag e.attributes)

/-! ## The tree -/

/-- Two elements of one tag, before and after a pass, show the same image: as an image, and as a
division around an image. -/
structure ShowsSameImage (before after : Element) : Prop where
  tag_eq : after.tag = before.tag
  ofImage_eq : before.tag = .img → ImageRef.ofImage after = ImageRef.ofImage before
  ofContainer?_eq : before.tag = .div → before.StyleCloses →
    ImageRef.ofContainer? after = ImageRef.ofContainer? before

theorem showsSameImage_inlineStyles (font : Text) (e : Element) :
    ShowsSameImage e (inlineStyles font e) :=
  ⟨rfl, ofImage_inlineStyles font, ofContainer?_inlineStyles⟩

theorem showsSameImage_toLegacy (e : Element) : ShowsSameImage e (toLegacy e) :=
  ⟨rfl, ofImage_toLegacy, fun htag _ => ofContainer?_toLegacy htag⟩

/-- The one pass after the other keeps what both keep, as a style that closes still does. -/
theorem showsSameImage_toLegacy_inlineStyles (font : Text) (e : Element) :
    ShowsSameImage e (toLegacy (inlineStyles font e)) := by
  have hlegacy := showsSameImage_toLegacy (inlineStyles font e)
  refine ⟨rfl, ?_, ?_⟩
  · intro htag
    exact (hlegacy.ofImage_eq htag).trans (ofImage_inlineStyles font htag)
  · intro htag hcloses
    have hstill : (inlineStyles font e).StyleCloses := styleCloses_inlineStyles htag hcloses
    exact (hlegacy.ofContainer?_eq htag hstill).trans (ofContainer?_inlineStyles htag hcloses)

theorem showsSameImage_mapAttributes {pass : Element → Element}
    (helements : ∀ root, (pass root).elements = root.elements.map pass)
    (hsame : ∀ e : Element, ShowsSameImage e (pass e)) (root : Element) :
    List.Forall₂ ShowsSameImage root.elements (pass root).elements := by
  rw [helements, List.forall₂_map_right_iff, List.forall₂_same]
  exact fun e _ => hsame e

/-- The passes of both dialects, and the one after the other, keep what is read of every image
of every tree: of each `img` element whatever its style, and of each division whose style
closes. -/
theorem passes_keep_images (font : Text) (root : Element) :
    List.Forall₂ ShowsSameImage root.elements (inlineStyles font root).elements ∧
      List.Forall₂ ShowsSameImage root.elements (toLegacy root).elements ∧
      List.Forall₂ ShowsSameImage root.elements
        (toLegacy (inlineStyles font root)).elements := by
  have hinline (root : Element) := Element.elements_mapAttributes (inlineAttributes font) root
  have hlegacy (root : Element) := Element.elements_mapAttributes legacyAttributes root
  have hboth (root : Element) : (toLegacy (inlineStyles font root)).elements =
      root.elements.map fun e => toLegacy (inlineStyles font e) := by
    rw [toLegacy, hlegacy, inlineStyles, hinline, List.map_map]
    rfl
  refine ⟨?_, ?_, ?_⟩
  · exact showsSameImage_mapAttributes hinline (showsSameImage_inlineStyles font) root
  · exact showsSameImage_mapAttributes hlegacy showsSameImage_toLegacy root
  · exact showsSameImage_mapAttributes hboth (showsSameImage_toLegacy_inlineStyles font) root

end Letterpress
