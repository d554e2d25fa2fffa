/-
# Author styles in rows

Two steps stand between the style of a block and its row. Inlining writes defaults before the
author's text, and the row writes the element again. What a row writes with its own start tag
keeps the style attribute in its place, with the author's text at the end
(`responsiveBody_keeps_author_style`).

Headings and divisions that hold an image are rebuilt for their rows. A heading keeps only what
stands in it, so its style gives way to that of the cell.
-/

import Letterpress.Proofs.Email.Content

namespace Letterpress

theorem escapeAttribute_append (t u : Text) :
    escapeAttribute (t ++ u) = escapeAttribute t ++ escapeAttribute u := List.flatMap_append

/-! ## The style attribute after inlining -/

/-- What inlining writes before the style of an element that has one. -/
def defaultsLead (font : Text) (tag : Tag) (attributes : Attributes) : Text :=
  if (defaultsOf font tag attributes).isEmpty then []
  else Declaration.joined (defaultsOf font tag attributes) ++ "; "

variable {font author : Text} {earlier later : List Attribute}

theorem toList_inlineAttributes (font : Text) (tag : Tag) {attributes : Attributes}
    (hsplit : attributes.toList = earlier ++ ⟨"style", author⟩ :: later)
    (hearlier : ∀ b ∈ earlier, Text.sameName b.name "style" = false)
    (hstyle : attributes.style? = some author) (hset : Text.isBlankText author = false) :
    (inlineAttributes font tag attributes).toList =
      earlier ++ ⟨"style", defaultsLead font tag attributes ++ author⟩ :: later := by
  cases hempty : (defaultsOf font tag attributes).isEmpty with
  | true =>
      have hnone : defaultsOf font tag attributes = [] := List.isEmpty_iff.mp hempty
      rw [inlineAttributes_eq_self hnone, defaultsLead, if_pos hempty, hsplit, List.nil_append]
  | false =>
      have hprepend : Style.prepend (defaultsOf font tag attributes) attributes.style? =
          some (defaultsLead font tag attributes ++ author) := by
        rw [hstyle, Style.prepend, defaultsLead, hempty, hset]
        rfl
      rw [inlineAttributes, hprepend]
      change Attribute.setIn "style" _ attributes.toList = _
      rw [hsplit, Attribute.setIn_append_cons hearlier (beq_self_eq_true _)]

/-! ## The row of a block -/

/-- A block that is no heading and gives way to no image is written with its own tags. -/
theorem Row.content_ofElement_of_kept {e : Element} (hheading : headingSize? e.tag = none)
    (hkept : e.toNode.divisionImage? = none) : (ofElement font e).content = e.outerMarkup := by
  rcases content_ofElement font e with ⟨img, image, himage, -⟩ | ⟨-, hplain | ⟨hsize, -⟩⟩
  · rw [hkept] at himage
    cases himage
  · exact hplain
  · rw [hheading] at hsize
    cases hsize

theorem Element.toNode_mem_of_elementChildren {root e : Element}
    (hmem : e ∈ root.elementChildren) : e.toNode ∈ root.children := by
  obtain ⟨n, hn, hnode⟩ := List.mem_filterMap.mp hmem
  cases n with
  | element tag attributes children =>
      cases hnode
      exact hn
  | text t => cases hnode
  | comment t => cases hnode

/-- Every block with a style of its own that is not blank has a row, between the rows of the
nodes above and below. Unless it is a heading or a division that holds an image, the row holds
its start tag with the attributes it came with, each in its place, and at the end of the style
attribute stands the author's text. -/
theorem responsiveBody_keeps_author_style (font : Text) {h author : Text} {above below : List Node}
    {e : Element} (hplace : (parseFragment h).children = above ++ e.toNode :: below)
    (hstyle : e.style? = some author) (hset : Text.isBlankText author = false)
    (hheading : headingSize? e.tag = none)
    (hkept : e.tag = .div → e.findInside? .img = none) :
    ∃ row earlier later rest,
      responsiveBody h font = above.flatMap (Node.rowMarkup font) ++
        (Row.markup row ++ below.flatMap (Node.rowMarkup font)) ∧
      e.attributes.toList = earlier ++ ⟨"style", author⟩ :: later ∧
      row.content = '<' :: e.tag.name ++ (earlier.flatMap Attribute.markup ++
        (" style=\"" ++ escapeAttribute (defaultsLead font e.tag e.attributes) ++
          escapeAttribute author ++ "\"") ++ later.flatMap Attribute.markup) ++ ">" ++ rest := by
  obtain ⟨earlier, later, hsplit, hearlier⟩ := Attributes.exists_split_of_get? hstyle
  have hinlined := toList_inlineAttributes font e.tag hsplit hearlier hstyle hset
  let styled := e.mapAttributes (inlineAttributes font)
  obtain ⟨rest, hwritten⟩ :
      ∃ rest, styled.outerMarkup = startTagMarkup styled.tag styled.attributes ++ rest := ⟨_, rfl⟩
  refine ⟨Row.ofElement font styled, earlier, later, rest, ?_, hsplit, ?_⟩
  · rw [responsiveBody_eq, hplace, List.flatMap_append, List.flatMap_cons]
    rfl
  · have hdivision : e.toNode.divisionImage? = none := by
      rw [Element.toNode, Node.divisionImage?]
      split
      · rename_i hdiv
        exact hkept hdiv
      · rfl
    have hafter : styled.toNode.divisionImage? = none := by
      have hmap := Node.divisionImage?_mapAttributes (inlineAttributes font) e.toNode
      rw [hdivision] at hmap
      exact hmap
    rw [Row.content_ofElement_of_kept (e := styled) hheading hafter, hwritten, startTagMarkup]
    change '<' :: e.tag.name ++ (inlineAttributes font e.tag e.attributes).toList.flatMap
      Attribute.markup ++ ">" ++ rest = _
    rw [hinlined, List.flatMap_append, List.flatMap_cons]
    simp [Attribute.markup, escapeAttribute_append]

/-- A paragraph whose style stands between other attributes, behind one without a style. -/
def titledSample : Text := "<p>a</p><p id=i style=\"content: '&amp;'; color: red\" title=t>b</p>"

theorem responsiveBody_keeps_author_style_titled :
    ∃ (e : Element) (above below : List Node) (row : Row) (earlier later : List Attribute)
      (rest : Text),
      (parseFragment titledSample).children = above ++ e.toNode :: below ∧
      e.style? = some "content: '&'; color: red".toList ∧
      responsiveBody titledSample "Arial" = above.flatMap (Node.rowMarkup "Arial") ++
        (Row.markup row ++ below.flatMap (Node.rowMarkup "Arial")) ∧
      e.attributes.toList = earlier ++ ⟨"style", "content: '&'; color: red"⟩ :: later ∧
      row.content = '<' :: "p".toList ++ (earlier.flatMap Attribute.markup ++
        (" style=\"" ++ escapeAttribute (defaultsLead "Arial" .p e.attributes) ++
          "content: '&amp;'; color: red" ++ "\"") ++
            later.flatMap Attribute.markup) ++ ">" ++ rest := by
  have hfound : ∃ e ∈ (parseFragment titledSample).elementChildren,
      e.tag = .p ∧ e.style? = some "content: '&'; color: red".toList := by decide +kernel
  obtain ⟨e, hmem, htag, hstyle⟩ := hfound
  obtain ⟨above, below, hplace⟩ := List.append_of_mem (Element.toNode_mem_of_elementChildren hmem)
  have hheading : headingSize? e.tag = none := by
    rw [htag]
    rfl
  have hkept : e.tag = .div → e.findInside? .img = none := by
    intro hdiv
    rw [htag] at hdiv
    cases hdiv
  obtain ⟨row, earlier, later, rest, hrows, hattributes, hcontent⟩ :=
    responsiveBody_keeps_author_style "Arial" hplace hstyle (by decide) hheading hkept
  rw [htag] at hcontent
  exact ⟨e, above, below, row, earlier, later, rest, hplace, hstyle, hrows, hattributes,
    hcontent⟩

/-- A heading with a style. -/
def styledHeading : Text := "<h1 style=\"color: red\">T</h1>"

/-- The style of a heading is nowhere in its row, nor in the rest of the body. -/
theorem responsiveBody_drops_heading_style :
    (parseFragment styledHeading).elementChildren.map (fun e => (e.tag, e.style?)) =
      [(.h1, some "color: red".toList)] ∧
    Text.isBlankText "color: red" = false ∧
    Text.occursIn (escapeAttribute "color: red") (responsiveBody styledHeading "Arial") =
      false := by
  decide +kernel

end Letterpress
