/-
# Table rows

The responsive layout of a body: each block at the top of the tree becomes one
row of a table with one cell. Blank text and comments between blocks give none.
-/

import Letterpress.Email.Defaults
import Letterpress.Email.ImageRef
import Letterpress.Markup.Written

namespace Letterpress

/-- A row: the style of its cell, and the cell's content as markup. -/
structure Row where
  cellStyle : Text
  content : Text

namespace Row

/-- The style of cells that hold anything but headings, lists and images. -/
def plainStyle (font : Text) : Text :=
  "font-family: " ++ font ++ "; font-size: " ++ textSize ++ "; color: " ++ textColour ++
    "; text-align: justify; padding: 10px 0;"

/-- The attribute for a width that is known. -/
def widthAttribute (width : Nat) : Text :=
  if width = 0 then [] else " width=\"" ++ Text.decimal width ++ "\""

/-- An image, rebuilt so that it scales down with its cell. -/
def ofImage (image : ImageRef) : Row where
  cellStyle := "padding: 10px 0; text-align: " ++ image.alignment.name ++ ";"
  content :=
    "<img src=\"" ++ escapeAttribute image.source ++ "\"" ++
      widthAttribute image.width ++
      " style=\"display: block; max-width: 100%; height: auto;\" alt=\"" ++
      escapeAttribute image.alternative ++ "\" />"

/-- An element as it is. -/
def ofPlain (font : Text) (e : Element) : Row := ⟨plainStyle font, e.outerMarkup⟩

/-- An element. Headings become strong text, and a division that holds an image becomes that
image. -/
def ofElement (font : Text) (e : Element) : Row :=
  match headingSize? e.tag with
  | some size =>
    { cellStyle :=
        "font-family: " ++ font ++ "; font-size: " ++ size ++
          "; font-weight: bold; color: " ++ textColour ++ "; padding: 10px 0;"
      content := "<strong>" ++ e.innerMarkup ++ "</strong>" }
  | none =>
    match e.tag with
    | .ul | .ol =>
      { cellStyle :=
          "font-family: " ++ font ++ "; font-size: " ++ textSize ++ "; color: " ++
            textColour ++ "; padding: 5px 0 5px 20px;"
        content := e.outerMarkup }
    | .div =>
      match ImageRef.ofContainer? e with
      | some image => ofImage image
      | none => ofPlain font e
    | _ => ofPlain font e

/-- The row of a node at the top of the tree. -/
def ofNode? (font : Text) : Node → Option Row
  | .element tag attributes children => some (ofElement font ⟨tag, attributes, children⟩)
  | .text t =>
    if Text.isBlankText t then none else some ⟨plainStyle font, escapeText (Text.trim t)⟩
  | .comment _ => none

/-- The row as markup. -/
def markup (r : Row) : Text :=
  "\n                <tr>\n                    <td style=\"" ++ escapeAttribute r.cellStyle ++
    "\">\n                        " ++ r.content ++
    "\n                    </td>\n                </tr>"

end Row

/-- The rows of a tree. -/
def rows (font : Text) (root : Element) : List Row := root.children.filterMap (Row.ofNode? font)

/-- The rows of a tree as markup. -/
def rowsMarkup (font : Text) (root : Element) : Text := (rows font root).flatMap Row.markup

end Letterpress
