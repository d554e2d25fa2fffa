/-
# Default styles

The declarations that each element of a responsive email starts from. They
stand before what the author wrote, so each of them is a default and no
override.
-/

import Letterpress.Markup.Tag
import Letterpress.Style.Declaration

namespace Letterpress

/-- The colour of text. -/
def textColour : Text := "#333333"

/-- The size of running text. -/
def textSize : Text := "11pt"

/-- The colour of links. -/
def linkColour : Text := "#0066cc"

/-- The size of the headings that have one. -/
def headingSize? : Tag → Option Text
  | .h1 => some "24px"
  | .h2 => some "20px"
  | .h3 => some "16px"
  | _ => none

/-- The look of every block of text. -/
def textDefaults (font : Text) : List Declaration :=
  [⟨"font-family", font⟩, ⟨"font-size", textSize⟩, ⟨"color", textColour⟩]

/-- The declarations for an element. Only a division looks at how its text is aligned: one
that is aligned holds an image. -/
def defaultsFor (tag : Tag) (font : Text) (alignment : Option Text) : List Declaration :=
  match tag with
  | .p =>
    textDefaults font ++
      [⟨"text-align", "justify"⟩, ⟨"padding", "10px 0"⟩, ⟨"margin", "0"⟩]
  | .h1 | .h2 | .h3 =>
    textDefaults font ++ (headingSize? tag).toList.map (⟨"font-size", ·⟩) ++
      [⟨"font-weight", "bold"⟩, ⟨"padding", "10px 0"⟩, ⟨"margin", "0"⟩]
  | .strong | .b => [⟨"font-weight", "bold"⟩]
  | .em | .i => [⟨"font-style", "italic"⟩]
  | .u => [⟨"text-decoration", "underline"⟩]
  | .a => [⟨"color", linkColour⟩, ⟨"text-decoration", "underline"⟩]
  | .ul | .ol => [⟨"margin", "0"⟩, ⟨"padding", "0 0 0 20px"⟩]
  | .li => textDefaults font ++ [⟨"padding", "5px 0"⟩, ⟨"margin", "0"⟩]
  | .img => [⟨"max-width", "100%"⟩, ⟨"height", "auto"⟩, ⟨"display", "block"⟩]
  | .div =>
    match alignment with
    | none => []
    | some a => if a.isEmpty then [] else [⟨"text-align", a⟩, ⟨"margin", "10px 0"⟩]
  | _ => []

end Letterpress
