/-
# Images in the content

What the library needs to know of an image in the content. An editor wraps an
image in a division that carries its alignment and width; imported content has
the image alone.
-/

import Letterpress.Email.Alignment
import Letterpress.Markup.Node
import Letterpress.Style.Declaration
import Letterpress.Style.Pixels

namespace Letterpress

/-- One image. A width of zero scales with the block around it. -/
structure ImageRef where
  source : Text
  alternative : Text
  alignment : Alignment
  width : Nat

namespace ImageRef

/-- The alternative text of an image that has none. -/
def defaultAlternative : Text := "Image"

/-- The image of an `img` element: its width is that of the style, or else that of the
attribute. -/
def ofImage (img : Element) : ImageRef where
  source := (img.attribute? "src").getD []
  alternative :=
    ((img.attribute? "alt").filter fun a => !Text.isBlankText a).getD defaultAlternative
  alignment := .center
  width :=
    (((img.style?.bind fun s => Style.value? s "width").bind pixels?).or
      ((img.attribute? "width").bind pixels?)).getD 0

/-- The first image in an element. The element's own alignment counts, and its recorded width
fills in for a missing one. -/
def ofContainer? (container : Element) : Option ImageRef :=
  (container.findInside? .img).map fun img =>
    let image := ofImage img
    let alignment :=
      ((container.style?.bind fun s => Style.value? s "text-align").bind
        Alignment.parse?).or
        ((container.attribute? "data-alignment").bind Alignment.parse?)
    { image with
      alignment := alignment.getD image.alignment
      width :=
        if image.width = 0 then ((container.attribute? "data-width").bind pixels?).getD 0
        else image.width }

end ImageRef

end Letterpress
