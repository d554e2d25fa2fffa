/-
# Inlined styles

The pass that writes the default styles into a tree. It changes no attribute
but `style`, and of that only what stands before the author's text.
-/

import Letterpress.Email.Defaults
import Letterpress.Markup.Node

namespace Letterpress

/-- The declarations that an element gets, given its attributes. -/
def defaultsOf (font : Text) (tag : Tag) (attributes : Attributes) : List Declaration :=
  let alignment := attributes.style?.bind fun style => Style.value? style "text-align"
  defaultsFor tag font (alignment.map Text.lower)

/-- The attributes of an element with its default styles. -/
def inlineAttributes (font : Text) (tag : Tag) (attributes : Attributes) : Attributes :=
  match Style.prepend (defaultsOf font tag attributes) attributes.style? with
  | some style => attributes.set "style" style
  | none => attributes

/-- The tree with default styles on every element that has any. -/
def inlineStyles (font : Text) (root : Element) : Element :=
  root.mapAttributes (inlineAttributes font)

/-- The number of elements that get default styles. -/
def inlinedCount (font : Text) (root : Element) : Nat :=
  root.elements.countP fun e => !(defaultsOf font e.tag e.attributes).isEmpty

end Letterpress
