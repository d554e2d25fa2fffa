/-
# The legacy pass

The pass for mail clients that lay out with a word processor's engine. It adds
the declarations such an engine needs where the author left the property open,
and copies sizes and alignments that it overlooks in styles to attributes.
-/

import Letterpress.Email.Alignment
import Letterpress.Markup.Node
import Letterpress.Style.Declaration
import Letterpress.Style.Pixels

namespace Letterpress

/-- Line heights are taken exactly and not as a minimum. -/
def exactLineHeight : Declaration := ⟨"mso-line-height-rule", "exactly"⟩

/-- The declarations that an element needs. -/
def hintsFor : Tag → List Declaration
  | .p => [⟨"margin", "0 0 12px 0"⟩, exactLineHeight, ⟨"line-height", "150%"⟩]
  | .h1 | .h2 | .h3 => [⟨"margin", "0 0 10px 0"⟩, exactLineHeight, ⟨"line-height", "120%"⟩]
  | .ul | .ol => [⟨"margin-top", "0"⟩, ⟨"margin-bottom", "12px"⟩]
  | .li => [⟨"margin", "0 0 4px 0"⟩, exactLineHeight, ⟨"line-height", "150%"⟩]
  | .a => [⟨"color", "#0066cc"⟩, ⟨"text-decoration", "underline"⟩]
  | .img =>
    [⟨"border", "0"⟩, ⟨"outline", "none"⟩, ⟨"text-decoration", "none"⟩,
     ⟨"-ms-interpolation-mode", "bicubic"⟩]
  | .table =>
    [⟨"border-collapse", "collapse"⟩, ⟨"mso-table-lspace", "0pt"⟩,
     ⟨"mso-table-rspace", "0pt"⟩]
  | .td | .th => [exactLineHeight]
  | _ => []

/-- The hints for properties that the author did not set. -/
def missingHints (hints : List Declaration) : Option Text → List Declaration
  | none => hints
  | some author => hints.filter fun h => (Style.value? author h.property).isNone

/-- The attributes that a style is copied to. -/
def promoted (tag : Tag) (style : Text) : List Attribute :=
  match tag with
  | .img | .table | .td | .th =>
    [("width" : Text), "height"].filterMap fun dimension =>
      ((Style.value? style dimension).bind pixels?).map fun px =>
        ⟨dimension, Text.decimal px⟩
  | .div | .p =>
    ((Style.value? style "text-align").bind Alignment.parse?).toList.map fun a =>
      ⟨"align", a.name⟩
  | _ => []

/-- The attributes of an element with the hints it lacks. -/
def withHints (tag : Tag) (attributes : Attributes) : Attributes :=
  match Style.append attributes.style? (missingHints (hintsFor tag) attributes.style?) with
  | some style => attributes.set "style" style
  | none => attributes

/-- What the pass copies from the style that an element has in the end. -/
def promotedOf (tag : Tag) (attributes : Attributes) : List Attribute :=
  match (withHints tag attributes).style? with
  | some style => promoted tag style
  | none => []

/-- The attributes of an element after the pass. -/
def legacyAttributes (tag : Tag) (attributes : Attributes) : Attributes :=
  (promotedOf tag attributes).foldl (fun as a => as.set a.name a.value)
    (withHints tag attributes)

/-- The tree after the pass. -/
def toLegacy (root : Element) : Element := root.mapAttributes legacyAttributes

/-- The number of values that the pass copies. -/
def promotedCount (root : Element) : Nat :=
  (root.elements.flatMap fun e => promotedOf e.tag e.attributes).length

end Letterpress
