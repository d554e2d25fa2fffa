/-
# The content tree

Elements with their children, texts and comments, and the walks over them. The
root of a tree is an `Element`; every walk meets a parent before its children
and the children in order.
-/

import Letterpress.Markup.Attributes
import Letterpress.Markup.Tag

namespace Letterpress

/-- A node of the tree. -/
inductive Node
  | element (tag : Tag) (attributes : Attributes) (children : List Node)
  | text (content : Text)
  | comment (content : Text)

/-- An element as the root of a tree. -/
structure Element where
  tag : Tag
  attributes : Attributes
  children : List Node

namespace Element

/-- An element without attributes and children. -/
def ofTag (tag : Tag) : Element := ⟨tag, .empty, []⟩

/-- The element as a node. -/
def toNode (e : Element) : Node := .element e.tag e.attributes e.children

/-- The value of an attribute. -/
def attribute? (e : Element) (name : Text) : Option Text := e.attributes.get? name

/-- The author style. -/
def style? (e : Element) : Option Text := e.attributes.style?

end Element

namespace Node

/-- The node as an element, if it is one. -/
def toElement? : Node → Option Element
  | .element tag attributes children => some ⟨tag, attributes, children⟩
  | _ => none

mutual

/-- The elements of a node from the outside in. -/
def elements : Node → List Element
  | .element tag attributes children =>
    ⟨tag, attributes, children⟩ :: elementsOfAll children
  | _ => []

/-- The elements of neighbouring nodes. -/
def elementsOfAll : List Node → List Element
  | [] => []
  | n :: rest => n.elements ++ elementsOfAll rest

end

mutual

/-- Changes the attributes of every element, which stays where it is. -/
def mapAttributes (f : Tag → Attributes → Attributes) : Node → Node
  | .element tag attributes children =>
    .element tag (f tag attributes) (mapAttributesOfAll f children)
  | n => n

/-- Changes the attributes of every element of neighbouring nodes. -/
def mapAttributesOfAll (f : Tag → Attributes → Attributes) : List Node → List Node
  | [] => []
  | n :: rest => n.mapAttributes f :: mapAttributesOfAll f rest

end

mutual

/-- The first element with a tag, this node included. -/
def find? (tag : Tag) : Node → Option Element
  | .element t attributes children =>
    if t = tag then some ⟨t, attributes, children⟩ else findAmong? tag children
  | _ => none

/-- The first element with a tag in neighbouring nodes. -/
def findAmong? (tag : Tag) : List Node → Option Element
  | [] => none
  | n :: rest => (n.find? tag).or (findAmong? tag rest)

end

end Node

namespace Element

/-- The children that are elements. -/
def elementChildren (e : Element) : List Element := e.children.filterMap Node.toElement?

/-- The element and all elements in it, parents first. -/
def elements (e : Element) : List Element := e :: Node.elementsOfAll e.children

/-- The number of elements in the tree, its root included. -/
def count (e : Element) : Nat := e.elements.length

/-- The tags of the tree, parents first. -/
def tags (e : Element) : List Tag := e.elements.map Element.tag

/-- The first element with the tag inside this one, which itself does not count. -/
def findInside? (e : Element) (tag : Tag) : Option Element := Node.findAmong? tag e.children

/-- Changes the attributes of every element of the tree. -/
def mapAttributes (f : Tag → Attributes → Attributes) (e : Element) : Element :=
  ⟨e.tag, f e.tag e.attributes, Node.mapAttributesOfAll f e.children⟩

end Element

end Letterpress
