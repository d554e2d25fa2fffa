/-
# Paths in a tree

A path names an element by its place among the element children at each level,
from the root downwards. Texts and comments do not count.
-/

import Letterpress.Markup.Node

namespace Letterpress

namespace Node

/-- Replaces the element child with the given index by what `f` makes of it, if `f` makes
anything of it. -/
def updateChild? (f : Element → Option Element) : Nat → List Node → Option (List Node)
  | _, [] => none
  | 0, .element tag attributes children :: rest =>
    (f ⟨tag, attributes, children⟩).map fun e => e.toNode :: rest
  | i + 1, .element tag attributes children :: rest =>
    (updateChild? f i rest).map (.element tag attributes children :: ·)
  | i, n :: rest => (updateChild? f i rest).map (n :: ·)

end Node

namespace Element

/-- The element that a path leads to. -/
def at? (e : Element) : List Nat → Option Element
  | [] => some e
  | i :: path => e.elementChildren[i]?.bind fun child => child.at? path

/-- The tree with the element at the end of a path changed. -/
def updateAt? (f : Element → Element) : List Nat → Element → Option Element
  | [], e => some (f e)
  | i :: path, e =>
    (Node.updateChild? (updateAt? f path) i e.children).map fun children =>
      { e with children := children }

/-- The element with more children at its end. -/
def append (e : Element) (nodes : List Node) : Element :=
  { e with children := e.children ++ nodes }

/-- The element without children. -/
def cleared (e : Element) : Element := { e with children := [] }

end Element

end Letterpress
