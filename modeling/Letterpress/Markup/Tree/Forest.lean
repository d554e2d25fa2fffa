/-
# Trees under construction

The tree that a reader of markup grows. Elements carry a number by which they
can be found again, since markup may move an element or add to one that is no
longer the latest. Siblings and the characters of a text are held with the
latest first, so the place where content is added is at the front.
-/

import Letterpress.Markup.Node

namespace Letterpress

/-- The vocabulary that an element belongs to. -/
inductive Vocabulary
  | html
  | svg
  | math
  deriving DecidableEq

/-- Siblings, latest first. -/
inductive Forest
  | empty
  | element (id : Nat) (vocabulary : Vocabulary) (tag : Tag) (attributes : List Attribute)
      (children older : Forest)
  | text (latestFirst : Text) (older : Forest)
  | comment (content : Text) (older : Forest)

namespace Forest

/-- Adds a character, which continues a text that stands last. -/
def pushChar (c : Char) : Forest → Forest
  | .text t older => .text (c :: t) older
  | siblings => .text [c] siblings

/-- Puts the siblings of the first forest after those of the second. -/
def onto : Forest → Forest → Forest
  | .empty, siblings => siblings
  | .element id vocabulary tag attributes children older, siblings =>
    .element id vocabulary tag attributes children (older.onto siblings)
  | .text t older, siblings => .text t (older.onto siblings)
  | .comment t older, siblings => .comment t (older.onto siblings)

/-- Changes the children of an element, if the forest holds it. The latest parts are searched
first, for that is where a reader mostly works. -/
def editInside? (target : Nat) (edit : Forest → Forest) : Forest → Option Forest
  | .empty => none
  | .element id vocabulary tag attributes children older =>
    if id = target then
      some (.element id vocabulary tag attributes (edit children) older)
    else
      match children.editInside? target edit with
      | some children => some (.element id vocabulary tag attributes children older)
      | none =>
        (older.editInside? target edit).map
          (.element id vocabulary tag attributes children ·)
  | .text t older => (older.editInside? target edit).map (.text t ·)
  | .comment t older => (older.editInside? target edit).map (.comment t ·)

/-- Changes the siblings before an element, if the forest holds it. -/
def editBefore? (target : Nat) (edit : Forest → Forest) : Forest → Option Forest
  | .empty => none
  | .element id vocabulary tag attributes children older =>
    if id = target then
      some (.element id vocabulary tag attributes children (edit older))
    else
      match children.editBefore? target edit with
      | some children => some (.element id vocabulary tag attributes children older)
      | none =>
        (older.editBefore? target edit).map
          (.element id vocabulary tag attributes children ·)
  | .text t older => (older.editBefore? target edit).map (.text t ·)
  | .comment t older => (older.editBefore? target edit).map (.comment t ·)

/-- Gives an element the attributes that it has not got yet. -/
def addAttributes (target : Nat) (more : List Attribute) : Forest → Forest
  | .empty => .empty
  | .element id vocabulary tag attributes children older =>
    if id = target then
      .element id vocabulary tag
        (attributes ++ more.filter fun a => !attributes.any fun b => b.name == a.name)
        children older
    else
      .element id vocabulary tag attributes (children.addAttributes target more)
        (older.addAttributes target more)
  | .text t older => .text t (older.addAttributes target more)
  | .comment t older => .comment t (older.addAttributes target more)

/-- Takes an element out: the element by itself, and the forest without it. -/
def detach? (target : Nat) : Forest → Option (Forest × Forest)
  | .empty => none
  | .element id vocabulary tag attributes children older =>
    if id = target then some (.element id vocabulary tag attributes children .empty, older)
    else
      match children.detach? target with
      | some (part, children) =>
        some (part, .element id vocabulary tag attributes children older)
      | none =>
        (older.detach? target).map fun (part, older) =>
          (part, .element id vocabulary tag attributes children older)
  | .text t older => (older.detach? target).map fun (part, older) => (part, .text t older)
  | .comment t older =>
    (older.detach? target).map fun (part, older) => (part, .comment t older)

/-- The children of the first element with a tag among the siblings themselves, with its
attributes. -/
def childNamed? (target : Tag) : Forest → Option (List Attribute × Forest)
  | .empty => none
  | .element _ _ tag attributes children older =>
    (older.childNamed? target).or (if tag = target then some (attributes, children) else none)
  | .text _ older => older.childNamed? target
  | .comment _ older => older.childNamed? target

/-- The finished siblings in order, before those that are already finished. Attribute names
that differ only in vocabulary fall together. -/
def nodesBefore : Forest → List Node → List Node
  | .empty, later => later
  | .element _ _ tag attributes children older, later =>
    older.nodesBefore
      (.element tag (.ofList attributes) (children.nodesBefore []) :: later)
  | .text t older, later => older.nodesBefore (.text t.reverse :: later)
  | .comment t older, later => older.nodesBefore (.comment t :: later)

/-- The finished siblings in order. -/
def nodes (siblings : Forest) : List Node := siblings.nodesBefore []

end Forest

end Letterpress
