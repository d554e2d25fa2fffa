/-
# Written markup

How a tree is written as markup. Text and attribute values are escaped so that
a reader finds the same characters again; the text of scripts and style sheets
is written as it is, since a reader takes it as it is.
-/

import Letterpress.Markup.Node

namespace Letterpress

/-- Text between tags, with the characters that would start markup written as references. -/
def escapeText (t : Text) : Text :=
  t.flatMap fun c =>
    match c with
    | '&' => "&amp;"
    | '<' => "&lt;"
    | '>' => "&gt;"
    | '\u00A0' => "&nbsp;"
    | c => [c]

/-- A value to stand between double quotes. -/
def escapeAttribute (t : Text) : Text :=
  t.flatMap fun c =>
    match c with
    | '&' => "&amp;"
    | '"' => "&quot;"
    | '\u00A0' => "&nbsp;"
    | c => [c]

/-- An attribute after the space that separates it. -/
def Attribute.markup (a : Attribute) : Text :=
  ' ' :: a.name ++ "=\"" ++ escapeAttribute a.value ++ "\""

/-- The start tag of an element. -/
def startTagMarkup (tag : Tag) (attributes : Attributes) : Text :=
  '<' :: tag.name ++ attributes.toList.flatMap Attribute.markup ++ ">"

/-- The end tag of an element. -/
def endTagMarkup (tag : Tag) : Text := "</" ++ tag.name ++ ">"

namespace Node

mutual

/-- A node as markup; `raw` says whether its text is written as it is. -/
def markup (raw : Bool) : Node → Text
  | .element tag attributes children =>
    startTagMarkup tag attributes ++
      if tag.isVoid then [] else markupOfAll tag.isRawText children ++ endTagMarkup tag
  | .text content => if raw then content else escapeText content
  | .comment content => "<!--" ++ content ++ "-->"

/-- Neighbouring nodes as markup. -/
def markupOfAll (raw : Bool) : List Node → Text
  | [] => []
  | n :: rest => n.markup raw ++ markupOfAll raw rest

end

end Node

namespace Element

/-- The children as markup. -/
def innerMarkup (e : Element) : Text := Node.markupOfAll e.tag.isRawText e.children

/-- The element with its own tags as markup. -/
def outerMarkup (e : Element) : Text := e.toNode.markup false

end Element

end Letterpress
