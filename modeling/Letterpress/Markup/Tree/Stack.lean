/-
# Open elements

The elements that a reader of markup is inside of, innermost first, and the
questions its rules ask of them: which elements bound a search outwards, and
how far an end tag reaches.
-/

import Letterpress.Markup.Tree.Forest

namespace Letterpress

/-- An element whose end has not been read. -/
structure OpenElement where
  id : Nat
  vocabulary : Vocabulary
  tag : Tag
  /-- Formulas annotated with markup hold plain markup. -/
  holdsMarkup : Bool

namespace Tag

/-- Elements with rules of their own, which end tags of other elements do not cross. -/
def isSpecial : Tag → Bool
  | .address | .applet | .area | .article | .aside | .base | .basefont | .bgsound
  | .blockquote | .body | .br | .button | .caption | .center | .col | .colgroup | .dd
  | .details | .dir | .div | .dl | .dt | .embed | .fieldset | .figcaption | .figure
  | .footer | .form | .frame | .frameset | .h1 | .h2 | .h3 | .h4 | .h5 | .h6 | .head
  | .header | .hgroup | .hr | .html | .iframe | .img | .input | .isindex | .li | .link
  | .listing | .main | .marquee | .menu | .metaData | .nav | .noembed | .noframes
  | .noscript | .object | .ol | .p | .param | .plaintext | .pre | .script | .sectionBlock
  | .select | .source | .style | .summary | .table | .tbody | .td | .template | .textarea
  | .tfoot | .th | .thead | .title | .tr | .track | .ul | .wbr | .xmp => true
  | _ => false

/-- Elements whose end tag may be left out. -/
def hasImpliedEnd : Tag → Bool
  | .dd | .dt | .li | .option | .optgroup | .p | .rb | .rp | .rt | .rtc => true
  | _ => false

/-- Elements whose end the end of a template implies. -/
def hasEndImpliedByTemplate : Tag → Bool
  | .caption | .colgroup | .tbody | .td | .tfoot | .th | .thead | .tr => true
  | t => t.hasImpliedEnd

/-- All six headings. -/
def isHeadingLevel : Tag → Bool
  | .h1 | .h2 | .h3 | .h4 | .h5 | .h6 => true
  | _ => false

/-- Parts of a table that hold no content themselves. -/
def isTablePart : Tag → Bool
  | .table | .tbody | .tfoot | .thead | .tr => true
  | _ => false

/-- Table cells. -/
def isCell : Tag → Bool
  | .td | .th => true
  | _ => false

end Tag

/-- How far outwards a search for an open element goes. -/
inductive Scope
  | content
  | listItem
  | button
  | table
  | select

namespace OpenElement

/-- An element of plain markup with this tag. -/
def is (tag : Tag) (e : OpenElement) : Bool := e.vocabulary == .html && e.tag == tag

/-- An element of plain markup whose tag satisfies `p`. -/
def satisfies (p : Tag → Bool) (e : OpenElement) : Bool := e.vocabulary == .html && p e.tag

/-- Elements of formulas that hold running text. -/
def holdsFormulaText (e : OpenElement) : Bool :=
  e.vocabulary == .math &&
    match e.tag with
    | .mi | .mo | .mn | .ms | .mtext => true
    | _ => false

/-- Elements of drawings that hold plain markup. -/
def holdsDrawingMarkup (e : OpenElement) : Bool :=
  e.vocabulary == .svg &&
    match e.tag with
    | .foreignObject | .desc | .title => true
    | _ => false

/-- Where plain markup goes on after foreign content was broken off. -/
def endsForeign (e : OpenElement) : Bool :=
  e.vocabulary == .html || e.holdsFormulaText || e.holdsDrawingMarkup

end OpenElement

/-- The elements that a search does not cross. -/
def Scope.stopsAt (scope : Scope) (e : OpenElement) : Bool :=
  match scope with
  | .content => content e
  | .listItem => content e || e.is .ol || e.is .ul
  | .button => content e || e.is .button
  | .table => e.is .html || e.is .table || e.is .template
  | .select => !(e.is .optgroup || e.is .option)
where
  content (e : OpenElement) : Bool :=
    e.holdsFormulaText || e.holdsDrawingMarkup ||
      e.satisfies fun
        | .applet | .caption | .html | .table | .td | .th | .marquee | .object
        | .template => true
        | _ => false

/-- The open elements, innermost first. -/
abbrev Stack := List OpenElement

namespace Stack

/-- Whether a search outwards meets an element that satisfies `p` before it stops. -/
def hasInScope (scope : Scope) (p : OpenElement → Bool) : Stack → Bool
  | [] => false
  | e :: outer => p e || (!scope.stopsAt e && hasInScope scope p outer)

/-- Closes elements up to and including the innermost that satisfies `p`. -/
def closeThrough (p : OpenElement → Bool) (s : Stack) : Stack :=
  (s.dropWhile fun e => !p e).tail

/-- Closes elements down to the innermost that satisfies `p`, which stays open. -/
def closeTo (p : OpenElement → Bool) (s : Stack) : Stack := s.dropWhile fun e => !p e

/-- Closes the innermost elements whose end may be left out, those with the tag `keep`
excepted. -/
def closeImplied (keep : Option Tag) (s : Stack) : Stack :=
  s.dropWhile fun e => e.satisfies fun t => t.hasImpliedEnd && some t != keep

/-- Whether the innermost element satisfies `p`. -/
def currentIs (p : OpenElement → Bool) (s : Stack) : Bool := s.head?.any p

/-- Whether a template is open. -/
def inTemplate (s : Stack) : Bool := s.any (·.is .template)

/-- Takes one element out, wherever it is. -/
def without (id : Nat) (s : Stack) : Stack := s.filter fun e => e.id != id

end Stack

end Letterpress
