/-
# What a written tree shows

The content of a tree is its text that is not blank, and its images. A written node
holds its texts in order (`Node.holdsInOrder_markup`), and the image tags in what it
is read as are those of its images, with the same sources in the same order
(`Node.filterMap_imageSource_tokens`). What stands inside an element without an end
tag is not written, so it counts for neither.

Changing attributes changes no text, and no image whose source stays.
-/

import Letterpress.Proofs.Markup.Rereading
import Letterpress.Proofs.Markup.Restyling
import Letterpress.Proofs.Markup.Walks
import Letterpress.Proofs.Text.Order
import Letterpress.Text.Blank

namespace Letterpress

namespace Node

/-! ## Texts -/

mutual

/-- The texts of a node that are not blank, in order and as they are written; `raw` says
whether text of the node itself is written as it is. -/
def writtenTexts (raw : Bool) : Node → List Text
  | .element tag _ children => if tag.isVoid then [] else writtenTextsOfAll tag.isRawText children
  | .text t => if Text.isBlankText t then [] else [if raw then t else escapeText t]
  | .comment _ => []

/-- The texts of neighbouring nodes. -/
def writtenTextsOfAll (raw : Bool) : List Node → List Text
  | [] => []
  | n :: rest => n.writtenTexts raw ++ writtenTextsOfAll raw rest

end

mutual

/-- A written node holds its texts in order. -/
theorem holdsInOrder_markup :
    ∀ (raw : Bool) (n : Node), Text.HoldsInOrder (n.writtenTexts raw) (n.markup raw)
  | raw, .element tag attributes children => by
      rw [writtenTexts, markup]
      by_cases hvoid : tag.isVoid = true
      · rw [if_pos hvoid]
        trivial
      · rw [if_neg hvoid, if_neg hvoid]
        have hinside := holdsInOrder_markupOfAll tag.isRawText children
        exact (hinside.before (endTagMarkup tag)).after (startTagMarkup tag attributes)
  | raw, .text t => by
      rw [writtenTexts, markup]
      split
      · trivial
      · exact Text.holdsInOrder_singleton _
  | _, .comment _ => trivial

theorem holdsInOrder_markupOfAll :
    ∀ (raw : Bool) (ns : List Node),
      Text.HoldsInOrder (writtenTextsOfAll raw ns) (markupOfAll raw ns)
  | _, [] => trivial
  | raw, n :: rest =>
      (holdsInOrder_markup raw n).append (holdsInOrder_markupOfAll raw rest)

end

variable {f : Tag → Attributes → Attributes}

mutual

theorem writtenTexts_mapAttributes :
    ∀ (raw : Bool) (n : Node), (n.mapAttributes f).writtenTexts raw = n.writtenTexts raw
  | raw, .element tag attributes children => by
      rw [mapAttributes, writtenTexts, writtenTexts, writtenTextsOfAll_mapAttributesOfAll]
  | _, .text _ => rfl
  | _, .comment _ => rfl

theorem writtenTextsOfAll_mapAttributesOfAll :
    ∀ (raw : Bool) (ns : List Node),
      writtenTextsOfAll raw (mapAttributesOfAll f ns) = writtenTextsOfAll raw ns
  | _, [] => rfl
  | raw, n :: rest => by
      rw [mapAttributesOfAll, writtenTextsOfAll, writtenTextsOfAll, writtenTexts_mapAttributes,
        writtenTextsOfAll_mapAttributesOfAll]

end

/-! ## Elements after a change of attributes -/

mutual

theorem writtenElements_mapAttributes :
    ∀ n : Node, (n.mapAttributes f).writtenElements = n.writtenElements.map (·.mapAttributes f)
  | .element tag attributes children => by
      rw [mapAttributes, writtenElements, writtenElements, List.map_cons]
      split
      · rfl
      · rw [writtenElementsOfAll_mapAttributesOfAll]
        rfl
  | .text _ => rfl
  | .comment _ => rfl

theorem writtenElementsOfAll_mapAttributesOfAll :
    ∀ ns : List Node,
      writtenElementsOfAll (mapAttributesOfAll f ns) =
        (writtenElementsOfAll ns).map (·.mapAttributes f)
  | [] => rfl
  | n :: rest => by
      rw [mapAttributesOfAll, writtenElementsOfAll, writtenElementsOfAll, List.map_append,
        writtenElements_mapAttributes, writtenElementsOfAll_mapAttributesOfAll]

end

theorem findAmong?_mapAttributesOfAll (tag : Tag) (ns : List Node) :
    findAmong? tag (mapAttributesOfAll f ns) = (findAmong? tag ns).map (·.mapAttributes f) := by
  rw [findAmong?_eq_find?_elementsOfAll, elementsOfAll_mapAttributesOfAll, List.find?_map,
    findAmong?_eq_find?_elementsOfAll]
  rfl

/-- Texts are no elements and have none in them. -/
theorem elementsOfAll_eq_nil {ns : List Node} (htext : ∀ n ∈ ns, n.isText = true) :
    elementsOfAll ns = [] := by
  induction ns with
  | nil => rfl
  | cons n rest ih =>
      rw [elementsOfAll, ih fun m hm => htext m (by simp [hm])]
      cases n with
      | text t => rfl
      | element => cases htext _ List.mem_cons_self
      | comment => cases htext _ List.mem_cons_self

end Node

/-- Changing attributes leaves verbatim text alone. -/
theorem Element.IsVerbatim.mapAttributes {switch : Tag → Option Lexer.Content} {e : Element}
    (he : e.IsVerbatim switch) (f : Tag → Attributes → Attributes) :
    (e.mapAttributes f).IsVerbatim switch := by
  have hchildren : (e.mapAttributes f).children = e.children := by
    apply Node.mapAttributesOfAll_eq_self e.children
    rw [Node.elementsOfAll_eq_nil he.isText_of_mem]
    exact nofun
  constructor
  · rw [hchildren]
    exact he.isText_of_mem
  · rw [hchildren]
    exact he.reads_children

/-! ## Images -/

/-- The source of an image, if the element is one and has a source. -/
def Element.imageSource? (e : Element) : Option (Option Text) :=
  if e.tag = .img then some (e.attribute? "src") else none

/-- The source that an image tag gives, if the token is one and gives a source. -/
def Token.imageSource? : Token → Option (Option Text)
  | .startTag t => if t.tag = .img then some (t.attribute? "src") else none
  | _ => none

/-- An attribute whose name is read again where it is written, and whose value is if it is the
source of an image. -/
structure Attribute.KeepsSource (a : Attribute) : Prop where
  isNamed : a.IsNamed
  null_not_mem : a.name = ("src" : Text) → '\x00' ∉ a.value

namespace Node

/-- The sources of the images that a written node shows. -/
def imageSources (n : Node) : List (Option Text) :=
  n.writtenElements.filterMap Element.imageSource?

/-- Characters are no images. -/
theorem filterMap_imageSource_chars (t : Text) :
    (Lexer.chars t).filterMap Token.imageSource? = [] := by
  induction t with
  | nil => rfl
  | cons c t ih => exact ih

/-- A start tag gives the source that its element has. -/
theorem imageSource?_startTag {tag : Tag} {attributes : Attributes} {children : List Node}
    (hattributes : ∀ a ∈ attributes.toList, a.KeepsSource) :
    Token.imageSource? (.startTag ⟨tag, attributes.toList.map Attribute.read, false⟩) =
      Element.imageSource? ⟨tag, attributes, children⟩ := by
  have hsource (as : List Attribute) (hlower : ∀ a ∈ as, Text.lower a.name = a.name)
      (has : ∀ a ∈ as, a.KeepsSource) :
      ((as.map Attribute.read).find? fun a => a.name == ("src" : Text)).map Attribute.value =
        (as.find? fun a => Text.sameName a.name "src").map Attribute.value := by
    induction as with
    | nil => rfl
    | cons a as ih =>
        have hsame : Text.sameName a.name "src" = (a.name == ("src" : Text)) := by
          rw [Text.sameName, hlower a (by simp)]
          rfl
        rw [List.map_cons, List.find?_cons, List.find?_cons, hsame]
        by_cases hname : a.name = ("src" : Text)
        · rw [Attribute.read_eq_self ((has a (by simp)).null_not_mem hname), beq_iff_eq.mpr hname]
        · have hother : (a.name == ("src" : Text)) = false := beq_false_of_ne hname
          rw [show a.read.name = a.name from rfl, hother]
          apply ih
          · intro b hb
            exact hlower b (List.mem_cons_of_mem _ hb)
          · intro b hb
            exact has b (List.mem_cons_of_mem _ hb)
  rw [Token.imageSource?, Element.imageSource?]
  split
  · exact congrArg some (hsource attributes.toList attributes.lower_name hattributes)
  · rfl

mutual

/-- The image tags in what a written node is read as are those of its images. -/
theorem filterMap_imageSource_tokens :
    ∀ n : Node, n.IsSpelled Attribute.KeepsSource →
      n.tokens.filterMap Token.imageSource? = n.imageSources
  | .element tag attributes children, ⟨_, hattributes, hchildren⟩ => by
      have hinside : (if tag.isVoid then [] else tokensOfAll children ++ [.endTag tag]).filterMap
          Token.imageSource? =
          (if tag.isVoid then [] else writtenElementsOfAll children).filterMap
            Element.imageSource? := by
        split
        · rfl
        · rw [List.filterMap_append, filterMap_imageSource_tokensOfAll children hchildren]
          exact List.append_nil _
      rw [tokens, imageSources, writtenElements, List.filterMap_cons, List.filterMap_cons, hinside,
        imageSource?_startTag hattributes]
  | .text t, _ => filterMap_imageSource_chars t
  | .comment _, _ => rfl

theorem filterMap_imageSource_tokensOfAll :
    ∀ ns : List Node, AllSpelled Attribute.KeepsSource ns →
      (tokensOfAll ns).filterMap Token.imageSource? =
        (writtenElementsOfAll ns).filterMap Element.imageSource?
  | [], _ => rfl
  | n :: rest, ⟨hfirst, hrest⟩ => by
      rw [tokensOfAll, writtenElementsOfAll, List.filterMap_append, List.filterMap_append,
        filterMap_imageSource_tokens n hfirst, filterMap_imageSource_tokensOfAll rest hrest]
      rfl

end

mutual

/-- What is known of all attributes is known of those of an element that is found. -/
theorem attributes_of_find? {p : Attribute → Prop} {tag : Tag} {e : Element} :
    ∀ n : Node, n.IsSpelled p → n.find? tag = some e → ∀ a ∈ e.attributes.toList, p a
  | .element t attributes children, ⟨_, hattributes, hchildren⟩, hfind => by
      rw [find?] at hfind
      split at hfind
      · cases hfind
        exact hattributes
      · exact attributes_of_findAmong? children hchildren hfind

theorem attributes_of_findAmong? {p : Attribute → Prop} {tag : Tag} {e : Element} :
    ∀ ns : List Node, AllSpelled p ns → findAmong? tag ns = some e →
      ∀ a ∈ e.attributes.toList, p a
  | n :: rest, ⟨hfirst, hrest⟩, hfind => by
      rcases Option.or_eq_some_iff.mp hfind with hhere | ⟨-, hlater⟩
      · exact attributes_of_find? n hfirst hhere
      · exact attributes_of_findAmong? rest hrest hlater

end

end Node

/-! ## What markup shows -/

/-- How the text of an element is read that is written as it is. -/
def Tag.rawContent? : Tag → Option Lexer.Content
  | .script => some (.script .plain)
  | .style => some (.verbatim .style)
  | _ => none

namespace Text

open Lexer

/-- The sources of the image tags in markup, in order. Text of scripts and style sheets is no
markup. -/
def imageSources (t : Text) : List (Option Text) :=
  (scan Tag.rawContent? (.text .data) t).2.filterMap Token.imageSource?

/-- The markup ends where ordinary text goes on, and has image tags with these sources. -/
def Shows (t : Text) (sources : List (Option Text)) : Prop :=
  ∃ tokens, Reads Tag.rawContent? (.text .data) t tokens (.text .data) ∧
    tokens.filterMap Token.imageSource? = sources

variable {t u : Text} {sources more : List (Option Text)} {tag : Tag}

theorem Shows.append (hfirst : Shows t sources) (hsecond : Shows u more) :
    Shows (t ++ u) (sources ++ more) := by
  obtain ⟨tokens, hreads, rfl⟩ := hfirst
  obtain ⟨others, hothers, rfl⟩ := hsecond
  exact ⟨tokens ++ others, hreads.append hothers, List.filterMap_append⟩

end Text

end Letterpress
