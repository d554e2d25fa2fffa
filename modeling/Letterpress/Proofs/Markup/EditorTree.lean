/-
# Trees that an editor makes

The vocabulary of the editor and how its elements nest: blocks hold blocks and
inline content, paragraphs and headings hold inline content only, lists hold list
items, and anchors do not nest at any depth. `Element.isEditorTree` decides it.
What a place may hold is a `Holding`, which an element passes on to its children,
so whether anchors are allowed is known at every depth.
-/

import Letterpress.Proofs.Markup.Rereading

namespace Letterpress

open Lexer

/-- What the children of an element may be. -/
inductive Holding
  /-- Blocks and inline content. -/
  | flow
  /-- List items. -/
  | items
  /-- Inline content; inside an anchor without anchors. -/
  | phrasing (inAnchor : Bool)
  | nothing
  deriving DecidableEq

namespace Holding

/-- What inline content with a tag may hold. -/
def inline? (inAnchor : Bool) : Tag → Option Holding
  | .br | .img => some .nothing
  | .strong | .b | .em | .i | .u | .span => some (.phrasing inAnchor)
  | .a => if inAnchor then none else some (.phrasing true)
  | _ => none

/-- What a child with a tag may hold, if it may stand there itself. -/
def child? : Holding → Tag → Option Holding
  | .flow, tag =>
    match tag with
    | .p | .h1 | .h2 | .h3 => some (.phrasing false)
    | .ul | .ol => some .items
    | .div => some .flow
    | _ => inline? false tag
  | .items, tag => if tag = .li then some .flow else none
  | .phrasing inAnchor, tag => inline? inAnchor tag
  | .nothing, _ => none

/-- Whether text may stand there. -/
def holdsText : Holding → Bool
  | .flow | .phrasing _ => true
  | .items | .nothing => false

end Holding

/-- Characters that text and values keep: neither U+0000 nor a carriage return. -/
def isKept (c : Char) : Bool := c != '\x00' && c != '\r'

/-- Characters of the names of attributes: small ASCII letters, digits and hyphens. -/
def isPlainNameChar (c : Char) : Bool := c.isLower || c.isDigit || c == '-'

/-- An attribute that an editor writes. -/
def Attribute.isEditable (a : Attribute) : Bool :=
  !a.name.isEmpty && a.name.all isPlainNameChar && a.value.all isKept

namespace Node

mutual

/-- Whether the node and all in it may stand at such a place of an editor tree. -/
def isEditable (holding : Holding) : Node → Bool
  | .element tag attributes children =>
    match holding.child? tag with
    | some within => attributes.toList.all Attribute.isEditable && areEditable within children
    | none => false
  | .text t => holding.holdsText && !t.isEmpty && t.all isKept
  | .comment _ => false

/-- Whether neighbouring nodes may stand there, no two texts next to each other. -/
def areEditable (holding : Holding) : List Node → Bool
  | [] => true
  | n :: rest =>
    n.isEditable holding && !(n.isText && rest.head?.any isText) && areEditable holding rest

end

end Node

/-- An editor tree: a body without attributes that holds blocks and inline content. -/
def Element.isEditorTree (root : Element) : Bool :=
  root.tag == .body && root.attributes.toList.isEmpty && Node.areEditable .flow root.children

/-! ## Editor trees as markup -/

/-- The vocabulary of the editor. -/
def Tag.isEditor : Tag → Bool
  | .p | .h1 | .h2 | .h3 | .ul | .ol | .div | .li | .br | .img | .strong | .b | .em | .i | .u
  | .span | .a => true
  | _ => false

theorem Holding.isEditor_of_child? {holding within : Holding} {tag : Tag}
    (hchild : holding.child? tag = some within) : tag.isEditor = true := by
  have hinline : ∀ inAnchor, Holding.inline? inAnchor tag = some within →
      tag.isEditor = true := by
    intro inAnchor h
    unfold Holding.inline? at h
    split at h
    all_goals first | rfl | cases h
  unfold Holding.child? at hchild
  split at hchild
  · split at hchild
    all_goals first | rfl | exact hinline _ hchild
  · split at hchild
    · rename_i heq
      rw [heq]
      rfl
    · cases hchild
  · exact hinline _ hchild
  · cases hchild

theorem Tag.isWritable_of_isEditor {tag : Tag} (heditor : tag.isEditor = true) :
    tag.IsWritable := by
  unfold Tag.isEditor at heditor
  split at heditor
  all_goals first | exact ⟨rfl, rfl⟩ | cases heditor

theorem Tag.isRawText_of_isEditor {tag : Tag} (heditor : tag.isEditor = true) :
    tag.isRawText = false := by
  unfold Tag.isEditor at heditor
  split at heditor
  all_goals first | rfl | cases heditor

/-- Elements without an end tag hold nothing. -/
theorem Holding.eq_nothing_of_isVoid {holding within : Holding} {tag : Tag}
    (hchild : holding.child? tag = some within) (hvoid : tag.isVoid = true) :
    within = .nothing := by
  have hinline : ∀ inAnchor, Holding.inline? inAnchor tag = some within → within = .nothing := by
    intro inAnchor h
    unfold Holding.inline? at h
    split at h
    all_goals first | exact (Option.some.inj h).symm | cases hvoid | cases h
  unfold Holding.child? at hchild
  split at hchild
  · split at hchild
    all_goals first | cases hvoid | exact hinline _ hchild
  · split at hchild
    · rename_i heq
      rw [heq] at hvoid
      cases hvoid
    · cases hchild
  · exact hinline _ hchild
  · cases hchild

theorem isPlainNameChar_iff {c : Char} (hplain : isPlainNameChar c = true) :
    (97 ≤ c.toNat ∧ c.toNat ≤ 122) ∨ (48 ≤ c.toNat ∧ c.toNat ≤ 57) ∨ c.toNat = 45 := by
  delta isPlainNameChar Char.isLower at hplain
  simp only [Char.isDigit, Bool.or_eq_true, Bool.and_eq_true, decide_eq_true_eq,
    beq_iff_eq] at hplain
  rcases hplain with (hletter | hdigit) | rfl
  · exact .inl ⟨UInt32.le_iff_toNat_le.mp hletter.1, UInt32.le_iff_toNat_le.mp hletter.2⟩
  · exact .inr (.inl ⟨UInt32.le_iff_toNat_le.mp hdigit.1, UInt32.le_iff_toNat_le.mp hdigit.2⟩)
  · exact .inr (.inr rfl)

/-- Such characters go on with a name wherever they stand. -/
theorem isNamePart_of_isPlainNameChar {c : Char} (hplain : isPlainNameChar c = true) :
    isNamePart c = true ∧ c ≠ '=' ∧ c ≠ '\r' := by
  have hrange := isPlainNameChar_iff hplain
  have hne (d : Char)
      (hd : ¬ ((97 ≤ d.toNat ∧ d.toNat ≤ 122) ∨ (48 ≤ d.toNat ∧ d.toNat ≤ 57) ∨ d.toNat = 45)) :
      c ≠ d := by
    rintro rfl
    exact hd hrange
  have hlower : c.toLower = c := by
    apply Text.toLower_eq_self
    intro hcapital
    have hlow : 65 ≤ c.toNat := UInt32.le_iff_toNat_le.mp hcapital.1
    have hhigh : c.toNat ≤ 90 := UInt32.le_iff_toNat_le.mp hcapital.2
    omega
  refine ⟨isNamePart_iff.mpr ⟨?_, ?_, hne '/' (by decide), hne '>' (by decide)⟩,
    hne '=' (by decide), hne '\r' (by decide)⟩
  · rw [nameChar, hlower, visible, if_neg (hne '\x00' (by decide))]
  · simp [isSpace, hne '\t' (by decide), hne '\n' (by decide), hne '\x0C' (by decide),
      hne ' ' (by decide)]

theorem Attribute.isEditable_mk {name value : Text}
    (hname : (!name.isEmpty && name.all isPlainNameChar) = true)
    (hvalue : value.all isKept = true) : Attribute.isEditable ⟨name, value⟩ = true := by
  rw [isEditable, hname, hvalue]
  rfl

theorem Attribute.isWritable_of_isEditable {a : Attribute} (heditable : a.isEditable = true) :
    a.IsWritable := by
  simp only [isEditable, Bool.and_eq_true, List.all_eq_true] at heditable
  obtain ⟨⟨hne, hname⟩, hvalue⟩ := heditable
  have hpart : ∀ c ∈ a.name, isNamePart c = true ∧ c ≠ '=' ∧ c ≠ '\r' := by
    intro c hc
    exact isNamePart_of_isPlainNameChar (hname c hc)
  constructor
  · simp only [isAttributeName, hne, Bool.true_and, Bool.and_eq_true, List.all_eq_true,
      bne_iff_ne]
    constructor
    · intro c hc
      exact (hpart c hc).1
    · intro c hc
      exact (hpart c (List.mem_of_mem_tail hc)).2.1
  · intro hnull
    simpa [isKept] using hvalue _ hnull

theorem Attribute.map_read_of_isEditable {as : List Attribute}
    (heditable : ∀ a ∈ as, a.isEditable = true) : as.map read = as := by
  refine (List.map_congr_left fun a ha => ?_).trans (List.map_id _)
  exact read_eq_self (isWritable_of_isEditable (heditable a ha)).null_not_mem

namespace Node

theorem null_not_mem_of_isKept {t : Text} (hkept : t.all isKept = true) : '\x00' ∉ t := by
  intro hnull
  simpa [isKept] using List.all_eq_true.mp hkept _ hnull

theorem eq_nil_of_areEditable_nothing {ns : List Node}
    (heditable : areEditable .nothing ns = true) : ns = [] := by
  cases ns with
  | nil => rfl
  | cons n rest =>
      cases n with
      | _ => simp [areEditable, isEditable, Holding.child?, Holding.holdsText] at heditable

variable {p : Attribute → Prop}

mutual

/-- Editor trees are spelled such that they are read as they stand. -/
theorem isSpelled_of_isEditable (hp : ∀ a : Attribute, a.isEditable = true → p a) :
    ∀ (n : Node) {holding : Holding}, n.isEditable holding = true → n.IsSpelled p
  | .element tag attributes children, holding, heditable => by
      rw [isEditable] at heditable
      split at heditable
      · rename_i within hchild
        simp only [Bool.and_eq_true, List.all_eq_true] at heditable
        refine ⟨Tag.isWritable_of_isEditor (Holding.isEditor_of_child? hchild), ?_,
          allSpelled_of_areEditable hp children heditable.2⟩
        intro a ha
        exact hp a (heditable.1 a ha)
      · cases heditable
  | .text t, holding, heditable => by
      simp only [isEditable, Bool.and_eq_true] at heditable
      exact null_not_mem_of_isKept heditable.2
  | .comment t, holding, heditable => by simp [isEditable] at heditable

theorem allSpelled_of_areEditable (hp : ∀ a : Attribute, a.isEditable = true → p a) :
    ∀ (ns : List Node) {holding : Holding}, areEditable holding ns = true → AllSpelled p ns
  | [], _, _ => trivial
  | n :: rest, _, heditable => by
      simp only [areEditable, Bool.and_eq_true] at heditable
      exact ⟨isSpelled_of_isEditable hp n heditable.1.1,
        allSpelled_of_areEditable hp rest heditable.2⟩

end

mutual

/-- All elements of an editor tree have tags of the editor. -/
theorem isEditor_of_mem_elements :
    ∀ (n : Node) {holding : Holding}, n.isEditable holding = true →
      ∀ e ∈ n.elements, e.tag.isEditor = true
  | .element tag attributes children, holding, heditable, e, he => by
      rw [isEditable] at heditable
      split at heditable
      · rename_i within hchild
        simp only [Bool.and_eq_true] at heditable
        rcases List.mem_cons.mp he with rfl | hinside
        · exact Holding.isEditor_of_child? hchild
        · exact isEditor_of_mem_elementsOfAll children heditable.2 e hinside
      · cases heditable
  | .text t, holding, heditable, e, he => by simp [elements] at he
  | .comment t, holding, heditable, e, he => by simp [elements] at he

theorem isEditor_of_mem_elementsOfAll :
    ∀ (ns : List Node) {holding : Holding}, areEditable holding ns = true →
      ∀ e ∈ elementsOfAll ns, e.tag.isEditor = true
  | [], _, _, e, he => by simp [elementsOfAll] at he
  | n :: rest, _, heditable, e, he => by
      simp only [areEditable, Bool.and_eq_true] at heditable
      rcases List.mem_append.mp he with hfirst | hlater
      · exact isEditor_of_mem_elements n heditable.1.1 e hfirst
      · exact isEditor_of_mem_elementsOfAll rest heditable.2 e hlater

end

end Node

/-! ## Carriage returns -/

theorem return_not_mem_of_isKept {t : Text} (hkept : t.all isKept = true) : '\r' ∉ t := by
  intro hreturn
  simpa [isKept] using List.all_eq_true.mp hkept _ hreturn

theorem Attribute.return_not_mem_markup {a : Attribute} (heditable : a.isEditable = true) :
    '\r' ∉ a.markup := by
  simp only [isEditable, Bool.and_eq_true, List.all_eq_true] at heditable
  obtain ⟨⟨-, hname⟩, hvalue⟩ := heditable
  have hname : '\r' ∉ a.name := by
    intro hreturn
    exact (isNamePart_of_isPlainNameChar (hname _ hreturn)).2.2 rfl
  exact not_mem_markup (by decide) hname (return_not_mem_of_isKept (List.all_eq_true.mpr hvalue))

theorem return_not_mem_startTagMarkup {tag : Tag} {as : Attributes} (hname : '\r' ∉ tag.name)
    (heditable : ∀ a ∈ as.toList, a.isEditable = true) : '\r' ∉ startTagMarkup tag as :=
  not_mem_startTagMarkup (by decide) hname fun a ha =>
    Attribute.return_not_mem_markup (heditable a ha)

theorem Tag.return_not_mem_name {tag : Tag} (heditor : tag.isEditor = true) :
    '\r' ∉ tag.name := by
  unfold Tag.isEditor at heditor
  split at heditor
  all_goals first | decide | cases heditor

namespace Node

mutual

/-- Nothing in the markup of an editor tree is a carriage return. -/
theorem return_not_mem_markup :
    ∀ (n : Node) {holding : Holding}, n.isEditable holding = true → '\r' ∉ n.markup false
  | .element tag attributes children, holding, heditable => by
      rw [isEditable] at heditable
      split at heditable
      · rename_i within hchild
        simp only [Bool.and_eq_true, List.all_eq_true] at heditable
        have heditor := Holding.isEditor_of_child? hchild
        have hname := Tag.return_not_mem_name heditor
        have hchildren := return_not_mem_markupOfAll children heditable.2
        have hstart := return_not_mem_startTagMarkup hname heditable.1
        rw [markup, Tag.isRawText_of_isEditor heditor, List.mem_append, not_or]
        refine ⟨hstart, ?_⟩
        split
        · exact List.not_mem_nil
        · exact List.not_mem_append hchildren (not_mem_endTagMarkup (by decide) hname)
      · cases heditable
  | .text t, holding, heditable => by
      simp only [isEditable, Bool.and_eq_true] at heditable
      exact not_mem_escapeText (by decide) (return_not_mem_of_isKept heditable.2)
  | .comment t, holding, heditable => by simp [isEditable] at heditable

theorem return_not_mem_markupOfAll :
    ∀ (ns : List Node) {holding : Holding}, areEditable holding ns = true →
      '\r' ∉ markupOfAll false ns
  | [], _, _ => List.not_mem_nil
  | n :: rest, _, heditable => by
      simp only [areEditable, Bool.and_eq_true] at heditable
      rw [markupOfAll, List.mem_append, not_or]
      exact ⟨return_not_mem_markup n heditable.1.1,
        return_not_mem_markupOfAll rest heditable.2⟩

end

end Node

end Letterpress
