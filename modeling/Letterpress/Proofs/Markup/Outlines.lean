/-
# Outlines of what is read

The tokens that a reader takes, with how text goes on after a tag decided by the tree,
are `Reader.tokens`; the tree is made of just these (`Reader.read_eq_takeAll`). Their
outline leaves out what is data: the values of attributes, the contents of comments and
the text of style sheets. Two texts with the same outline have the same kinds of tokens
and the same names of tags in the same order.

Two readers are alike if their lexers are in the same state and the trees have the same
elements. Then they stay alike over any text, and over tokens that differ only in data
that no rule looks at.
-/

import Letterpress.Proofs.Markup.Feeding
import Letterpress.Proofs.Markup.Taking

namespace Letterpress

/-! ## Tokens of a reader -/

/-- Takes tokens one after another. -/
def Builder.takeAll (b : Builder) (tokens : List Token) : Builder :=
  tokens.foldl (fun b token => (b.take token).1) b

theorem Builder.takeAll_append (b : Builder) (tokens more : List Token) :
    b.takeAll (tokens ++ more) = (b.takeAll tokens).takeAll more :=
  List.foldl_append

namespace Reader

/-- The tokens that a character completes. -/
def emit (r : Reader) (c : Char) : List Token :=
  if r.atStart && c = '\uFEFF' then []
  else (Lexer.step (r.builder.current.vocabulary != .html) r.lexer c).2

/-- The tokens that the characters of a text complete. -/
def emitAll : Reader → Text → List Token
  | _, [] => []
  | r, c :: t => r.emit c ++ (r.feed c).emitAll t

/-- The tokens that a text is read as, up to its end. -/
def tokens (b : Builder) (t : Text) : List Token :=
  (start b).emitAll (normalizeNewlines t) ++
    (Lexer.finish ((start b).feedAll (normalizeNewlines t)).lexer ++ [.done])

theorem feedAll_append (r : Reader) (t u : Text) :
    r.feedAll (t ++ u) = (r.feedAll t).feedAll u :=
  List.foldl_append

theorem emitAll_append (r : Reader) (t u : Text) :
    r.emitAll (t ++ u) = r.emitAll t ++ (r.feedAll t).emitAll u := by
  induction t generalizing r with
  | nil => rfl
  | cons c t ih => rw [List.cons_append, emitAll, ih, emitAll, List.append_assoc]; rfl

theorem builder_foldl_take (r : Reader) (tokens : List Token) :
    (tokens.foldl take r).builder = r.builder.takeAll tokens := by
  induction tokens generalizing r with
  | nil => rfl
  | cons token tokens ih => rw [List.foldl_cons, ih, builder_take]; rfl

theorem builder_feed (r : Reader) (c : Char) :
    (r.feed c).builder = r.builder.takeAll (r.emit c) := by
  rw [feed, emit]
  split
  · rfl
  · exact builder_foldl_take _ _

theorem builder_feedAll (r : Reader) (t : Text) :
    (r.feedAll t).builder = r.builder.takeAll (r.emitAll t) := by
  induction t generalizing r with
  | nil => rfl
  | cons c t ih =>
      rw [emitAll, Builder.takeAll_append, ← builder_feed, ← ih]
      rfl

/-- The tree of a text is made of just the tokens that the text is read as. -/
theorem read_eq_takeAll (b : Builder) (t : Text) : read b t = (b.takeAll (tokens b t)).tree := by
  rw [read, finish, builder_foldl_take, builder_feedAll, tokens, ← Builder.takeAll_append]
  rfl

end Reader

/-! ## Outlines -/

/-- A token without data: the values of attributes and the content of a comment. -/
def Token.outline : Token → Token
  | .startTag t => .startTag { t with attributes := t.attributes.map fun a => ⟨a.name, []⟩ }
  | .comment _ => .comment []
  | token => token

/-- Whether text after the token belongs to a style sheet, if it does so before. -/
def Token.leavesStyle (inStyle : Bool) : Token → Bool
  | .char _ => inStyle
  | .startTag t => t.tag == .style
  | _ => false

/-- Whether the token is a character. -/
def Token.isChar : Token → Bool
  | .char _ => true
  | _ => false

/-- The outline of tokens, the first of which may stand in a style sheet. -/
def outlineFrom : Bool → List Token → List Token
  | _, [] => []
  | inStyle, token :: tokens =>
    (if inStyle && token.isChar then [] else [token.outline]) ++
      outlineFrom (token.leavesStyle inStyle) tokens

/-- The tokens without attribute values, contents of comments and text of style sheets. -/
def outline (tokens : List Token) : List Token := outlineFrom false tokens

/-- Tokens with the same outline. -/
structure SameOutline (inStyle : Bool) (ts us : List Token) : Prop where
  outline_eq : outlineFrom inStyle ts = outlineFrom inStyle us
  /-- Text after either of them belongs to a style sheet or not. -/
  leaves_eq : us.foldl Token.leavesStyle inStyle = ts.foldl Token.leavesStyle inStyle

section Outline

variable {inStyle : Bool} {ts us vs ws : List Token} {t u : Token}

theorem outlineFrom_append (inStyle : Bool) (ts us : List Token) :
    outlineFrom inStyle (ts ++ us) =
      outlineFrom inStyle ts ++ outlineFrom (ts.foldl Token.leavesStyle inStyle) us := by
  induction ts generalizing inStyle with
  | nil => rfl
  | cons t ts ih =>
      rw [List.cons_append, outlineFrom, ih, outlineFrom, List.append_assoc, List.foldl_cons]

theorem SameOutline.append (hfirst : SameOutline inStyle ts us)
    (hsecond : SameOutline (ts.foldl Token.leavesStyle inStyle) vs ws) :
    SameOutline inStyle (ts ++ vs) (us ++ ws) := by
  refine ⟨?_, ?_⟩
  · rw [outlineFrom_append, outlineFrom_append, hfirst.outline_eq, hfirst.leaves_eq,
      hsecond.outline_eq]
  · rw [List.foldl_append, List.foldl_append, hfirst.leaves_eq, hsecond.leaves_eq]

theorem Token.isChar_outline (token : Token) : token.outline.isChar = token.isChar := by
  cases token <;> rfl

theorem Token.leavesStyle_outline (inStyle : Bool) (token : Token) :
    token.outline.leavesStyle inStyle = token.leavesStyle inStyle := by
  cases token <;> rfl

/-- Tokens with the same outlines one by one. -/
theorem SameOutline.of_map (hmap : ts.map Token.outline = us.map Token.outline) :
    SameOutline inStyle ts us := by
  induction ts generalizing us inStyle with
  | nil =>
      have hus : us = [] := List.map_eq_nil_iff.mp hmap.symm
      subst hus
      exact ⟨rfl, rfl⟩
  | cons t ts ih =>
      cases us with
      | nil => exact nomatch hmap
      | cons u us =>
          obtain ⟨htoken, htokens⟩ := List.cons.inj hmap
          have hchar : t.isChar = u.isChar := by
            rw [← t.isChar_outline, htoken, u.isChar_outline]
          have hleaves : t.leavesStyle inStyle = u.leavesStyle inStyle := by
            rw [← t.leavesStyle_outline, htoken, u.leavesStyle_outline]
          obtain ⟨houtline, hlater⟩ := ih htokens
          refine ⟨?_, ?_⟩
          · rw [outlineFrom, outlineFrom, hchar, ← hleaves, htoken, houtline]
          · rw [List.foldl_cons, List.foldl_cons, ← hleaves, hlater]

theorem foldl_leavesStyle_chars (inStyle : Bool) (t : Text) :
    (Lexer.chars t).foldl Token.leavesStyle inStyle = inStyle := by
  induction t with
  | nil => rfl
  | cons c t ih => exact ih

/-- The text of a style sheet is left out. -/
theorem SameOutline.chars (t u : Text) : SameOutline true (Lexer.chars t) (Lexer.chars u) := by
  have hnone (t : Text) : outlineFrom true (Lexer.chars t) = [] := by
    induction t with
    | nil => rfl
    | cons c t ih => exact ih
  refine ⟨(hnone t).trans (hnone u).symm, ?_⟩
  rw [foldl_leavesStyle_chars, foldl_leavesStyle_chars]

end Outline

/-! ## Skeletons of trees -/

namespace Forest

/-- The elements by themselves, without attributes, text and comments. -/
def skeleton : Forest → Forest
  | .empty => .empty
  | .element id vocabulary tag _ children older =>
    .element id vocabulary tag [] children.skeleton older.skeleton
  | .text _ older => older.skeleton
  | .comment _ older => older.skeleton

variable {edit model : Forest → Forest}

theorem skeleton_skeleton (f : Forest) : f.skeleton.skeleton = f.skeleton := by
  induction f with
  | empty => rfl
  | element id vocabulary tag attributes children older ihChildren ihOlder =>
      rw [skeleton, skeleton, ihChildren, ihOlder]
  | text t older ih => exact ih
  | comment t older ih => exact ih

theorem skeleton_pushChar (c : Char) (f : Forest) : (f.pushChar c).skeleton = f.skeleton := by
  cases f <;> rfl

theorem skeleton_onto (f g : Forest) : (f.onto g).skeleton = f.skeleton.onto g.skeleton := by
  induction f with
  | empty => rfl
  | element id vocabulary tag attributes children older _ ih =>
      rw [onto, skeleton, ih]
      rfl
  | text t older ih => exact ih
  | comment t older ih => exact ih

theorem skeleton_addAttributes (target : Nat) (more : List Attribute) (f : Forest) :
    (f.addAttributes target more).skeleton = f.skeleton := by
  induction f with
  | empty => rfl
  | element id vocabulary tag attributes children older ihChildren ihOlder =>
      rw [addAttributes]
      split
      · rfl
      · rw [skeleton, ihChildren, ihOlder, skeleton]
  | text t older ih => exact ih
  | comment t older ih => exact ih

/-- Changing what is inside an element changes the skeleton there. -/
theorem map_skeleton_editInside (hedit : ∀ f, (edit f).skeleton = model f.skeleton) (target : Nat)
    (f : Forest) :
    (f.editInside? target edit).map skeleton = f.skeleton.editInside? target model := by
  induction f with
  | empty => rfl
  | element id vocabulary tag attributes children older ihChildren ihOlder =>
      rw [editInside?, skeleton, editInside?, ← ihChildren, ← ihOlder]
      split
      · rw [Option.map_some, skeleton, hedit]
      · cases children.editInside? target edit with
        | some changed => rfl
        | none => cases older.editInside? target edit <;> rfl
  | text t older ih => exact (Option.map_map ..).trans ih
  | comment t older ih => exact (Option.map_map ..).trans ih

/-- Changing what is before an element changes the skeleton there. -/
theorem map_skeleton_editBefore (hedit : ∀ f, (edit f).skeleton = model f.skeleton) (target : Nat)
    (f : Forest) :
    (f.editBefore? target edit).map skeleton = f.skeleton.editBefore? target model := by
  induction f with
  | empty => rfl
  | element id vocabulary tag attributes children older ihChildren ihOlder =>
      rw [editBefore?, skeleton, editBefore?, ← ihChildren, ← ihOlder]
      split
      · rw [Option.map_some, skeleton, hedit]
      · cases children.editBefore? target edit with
        | some changed => rfl
        | none => cases older.editBefore? target edit <;> rfl
  | text t older ih => exact (Option.map_map ..).trans ih
  | comment t older ih => exact (Option.map_map ..).trans ih

/-- Taking an element out takes it out of the skeleton. -/
theorem map_skeleton_detach (target : Nat) (f : Forest) :
    (f.detach? target).map (Prod.map skeleton skeleton) = f.skeleton.detach? target := by
  induction f with
  | empty => rfl
  | element id vocabulary tag attributes children older ihChildren ihOlder =>
      rw [detach?, skeleton, detach?, ← ihChildren, ← ihOlder]
      split
      · rfl
      · cases children.detach? target with
        | some parts => rfl
        | none => cases older.detach? target <;> rfl
  | text t older ih => exact (Option.map_map ..).trans ih
  | comment t older ih => exact (Option.map_map ..).trans ih

/-- An edit that changes nothing leaves the forest as it is. -/
theorem editInside_id (target : Nat) (f : Forest) :
    f.editInside? target id = none ∨ f.editInside? target id = some f := by
  induction f with
  | empty => exact .inl rfl
  | element id' vocabulary tag attributes children older ihChildren ihOlder =>
      rw [editInside?]
      split
      · exact .inr rfl
      · rcases ihChildren with hnone | hsome
        · rcases ihOlder with hnone' | hsome'
          · simp [hnone, hnone']
          · simp [hnone, hsome']
        · simp [hsome]
  | text t older ih => rcases ih with hnone | hsome <;> simp [editInside?, *]
  | comment t older ih => rcases ih with hnone | hsome <;> simp [editInside?, *]

theorem editBefore_id (target : Nat) (f : Forest) :
    f.editBefore? target id = none ∨ f.editBefore? target id = some f := by
  induction f with
  | empty => exact .inl rfl
  | element id' vocabulary tag attributes children older ihChildren ihOlder =>
      rw [editBefore?]
      split
      · exact .inr rfl
      · rcases ihChildren with hnone | hsome
        · rcases ihOlder with hnone' | hsome'
          · simp [hnone, hnone']
          · simp [hnone, hsome']
        · simp [hsome]
  | text t older ih => rcases ih with hnone | hsome <;> simp [editBefore?, *]
  | comment t older ih => rcases ih with hnone | hsome <;> simp [editBefore?, *]

end Forest

namespace Likeness

theorem rel_of_map_eq {α β : Type} {R : α → α → Prop} {f : α → β} {x y : Option α}
    (hmap : x.map f = y.map f) (hR : ∀ a b, f a = f b → R a b) : Option.Rel R x y := by
  cases x with
  | none =>
      cases y with
      | none => exact .none
      | some b => exact nomatch hmap
  | some a =>
      cases y with
      | none => exact nomatch hmap
      | some b => exact .some (hR a b (Option.some.inj hmap))

/-- Edits that turn equal skeletons into equal ones are both one change of the skeleton. -/
theorem exists_model {edit edit' : Forest → Forest}
    (hedit : ∀ {f g : Forest}, f.skeleton = g.skeleton → (edit f).skeleton = (edit' g).skeleton) :
    ∃ model : Forest → Forest, (∀ f, (edit f).skeleton = model f.skeleton) ∧
      ∀ g, (edit' g).skeleton = model g.skeleton := by
  have hright (g : Forest) : (edit' g).skeleton = (edit g.skeleton).skeleton :=
    (hedit g.skeleton_skeleton).symm
  exact ⟨fun f => (edit f).skeleton, fun f => (hedit rfl).trans (hright f), hright⟩

/-- Readings are alike if their trees have the same elements. Attributes may have other values
where no rule looks at them. -/
def outlined : Likeness where
  trees f g := f.skeleton = g.skeleton
  attributes tag as bs := as.map Attribute.name = bs.map Attribute.name ∧
    (tag.isReadWithAttributes = true → as = bs)
  names _ := True
  comments _ _ := True
  chars _ := True
  trees_empty := rfl
  trees_pushChar _ hfg := by rw [Forest.skeleton_pushChar, Forest.skeleton_pushChar, hfg]
  trees_comment _ hfg := hfg
  trees_element id vocabulary _ _ hpq hfg := by
    rw [Forest.skeleton, Forest.skeleton, hpq, hfg]
  trees_onto hpq hfg := by rw [Forest.skeleton_onto, Forest.skeleton_onto, hpq, hfg]
  trees_editInside {f g edit edit'} target hedit hfg := by
    obtain ⟨model, hleft, hright⟩ := exists_model hedit
    apply rel_of_map_eq (f := Forest.skeleton) _ fun _ _ => id
    rw [Forest.map_skeleton_editInside hleft, Forest.map_skeleton_editInside hright, hfg]
  trees_editBefore {f g edit edit'} target hedit hfg := by
    obtain ⟨model, hleft, hright⟩ := exists_model hedit
    apply rel_of_map_eq (f := Forest.skeleton) _ fun _ _ => id
    rw [Forest.map_skeleton_editBefore hleft, Forest.map_skeleton_editBefore hright, hfg]
  trees_addAttributes target _ hfg := by
    rw [Forest.skeleton_addAttributes, Forest.skeleton_addAttributes, hfg]
  trees_detach target hfg := by
    apply rel_of_map_eq (f := Prod.map Forest.skeleton Forest.skeleton)
    · rw [Forest.map_skeleton_detach, Forest.map_skeleton_detach, hfg]
    · intro x y heq
      exact Prod.mk.inj heq
  attributes_nil _ := ⟨rfl, fun _ => rfl⟩
  attributes_localName {tag as bs} has := by
    refine ⟨?_, fun htag => by rw [has.2 htag]⟩
    have hnames := congrArg (List.map Builder.localName) has.1
    simpa only [List.map_map, Function.comp_def] using hnames
  attributes_image has := ⟨has.1, nofun⟩
  eq_of_attributes htag has := has.2 htag
  names_supplied _ := trivial
  chars_replacement := trivial

end Likeness

/-- Whether a rule looks at the attributes of the token. -/
def Token.isReadWithAttributes : Token → Bool
  | .startTag t => t.tag.isReadWithAttributes
  | _ => false

namespace Likeness.outlined

variable {b c : Builder} {r s : Reader} {t u : Token} {ts us : List Token}

theorem refl_tokens (token : Token) : outlined.Tokens token token := by
  cases token with
  | startTag t => exact .startTag ⟨rfl, rfl, trivial, rfl, fun _ => rfl⟩
  | comment content => exact .comment trivial
  | char c => exact .char trivial
  | doctype d => exact .doctype d
  | endTag tag => exact .endTag tag
  | null => exact .null
  | flaw => exact .flaw
  | done => exact .done

theorem refl_builders (b : Builder) : outlined.Builders b b := by
  refine ⟨rfl, rfl, ?_, fun _ _ => trivial⟩
  intro entry _
  cases entry with
  | marker => trivial
  | element id tag attributes => exact ⟨trivial, rfl, fun _ => rfl⟩

/-- Tokens with the same outline are alike if no rule looks at their attributes. -/
theorem tokens_of_outline_eq (houtline : t.outline = u.outline)
    (hread : t.isReadWithAttributes = false) : outlined.Tokens t u := by
  cases t with
  | startTag t =>
      cases u with
      | startTag u =>
          obtain ⟨tag, as, closing⟩ := t
          obtain ⟨tag', bs, closing'⟩ := u
          simp only [Token.outline, Token.startTag.injEq, StartTag.mk.injEq] at houtline
          obtain ⟨rfl, hattributes, rfl⟩ := houtline
          have hnames := congrArg (List.map Attribute.name) hattributes
          simp only [List.map_map, Function.comp_def] at hnames
          refine .startTag ⟨rfl, rfl, trivial, hnames, ?_⟩
          intro htag
          exact absurd htag (Bool.eq_false_iff.mp hread)
      | _ => cases houtline
  | comment content =>
      cases u with
      | comment content' => exact .comment trivial
      | _ => cases houtline
  | _ =>
      cases u
      all_goals cases houtline
      all_goals exact refl_tokens _

theorem symm (h : outlined.Builders b c) : outlined.Builders c b := by
  refine ⟨h.trees.symm, ?_, (refl_builders c).formatting, fun _ _ => trivial⟩
  rw [h.rest_eq]

theorem takeAll (h : outlined.Builders b c) (hmap : ts.map Token.outline = us.map Token.outline)
    (hread : ts.all (!·.isReadWithAttributes) = true) :
    outlined.Builders (b.takeAll ts) (c.takeAll us) := by
  induction ts generalizing us b c with
  | nil =>
      have hus : us = [] := List.map_eq_nil_iff.mp hmap.symm
      subst hus
      exact h
  | cons t ts ih =>
      cases us with
      | nil => exact nomatch hmap
      | cons u us =>
          obtain ⟨htoken, htokens⟩ := List.cons.inj hmap
          simp only [List.all_cons, Bool.and_eq_true, Bool.not_eq_true'] at hread
          have htaken := (h.take (tokens_of_outline_eq htoken hread.1)).builders
          have hrest := ih htaken htokens hread.2
          exact hrest

/-! ## Text of an element that holds only text -/

theorem add_id (b : Builder) : b.add id = b := by
  have hinside (target : Nat) : (b.tree.editInside? target id).getD b.tree = b.tree := by
    rcases Forest.editInside_id target b.tree with hnone | hsome
    · rw [hnone, Option.getD_none]
    · rw [hsome, Option.getD_some]
  unfold Builder.add Builder.editAt
  cases b.placeFor b.current with
  | inside target => simp only [hinside]
  | beforeTable table instead =>
      dsimp only
      rcases Forest.editBefore_id table b.tree with hnone | hsome
      · simp only [hnone, hinside]
      · simp only [hsome]

/-- Characters leave the elements as they are. -/
theorem addChar_left (h : outlined.Builders b c) (ch : Char) :
    outlined.Builders (b.addChar ch) c := by
  have hadded : outlined.Builders (b.add (·.pushChar ch)) (c.add id) :=
    h.add fun {f g} hfg => (f.skeleton_pushChar ch).trans hfg
  rw [add_id] at hadded
  exact hadded

end Likeness.outlined

/-- The text of an element that holds only text is being read, in plain markup. -/
structure Builder.IsInText (b : Builder) : Prop where
  mode_eq : b.mode = .text
  current_html : b.current.vocabulary = .html
  dropsNewline_eq : b.dropsNewline = false

namespace Likeness.outlined

variable {b c : Builder}

theorem isInText (h : outlined.Builders b c) (hb : b.IsInText) : c.IsInText :=
  ⟨h.mode_eq.trans hb.mode_eq, h.current_eq ▸ hb.current_html,
    h.dropsNewline_eq.trans hb.dropsNewline_eq⟩

theorem take_char (hb : b.IsInText) (ch : Char) : (b.take (.char ch)).1 = b.addChar ch := by
  have honce : b.takeOnce (.char ch) = (b.addChar ch).done := by
    rw [Builder.takeOnce_eq hb.current_html, Builder.modeRule, hb.mode_eq]
    rfl
  rw [(Builder.Settles.of_done honce).take_eq (by decide) hb.dropsNewline_eq ⟨nofun, nofun⟩]

/-- The text of such an element leaves the elements as they are. -/
theorem takeAll_chars_left (h : outlined.Builders b c) (hb : b.IsInText) (t : Text) :
    outlined.Builders (b.takeAll (Lexer.chars t)) c := by
  induction t generalizing b with
  | nil => exact h
  | cons ch t ih =>
      have hadded := addChar_left h ch
      have hrest := ih hadded (isInText (symm hadded) (isInText h hb))
      rw [← take_char hb] at hrest
      exact hrest

end Likeness.outlined

/-! ## Readers that are alike -/

/-- Readers whose lexers are in the same state and whose trees have the same elements. -/
structure Reader.Alike (r s : Reader) : Prop where
  lexer_eq : s.lexer = r.lexer
  atStart_eq : s.atStart = r.atStart
  builders : Likeness.outlined.Builders r.builder s.builder

namespace Reader.Alike

variable {r s : Reader} {t u : Token} {ts us : List Token} {inStyle : Bool}

theorem refl (r : Reader) : r.Alike r := ⟨rfl, rfl, Likeness.outlined.refl_builders _⟩

theorem take (h : r.Alike s) (htoken : Likeness.outlined.Tokens t u) :
    (r.take t).Alike (s.take u) := by
  obtain ⟨hbuilders, hnext, -⟩ := h.builders.take htoken
  unfold Reader.take
  generalize r.builder.take t = x, s.builder.take u = y at hbuilders hnext
  obtain ⟨b, next⟩ := x
  obtain ⟨c, next'⟩ := y
  cases hnext
  cases next with
  | read content => exact ⟨rfl, h.atStart_eq, hbuilders⟩
  | scriptEnded => exact ⟨h.lexer_eq, rfl, hbuilders⟩
  | done => exact ⟨h.lexer_eq, h.atStart_eq, hbuilders⟩
  | again => exact ⟨h.lexer_eq, h.atStart_eq, hbuilders⟩

theorem foldl_take (h : r.Alike s) (tokens : List Token) :
    (tokens.foldl Reader.take r).Alike (tokens.foldl Reader.take s) := by
  induction tokens generalizing r s with
  | nil => exact h
  | cons token tokens ih => exact ih (h.take (Likeness.outlined.refl_tokens token))

theorem emit_eq (h : r.Alike s) (c : Char) : s.emit c = r.emit c := by
  rw [emit, emit, h.atStart_eq, h.builders.current_eq, h.lexer_eq]

theorem feed (h : r.Alike s) (c : Char) : (r.feed c).Alike (s.feed c) := by
  unfold Reader.feed
  rw [h.atStart_eq, h.builders.current_eq, h.lexer_eq]
  split
  · exact ⟨rfl, rfl, h.builders⟩
  · have hstepped : Alike ⟨(Lexer.step (r.builder.current.vocabulary != .html) r.lexer c).1,
        r.builder, false⟩ ⟨(Lexer.step (r.builder.current.vocabulary != .html) r.lexer c).1,
        s.builder, false⟩ :=
      ⟨rfl, rfl, h.builders⟩
    exact hstepped.foldl_take _

/-- Readers that are alike read the same text as the same tokens, and stay alike. -/
theorem feedAll (h : r.Alike s) (t : Text) :
    (r.feedAll t).Alike (s.feedAll t) ∧ s.emitAll t = r.emitAll t := by
  induction t generalizing r s with
  | nil => exact ⟨h, rfl⟩
  | cons c t ih =>
      obtain ⟨halike, hemit⟩ := ih (h.feed c)
      refine ⟨halike, ?_⟩
      rw [emitAll, emitAll, h.emit_eq, hemit]

end Reader.Alike

end Letterpress
