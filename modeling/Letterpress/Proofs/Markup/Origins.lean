/-
# What becomes of attributes

Each element of the tree that a text is read as has a tag that it comes from: a start
tag, which it is the last element to come in for (`StartTag.Opens`), or formatting that
was reopened, or none, where markup leaves the tag out. That is so after every token, by
induction over the tokens, and numbers tell the elements of different tokens apart.

The element of a start tag gets the tag's attributes. If it is one of plain markup, it has
them as they are written. In foreign content, names lose the vocabulary they are qualified
with, and then two of them may be the same (`parseFragment_keeps_attributes_iff`).
-/

import Mathlib.Data.List.Induction
import Letterpress.Proofs.Markup.Outlines
import Letterpress.Proofs.Markup.Parsed
import Letterpress.Proofs.Markup.RoundTrip
import Letterpress.Proofs.Markup.Tracing
import Letterpress.Proofs.Markup.Walks

namespace Letterpress

/-! ## The elements of tokens -/

/-- What formatting remembers of the tokens. -/
def formattingOf (tokens : List Token) : List (Tag × List Attribute) :=
  tokens.flatMap fun
    | .startTag s => s.entries
    | _ => []

/-- The number that the next element gets behind the tokens. -/
def nextIdAfter (tokens : List Token) : Nat := (Builder.content.takeAll tokens).nextId

/-- The element is the last that comes in for the start tag, one of the tokens, and has a name
that the tag gives. -/
def StartTag.Opens (s : StartTag) (tokens : List Token) (h : Held) : Prop :=
  ∃ before after, tokens = before ++ .startTag s :: after ∧ nextIdAfter before ≤ h.id ∧
    h.id + 1 = nextIdAfter (before ++ [.startTag s]) ∧ s.Names h.tag

/-- The element is one of plain markup that copies formatting or that markup leaves out. -/
def Held.IsSupplied (entries : List (Tag × List Attribute)) (h : Held) : Prop :=
  h.vocabulary = .html ∧
    ((h.tag, h.attributes) ∈ entries ∨ h.tag ∈ Supply.implied ∧ h.attributes = [])

/-- The element comes from a start tag, or no tag wrote it. -/
def Held.IsKnown (tokens : List Token) (h : Held) : Prop :=
  (∃ s : StartTag, s.Opens tokens h) ∨ h.IsSupplied (formattingOf tokens)

/-- Each start tag that the element comes from gives it its attributes. -/
def Held.KeepsAttributes (tokens : List Token) (h : Held) : Prop :=
  ∀ s : StartTag, s.Opens tokens h → h.attributes = s.attributesIn h.vocabulary

namespace Supply

/-- What the tokens bring in. -/
def ofTokens (tokens : List Token) : Supply where
  first := 1
  old _ := False
  entries := formattingOf tokens
  allows h := h.IsKnown tokens ∧ h.KeepsAttributes tokens

/-- What may come in with the next token, apart from an element of its own. -/
def next (p : Supply) (nextId : Nat) : Supply where
  first := nextId
  old := p.Covers nextId
  entries := p.entries
  allows := Held.IsSupplied p.entries

variable {p : Supply} {nextId : Nat} {token : Token}

theorem isOpen_next (hformatting : ∀ entry ∈ p.entries, entry.1.startGroup.isFormatting = true) :
    (p.next nextId).IsOpen where
  copies _ _ hentry := ⟨rfl, .inl hentry⟩
  isFormatting := hformatting
  implied _ _ himplied := ⟨rfl, .inr ⟨himplied, rfl⟩⟩

end Supply

theorem formattingOf_append_startTag (tokens : List Token) (s : StartTag) :
    formattingOf (tokens ++ [.startTag s]) = formattingOf tokens ++ s.entries := by
  simp [formattingOf]

theorem subset_formattingOf_append (tokens : List Token) (token : Token) :
    ∀ entry ∈ formattingOf tokens, entry ∈ formattingOf (tokens ++ [token]) := by
  intro entry hentry
  rw [formattingOf, List.flatMap_append]
  exact List.mem_append_left _ hentry

theorem isFormatting_of_mem_formattingOf {tokens : List Token} {entry : Tag × List Attribute}
    (hentry : entry ∈ formattingOf tokens) : entry.1.startGroup.isFormatting = true := by
  obtain ⟨token, -, hremembered⟩ := List.mem_flatMap.mp hentry
  cases token with
  | startTag s =>
      dsimp only [StartTag.entries] at hremembered
      split at hremembered
      · rename_i hformatting
        rw [List.mem_singleton.mp hremembered]
        exact hformatting
      · cases hremembered
  | _ => cases hremembered

/-! ## One more token -/

section Step

variable {tokens : List Token} {token : Token} {s : StartTag} {h : Held}

/-- An element that comes from a start tag still does after more tokens, and with the last token
only the one that came in last is added. -/
theorem StartTag.opens_append_singleton : s.Opens (tokens ++ [token]) h ↔
    s.Opens tokens h ∨ token = .startTag s ∧ nextIdAfter tokens ≤ h.id ∧
      h.id + 1 = nextIdAfter (tokens ++ [token]) ∧ s.Names h.tag := by
  constructor
  · rintro ⟨before, after, hsplit, hfirst, hlast, hnames⟩
    rcases List.eq_nil_or_concat after with rfl | ⟨after, last, rfl⟩
    · obtain ⟨rfl, htoken⟩ := List.append_inj' hsplit rfl
      obtain rfl := List.singleton_inj.mp htoken
      exact .inr ⟨rfl, hfirst, hlast, hnames⟩
    · rw [List.concat_eq_append, ← List.cons_append, ← List.append_assoc] at hsplit
      obtain ⟨rfl, -⟩ := List.append_inj' hsplit rfl
      exact .inl ⟨before, after, rfl, hfirst, hlast, hnames⟩
  · rintro (⟨before, after, rfl, hfirst, hlast, hnames⟩ | ⟨rfl, hfirst, hlast, hnames⟩)
    · exact ⟨before, after ++ [token], by simp, hfirst, hlast, hnames⟩
    · exact ⟨tokens, [], rfl, hfirst, hlast, hnames⟩

theorem Held.IsKnown.append (hknown : h.IsKnown tokens) (token : Token) :
    h.IsKnown (tokens ++ [token]) := by
  rcases hknown with ⟨s, hopens⟩ | ⟨hhtml, hsupplied⟩
  · exact .inl ⟨s, StartTag.opens_append_singleton.mpr (.inl hopens)⟩
  · refine .inr ⟨hhtml, hsupplied.imp_left fun hcopied => ?_⟩
    exact subset_formattingOf_append tokens token _ hcopied

/-- Numbers of elements only grow. -/
def Builder.Grows (tokens : List Token) : Prop :=
  ∀ before, before <+: tokens → nextIdAfter before ≤ nextIdAfter tokens

/-- What comes in last comes from no tag before. -/
theorem StartTag.not_opens (hgrows : Builder.Grows tokens)
    (hnew : nextIdAfter tokens ≤ h.id) : ¬ s.Opens tokens h := by
  rintro ⟨before, after, rfl, -, hlast, -⟩
  have hle := hgrows (before ++ [.startTag s]) ⟨after, by simp⟩
  omega

namespace Supply

/-- What was there stays as it is known. -/
theorem Covers.append (hold : (ofTokens tokens).Covers (nextIdAfter tokens) h)
    (hle : nextIdAfter tokens ≤ nextIdAfter (tokens ++ [token])) :
    (ofTokens (tokens ++ [token])).Covers (nextIdAfter (tokens ++ [token])) h := by
  rcases hold with habsurd | ⟨hfirst, hlt, hknown, hkeeps⟩
  · exact absurd habsurd id
  · refine .inr ⟨hfirst, Nat.lt_of_lt_of_le hlt hle, hknown.append token, ?_⟩
    intro s hopens
    rcases StartTag.opens_append_singleton.mp hopens with hbefore | ⟨-, hnew, -⟩
    · exact hkeeps s hbefore
    · exact absurd hnew (Nat.not_le.mpr hlt)

/-- What no tag wrote is known, and no start tag that came in last names it. -/
theorem covers_of_isSupplied (hgrows : Builder.Grows tokens) (hpos : 0 < nextIdAfter tokens)
    (hnew : nextIdAfter tokens ≤ h.id) (hlt : h.id < nextIdAfter (tokens ++ [token]))
    (hsupplied : h.IsSupplied (formattingOf tokens))
    (hother : ∀ s, token = .startTag s → h.id + 1 = nextIdAfter (tokens ++ [token]) →
      ¬ s.Names h.tag) :
    (ofTokens (tokens ++ [token])).Covers (nextIdAfter (tokens ++ [token])) h := by
  have hknown : h.IsKnown tokens := .inr hsupplied
  refine .inr ⟨Nat.le_trans hpos hnew, hlt, hknown.append token, ?_⟩
  intro s hopens
  rcases StartTag.opens_append_singleton.mp hopens with hbefore | ⟨htoken, -, hlast, hnames⟩
  · exact absurd hbefore (StartTag.not_opens hgrows hnew)
  · exact absurd hnames (hother s htoken hlast)

/-- What a start tag wrote has the tag's attributes. -/
theorem covers_of_writes (hgrows : Builder.Grows tokens) (hpos : 0 < nextIdAfter tokens)
    (hnew : nextIdAfter tokens ≤ h.id) (hlast : h.id + 1 = nextIdAfter (tokens ++ [.startTag s]))
    (hwrites : s.Writes h) :
    (ofTokens (tokens ++ [.startTag s])).Covers (nextIdAfter (tokens ++ [.startTag s])) h := by
  refine .inr ⟨Nat.le_trans hpos hnew, Nat.lt_of_succ_le (Nat.le_of_eq hlast), .inl ⟨s, ?_⟩, ?_⟩
  · exact StartTag.opens_append_singleton.mpr (.inr ⟨rfl, hnew, hlast, hwrites.names⟩)
  · intro other hopens
    rcases StartTag.opens_append_singleton.mp hopens with hbefore | ⟨htoken, -⟩
    · exact absurd hbefore (StartTag.not_opens hgrows hnew)
    · cases htoken
      exact hwrites.attributes_eq

/-- What comes in before a token's own element. -/
theorem covers_of_before (hgrows : Builder.Grows tokens) (hpos : 0 < nextIdAfter tokens)
    (hle : nextIdAfter tokens ≤ nextIdAfter (tokens ++ [token]))
    (hcovers : (((ofTokens tokens).next (nextIdAfter tokens)).before token).Covers
      (nextIdAfter (tokens ++ [token])) h) :
    (ofTokens (tokens ++ [token])).Covers (nextIdAfter (tokens ++ [token])) h := by
  cases token with
  | startTag s =>
      rcases hcovers with hold | ⟨hnew, hlt, hsupplied, hother⟩
      · exact hold.append hle
      · refine covers_of_isSupplied hgrows hpos hnew hlt hsupplied ?_
        rintro t ⟨⟩ -
        exact hother
  | _ =>
      rcases hcovers with hold | ⟨hnew, hlt, hsupplied⟩
      · exact hold.append hle
      · exact covers_of_isSupplied hgrows hpos hnew hlt hsupplied (by rintro s ⟨⟩)

/-- What has come in when the element of a start tag is in. -/
theorem covers_of_after (hgrows : Builder.Grows tokens) (hpos : 0 < nextIdAfter tokens)
    (hle : nextIdAfter tokens ≤ nextIdAfter (tokens ++ [.startTag s]))
    (hcovers : (((ofTokens tokens).next (nextIdAfter tokens)).after s
      (nextIdAfter (tokens ++ [.startTag s]))).Covers
        (nextIdAfter (tokens ++ [.startTag s])) h) :
    (ofTokens (tokens ++ [.startTag s])).Covers (nextIdAfter (tokens ++ [.startTag s])) h := by
  rcases hcovers with hold | ⟨hnew, hlt, ⟨hlast, hwrites⟩ | ⟨hbefore, hsupplied⟩⟩
  · exact hold.append hle
  · exact covers_of_writes hgrows hpos hnew hlast hwrites
  · refine covers_of_isSupplied hgrows hpos hnew hlt hsupplied ?_
    intro t _ hlast
    exact absurd hlast (Nat.ne_of_lt hbefore)

end Supply

end Step

/-! ## All tokens -/

namespace Builder

variable {tokens : List Token}

/-- Between two tokens, all that is in the tree may stay while the next is taken. -/
theorem Reads.next (hreads : (content.takeAll tokens).Reads (.ofTokens tokens)) (token : Token) :
    (content.takeAll tokens).Reads
      (((Supply.ofTokens tokens).next (nextIdAfter tokens)).before token) := by
  have hpos : 0 < nextIdAfter tokens := hreads.first_le
  cases token with
  | startTag s => exact hreads.mono hpos (Nat.le_refl _) (fun _ => .inl) fun _ => id
  | _ => exact hreads.mono hpos (Nat.le_refl _) (fun _ => .inl) fun _ => id

/-- What is known of a tree between two tokens is known after the next. -/
theorem reads_append_singleton (hreads : (content.takeAll tokens).Reads (.ofTokens tokens))
    (hgrows : Grows tokens) (token : Token) :
    (content.takeAll (tokens ++ [token])).Reads (.ofTokens (tokens ++ [token])) ∧
      nextIdAfter tokens ≤ nextIdAfter (tokens ++ [token]) := by
  have hpos : 0 < nextIdAfter tokens := hreads.first_le
  have htaken := ((hreads.next token).take
    (Supply.isOpen_next fun _ => isFormatting_of_mem_formattingOf)).reads
  have hstep : ((content.takeAll tokens).take token).1 = content.takeAll (tokens ++ [token]) :=
    (takeAll_append content tokens [token]).symm
  rw [hstep] at htaken
  rcases htaken with hidle | ⟨s, rfl, hopened⟩
  · have hle : nextIdAfter tokens ≤ nextIdAfter (tokens ++ [token]) := by
      cases token with
      | startTag s => exact hidle.first_le
      | _ => exact hidle.first_le
    refine ⟨hidle.mono Nat.one_pos (Nat.le_trans hpos hle)
      (fun _ => Supply.covers_of_before hgrows hpos hle) ?_, hle⟩
    cases token with
    | startTag s => exact subset_formattingOf_append tokens _
    | _ => exact subset_formattingOf_append tokens _
  · have hle : nextIdAfter tokens ≤ nextIdAfter (tokens ++ [.startTag s]) := hopened.first_le
    refine ⟨.keeps (hopened.mono Nat.one_pos (Nat.le_trans hpos hle)
      (fun _ => Supply.covers_of_after hgrows hpos hle) ?_), hle⟩
    intro entry hentry
    show entry ∈ formattingOf (tokens ++ [.startTag s])
    rw [formattingOf_append_startTag]
    exact hentry

theorem reads_content : content.Reads (.ofTokens []) := by
  have hstack : Stack.IsContent [root] :=
    ⟨fun e he => .inr (List.mem_singleton.mp he), List.pairwise_singleton _ _⟩
  exact .keeps
    { fragment_eq := rfl
      first_pos := Nat.one_pos
      first_le := Nat.le_refl 1
      tree := ⟨[], .empty, rfl, Forest.holds_empty⟩
      stack := hstack
      formatting := fun _ hentry => absurd hentry List.not_mem_nil
      mode := rfl
      returnMode := rfl
      templateModes := fun _ hmode => absurd hmode List.not_mem_nil }

/-- After any tokens, the tree is a root and what the tokens bring in. -/
theorem reads_takeAll (tokens : List Token) :
    (content.takeAll tokens).Reads (.ofTokens tokens) ∧ Grows tokens := by
  -- The token that is added last is taken in a tree of which everything is known.
  induction tokens using List.reverseRecOn with
  | nil =>
      refine ⟨reads_content, ?_⟩
      intro before hbefore
      rw [List.prefix_nil.mp hbefore]
  | append_singleton tokens token ih =>
      obtain ⟨hreads, hgrows⟩ := ih
      obtain ⟨hnext, hle⟩ := reads_append_singleton hreads hgrows token
      refine ⟨hnext, ?_⟩
      intro before hbefore
      rcases List.prefix_concat_iff.mp hbefore with rfl | hearlier
      · exact Nat.le_refl _
      · exact Nat.le_trans (hgrows before hearlier) hle

end Builder

/-! ## Names of attributes -/

namespace Builder

/-- A name stays as it is, or it is qualified and the name behind its vocabulary is taken. -/
theorem localName_cases (name : Text) :
    localName name = name ∨ ∃ entry ∈ localName.qualified, localName name = entry.2.toList := by
  rw [localName]
  cases hfound : localName.qualified.find? (fun entry => entry.1.toList == name) with
  | none => exact .inl rfl
  | some entry => exact .inr ⟨entry, List.mem_of_find?_eq_some hfound, rfl⟩

/-- A name without its vocabulary has none to lose. -/
theorem localName_localName (name : Text) : localName (localName name) = localName name := by
  have hqualified : ∀ entry ∈ localName.qualified,
      localName entry.2.toList = entry.2.toList := by decide
  rcases localName_cases name with hkept | ⟨entry, hentry, hlocal⟩
  · rw [hkept, hkept]
  · rw [hlocal, hqualified entry hentry]

end Builder

theorem Attributes.toList_ofList {as : List Attribute}
    (hnames : ∀ a ∈ as, isAttributeName a.name = true) (hnodup : (as.map Attribute.name).Nodup) :
    (ofList as).toList = as :=
  toList_foldl_set as empty
    (fun a ha => Lexer.lower_eq_self_of_isAttributeName (hnames a ha)) hnodup

namespace StartTag

/-- Attributes are kept as they are written except in foreign content, where it takes names that
are not qualified. -/
theorem toList_ofList_attributesIn {s : StartTag}
    (hnames : ∀ a ∈ s.attributes, isAttributeName a.name = true)
    (hnodup : (s.attributes.map Attribute.name).Nodup) (vocabulary : Vocabulary) :
    (Attributes.ofList (s.attributesIn vocabulary)).toList = s.attributes ↔
      vocabulary = .html ∨ ∀ a ∈ s.attributes, Builder.localName a.name = a.name := by
  have hkept := Attributes.toList_ofList hnames hnodup
  by_cases hhtml : vocabulary = .html
  · subst hhtml
    exact ⟨fun _ => .inl rfl, fun _ => hkept⟩
  · rw [s.attributesIn_foreign hhtml]
    constructor
    · intro hsame
      refine .inr fun a ha => ?_
      obtain ⟨b, hb, rfl⟩ := Attributes.mem_ofList (hsame ▸ ha)
      obtain ⟨written, hwritten, rfl⟩ := List.mem_map.mp hb
      have hlocal := Builder.isAttributeName_localName (hnames written hwritten)
      dsimp only
      rw [Lexer.lower_eq_self_of_isAttributeName hlocal, Builder.localName_localName]
    · rintro (habsurd | hlocal)
      · exact absurd habsurd hhtml
      · have hmap : s.attributes.map (fun a => { a with name := Builder.localName a.name }) =
            s.attributes :=
          (List.map_congr_left fun a ha => congrArg (Attribute.mk · a.value) (hlocal a ha)).trans
            (List.map_id _)
        rw [hmap, hkept]

end StartTag

/-! ## Tokens of a text -/

namespace Reader

variable {r : Reader}

theorem IsSpelled.emit (hr : r.IsSpelled) (c : Char) : ∀ token ∈ r.emit c, token.IsSpelled := by
  unfold Reader.emit
  split
  · exact fun _ htoken => absurd htoken List.not_mem_nil
  · exact (Lexer.isSpelled_step _ hr.lexer c).2

theorem IsSpelled.emitAll (hr : r.IsSpelled) (t : Text) :
    ∀ token ∈ r.emitAll t, token.IsSpelled := by
  induction t generalizing r with
  | nil => exact fun _ htoken => absurd htoken List.not_mem_nil
  | cons c t ih => exact List.forall_mem_append.mpr ⟨hr.emit c, ih (hr.feed c)⟩

/-- All tokens that a text is read as are spelled such that they are read again. -/
theorem isSpelled_tokens {b : Builder} (hb : b.IsSpelled) (t : Text) :
    ∀ token ∈ tokens b t, token.IsSpelled := by
  have hstart := isSpelled_start hb
  have hdone : ∀ token ∈ [Token.done], token.IsSpelled :=
    fun token htoken => (List.mem_singleton.mp htoken).symm ▸ trivial
  exact List.forall_mem_append.mpr ⟨hstart.emitAll _,
    List.forall_mem_append.mpr ⟨Lexer.isSpelled_finish (hstart.feedAll _).lexer, hdone⟩⟩

end Reader

/-! ## Finished trees -/

/-- The elements of a finished forest, in order. -/
theorem Forest.elementsOfAll_nodes (f : Forest) :
    (Node.elementsOfAll f.nodes).map (fun e => (e.tag, e.attributes)) =
      f.held.map fun h => (h.tag, .ofList h.attributes) := by
  induction f with
  | empty => rfl
  | element id vocabulary tag attributes children older ihChildren ihOlder =>
      simp [nodes_element, Node.elementsOfAll_append, Node.elementsOfAll, Node.elements, held,
        ihChildren, ihOlder]
  | text t older ih =>
      simp [nodes_text, Node.elementsOfAll_append, Node.elementsOfAll, Node.elements, held, ih]
  | comment t older ih =>
      have hnodes : (Forest.comment t older).nodes = older.nodes ++ [.comment t] := by
        rw [nodes, nodesBefore, nodesBefore_eq]
      simp [hnodes, Node.elementsOfAll_append, Node.elementsOfAll, Node.elements, held, ih]

/-- Whatever text is read, an element for a start tag has the tag's attributes with the names
they have in its vocabulary, and it has them as they are written exactly if it is one of plain
markup or no name is qualified. No tag wrote the other elements: they are copies of formatting, or
markup leaves them out. -/
theorem parseFragment_keeps_attributes_iff (t : Text) :
    (parseFragment t).elements.tail.map (fun e => (e.tag, e.attributes)) =
        (Reader.read .content t).held.tail.map (fun h => (h.tag, .ofList h.attributes)) ∧
      ∀ h ∈ (Reader.read .content t).held.tail,
        h.IsKnown (Reader.tokens .content t) ∧
          ∀ s : StartTag, s.Opens (Reader.tokens .content t) h →
            h.attributes = s.attributesIn h.vocabulary ∧
              ((Attributes.ofList h.attributes).toList = s.attributes ↔
                h.vocabulary = .html ∨
                  ∀ a ∈ s.attributes, Builder.localName a.name = a.name) := by
  obtain ⟨attributes, inner, htree, hinner⟩ :=
    (Builder.reads_takeAll (Reader.tokens .content t)).1.tree
  rw [← Reader.read_eq_takeAll] at htree
  have hheld : (Reader.read .content t).held.tail = inner.held := by rw [htree]; rfl
  have hparsed : parseFragment t = ⟨.body, .empty, inner.nodes⟩ := by
    unfold parseFragment
    rw [htree]
    rfl
  rw [hheld, hparsed]
  refine ⟨inner.elementsOfAll_nodes, ?_⟩
  intro h hh
  rcases hinner h hh with habsurd | ⟨-, -, hknown, hkeeps⟩
  · exact absurd habsurd id
  refine ⟨hknown, ?_⟩
  intro s hopens
  have hattributes := hkeeps s hopens
  obtain ⟨before, after, htokens, -⟩ := hopens
  obtain ⟨-, hwritable, hnodup⟩ : Token.IsSpelled (.startTag s) :=
    Reader.isSpelled_tokens Builder.isSpelled_content t _ (by rw [htokens]; simp)
  rw [hattributes]
  exact ⟨rfl, StartTag.toList_ofList_attributesIn
    (fun a ha => (hwritable a ha).isAttributeName_name) hnodup h.vocabulary⟩

theorem parseFragment_keeps_attributes_iff_link :
    let t : Text := "<svg xlink:href=a href=b>"
    let s : StartTag := ⟨.svg, [⟨"xlink:href", "a"⟩, ⟨"href", "b"⟩], false⟩
    let h : Held := ⟨1, .svg, .svg, [⟨"href", "a"⟩, ⟨"href", "b"⟩]⟩
    h ∈ (Reader.read .content t).held.tail ∧ s.Opens (Reader.tokens .content t) h ∧
      (Attributes.ofList h.attributes).toList ≠ s.attributes := by
  intro t s h
  have hmem : h ∈ (Reader.read .content t).held.tail := by decide +kernel
  have hopens : s.Opens (Reader.tokens .content t) h :=
    ⟨[], [.done], by decide +kernel, by decide +kernel, by decide +kernel, .inl rfl⟩
  have hiff := (((parseFragment_keeps_attributes_iff t).2 h hmem).2 s hopens).2
  refine ⟨hmem, hopens, mt hiff.mp ?_⟩
  decide +kernel

/-- In a drawing, two names of one link fall together, and the first value is lost. -/
theorem qualified_names_fall_together :
    let t : Text := "<svg xlink:href=a href=b>"
    Reader.tokens .content t =
        [.startTag ⟨.svg, [⟨"xlink:href", "a"⟩, ⟨"href", "b"⟩], false⟩, .done] ∧
      (parseFragment t).elements.map (fun e => (e.tag, e.attributes.toList)) =
        [(.body, []), (.svg, [⟨"href", "b"⟩])] := by
  decide +kernel

end Letterpress
