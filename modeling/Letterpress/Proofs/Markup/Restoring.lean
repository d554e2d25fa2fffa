/-
# Reading a tree that fits again

A tree in which everything fits is read again, where it is written, with the same tags
and the same text: `parseFragment_innerMarkup_of_fits`. Each piece of its markup takes
the reader from one place at which it nears the tree (`Reader.Nears`) to the next, and
adds there what was written (`Forest.Extends`); the induction is over the tree. What the
reader may drop, a byte order mark or a line feed, is never the next character
(`Reader.Admits`).
-/

import Letterpress.Proofs.Markup.Nearing
import Letterpress.Proofs.Markup.Parsed
import Letterpress.Proofs.Markup.Passing
import Letterpress.Proofs.Markup.Walks

namespace Letterpress

open Level

/-! ## What a tree is compared by -/

namespace Node

/-- The tags of neighbouring nodes, parents first. -/
def tagsOfAll (ns : List Node) : List Tag := (elementsOfAll ns).map Element.tag

theorem tagsOfAll_append (ns ms : List Node) :
    tagsOfAll (ns ++ ms) = tagsOfAll ns ++ tagsOfAll ms := by
  rw [tagsOfAll, elementsOfAll_append, List.map_append, tagsOfAll, tagsOfAll]

theorem textContentOfAll_append (ns ms : List Node) :
    textContentOfAll (ns ++ ms) = textContentOfAll ns ++ textContentOfAll ms := by
  induction ns with
  | nil => rfl
  | cons n ns ih => rw [List.cons_append, textContentOfAll, textContentOfAll, ih, List.append_assoc]

/-- Texts side by side are one text. -/
theorem texts_eq {ns : List Node} (htext : ns.all isText = true) :
    tagsOfAll ns = [] ∧ markupOfAll false ns = escapeText (textContentOfAll ns) := by
  induction ns with
  | nil => exact ⟨rfl, rfl⟩
  | cons n ns ih =>
      rw [List.all_cons, Bool.and_eq_true] at htext
      obtain ⟨htags, hmarkup⟩ := ih htext.2
      cases n with
      | element | comment => cases htext.1
      | text t =>
          refine ⟨htags, ?_⟩
          rw [markupOfAll, hmarkup, textContentOfAll, escapeText, escapeText, List.flatMap_append]
          rfl

end Node

/-- The nodes stand behind what stood there before, as far as tags and text go. -/
structure Forest.Extends (older : Forest) (ns : List Node) (inner : Forest) : Prop where
  tags_eq : Node.tagsOfAll inner.nodes = Node.tagsOfAll older.nodes ++ Node.tagsOfAll ns
  text_eq : Node.textContentOfAll inner.nodes =
    Node.textContentOfAll older.nodes ++ Node.textContentOfAll ns

namespace Forest.Extends

variable {older middle inner : Forest} {ns ms : List Node}

theorem nil (inner : Forest) : Extends inner [] inner :=
  ⟨(List.append_nil _).symm, (List.append_nil _).symm⟩

theorem append (hfirst : Extends older ns middle) (hsecond : Extends middle ms inner) :
    Extends older (ns ++ ms) inner where
  tags_eq := by
    rw [hsecond.tags_eq, hfirst.tags_eq, Node.tagsOfAll_append, List.append_assoc]
  text_eq := by
    rw [hsecond.text_eq, hfirst.text_eq, Node.textContentOfAll_append, List.append_assoc]

/-- An element comes behind its siblings with its children. -/
theorem wrap {f : Level} (attributes : Attributes) (h : Extends .empty ns inner) :
    Extends f.older [.element f.start.tag attributes ns] (f.wrap inner) where
  tags_eq := by
    have htags : Node.tagsOfAll inner.nodes = Node.tagsOfAll ns := h.tags_eq
    rw [Level.wrap, nodes_element, Node.tagsOfAll_append]
    simp only [Node.tagsOfAll, Node.elementsOfAll, Node.elements, List.append_nil,
      List.map_cons] at htags ⊢
    rw [htags]
  text_eq := by
    have htext : Node.textContentOfAll inner.nodes = Node.textContentOfAll ns := h.text_eq
    rw [Level.wrap, nodes_element, Node.textContentOfAll_append]
    simp only [Node.textContentOfAll, Node.textContent, htext]

theorem pushChar (inner : Forest) (c : Char) : Extends inner [.text [c]] (inner.pushChar c) := by
  have htext (t : Text) (older : Forest) : Extends older [.text t.reverse] (.text t older) :=
    ⟨by rw [nodes_text, Node.tagsOfAll_append], by rw [nodes_text, Node.textContentOfAll_append]⟩
  cases inner with
  | text t older =>
      obtain ⟨htags, hshown⟩ := htext (c :: t) older
      obtain ⟨htags', hshown'⟩ := htext t older
      refine ⟨?_, ?_⟩
      · rw [Forest.pushChar, htags, htags', List.append_assoc]
        rfl
      · rw [Forest.pushChar, hshown, hshown', List.append_assoc]
        simp [Node.textContentOfAll, Node.textContent]
  | _ => exact htext [c] _

/-- A text comes behind what stood there, or continues it. -/
theorem text (t : Text) (inner : Forest) :
    Extends inner [.text t] (t.foldl (fun inner c => inner.pushChar c) inner) := by
  induction t generalizing inner with
  | nil => exact ⟨(List.append_nil _).symm, (List.append_nil _).symm⟩
  | cons c t ih =>
      obtain ⟨htags, hshown⟩ := (pushChar inner c).append (ih (inner.pushChar c))
      exact ⟨htags, hshown⟩

theorem comment (t : Text) (inner : Forest) : Extends inner [.comment t] (.comment t inner) := by
  have hnodes : (Forest.comment t inner).nodes = inner.nodes ++ [.comment t] := by
    rw [nodes, nodesBefore, nodesBefore_eq]
  exact ⟨by rw [hnodes, Node.tagsOfAll_append], by rw [hnodes, Node.textContentOfAll_append]⟩

end Forest.Extends

/-! ## Builders over the characters of a text -/

theorem Mode.keepsText_cons (mode : Mode) (path : Stack) (c : Char) (t : Text) :
    mode.keepsText path (c :: t) = (mode.keepsText path [c] && mode.keepsText path t) := by
  cases mode
  all_goals first
    | rfl
    | simp [Mode.keepsText, Bool.or_and_distrib_left]

namespace Builder

variable {f : Level} {levels outer : List Level} {inner : Forest} {mode : Mode} {b : Builder}

theorem Nears.clear (h : Nears levels inner mode b) :
    Nears levels inner mode { b with dropsNewline := false } := by
  have hsame : ({ b with dropsNewline := false } : Builder) = b := by rw [← h.dropsNewline_eq]
  exact hsame.symm ▸ h

/-- The first character of a text, unless it is a line feed that is dropped. -/
theorem ComesTo.takeAll_cons {b' : Builder} {c : Char} {t : Text} {hops : Nat}
    (hcomes : ({ b with dropsNewline := false } : Builder).ComesTo (.char c) hops (b', .done))
    (hhops : hops ≤ 16) (hline : b.dropsNewline = true → (c :: t).head? ≠ some '\n') :
    b.takeAll (Lexer.chars (c :: t)) = b'.takeAll (Lexer.chars t) := by
  have hnewline : b.dropsNewline = false ∨ Token.char c ≠ .char '\n' := by
    cases hdrops : b.dropsNewline with
    | false => exact .inl rfl
    | true =>
        refine .inr fun heq => hline hdrops ?_
        rw [Token.char.inj heq]
        rfl
  have htake := hcomes.take_eq hhops hnewline ⟨nofun, nofun⟩
  rw [Lexer.chars, List.map_cons, takeAll, List.foldl_cons, htake]
  rfl

/-- Text that stays where it stands, unless it begins with a line feed that is dropped. -/
theorem Nears.takeAll_chars {t : Text}
    (h : Nears (f :: outer) inner mode { b with dropsNewline := false })
    (hkeeps : mode.keepsText (path (f :: outer)) t = true)
    (hline : b.dropsNewline = true → t.head? ≠ some '\n') :
    Nears (f :: outer) (t.foldl (fun inner c => inner.pushChar c) inner) mode
      { b.takeAll (Lexer.chars t) with dropsNewline := false } ∧
      ((b.takeAll (Lexer.chars t)).dropsNewline = true → t = [] ∧ b.dropsNewline = true) := by
  induction t generalizing b inner with
  | nil => exact ⟨h, fun hdrops => ⟨rfl, hdrops⟩⟩
  | cons c t ih =>
      rw [Mode.keepsText_cons, Bool.and_eq_true] at hkeeps
      obtain ⟨b', hcomes, hnears⟩ := h.takes_char hkeeps.1
      have hkept := hnears.dropsNewline_eq
      obtain ⟨hrest, hdrops⟩ := ih hnears.clear hkeeps.2 (by simp [hkept])
      rw [hcomes.takeAll_cons (by decide) hline]
      refine ⟨hrest, fun hline => ?_⟩
      rw [(hdrops hline).2] at hkept
      cases hkept

namespace RestsBehind

theorem clear (h : RestsBehind f levels inner mode b) :
    RestsBehind f levels inner mode { b with dropsNewline := false } :=
  { h with rests := h.rests }

/-- The characters of a text that is read up to an end tag. -/
theorem takeAll_chars {t : Text} (h : RestsBehind f levels inner mode b)
    (hline : b.dropsNewline = true → t.head? ≠ some '\n') :
    RestsBehind f levels (t.foldl (fun inner c => inner.pushChar c) inner) mode
      (b.takeAll (Lexer.chars t)) := by
  induction t generalizing b inner with
  | nil => exact h
  | cons c t ih =>
      obtain ⟨b', honce, hbehind, hkept⟩ := h.clear.takeOnce_char c
      rw [ComesTo.takeAll_cons (ComesTo.of_once honce nofun) (by decide) hline]
      exact ih hbehind (by simp [hkept])

end RestsBehind

end Builder

/-! ## Readers over written pieces -/

/-- Nothing of the text is dropped at its start. -/
structure Reader.Admits (r : Reader) (t : Text) : Prop where
  mark : r.atStart = true → t.head? ≠ some '\uFEFF'
  line : r.builder.dropsNewline = true → t.head? ≠ some '\n'

/-- Between two pieces of markup, of which everything so far fits. -/
structure Reader.Nears (levels : List Level) (inner : Forest) (mode : Mode) (r : Reader) : Prop where
  lexer_eq : r.lexer = .text .data
  builder : Builder.Nears levels inner mode { r.builder with dropsNewline := false }

/-- The nodes have been read behind what stood there, and `u` comes next. -/
structure Reader.Restores (levels : List Level) (older : Forest) (mode : Mode) (ns : List Node)
    (u : Text) (r : Reader) : Prop where
  exists_inner : ∃ inner, r.Nears levels inner mode ∧ older.Extends ns inner
  admits : r.Admits u

namespace Reader

open Lexer

variable {f g : Level} {levels outer : List Level} {inner : Forest} {mode inside : Mode}
  {r : Reader} {b b' : Builder} {s σ : State} {token : Token} {tag : Tag} {as : Attributes}
  {t u written : Text}

theorem take_of_done {atStart : Bool} (htake : b.take token = (b', .done)) :
    (⟨s, b, atStart⟩ : Reader).take token = ⟨s, b', atStart⟩ := by
  rw [take, htake]

theorem take_of_read {atStart : Bool} {content : Content}
    (htake : b.take token = (b', .read content)) :
    (⟨s, b, atStart⟩ : Reader).take token = ⟨.text content, b', atStart⟩ := by
  rw [take, htake]

/-- Behind a script a byte order mark is dropped. -/
theorem take_of_textEnd (htake : b.take (.endTag tag) =
    (b', if tag = .script then .scriptEnded else .done)) :
    (⟨s, b, false⟩ : Reader).take (.endTag tag) = ⟨s, b', decide (tag = .script)⟩ := by
  rw [take, htake]
  by_cases htag : tag = .script
  · rw [if_pos htag, decide_eq_true htag]
  · rw [if_neg htag, decide_eq_false htag]

/-- The character that completes a token. -/
theorem feed_of_token {c : Char} (hword : c ∉ ("[CDATA[" : Text))
    (hstep : step false s c = (σ, [token])) :
    (⟨s, b, false⟩ : Reader).feed c = (⟨σ, b, false⟩ : Reader).take token := by
  have hminds : s.mindsVocabulary c = false := by
    cases s with
    | declaration word =>
        rw [← Bool.not_eq_true]
        intro hprefix
        have hmem : c ∈ (c :: word).reverse := by simp
        exact hword ((List.isPrefixOf_iff_prefix.mp hprefix).subset hmem)
    | _ => rfl
  simp only [feed, step_eq_of_mindsVocabulary hminds, hstep, Bool.false_and, Bool.false_eq_true,
    if_false, List.foldl_cons, List.foldl_nil]

/-- A written start tag is taken as the tag. -/
theorem feedAll_startTag (hlexer : r.lexer = .text .data) (htag : tag.IsWritable)
    (hnames : ∀ a ∈ as.toList, isAttributeName a.name = true) :
    r.feedAll (startTagMarkup tag as) =
      (⟨.text .data, r.builder, false⟩ : Reader).take (.startTag (Node.startTag tag as)) := by
  obtain ⟨s, d, hpasses, hgap, htoken⟩ := passes_startTag htag hnames as.nodup_names
  have hend := hgap.step_end
  rw [Draft.finish, htoken] at hend
  rw [startTagMarkup, feedAll_append, (feedAll_of_passes hlexer hpasses rfl).1]
  exact feed_of_token (by decide) hend

/-- A written end tag is taken as the end tag. -/
theorem feedAll_endTag (hlexer : r.lexer = .text .data) (htag : tag.IsWritable) :
    r.feedAll (endTagMarkup tag) =
      (⟨.text .data, r.builder, false⟩ : Reader).take (.endTag tag) := by
  obtain ⟨s, hpasses, -, hend⟩ := passes_endTag htag
  rw [endTagMarkup, feedAll_append, (feedAll_of_passes hlexer hpasses rfl).1]
  exact feed_of_token (by decide) hend

theorem passes_of_readsPlain (hreads : readsPlain t = true) :
    Passes (.text .data) t (chars t) (.text .data) := by
  unfold readsPlain at hreads
  split at hreads
  · rename_i hpass
    rwa [beq_iff_eq.mp hreads] at hpass
  · cases hreads

/-- What is written between the tags of an element is read as the text, and then as the end
tag. -/
def ReadsBack (content : Content) (tag : Tag) (written shown : Text) : Prop :=
  ∃ s, Passes (.text content) (written ++ ("</" ++ tag.name)) (chars shown) s ∧
    step false s '>' = (.text .data, [.endTag tag])

theorem readsBack_of_check {content : Content} {shown : Text}
    (hreads : readsBack content tag written shown = true) : ReadsBack content tag written shown := by
  unfold readsBack at hreads
  split at hreads
  · cases hreads
  · rename_i s tokens hpass
    rw [Bool.and_eq_true, beq_iff_eq] at hreads
    obtain ⟨rfl, hend⟩ := hreads
    refine ⟨s, hpass, ?_⟩
    split at hend
    · rename_i ended hstep
      rw [hstep, beq_iff_eq.mp hend]
    · cases hend

/-- Where references are read, escaped text is read as the text. -/
theorem readsBack_escapeText (htag : tag = .title ∨ tag = .textarea) (hnull : '\x00' ∉ t) :
    ReadsBack (.escapable tag) tag (escapeText t) t := by
  have hplain (c : Char) (hamp : c ≠ '&') (hlt : c ≠ '<') (hnull : c ≠ '\x00') :
      step false (.text (.escapable tag)) c = (.text (.escapable tag), [.char c]) := by
    have hvisible : visible c = c := if_neg hnull
    simp only [step, textStep, if_neg hamp, if_neg hlt, hvisible]
  have htext : Passes (.text (.escapable tag)) (escapeText t) (chars t) (.text (.escapable tag)) :=
    passes_escapeText_of rfl hplain hnull
  have hend : ∃ s, Passes (.text (.escapable tag)) ("</" ++ tag.name) [] s ∧
      step false s '>' = (.text .data, [.endTag tag]) := by
    rcases htag with rfl | rfl <;> exact ⟨_, rfl, rfl⟩
  obtain ⟨s, hclose, hstep⟩ := hend
  refine ⟨s, ?_, hstep⟩
  simpa using htext.append hclose

namespace Nears

theorem of_builder (h : Builder.Nears levels inner mode b) (atStart : Bool) :
    Nears levels inner mode ⟨.text .data, b, atStart⟩ := ⟨rfl, h.clear⟩

/-- Text. -/
theorem restores_text (h : r.Nears (f :: outer) inner mode)
    (hpasses : Passes (.text .data) written (chars t) (.text .data))
    (hnil : t = [] → written = []) (hline : t.head? = some '\n' → written.head? = some '\n')
    (hkeeps : mode.keepsText (path (f :: outer)) t = true) (hadmits : r.Admits (written ++ u)) :
    (r.feedAll written).Restores (f :: outer) inner mode [.text t] u := by
  cases written with
  | nil =>
      cases t with
      | nil => exact ⟨⟨inner, h, .text [] inner⟩, hadmits⟩
      | cons c t => cases hpasses
  | cons c written =>
      have hnewline (hdrops : r.builder.dropsNewline = true) : t.head? ≠ some '\n' :=
        fun hhead => hadmits.line hdrops (hline hhead)
      have hmark : r.atStart = false ∨ c ≠ '\uFEFF' := by
        cases hstart : r.atStart with
        | false => exact .inl rfl
        | true => exact .inr fun heq => hadmits.mark hstart (congrArg some heq)
      obtain ⟨hnears, hdropped⟩ := h.builder.takeAll_chars hkeeps hnewline
      rw [(feedAll_of_passes_cons h.lexer_eq hpasses hmark).1]
      refine ⟨⟨_, ⟨rfl, hnears⟩, .text t inner⟩, nofun, fun hdrops => ?_⟩
      cases hnil (hdropped hdrops).1

/-- A comment. -/
theorem restores_comment (h : r.Nears (f :: outer) inner mode) (ht : IsComment t) :
    (r.feedAll ("<!--" ++ t ++ "-->")).Restores (f :: outer) inner mode [.comment t] u := by
  obtain ⟨b', hcomes, hnears⟩ := h.builder.takes_comment t
  have htake : r.builder.takeAll [.comment t] = b' := by
    rw [Builder.takeAll, List.foldl_cons, hcomes.take_eq (by decide) (.inr nofun) ⟨nofun, nofun⟩]
    rfl
  have hnewline := hnears.dropsNewline_eq
  rw [(feedAll_of_passes h.lexer_eq ht rfl).1, htake]
  exact ⟨⟨_, of_builder hnears false, .comment t inner⟩, nofun, by simp [hnewline]⟩

/-- The start tag of an element that holds nodes. -/
theorem startTag (h : r.Nears (g :: outer) inner mode) (htag : tag.IsWritable)
    (hnames : ∀ a ∈ as.toList, isAttributeName a.name = true) {rules : Mode}
    (hrules : mode.rulesFor (path (g :: outer)) (Node.startTag tag as) = rules)
    (hinterior : rules.interior? (path (g :: outer)) (Node.startTag tag as) =
      some (.nodes inside)) :
    ∃ f : Level, Nears (f :: g :: outer) .empty inside (r.feedAll (startTagMarkup tag as)) ∧
      (∀ u : Text, (Node.dropsNewline (path (g :: outer)) (Node.startTag tag as) = true →
        u.head? ≠ some '\n') → (r.feedAll (startTagMarkup tag as)).Admits u) ∧
      path (f :: g :: outer) = (path (g :: outer)).enter (Node.startTag tag as) ∧
      f.start = Node.startTag tag as ∧ f.around = rules ∧ f.older = inner := by
  subst hrules
  obtain ⟨f, b', hcomes, hnears, hline, hpath, hstart, haround, holder⟩ :=
    h.builder.takes_startTag rfl hinterior
  have htake := hcomes.take_eq (by decide) (.inr nofun) ⟨nofun, nofun⟩
  rw [feedAll_startTag h.lexer_eq htag hnames, take_of_done htake]
  exact ⟨f, ⟨rfl, hnears⟩, fun u hu => ⟨nofun, fun hdrops => hu (hline hdrops)⟩, hpath, hstart,
    haround, holder⟩

/-- The end tag of an element that holds nodes. -/
theorem endTag (h : r.Nears (f :: g :: outer) inner mode) (htag : f.start.tag.IsWritable) :
    Nears (g :: outer) (f.wrap inner) f.around (r.feedAll (endTagMarkup f.start.tag)) ∧
      ∀ u, (r.feedAll (endTagMarkup f.start.tag)).Admits u := by
  obtain ⟨b', hcomes, hnears⟩ := h.builder.takes_endTag
  have htake := hcomes.take_eq (by decide) (.inr nofun) ⟨nofun, nofun⟩
  have hnewline := hnears.dropsNewline_eq
  rw [feedAll_endTag h.lexer_eq htag, take_of_done htake]
  exact ⟨of_builder hnears false, fun u => ⟨nofun, by simp [hnewline]⟩⟩

/-- An element without an end tag. -/
theorem voidTag (h : r.Nears (g :: outer) inner mode) (htag : tag.IsWritable)
    (hnames : ∀ a ∈ as.toList, isAttributeName a.name = true) {rules : Mode}
    (hrules : mode.rulesFor (path (g :: outer)) (Node.startTag tag as) = rules)
    (hinterior : rules.interior? (path (g :: outer)) (Node.startTag tag as) = some .nothing)
    (hvoid : tag.isVoid = true) :
    (r.feedAll (startTagMarkup tag as)).Restores (g :: outer) inner rules [.element tag as []] u := by
  subst hrules
  obtain ⟨f, b', hcomes, hnears, hstart, rfl⟩ := h.builder.takes_voidTag hinterior hvoid
  have htake := hcomes.take_eq (by decide) (.inr nofun) ⟨nofun, nofun⟩
  have hnewline := hnears.dropsNewline_eq
  have hname : f.start.tag = tag := congrArg StartTag.tag hstart
  rw [feedAll_startTag h.lexer_eq htag hnames, take_of_done htake]
  exact ⟨⟨_, of_builder hnears false, hname ▸ Forest.Extends.wrap as (.nil .empty)⟩, nofun,
    by simp [hnewline]⟩

/-- An element that holds nothing, though it has an end tag. -/
theorem nothing (h : r.Nears (g :: outer) inner mode) (htag : tag.IsWritable)
    (hnames : ∀ a ∈ as.toList, isAttributeName a.name = true) {rules : Mode}
    (hrules : mode.rulesFor (path (g :: outer)) (Node.startTag tag as) = rules)
    (hinterior : rules.interior? (path (g :: outer)) (Node.startTag tag as) = some .nothing)
    (hvoid : tag.isVoid = false) (hend : (path (g :: outer)).endsForeign tag = false) :
    (r.feedAll (startTagMarkup tag as ++ endTagMarkup tag)).Restores (g :: outer) inner rules
      [.element tag as []] u := by
  subst hrules
  obtain ⟨f, b', b'', hopen, hline, hclose, hnears, hstart, rfl⟩ :=
    h.builder.takes_nothing hinterior hvoid hend
  have htakeOpen := hopen.take_eq (by decide) (.inr nofun) ⟨nofun, nofun⟩
  have htakeClose : b'.take (.endTag tag) = (b'', .done) :=
    Builder.Settles.take_eq hclose (by decide) hline ⟨nofun, nofun⟩
  have hnewline := hnears.dropsNewline_eq
  have hname : f.start.tag = tag := congrArg StartTag.tag hstart
  rw [feedAll_append, feedAll_startTag h.lexer_eq htag hnames, take_of_done htakeOpen,
    feedAll_endTag rfl htag, take_of_done htakeClose]
  exact ⟨⟨_, of_builder hnears false, hname ▸ Forest.Extends.wrap as (.nil .empty)⟩, nofun,
    by simp [hnewline]⟩

/-- An element that holds text, which is read up to the end tag. -/
theorem textElement (h : r.Nears (g :: outer) inner mode) (htag : tag.IsWritable)
    (hnames : ∀ a ∈ as.toList, isAttributeName a.name = true) {rules : Mode}
    (hrules : mode.rulesFor (path (g :: outer)) (Node.startTag tag as) = rules)
    {content : Content} (hinterior : rules.interior? (path (g :: outer)) (Node.startTag tag as) =
      some (.text content)) {children : List Node} (htexts : children.all Node.isText = true)
    (hreads : ReadsBack content tag written (Node.textContentOfAll children))
    (hline : tag = .textarea → (Node.textContentOfAll children).head? ≠ some '\n')
    (hmark : tag = .script → u.head? ≠ some '\uFEFF') :
    (r.feedAll (startTagMarkup tag as ++ (written ++ endTagMarkup tag))).Restores (g :: outer) inner
      rules [.element tag as children] u := by
  subst hrules
  obtain ⟨f, b₁, hopen, hbehind, hdrops, hstart, rfl⟩ := h.builder.takes_textStart hinterior
  have hname : f.start.tag = tag := congrArg StartTag.tag hstart
  obtain ⟨s, hpasses, hstep⟩ := hreads
  have htakeOpen := hopen.take_eq (by decide) (.inr nofun) ⟨nofun, nofun⟩
  have hinside := (hbehind.takeAll_chars fun hdropping => hline (hdrops hdropping)).clear
  obtain ⟨b₂, hclose, hrests, hfostering⟩ := hinside.takeOnce_endTag rfl
  rw [hname] at hclose
  have hends : (if tag = .script then Next.scriptEnded else .done) ≠ .again := by split <;> nofun
  have htakeClose := (Builder.ComesTo.of_once hclose hends).take_eq (by decide) (.inr nofun)
    ⟨nofun, nofun⟩
  have hmarkup : startTagMarkup tag as ++ (written ++ endTagMarkup tag) =
      startTagMarkup tag as ++ (written ++ ("</" ++ tag.name) ++ ">") := by
    simp only [endTagMarkup, List.append_assoc]
  have hnewline := hrests.dropsNewline_eq
  rw [hmarkup, feedAll_append, feedAll_startTag h.lexer_eq htag hnames, take_of_read htakeOpen,
    feedAll_append, (feedAll_of_passes_of_not_atStart hpasses).1]
  have hfeed (r : Reader) : r.feedAll ">" = r.feed '>' := rfl
  rw [hfeed, feed_of_token (by decide) hstep, take_of_textEnd htakeClose]
  have hchildren : Forest.empty.Extends children
      ((Node.textContentOfAll children).foldl (fun inner c => inner.pushChar c) .empty) := by
    obtain ⟨htags, hshown⟩ := Forest.Extends.text (Node.textContentOfAll children) .empty
    refine ⟨htags.trans ?_, hshown.trans ?_⟩
    · rw [(Node.texts_eq htexts).1]
      rfl
    · simp only [Node.textContentOfAll, Node.textContent, List.append_nil]
  exact ⟨⟨_, of_builder (.of_rests hrests hfostering) _, hname ▸ hchildren.wrap as⟩,
    fun hstarts => hmark (of_decide_eq_true hstarts), by simp [hnewline]⟩

end Nears

end Reader

/-! ## Whole trees -/

namespace Node

open Reader

theorem null_not_mem_textContentOfAll {ns : List Node}
    (hspelled : AllSpelled Attribute.IsWritable ns) (htext : ns.all isText = true) :
    '\x00' ∉ textContentOfAll ns := by
  induction ns with
  | nil => exact List.not_mem_nil
  | cons n ns ih =>
      rw [List.all_cons, Bool.and_eq_true] at htext
      cases n with
      | element | comment => cases htext.1
      | text t => exact List.not_mem_append hspelled.1 (ih hspelled.2 htext.2)

theorem head?_escapeText {t : Text} (hhead : t.head? = some '\n') :
    (escapeText t).head? = some '\n' := by
  cases t with
  | nil => cases hhead
  | cons c t =>
      cases hhead
      rfl

section TextElement

variable {mode : Mode} {path : Stack} {tag : Tag} {attributes : Attributes}
  {content : Lexer.Content} {children : List Node}

/-- What fits in an element of text is read as its text up to the end tag. -/
theorem readsBack_markupOfAll
    (hinterior : mode.interior? path (startTag tag attributes) = some (.text content))
    (hspelled : AllSpelled Attribute.IsWritable children) (htexts : children.all isText = true)
    (hfits : content.isEscapable = true ∨ Lexer.readsBack content tag
      (markupOfAll tag.isRawText children) (textContentOfAll children) = true) :
    ReadsBack content tag (markupOfAll tag.isRawText children) (textContentOfAll children) := by
  rcases hfits with hescapable | hchecked
  · cases content with
    | escapable closer =>
        have hforeign := Builder.Nears.isForeignTo_of_not_nodes (by simp) hinterior
        obtain ⟨hself, hcloser⟩ :=
          (Mode.holdsNone_of_interior? hforeign (by simp) hinterior).tag_of_escapable
        cases hself
        have hplain : tag.isRawText = false := by rcases hcloser with rfl | rfl <;> rfl
        rw [hplain, (texts_eq htexts).2]
        exact readsBack_escapeText hcloser (null_not_mem_textContentOfAll hspelled htexts)
    | _ => cases hescapable
  · exact readsBack_of_check hchecked

/-- A text area that fits does not begin with a line feed, which the reader would drop. -/
theorem head?_textContentOfAll_ne
    (hinterior : mode.interior? path (startTag .textarea attributes) = some (.text content))
    (htexts : children.all isText = true)
    (hline : (dropsNewline path (startTag .textarea attributes) &&
      (markupOfAll Tag.textarea.isRawText children).head? == some '\n') = false) :
    (textContentOfAll children).head? ≠ some '\n' := by
  intro hhead
  have hforeign := Builder.Nears.isForeignTo_of_not_nodes (by simp) hinterior
  have hdrops : dropsNewline path (startTag .textarea attributes) = true := by
    rw [dropsNewline, hforeign]
    rfl
  rw [hdrops, show Tag.isRawText .textarea = false from rfl, (texts_eq htexts).2,
    head?_escapeText hhead] at hline
  cases hline

end TextElement

mutual

/-- A node that fits is read where it is written. -/
theorem restores_markup :
    ∀ (n : Node) {g : Level} {outer : List Level} {inner : Forest} {mode : Mode} {raw : Bool}
      {r : Reader} {u : Text}, n.IsSpelled Attribute.IsWritable →
      n.fits (n.modeFrom mode (path (g :: outer))) (path (g :: outer)) raw = true →
      r.Nears (g :: outer) inner mode → r.Admits (n.markup raw ++ u) →
      (n.isScript (path (g :: outer)) = true → u.head? ≠ some '\uFEFF') →
      (r.feedAll (n.markup raw)).Restores (g :: outer) inner (n.modeFrom mode (path (g :: outer)))
        [n] u
  | .element tag attributes children, g, outer, inner, mode, raw, r, u, hspelled, hfits, h, hadmits,
      hmark => by
      obtain ⟨htag, hattributes, hchildren⟩ := hspelled
      have hnames : ∀ a ∈ attributes.toList, isAttributeName a.name = true :=
        fun a ha => (hattributes a ha).isAttributeName_name
      rw [fits, Bool.and_eq_true, Bool.not_eq_true'] at hfits
      obtain ⟨hinside, hline⟩ := hfits
      rw [markup]
      split at hinside
      · cases hinside
      · rename_i hinterior
        rw [Bool.and_eq_true, List.isEmpty_iff] at hinside
        obtain ⟨rfl, hend⟩ := hinside
        cases hvoid : tag.isVoid with
        | true =>
            rw [if_pos rfl, List.append_nil]
            exact h.voidTag htag hnames rfl hinterior hvoid
        | false =>
            rw [hvoid, Bool.false_or, Bool.not_eq_true'] at hend
            rw [if_neg Bool.false_ne_true]
            exact h.nothing htag hnames rfl hinterior hvoid hend
      · rename_i content hinterior
        rw [Bool.and_eq_true, Bool.or_eq_true] at hinside
        obtain ⟨htexts, hescaped⟩ := hinside
        have hvoid : tag.isVoid = false := Mode.isVoid_eq_of_interior? (by simp) hinterior
        have hreads := readsBack_markupOfAll hinterior hchildren htexts hescaped
        rw [if_neg (by simp [hvoid])]
        refine h.textElement htag hnames rfl hinterior htexts hreads ?_ ?_
        · rintro rfl
          exact head?_textContentOfAll_ne hinterior htexts hline
        · rintro rfl
          have hforeign := Builder.Nears.isForeignTo_of_not_nodes (by simp) hinterior
          exact hmark (by simp [isScript, hforeign])
      · rename_i inside hinterior
        have hvoid : tag.isVoid = false := Mode.isVoid_eq_of_interior? (by simp) hinterior
        rw [if_neg (by simp [hvoid]), feedAll_append, feedAll_append]
        obtain ⟨f, hopened, hadmitted, hpath, hstart, haround, rfl⟩ :=
          h.startTag htag hnames rfl hinterior
        rw [← hpath] at hinside
        have hfirst : dropsNewline (path (g :: outer)) (startTag tag attributes) = true →
            (markupOfAll tag.isRawText children ++ endTagMarkup tag).head? ≠ some '\n' := by
          intro hdrops
          rw [hdrops, Bool.true_and, beq_eq_false_iff_ne] at hline
          exact Lexer.head?_append_ne hline (by simp [endTagMarkup])
        obtain ⟨rules, ⟨last, hnears, hadded⟩, -⟩ :=
          restores_markupOfAll children hchildren hinside hopened (hadmitted _ hfirst)
            (by simp [endTagMarkup])
        have hname : f.start.tag = tag := congrArg StartTag.tag hstart
        obtain ⟨hclosed, hend⟩ := hnears.endTag (hname ▸ htag)
        rw [hname, haround] at hclosed
        rw [hname] at hend
        exact ⟨⟨_, hclosed, hname ▸ hadded.wrap attributes⟩, hend u⟩
  | .text t, g, outer, inner, mode, raw, r, u, hspelled, hfits, h, hadmits, _ => by
      rw [fits, Bool.and_eq_true] at hfits
      obtain ⟨hkeeps, hraw⟩ := hfits
      rw [markup] at hadmits ⊢
      cases raw with
      | false =>
          rw [if_neg Bool.false_ne_true] at hadmits ⊢
          exact h.restores_text (Lexer.passes_escapeText hspelled) (by rintro rfl; rfl)
            head?_escapeText hkeeps hadmits
      | true =>
          rw [if_pos rfl] at hadmits ⊢
          exact h.restores_text (passes_of_readsPlain hraw) id id hkeeps hadmits
  | .comment t, g, outer, inner, mode, raw, r, u, hspelled, _, h, _, _ => h.restores_comment hspelled

/-- Neighbouring nodes that fit are read where they are written. -/
theorem restores_markupOfAll :
    ∀ (ns : List Node) {g : Level} {outer : List Level} {inner : Forest} {mode : Mode} {raw : Bool}
      {r : Reader} {u : Text}, AllSpelled Attribute.IsWritable ns →
      allFit mode (path (g :: outer)) raw ns = true →
      r.Nears (g :: outer) inner mode → r.Admits (markupOfAll raw ns ++ u) →
      u.head? ≠ some '\uFEFF' →
      ∃ rules, (r.feedAll (markupOfAll raw ns)).Restores (g :: outer) inner rules ns u
  | [], g, outer, inner, mode, raw, r, u, _, _, h, hadmits, _ =>
      ⟨mode, ⟨inner, h, .nil inner⟩, hadmits⟩
  | n :: rest, g, outer, inner, mode, raw, r, u, ⟨hfirst, hrest⟩, hfits, h, hadmits, hmark => by
      rw [allFit, Bool.and_eq_true, Bool.and_eq_true, Bool.not_eq_true'] at hfits
      obtain ⟨⟨hfit, hscript⟩, hfitRest⟩ := hfits
      rw [markupOfAll, List.append_assoc] at hadmits
      obtain ⟨⟨middle, hnears, hadded⟩, hadmitted⟩ :=
        restores_markup n hfirst hfit h hadmits fun hafter => by
          rw [hafter, Bool.true_and] at hscript
          exact Lexer.head?_append_ne (beq_eq_false_iff_ne.mp hscript) hmark
      obtain ⟨rules, ⟨last, hlast, haddedRest⟩, hend⟩ :=
        restores_markupOfAll rest hrest hfitRest hnears hadmitted hmark
      rw [markupOfAll, feedAll_append]
      exact ⟨rules, ⟨last, hlast, hadded.append haddedRest⟩, hend⟩

end

end Node

/-! ## Reading the markup of a tree -/

end Letterpress
