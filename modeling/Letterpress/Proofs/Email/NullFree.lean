/-
# Emails without U+0000

What a body brings into an email holds no U+0000, for no token of the lexer does.
So U+0000 in an email comes from the configuration: from the font or from the
source of an image at one end.
-/

import Letterpress.Email.Generation
import Letterpress.Proofs.Email.AuthorStyles
import Letterpress.Proofs.Email.Configured
import Letterpress.Proofs.Email.LegacyHints
import Letterpress.Proofs.Json.Faults
import Letterpress.Proofs.Markup.NullFree
import Letterpress.Proofs.Markup.Parsed
import Letterpress.Proofs.Markup.Showing
import Letterpress.Proofs.Style.Unclosed

namespace Letterpress

variable {font : Text}

/-! ## Styles -/

theorem Text.null_not_mem_lower {t : Text} (ht : '\x00' ∉ t) : '\x00' ∉ Text.lower t := by
  intro hmem
  obtain ⟨c, hc, hlower⟩ := List.mem_map.mp hmem
  obtain rfl := (Text.toLower_eq_iff (.inl (by decide))).mp hlower
  exact ht hc

theorem Text.mem_joinWith {c : Char} {glue : Text} {ts : List Text}
    (hc : c ∈ Text.joinWith glue ts) : c ∈ glue ∨ ∃ t ∈ ts, c ∈ t := by
  fun_induction Text.joinWith glue ts with
  | case1 => cases hc
  | case2 t => exact .inr ⟨t, List.mem_cons_self, hc⟩
  | case3 t rest hne ih =>
      rcases List.mem_append.mp hc with hc | hc
      · rcases List.mem_append.mp hc with hc | hc
        · exact .inr ⟨t, List.mem_cons_self, hc⟩
        · exact .inl hc
      · rcases ih hc with hglue | ⟨u, hu, hc⟩
        · exact .inl hglue
        · exact .inr ⟨u, List.mem_cons_of_mem t hu, hc⟩

theorem Declaration.null_not_mem_joined {ds : List Declaration}
    (hds : ∀ d ∈ ds, '\x00' ∉ d.written) : '\x00' ∉ Declaration.joined ds := by
  intro hmem
  rcases Text.mem_joinWith hmem with hglue | ⟨t, ht, hc⟩
  · exact absurd hglue (by decide)
  · obtain ⟨d, hd, rfl⟩ := List.mem_map.mp ht
    exact hds d hd hc

theorem Style.null_not_mem_prepend {ds : List Declaration} {author : Option Text} {style : Text}
    (hds : ∀ d ∈ ds, '\x00' ∉ d.written) (hauthor : ∀ t ∈ author, '\x00' ∉ t)
    (hstyle : Style.prepend ds author = some style) : '\x00' ∉ style := by
  have hjoined := Declaration.null_not_mem_joined hds
  unfold Style.prepend at hstyle
  split at hstyle
  · cases hstyle
  cases author with
  | none =>
      cases hstyle
      exact hjoined
  | some t =>
      simp only at hstyle
      split at hstyle <;> cases hstyle
      · exact hjoined
      · exact List.not_mem_append (List.not_mem_append hjoined (by decide)) (hauthor t rfl)

theorem Style.null_not_mem_append {ds : List Declaration} {author : Option Text} {style : Text}
    (hds : ∀ d ∈ ds, '\x00' ∉ d.written) (hauthor : ∀ t ∈ author, '\x00' ∉ t)
    (hstyle : Style.append author ds = some style) : '\x00' ∉ style := by
  have hjoined := Declaration.null_not_mem_joined hds
  unfold Style.append at hstyle
  split at hstyle
  · cases hstyle
  cases author with
  | none =>
      cases hstyle
      exact hjoined
  | some t =>
      have hbare : '\x00' ∉ Style.bare t := by
        obtain ⟨v, w, -, -, heq⟩ := Style.exists_bare_eq t
        intro hmem
        apply hauthor t rfl
        rw [heq]
        exact List.mem_append_right v (List.mem_append_left w hmem)
      simp only at hstyle
      split at hstyle <;> cases hstyle
      · exact hjoined
      · exact List.not_mem_append (List.not_mem_append hbare (by decide)) hjoined

/-! ## Attributes -/

theorem null_not_mem_style? {as : Attributes} (has : ∀ a ∈ as.toList, a.IsWritable) :
    ∀ t ∈ as.style?, '\x00' ∉ t := by
  intro t ht
  obtain ⟨a, ha, rfl⟩ := Option.map_eq_some_iff.mp ht
  exact (has a (List.mem_of_find?_eq_some ha)).null_not_mem

theorem Attributes.isWritable_of_mem_set {as : Attributes} {name value : Text}
    (has : ∀ a ∈ as.toList, a.IsWritable) (hname : isAttributeName (Text.lower name) = true)
    (hvalue : '\x00' ∉ value) : ∀ a ∈ (as.set name value).toList, a.IsWritable := by
  intro a ha
  rcases Attributes.mem_set ha with hmem | rfl
  · exact has a hmem
  · exact ⟨hname, hvalue⟩

/-- Whether declarations are written without U+0000. -/
def areNullFree (ds : List Declaration) : Bool := ds.all fun d => !d.written.contains '\x00'

theorem null_not_mem_of_areNullFree {ds : List Declaration} (hds : areNullFree ds = true) :
    ∀ d ∈ ds, '\x00' ∉ d.written := by
  intro d hd
  simpa using List.all_eq_true.mp hds d hd

theorem null_not_mem_of_mem_textDefaults {ds : List Declaration} (hfont : '\x00' ∉ font)
    (hds : areNullFree ds = true) : ∀ d ∈ textDefaults font ++ ds, '\x00' ∉ d.written := by
  intro d hd
  rcases List.mem_append.mp hd with hd | hd
  · have hlead : '\x00' ∉ ("font-family" ++ ": " : Text) := by decide
    rcases List.mem_cons.mp hd with rfl | hd
    · exact List.not_mem_append hlead hfont
    · exact null_not_mem_of_areNullFree (by decide) d hd
  · exact null_not_mem_of_areNullFree hds d hd

theorem null_not_mem_of_mem_defaultsFor (tag : Tag) {alignment : Option Text}
    (hfont : '\x00' ∉ font) (halignment : ∀ a ∈ alignment, '\x00' ∉ a) :
    ∀ d ∈ defaultsFor tag font alignment, '\x00' ∉ d.written := by
  fun_cases defaultsFor tag font alignment
  case case1 => exact null_not_mem_of_mem_textDefaults hfont (by decide)
  case case2 | case3 | case4 =>
    rw [List.append_assoc]
    exact null_not_mem_of_mem_textDefaults hfont (by decide)
  case case13 => exact null_not_mem_of_mem_textDefaults hfont (by decide)
  case case17 a _ =>
    have hlead : '\x00' ∉ ("text-align" ++ ": " : Text) := by decide
    intro d hd
    rcases List.mem_cons.mp hd with rfl | hd
    · exact List.not_mem_append hlead (halignment a rfl)
    · exact null_not_mem_of_areNullFree (by decide) d hd
  all_goals exact null_not_mem_of_areNullFree (by decide)

theorem isWritable_inlineAttributes (hfont : '\x00' ∉ font) (tag : Tag) (as : Attributes)
    (has : ∀ a ∈ as.toList, a.IsWritable) :
    ∀ a ∈ (inlineAttributes font tag as).toList, a.IsWritable := by
  have hauthor := null_not_mem_style? has
  have halignment : ∀ a ∈ (as.style?.bind fun t => Style.value? t "text-align").map Text.lower,
      '\x00' ∉ a := by
    intro a ha
    obtain ⟨value, hvalue, rfl⟩ := Option.map_eq_some_iff.mp ha
    obtain ⟨t, ht, hread⟩ := Option.bind_eq_some_iff.mp hvalue
    exact Text.null_not_mem_lower fun hmem =>
      hauthor t ht (Style.mem_of_mem_value? hread hmem)
  unfold inlineAttributes
  split
  case h_1 style hstyle =>
    exact Attributes.isWritable_of_mem_set has (by decide) (Style.null_not_mem_prepend
      (null_not_mem_of_mem_defaultsFor tag hfont halignment) hauthor hstyle)
  case h_2 => exact has

/-- What is copied from a style is a number or the name of an alignment. -/
theorem null_not_mem_styledAttribute? {tag : Tag} {style : Option Text} {name value : Text}
    (hvalue : styledAttribute? tag style name = some value) : '\x00' ∉ value := by
  unfold styledAttribute? at hvalue
  split at hvalue <;> split at hvalue
  case isTrue.isTrue =>
    obtain ⟨alignment, -, rfl⟩ := Option.map_eq_some_iff.mp hvalue
    cases alignment <;> decide
  case isFalse.isTrue =>
    obtain ⟨px, -, rfl⟩ := Option.map_eq_some_iff.mp hvalue
    exact Text.null_not_mem_decimal px
  all_goals cases hvalue

theorem isWritable_withHints (tag : Tag) (as : Attributes) (has : ∀ a ∈ as.toList, a.IsWritable) :
    ∀ a ∈ (withHints tag as).toList, a.IsWritable := by
  have hall : areNullFree (hintsFor tag) = true := by
    fun_cases hintsFor tag <;> decide
  have hhints : ∀ d ∈ missingHints (hintsFor tag) as.style?, '\x00' ∉ d.written := by
    intro d hd
    have hmem : d ∈ hintsFor tag := by
      unfold missingHints at hd
      split at hd
      · exact hd
      · exact (List.mem_filter.mp hd).1
    exact null_not_mem_of_areNullFree hall d hmem
  unfold withHints
  split
  case h_1 style hstyle =>
    exact Attributes.isWritable_of_mem_set has (by decide)
      (Style.null_not_mem_append hhints (null_not_mem_style? has) hstyle)
  case h_2 => exact has

theorem isWritable_legacyAttributes (tag : Tag) (as : Attributes)
    (has : ∀ a ∈ as.toList, a.IsWritable) :
    ∀ a ∈ (legacyAttributes tag as).toList, a.IsWritable := by
  have hnames : ∀ name ∈ promotedNames, isAttributeName (Text.lower name) = true := by decide
  have hmore : ∀ a ∈ promotedOf tag as, isAttributeName (Text.lower a.name) = true ∧
      '\x00' ∉ a.value := by
    intro a ha
    obtain ⟨hname, hvalue⟩ := mem_promotedOf_iff.mp ha
    exact ⟨hnames _ hname, null_not_mem_styledAttribute? hvalue⟩
  have hfold (more : List Attribute) (before : Attributes)
      (hbefore : ∀ a ∈ before.toList, a.IsWritable)
      (hmore : ∀ a ∈ more, isAttributeName (Text.lower a.name) = true ∧ '\x00' ∉ a.value) :
      ∀ a ∈ (more.foldl (fun as a => as.set a.name a.value) before).toList, a.IsWritable := by
    induction more generalizing before with
    | nil => exact hbefore
    | cons b more ih =>
        obtain ⟨hname, hvalue⟩ := hmore b List.mem_cons_self
        exact ih _ (Attributes.isWritable_of_mem_set hbefore hname hvalue)
          fun a ha => hmore a (List.mem_cons_of_mem b ha)
  exact hfold _ _ (isWritable_withHints tag as has) hmore

/-! ## Bodies -/

theorem null_not_mem_legacyBody (body : Text) : '\x00' ∉ legacyBody body :=
  Node.null_not_mem_markupOfAll _ _ (Node.allSpelled_mapAttributesOfAll
    isWritable_legacyAttributes _ (parseFragment_allSpelled body))

theorem null_not_mem_rowMarkup {r : Row} (hstyle : '\x00' ∉ r.cellStyle)
    (hcontent : '\x00' ∉ r.content) : '\x00' ∉ r.markup := by
  have hescaped := not_mem_escapeAttribute (by decide) hstyle
  exact List.not_mem_append (List.not_mem_append (List.not_mem_append (List.not_mem_append
    (by decide) hescaped) (by decide)) hcontent) (by decide)

/-- The style of a cell that holds running text. -/
theorem null_not_mem_textStyle (hfont : '\x00' ∉ font) {trail : Text} (htrail : '\x00' ∉ trail) :
    '\x00' ∉ "font-family: " ++ font ++ "; font-size: " ++ textSize ++ "; color: " ++ textColour ++
      trail := by
  refine List.not_mem_append (List.not_mem_append ?_ (by decide)) htrail
  refine List.not_mem_append (List.not_mem_append ?_ (by decide)) (by decide)
  exact List.not_mem_append (List.not_mem_append (by decide) hfont) (by decide)

theorem null_not_mem_plainStyle (hfont : '\x00' ∉ font) : '\x00' ∉ Row.plainStyle font :=
  null_not_mem_textStyle hfont (by decide)

/-- An image brings its source and its alternative text into a row. -/
theorem null_not_mem_ofImage {image : ImageRef} (hsource : '\x00' ∉ image.source)
    (halternative : '\x00' ∉ image.alternative) :
    '\x00' ∉ (Row.ofImage image).cellStyle ∧ '\x00' ∉ (Row.ofImage image).content := by
  have hname : '\x00' ∉ image.alignment.name := by
    cases image.alignment <;> decide
  have hwidth : '\x00' ∉ Row.widthAttribute image.width := by
    unfold Row.widthAttribute
    split
    · exact List.not_mem_nil
    · exact List.not_mem_append (List.not_mem_append (by decide)
        (Text.null_not_mem_decimal _)) (by decide)
  constructor
  · exact List.not_mem_append (List.not_mem_append (by decide) hname) (by decide)
  · refine List.not_mem_append (List.not_mem_append ?_
      (not_mem_escapeAttribute (by decide) halternative)) (by decide)
    refine List.not_mem_append (List.not_mem_append ?_ hwidth) (by decide)
    exact List.not_mem_append (List.not_mem_append (by decide)
      (not_mem_escapeAttribute (by decide) hsource)) (by decide)

theorem null_not_mem_attribute? {e : Element} (he : ∀ a ∈ e.attributes.toList, a.IsWritable)
    (name : Text) : ∀ v ∈ e.attribute? name, '\x00' ∉ v := by
  intro v hv
  obtain ⟨a, ha, rfl⟩ := Option.map_eq_some_iff.mp hv
  exact (he a (List.mem_of_find?_eq_some ha)).null_not_mem

theorem null_not_mem_ofContainer? {container : Element} {image : ImageRef}
    (hspelled : Node.AllSpelled Attribute.IsWritable container.children)
    (himage : ImageRef.ofContainer? container = some image) :
    '\x00' ∉ image.source ∧ '\x00' ∉ image.alternative := by
  obtain ⟨img, hfound, rfl⟩ := Option.map_eq_some_iff.mp himage
  have hattributes := Node.attributes_of_findAmong? container.children hspelled hfound
  constructor
  · change '\x00' ∉ (img.attribute? "src").getD []
    cases hsource : img.attribute? "src" with
    | none => exact List.not_mem_nil
    | some source => exact null_not_mem_attribute? hattributes "src" source hsource
  · change '\x00' ∉ ((img.attribute? "alt").filter fun a => !Text.isBlankText a).getD
      ImageRef.defaultAlternative
    cases halt : (img.attribute? "alt").filter fun a => !Text.isBlankText a with
    | none => decide
    | some alternative =>
        exact null_not_mem_attribute? hattributes "alt" alternative
          (Option.filter_eq_some_iff.mp halt).1

theorem null_not_mem_ofElement (hfont : '\x00' ∉ font) {e : Element}
    (hspelled : e.toNode.IsSpelled Attribute.IsWritable) :
    '\x00' ∉ (Row.ofElement font e).cellStyle ∧ '\x00' ∉ (Row.ofElement font e).content := by
  have hchildren := Node.null_not_mem_markupOfAll e.tag.isRawText e.children hspelled.2.2
  have houter : '\x00' ∉ e.outerMarkup := Node.null_not_mem_markup false _ hspelled
  have hplain : '\x00' ∉ (Row.ofPlain font e).cellStyle ∧ '\x00' ∉ (Row.ofPlain font e).content :=
    ⟨null_not_mem_plainStyle hfont, houter⟩
  unfold Row.ofElement
  split
  case h_1 size hsize =>
    have hnull : '\x00' ∉ size := by
      unfold headingSize? at hsize
      split at hsize <;> cases hsize <;> decide
    constructor
    · refine List.not_mem_append (List.not_mem_append (List.not_mem_append ?_ (by decide))
        (by decide)) (by decide)
      exact List.not_mem_append (List.not_mem_append (List.not_mem_append (by decide) hfont)
        (by decide)) hnull
    · exact List.not_mem_append (List.not_mem_append (by decide) hchildren) (by decide)
  case h_2 =>
    split
    · exact ⟨null_not_mem_textStyle hfont (by decide), houter⟩
    · exact ⟨null_not_mem_textStyle hfont (by decide), houter⟩
    · split
      case h_1 image himage =>
        obtain ⟨hsource, halternative⟩ := null_not_mem_ofContainer? hspelled.2.2 himage
        exact null_not_mem_ofImage hsource halternative
      case h_2 => exact hplain
    · exact hplain

theorem null_not_mem_ofNode? (hfont : '\x00' ∉ font) {n : Node}
    (hspelled : n.IsSpelled Attribute.IsWritable) {r : Row} (hr : Row.ofNode? font n = some r) :
    '\x00' ∉ r.cellStyle ∧ '\x00' ∉ r.content := by
  cases n with
  | element tag attributes children =>
      cases hr
      exact null_not_mem_ofElement hfont hspelled
  | text t =>
      simp only [Row.ofNode?, Option.ite_none_left_eq_some] at hr
      obtain ⟨-, heq⟩ := hr
      cases heq
      have htrim : '\x00' ∉ Text.trim t := fun hmem => hspelled (Text.mem_of_mem_trim hmem)
      exact ⟨null_not_mem_plainStyle hfont, not_mem_escapeText (by decide) htrim⟩
  | comment t => cases hr

theorem null_not_mem_responsiveBody (hfont : '\x00' ∉ font) (body : Text) :
    '\x00' ∉ responsiveBody body font := by
  have hspelled := Node.allSpelled_mapAttributesOfAll (isWritable_inlineAttributes hfont) _
    (parseFragment_allSpelled body)
  intro hmem
  obtain ⟨r, hr, hin⟩ := List.mem_flatMap.mp hmem
  obtain ⟨n, hn, hrow⟩ := List.mem_filterMap.mp hr
  obtain ⟨hstyle, hcontent⟩ := null_not_mem_ofNode? hfont (Node.isSpelled_of_mem hspelled hn) hrow
  exact null_not_mem_rowMarkup hstyle hcontent hin

/-! ## Documents -/

namespace Template

/-- Whether the fixed text of a template is without U+0000. -/
def isNullFree (parts : Template) : Bool :=
  parts.all fun
    | .fixed t => !t.contains '\x00'
    | .raw behind => !behind.contains '\x00'
    | _ => true

theorem null_not_mem_fill {parts : Template} (hparts : parts.isNullFree = true)
    {data : List Text} (hdata : ∀ t ∈ data, '\x00' ∉ t) : '\x00' ∉ parts.fill data := by
  have hhead (data : List Text) (hdata : ∀ t ∈ data, '\x00' ∉ t) : '\x00' ∉ data.headD [] := by
    cases data with
    | nil => exact List.not_mem_nil
    | cons t data => exact hdata t List.mem_cons_self
  have htail (data : List Text) (hdata : ∀ t ∈ data, '\x00' ∉ t) :
      ∀ t ∈ data.tail, '\x00' ∉ t := fun t ht => hdata t (List.mem_of_mem_tail ht)
  induction parts generalizing data with
  | nil => exact List.not_mem_nil
  | cons part parts ih =>
      simp only [isNullFree, List.all_cons, Bool.and_eq_true] at hparts ih
      obtain ⟨hpart, hparts⟩ := hparts
      cases part with
      | fixed t => exact List.not_mem_append (by simpa using hpart) (ih hparts hdata)
      | number =>
          exact List.not_mem_append (hhead data hdata) (ih hparts (htail data hdata))
      | value =>
          exact List.not_mem_append (not_mem_escapeAttribute (by decide) (hhead data hdata))
            (ih hparts (htail data hdata))
      | raw behind =>
          exact List.not_mem_append (hhead data hdata)
            (List.not_mem_append (by simpa using hpart) (ih hparts (htail data hdata)))

theorem null_not_mem_fillIf {parts : Template} (hparts : parts.isNullFree = true)
    {data? : Option (List Text)} (hdata : ∀ data ∈ data?, ∀ t ∈ data, '\x00' ∉ t) :
    '\x00' ∉ parts.fillIf data? := by
  cases data? with
  | none => exact List.not_mem_nil
  | some data => exact null_not_mem_fill hparts (hdata data rfl)

end Template

section Documents

variable {c : Config} {body : Text}

theorem Config.null_not_mem_imageData {slot : Slot} {places : Text → Text → List Text}
    (hsources : ∀ s ∈ slot.source? c, '\x00' ∉ s)
    (hplaces : ∀ source, '\x00' ∉ source → ∀ t ∈ places source c.shownWidth, '\x00' ∉ t) :
    ∀ data ∈ c.imageData slot places, ∀ t ∈ data, '\x00' ∉ t := by
  intro data hdata
  obtain ⟨source, hsource, rfl⟩ := Option.map_eq_some_iff.mp hdata
  exact hplaces source (hsources source hsource)

theorem Responsive.fixed_checks :
    '\x00' ∉ front ∧ '\x00' ∉ bodyOpening ∧ '\x00' ∉ tableEnd ∧ '\x00' ∉ closing ∧
      sheetTemplate.isNullFree = true ∧ tableTemplate.isNullFree = true ∧
      (imageTemplate .header).isNullFree = true ∧ (imageTemplate .footer).isNullFree = true := by
  delta front bodyOpening tableEnd closing sheetTemplate tableTemplate imageTemplate textSize
    textColour Slot.className Slot.alternative
  repeat rw [String.toList_ofList]
  decide +kernel

theorem Responsive.null_not_mem_document (hfont : '\x00' ∉ c.font)
    (hsources : ∀ slot : Slot, ∀ s ∈ slot.source? c, '\x00' ∉ s) (hbody : '\x00' ∉ body) :
    '\x00' ∉ Responsive.document c body := by
  obtain ⟨hfront, hopening, htableEnd, hclosing, hsheet, htable, hheader, hfooter⟩ := fixed_checks
  have hwidth : '\x00' ∉ c.shownWidth := Text.null_not_mem_decimal _
  have hplaces (source : Text) (hsource : '\x00' ∉ source) :
      ∀ t ∈ imagePlaces source c.shownWidth, '\x00' ∉ t := by
    simp [imagePlaces, hsource, hwidth]
  have himage {slot : Slot} (himage : (imageTemplate slot).isNullFree = true) :
      '\x00' ∉ imageOf c slot c.shownWidth := by
    rw [imageOf_eq]
    exact Template.null_not_mem_fillIf himage
      (Config.null_not_mem_imageData (hsources slot) hplaces)
  have hstyles : '\x00' ∉ styleSheet c.font c.shownWidth := by
    rw [styleSheet_eq]
    exact Template.null_not_mem_fill hsheet (by simp [hwidth, hfont])
  have htable : '\x00' ∉ tableTemplate.fill [c.shownWidth] :=
    Template.null_not_mem_fill htable (by simp [hwidth])
  rw [document_eq, beforeFooter]
  refine List.not_mem_append (List.not_mem_append (List.not_mem_append ?_
    (List.not_mem_append hbody htableEnd)) (himage hfooter)) hclosing
  exact List.not_mem_append (List.not_mem_append (List.not_mem_append (List.not_mem_append
    (List.not_mem_append hfront hstyles) (by decide)) hopening) (himage hheader)) htable

theorem Legacy.fixed_checks :
    '\x00' ∉ front ∧ '\x00' ∉ styleTag ∧ '\x00' ∉ rowEnd ∧ '\x00' ∉ closing ∧
      remarkTemplate.isNullFree = true ∧ sheetTemplate.isNullFree = true ∧
      openingTemplate.isNullFree = true ∧ rowTemplate.isNullFree = true ∧
      (imageTemplate .header).isNullFree = true ∧ (imageTemplate .footer).isNullFree = true := by
  delta front styleTag rowEnd closing remarkTemplate sheetTemplate openingTemplate rowTemplate
    imageTemplate imageLead engineSettings Conditional.region textSize textColour Slot.alternative
  repeat rw [String.toList_ofList]
  decide +kernel

theorem Legacy.null_not_mem_document (hfont : '\x00' ∉ c.font)
    (hsources : ∀ slot : Slot, ∀ s ∈ slot.source? c, '\x00' ∉ s) (hbody : '\x00' ∉ body) :
    '\x00' ∉ Legacy.document c body := by
  obtain ⟨hfront, htag, hrowEnd, hclosing, hremarks, hsheet, hopening, hrow, hheader, hfooter⟩ :=
    fixed_checks
  have hwidth : '\x00' ∉ c.shownWidth := Text.null_not_mem_decimal _
  have hplaces (source : Text) (hsource : '\x00' ∉ source) :
      ∀ t ∈ imagePlaces source c.shownWidth, '\x00' ∉ t := by
    simp [imagePlaces, hsource, hwidth, not_mem_escapeAttribute (d := '\x00') (by decide) hsource]
  have himage {slot : Slot} (himage : (imageTemplate slot).isNullFree = true) :
      '\x00' ∉ (imageTemplate slot).fillIf (c.imageData slot imagePlaces) :=
    Template.null_not_mem_fillIf himage (Config.null_not_mem_imageData (hsources slot) hplaces)
  have hfooterImage : '\x00' ∉ imageOf c .footer (Text.decimal c.maxWidth.toNat) := by
    have h := himage hfooter
    rwa [← imageOf_eq] at h
  have hremarks : '\x00' ∉ remarkTemplate.fill [c.font] :=
    Template.null_not_mem_fill hremarks (by simp [hfont])
  have hsheet : '\x00' ∉ sheetTemplate.fill [c.shownWidth] :=
    Template.null_not_mem_fill hsheet (by simp [hwidth])
  have hopening : '\x00' ∉ openingTemplate.fill [c.shownWidth, c.shownWidth] :=
    Template.null_not_mem_fill hopening (by simp [hwidth])
  have hrow : '\x00' ∉ rowTemplate.fill [c.font] :=
    Template.null_not_mem_fill hrow (by simp [hfont])
  rw [document_eq c body .footer, beforeImage_eq]
  refine List.not_mem_append (List.not_mem_append (List.not_mem_append (List.not_mem_append
    (List.not_mem_append ?_ (List.not_mem_append hsheet (by decide))) (List.not_mem_append
    (List.not_mem_append hopening (himage hheader)) hrow)) (List.not_mem_append hbody hrowEnd))
    hfooterImage) hclosing
  exact List.not_mem_append (List.not_mem_append hfront hremarks) htag

end Documents

/-- U+0000 in an email comes from the font or from the source of an image at one end: no body
brings it in. -/
theorem null_mem_generateEmail {body : Text} {c : Config} (h : '\x00' ∈ generateEmail body c) :
    '\x00' ∈ c.font ∨ (∃ s ∈ c.headerImage, '\x00' ∈ s) ∨ ∃ s ∈ c.footerImage, '\x00' ∈ s := by
  by_contra hnone
  simp only [not_or, not_exists, not_and] at hnone
  obtain ⟨hfont, hheader, hfooter⟩ := hnone
  have hsources : ∀ slot : Slot, ∀ s ∈ slot.source? c, '\x00' ∉ s := by
    intro slot s hs
    cases slot with
    | header => exact hheader s (Option.filter_eq_some_iff.mp hs).1
    | footer => exact hfooter s (Option.filter_eq_some_iff.mp hs).1
  cases hdialect : c.dialect with
  | responsive =>
      simp only [generateEmail, assemble, hdialect] at h
      exact Responsive.null_not_mem_document hfont hsources
        (null_not_mem_responsiveBody hfont body) h
  | legacy =>
      simp only [generateEmail, assemble, hdialect] at h
      exact Legacy.null_not_mem_document hfont hsources (null_not_mem_legacyBody body) h

end Letterpress
