/-
# Conditional regions of a document

The main statement, `assemble_pairs_regions`, says that the scan accepts the document
of the legacy dialect around every body that it accepts, if no marker is in the font
or in an image source, and how many regions it finds. The row of an image has two of
them, around the image; the one before it shows the same source as the image does.

A marker that is not in a source is not in the escaped source either, as no reference
that an escape writes has a character that begins one.
-/

import Letterpress.Email.Document
import Letterpress.Proofs.Email.Markers
import Letterpress.Proofs.Markup.Spelling

namespace Letterpress

namespace Conditional

/-! ## Regions of texts side by side -/

/-- The region in a text that goes on with `u`. -/
def Region.ahead (u : Text) (r : Region) : Region := { r with after := r.after ++ u }

theorem Region.ahead_after (u : Text) (r : Region) : (r.ahead u).after = r.after ++ u := rfl

theorem Region.ahead_ahead (u v : Text) (r : Region) :
    (r.ahead u).ahead v = r.ahead (u ++ v) := by
  simp [Region.ahead]

variable {t u content : Text} {c : Char} {rs : List Region}

theorem regions?_eq (t : Text) : regions? t =
    match firstRegion t with
    | .nothing => some []
    | .unpaired => none
    | .region r => (regions? r.after).map (r :: ·) := by
  rw [regions?]
  split <;> simp_all

theorem regions?_of_nothing (hfirst : firstRegion t = .nothing) : regions? t = some [] := by
  rw [regions?_eq, hfirst]

theorem regions?_of_region {r : Region} (hfirst : firstRegion t = .region r) :
    regions? t = (regions? r.after).map (r :: ·) := by
  rw [regions?_eq, hfirst]

/-- Whatever follows the text, a scan finds these regions in it and none is open at its end. -/
def HasRegions (t : Text) (rs : List Region) : Prop :=
  ∀ u, regions? (t ++ u) = (regions? u).map (rs.map (Region.ahead u) ++ ·)

theorem HasRegions.append {ts us : List Region} (ht : HasRegions t ts) (hu : HasRegions u us) :
    HasRegions (t ++ u) (ts.map (Region.ahead u) ++ us) := by
  intro v
  rw [List.append_assoc, ht, hu, Option.map_map, List.map_append, List.map_map]
  congr 1
  funext vs
  simp [Region.ahead_ahead]

/-- The regions of a text that nothing follows. -/
theorem HasRegions.regions?_eq (ht : HasRegions t rs) : regions? t = some rs := by
  have hnil := ht []
  have hahead : Region.ahead [] = id := by
    funext r
    simp [Region.ahead]
  have hnone : regions? [] = some [] := regions?_of_nothing rfl
  simpa [hnone, hahead] using hnil

theorem hasRegions_of_isClean (hclean : isClean t = true) : HasRegions t [] := by
  intro u
  have hfirst : firstRegion (t ++ u) = firstRegion u := by
    rw [firstRegion, firstRegion, next?_append_of_isClean hclean]
    rcases next? u with _ | ⟨before, _ | _, after⟩ <;> rfl
  rw [Conditional.regions?_eq, hfirst, ← Conditional.regions?_eq]
  simp

theorem HasRegions.append_of_isClean (ht : HasRegions t rs) (hclean : isClean u = true) :
    HasRegions (t ++ u) (rs.map (Region.ahead u)) := by
  simpa using ht.append (hasRegions_of_isClean hclean)

/-- An opener, content without markers and a closer make a region. -/
theorem hasRegions_between (hnone : next? content = none) :
    HasRegions (Marker.opens.text ++ content ++ Marker.closes.text) [⟨content, []⟩] := by
  intro u
  have hopens := next?_append_text (t := []) rfl .opens (content ++ (Marker.closes.text ++ u))
  have hcloses := next?_append_text hnone .closes u
  have hfirst : firstRegion (Marker.opens.text ++ (content ++ (Marker.closes.text ++ u))) =
      .region ⟨content, u⟩ := by
    rw [firstRegion, ← List.nil_append (Marker.opens.text ++ _), hopens]
    simp only [hcloses]
  rw [List.append_assoc, List.append_assoc, regions?_of_region hfirst]
  rfl

theorem next?_eq_none_of_firstRegion (hfirst : firstRegion t = .nothing) : next? t = none := by
  rw [firstRegion] at hfirst
  split at hfirst
  · assumption
  · cases hfirst
  · split at hfirst <;> cases hfirst

/-- A text that the scan accepts keeps its regions up to a character that is in no marker. -/
theorem hasRegions_append_of_startsOutside {us : List Region} (hregions : regions? t = some rs)
    (hstarts : startsOutside u = true) (hu : HasRegions u us) :
    HasRegions (t ++ u) (rs.map (Region.ahead u) ++ us) := by
  obtain ⟨c, u, hinner, -, rfl⟩ := exists_cons_of_startsOutside hstarts
  intro v
  induction t using regions?.induct generalizing rs with
  | case1 t hfirst =>
      rw [regions?_of_nothing hfirst] at hregions
      cases hregions
      have hskip : firstRegion (t ++ c :: u ++ v) = firstRegion (c :: u ++ v) := by
        have hnone : next? t = none := next?_eq_none_of_firstRegion hfirst
        rw [List.append_assoc, List.cons_append, firstRegion, firstRegion, next?_append hinner,
          hnone, Option.map_none, Option.none_or]
        rcases next? (c :: (u ++ v)) with _ | ⟨before, _ | _, after⟩ <;> rfl
      rw [regions?_eq, hskip, ← regions?_eq]
      exact hu v
  | case2 t hfirst =>
      rw [regions?_eq, hfirst] at hregions
      cases hregions
  | case3 t r hfirst ih =>
      rw [regions?_of_region hfirst] at hregions
      obtain ⟨rest, hrest, rfl⟩ := Option.map_eq_some_iff.mp hregions
      have hsame : firstRegion (t ++ c :: u ++ v) = .region (r.ahead (c :: u ++ v)) := by
        obtain ⟨before, inside, hopens, hcloses⟩ := firstRegion_eq_region hfirst
        rw [List.append_assoc, List.cons_append, firstRegion, next?_append hinner, hopens]
        simp only [Option.map_some, Option.some_or, Stop.ahead, next?_append hinner inside,
          hcloses]
        rfl
      have hafter := ih hrest
      rw [List.append_assoc] at hafter
      rw [regions?_of_region hsame, Region.ahead_after, hafter, Option.map_map]
      simp only [List.map_cons, List.cons_append, Region.ahead_ahead]
      rfl

/-! ## Regions as they are written -/

/-- What an opener says between the start of a marker and the content. -/
def condition : Conditional → Text
  | .engine => " mso]>"
  | .shapes => " gte mso 9]>"
  | .others => " !mso]><!-->"

/-- What a closer says between the content and a marker. -/
def remark : Conditional → Text
  | .engine | .shapes => []
  | .others => "<!--"

/-- What a region has between its markers. -/
def inside (kind : Conditional) (content : Text) : Text :=
  kind.condition ++ content ++ kind.remark

theorem region_eq (kind : Conditional) (content : Text) :
    kind.region content = Marker.opens.text ++ kind.inside content ++ Marker.closes.text := by
  have hopener : kind.opener = Marker.opens.text ++ kind.condition := by cases kind <;> rfl
  have hcloser : kind.closer = kind.remark ++ Marker.closes.text := by cases kind <;> rfl
  simp only [region, inside, hopener, hcloser, List.append_assoc]

theorem hasRegions_region (kind : Conditional) (hclean : isClean content = true) :
    HasRegions (kind.region content) [⟨kind.inside content, []⟩] := by
  rw [region_eq]
  apply hasRegions_between
  have hcondition : isClean (kind.condition ++ content) = true :=
    isClean_append (by cases kind <;> decide) hclean
  rw [inside, next?_append_of_isClean hcondition]
  cases kind <;> rfl

/-! ## Escaped sources -/

/-- Escaping creates no marker. -/
theorem next?_escapeAttribute (hnone : next? t = none) : next? (escapeAttribute t) = none := by
  induction t with
  | nil => rfl
  | cons c t ih =>
      obtain ⟨hnot, hrest⟩ := next?_cons_eq_none_iff.mp hnone
      rcases escapeAttribute_cons_cases c t with ⟨name, hname, heq⟩ | heq
      · have hopen : ∀ name ∈ escapes, '<' ∉ name := by decide
        have hclean : isClean ('&' :: name) = true := isClean_of_not_mem (by simp [hopen name hname])
        rw [heq, next?_append_of_isClean hclean, ih hrest, Option.map_none]
      · rw [heq]
        refine next?_cons_eq_none_iff.mpr ⟨fun m hstart => ?_, ih hrest⟩
        rw [← heq] at hstart
        exact hnot m (prefix_of_prefix_escapeAttribute (by cases m <;> decide) hstart)

theorem isClean_decimal (n : Nat) : isClean (Text.decimal n) = true := by
  apply isClean_of_not_mem
  intro hmem
  have hdigit : '<'.isDigit = true := Nat.isDigit_of_mem_toDigits (by decide) (by decide) hmem
  cases hdigit

variable {lead tail : Text}

theorem isClean_around (hlead : isClean lead = true) (hnone : next? t = none)
    (hstarts : startsOutside tail = true) (htail : isClean tail = true) :
    isClean (lead ++ t ++ tail) = true := by
  rw [List.append_assoc]
  exact isClean_append hlead (isClean_append_of_startsOutside hnone hstarts htail)

/-- The regions of a text that the scan accepts are those of the text with a template around
it. -/
theorem hasRegions_around (hlead : isClean lead = true) (hregions : regions? t = some rs)
    (hstarts : startsOutside tail = true) (htail : isClean tail = true) :
    HasRegions (lead ++ t ++ tail) (rs.map (Region.ahead tail)) := by
  have hall := hasRegions_append_of_startsOutside hregions hstarts (hasRegions_of_isClean htail)
  rw [List.append_assoc]
  simpa using (hasRegions_of_isClean hlead).append hall

end Conditional

namespace Legacy

open Conditional

variable {font width source body : Text}

/-! ## The template -/

-- Checks of texts go as deep as the texts are long.
set_option maxRecDepth 10000

theorem isClean_engineSettings : isClean engineSettings = true := by
  delta engineSettings
  repeat rw [String.toList_ofList]
  decide

theorem isClean_engineStyleSheet (hfont : next? font = none) :
    isClean (engineStyleSheet font) = true := by
  delta engineStyleSheet
  refine isClean_append (isClean_append (isClean_around ?_ hfont ?_ ?_) ?_) ?_
  all_goals
    repeat rw [String.toList_ofList]
    decide

theorem isClean_othersStyleSheet (hwidth : isClean width = true) :
    isClean (othersStyleSheet width) = true := by
  delta othersStyleSheet
  refine isClean_append (isClean_append (isClean_append ?_ hwidth) ?_) ?_
  all_goals
    repeat rw [String.toList_ofList]
    decide

theorem hasRegions_head (hfont : next? font = none) (hwidth : isClean width = true) :
    ∃ rs, rs.length = 3 ∧ HasRegions (head font width) rs := by
  have hsettings := hasRegions_region .shapes isClean_engineSettings
  have hengine := hasRegions_region .engine (isClean_engineStyleSheet hfont)
  have hothers := hasRegions_region .others (isClean_othersStyleSheet hwidth)
  delta head
  refine ⟨_, ?_, ((((((hasRegions_of_isClean ?_).append hsettings).append_of_isClean
    ?_).append hengine).append_of_isClean ?_).append hothers).append_of_isClean ?_⟩
  · simp
  all_goals
    repeat rw [String.toList_ofList]
    decide

theorem hasRegions_opening (hwidth : isClean width = true) :
    ∃ rs, rs.length = 1 ∧ HasRegions (opening width) rs := by
  delta opening
  refine ⟨_, ?_, ((((((hasRegions_of_isClean ?_).append (hasRegions_region .engine
    (isClean_append (isClean_append (isClean_append ?_ hwidth) ?_) ?_))).append_of_isClean
      ?_).append_of_isClean ?_).append_of_isClean ?_).append_of_isClean hwidth).append_of_isClean
        ?_⟩
  · simp
  all_goals
    repeat rw [String.toList_ofList]
    decide

theorem hasRegions_closing : ∃ rs, rs.length = 1 ∧ HasRegions closing rs := by
  delta closing
  refine ⟨_, ?_, ((hasRegions_of_isClean ?_).append (hasRegions_region .engine
    ?_)).append_of_isClean ?_⟩
  · simp
  all_goals
    repeat rw [String.toList_ofList]
    decide

/-- The row of the body has the regions of the body. -/
theorem hasRegions_bodyRow {inBody : List Region} (hfont : next? font = none)
    (hbody : regions? body = some inBody) :
    ∃ rs, rs.length = inBody.length ∧ HasRegions (bodyRow font body) rs := by
  delta bodyRow
  refine ⟨_, ?_, hasRegions_around (isClean_append (isClean_append (isClean_append
    (isClean_append (isClean_around ?_ (next?_escapeAttribute hfont) ?_ ?_) ?_) ?_) ?_) ?_)
    hbody ?_ ?_⟩
  · simp
  all_goals
    repeat rw [String.toList_ofList]
    decide

/-! ## Rows of images -/

/-- A rectangle filled with the image, which the engine sees in front of it. -/
def filling (source width : Text) : Text :=
  "<v:rect xmlns:v=\"urn:schemas-microsoft-com:vml\" fill=\"true\" stroke=\"false\" " ++
  "style=\"width: " ++ width ++ "px;\"><v:fill type=\"frame\" " ++
  ("src=\"" ++ escapeAttribute source ++ "\"") ++
  " /><v:textbox inset=\"0,0,0,0\" style=\"mso-fit-shape-to-text: true;\">"

/-- The row of an image up to the rectangle. -/
def imageLead (slot : Slot) : Text :=
  "\n                <!-- " ++ slot.alternative ++ " Image -->\n                <tr>\n" ++
  "                    <td style=\"margin: 0; padding: 0;\">\n                        "

/-- The row of an image behind the image's source. -/
def imageTrail (slot : Slot) (width : Text) : Text :=
  " width=\"" ++ width ++ "\" alt=\"" ++ slot.alternative ++
  "\" border=\"0\"\n                            style=\"display: block; width: 100%; " ++
  "max-width: " ++ width ++
  "px; height: auto; border: 0; outline: none; text-decoration: none;\" />" ++
  Conditional.shapes.region "</v:textbox></v:rect>" ++
  "\n                    </td>\n                </tr>"

theorem image_eq (slot : Slot) (source width : Text) : image slot source width =
    imageLead slot ++ Conditional.shapes.region (filling source width) ++
      ("<img src=\"" ++ escapeAttribute source ++ "\"" ++ imageTrail slot width) := by
  have hsrc : ("px;\"><v:fill type=\"frame\" src=\"" : Text) =
      "px;\"><v:fill type=\"frame\" " ++ "src=\"" := by
    repeat rw [String.toList_ofList]
    rfl
  have hquote :
      ("\" /><v:textbox inset=\"0,0,0,0\" style=\"mso-fit-shape-to-text: true;\">" : Text) =
        "\"" ++ " /><v:textbox inset=\"0,0,0,0\" style=\"mso-fit-shape-to-text: true;\">" := by
    repeat rw [String.toList_ofList]
    rfl
  have hwidth : ("\" width=\"" : Text) = "\"" ++ " width=\"" := rfl
  delta image imageLead filling imageTrail
  simp only [hsrc, hquote, hwidth, List.append_assoc]

theorem hasRegions_imageTrail (slot : Slot) (hwidth : isClean width = true) :
    ∃ r, HasRegions (imageTrail slot width) [r] := by
  have hslot : isClean slot.alternative = true := by cases slot <;> decide
  delta imageTrail
  refine ⟨_, ((((hasRegions_of_isClean (isClean_append (isClean_append (isClean_append
    (isClean_append (isClean_append (isClean_append ?_ hwidth) ?_) hslot) ?_) ?_)
      hwidth)).append_of_isClean ?_).append (hasRegions_region .shapes ?_)).append_of_isClean ?_)⟩
  all_goals
    repeat rw [String.toList_ofList]
    decide

/-- The rectangle shows the source. -/
theorem infix_filling (source width : Text) :
    ("src=\"" ++ escapeAttribute source ++ "\"" : Text) <:+: filling source width :=
  ⟨_, _, rfl⟩

theorem isClean_imageLead (slot : Slot) : isClean (imageLead slot) = true := by
  have hslot : isClean slot.alternative = true := by cases slot <;> decide
  delta imageLead
  refine isClean_append (isClean_append (isClean_append ?_ hslot) ?_) ?_
  all_goals
    repeat rw [String.toList_ofList]
    decide

theorem isClean_filling (hsource : next? source = none) (hwidth : isClean width = true) :
    isClean (filling source width) = true := by
  delta filling
  refine isClean_append (isClean_append (isClean_append (isClean_append (isClean_append ?_ ?_)
    hwidth) ?_) (isClean_around ?_ (next?_escapeAttribute hsource) ?_ ?_)) ?_
  all_goals
    repeat rw [String.toList_ofList]
    decide

/-- The row of an image has two regions. The first one stands right before the image. -/
theorem hasRegions_image (slot : Slot) (hsource : next? source = none)
    (hwidth : isClean width = true) :
    ∃ r, HasRegions (image slot source width)
      [⟨Conditional.shapes.inside (filling source width),
        "<img src=\"" ++ escapeAttribute source ++ "\"" ++ imageTrail slot width⟩, r] := by
  obtain ⟨r, htrail⟩ := hasRegions_imageTrail slot hwidth
  have hregions : regions? ("<img src=\"" ++ escapeAttribute source) = some [] := by
    have hlead : isClean ("<img src=\"" : Text) = true := by decide
    have hnone : next? ("<img src=\"" ++ escapeAttribute source) = none := by
      rw [next?_append_of_isClean hlead, next?_escapeAttribute hsource, Option.map_none]
    apply regions?_of_nothing
    rw [firstRegion, hnone]
  have hquote : HasRegions ("\"" ++ imageTrail slot width) [r] :=
    (hasRegions_of_isClean (by decide)).append htrail
  have himg := hasRegions_append_of_startsOutside hregions (by rfl) hquote
  refine ⟨r, ?_⟩
  rw [image_eq, List.append_assoc ("<img src=\"" ++ escapeAttribute source : Text)]
  exact ((hasRegions_of_isClean (isClean_imageLead slot)).append
    (hasRegions_region .shapes (isClean_filling hsource hwidth))).append himg

/-- The row of an image, if there is one, has two regions, and none otherwise. -/
theorem hasRegions_imageOf {c : Config} (slot : Slot)
    (hsource : ∀ source ∈ slot.source? c, next? source = none) (hwidth : isClean width = true) :
    ∃ rs, rs.length = (if (slot.source? c).isSome then 2 else 0) ∧
      HasRegions (imageOf c slot width) rs := by
  cases hslot : slot.source? c with
  | none =>
      have hregions : HasRegions (imageOf c slot width) [] := by
        rw [imageOf, hslot]
        exact hasRegions_of_isClean rfl
      exact ⟨[], rfl, hregions⟩
  | some source =>
      obtain ⟨r, hregions⟩ := hasRegions_image slot (hsource source hslot) hwidth
      have himage : imageOf c slot width = image slot source width := by
        rw [imageOf, hslot]
        rfl
      refine ⟨_, ?_, himage ▸ hregions⟩
      rfl

end Legacy

/-! ## The document -/

section Document

open Conditional Legacy

/-- The document up to the row of an image. -/
def Legacy.beforeImage (c : Config) (body : Text) (slot : Slot) : Text :=
  let width := Text.decimal c.maxWidth.toNat
  match slot with
  | .header => head c.font width ++ opening width
  | .footer =>
    head c.font width ++ opening width ++ imageOf c .header width ++ bodyRow c.font body

/-- The document behind the row of an image. -/
def Legacy.afterImage (c : Config) (body : Text) (slot : Slot) : Text :=
  let width := Text.decimal c.maxWidth.toNat
  match slot with
  | .header => bodyRow c.font body ++ imageOf c .footer width ++ closing
  | .footer => closing

theorem Legacy.document_eq (c : Config) (body : Text) (slot : Slot) :
    document c body = beforeImage c body slot ++ imageOf c slot (Text.decimal c.maxWidth.toNat) ++
      afterImage c body slot := by
  cases slot
  · simp only [document, beforeImage, afterImage, List.append_assoc]
  · rfl

/-- A region in the middle of a text is one of the text. -/
theorem ahead_mem {lead t tail : Text} {ls ts us rs : List Region} {r : Region}
    (hlead : HasRegions lead ls) (ht : HasRegions t ts) (htail : HasRegions tail us)
    (hregions : regions? (lead ++ t ++ tail) = some rs) (hmem : r ∈ ts) : r.ahead tail ∈ rs := by
  rw [((hlead.append ht).append htail).regions?_eq] at hregions
  cases hregions
  simp only [List.mem_append, List.mem_map]
  exact .inl ⟨r, .inr hmem, rfl⟩

/-- The scan accepts every legacy document without markers in its font and its sources around
every body that it accepts. Besides the regions of the body there are five of the template and
two for each image. The first of these two ends right before the image and shows the same
source. -/
theorem assemble_pairs_regions {c : Config} {body : Text} {inBody : List Region}
    (hlegacy : c.dialect = .legacy) (hfont : Marker.IsMissing c.font)
    (hsources : ∀ slot : Slot, ∀ source ∈ slot.source? c, Marker.IsMissing source)
    (hbody : regions? body = some inBody) :
    ∃ rs, regions? (assemble c body) = some rs ∧
      rs.length = inBody.length + 5 + (if c.header?.isSome then 2 else 0) +
        (if c.footer?.isSome then 2 else 0) ∧
      ∀ slot : Slot, ∀ source ∈ slot.source? c, ∃ lead content trail,
        assemble c body = beforeImage c body slot ++
          image slot source (Text.decimal c.maxWidth.toNat) ++ afterImage c body slot ∧
        image slot source (Text.decimal c.maxWidth.toNat) =
          lead ++ (Marker.opens.text ++ content ++ Marker.closes.text) ++
            ("<img src=\"" ++ escapeAttribute source ++ "\"" ++ trail) ∧
        ("src=\"" ++ escapeAttribute source ++ "\"" : Text) <:+: content ∧
        ⟨content, "<img src=\"" ++ escapeAttribute source ++ "\"" ++ trail ++
          afterImage c body slot⟩ ∈ rs := by
  have hwidth := isClean_decimal c.maxWidth.toNat
  have hfont := next?_eq_none hfont
  have hnone (slot : Slot) : ∀ source ∈ slot.source? c, next? source = none :=
    fun source hsource => next?_eq_none (hsources slot source hsource)
  obtain ⟨hs, hlengthHead, hhead⟩ := hasRegions_head hfont hwidth
  obtain ⟨os, hlengthOpening, hopening⟩ := hasRegions_opening hwidth
  obtain ⟨is, hlengthHeader, hheader⟩ := hasRegions_imageOf .header (hnone .header) hwidth
  obtain ⟨bs, hlengthRow, hrow⟩ := hasRegions_bodyRow hfont hbody
  obtain ⟨fs, hlengthFooter, hfooter⟩ := hasRegions_imageOf .footer (hnone .footer) hwidth
  obtain ⟨cs, hlengthClosing, hclosing⟩ := hasRegions_closing
  have hall : regions? (document c body) = some _ := (((((hhead.append hopening).append
    hheader).append hrow).append hfooter).append hclosing).regions?_eq
  have hassemble : assemble c body = document c body := by rw [assemble, hlegacy]
  rw [hassemble]
  refine ⟨_, hall, ?_, ?_⟩
  · have hlengthHeader : is.length = if c.header?.isSome then 2 else 0 := hlengthHeader
    have hlengthFooter : fs.length = if c.footer?.isSome then 2 else 0 := hlengthFooter
    simp only [List.length_append, List.length_map]
    omega
  · intro slot source hsource
    have hbefore : ∃ ls, HasRegions (beforeImage c body slot) ls := by
      cases slot
      · exact ⟨_, hhead.append hopening⟩
      · exact ⟨_, ((hhead.append hopening).append hheader).append hrow⟩
    have hafter : ∃ us, HasRegions (afterImage c body slot) us := by
      cases slot
      · exact ⟨_, (hrow.append hfooter).append hclosing⟩
      · exact ⟨_, hclosing⟩
    obtain ⟨ls, hbefore⟩ := hbefore
    obtain ⟨us, hafter⟩ := hafter
    obtain ⟨r, himage⟩ := hasRegions_image slot (hnone slot source hsource) hwidth
    have hdocument : document c body = beforeImage c body slot ++
        image slot source (Text.decimal c.maxWidth.toNat) ++ afterImage c body slot := by
      have himageOf : imageOf c slot (Text.decimal c.maxWidth.toNat) =
          image slot source (Text.decimal c.maxWidth.toNat) := by
        rw [imageOf, show slot.source? c = some source from hsource]
        rfl
      rw [document_eq c body slot, himageOf]
    have hmem := ahead_mem hbefore himage hafter (hdocument ▸ hall) List.mem_cons_self
    refine ⟨imageLead slot, _, imageTrail slot _, hdocument, ?_, ?_, hmem⟩
    · rw [image_eq, region_eq]
    · exact (infix_filling source _).trans ⟨Conditional.shapes.condition, _, rfl⟩

/-- A configuration with both images, one of them with a character that is escaped. -/
def pictured : Config :=
  { Config.default with
    dialect := .legacy, headerImage := some "a.png?w=1&h=2", footerImage := some "b.png" }

theorem assemble_pairs_regions_pictured :
    ∃ rs, regions? (assemble pictured "<!--[if mso]>x<![endif]-->") = some rs ∧
      rs.length = 10 ∧
      ∃ content trail,
        ("src=\"" ++ escapeAttribute "a.png?w=1&h=2" ++ "\"" : Text) <:+: content ∧
        (⟨content, "<img src=\"" ++ escapeAttribute "a.png?w=1&h=2" ++ "\"" ++ trail⟩ :
          Region) ∈ rs := by
  have hsources : ∀ slot : Slot, ∀ source ∈ slot.source? pictured, Marker.IsMissing source := by
    rintro (_ | _) source ⟨⟩ <;> decide
  have hbody : regions? ("<!--[if mso]>x<![endif]-->" : Text) = some [⟨" mso]>x", []⟩] := by
    rw [regions?_of_region (r := ⟨" mso]>x", []⟩) rfl, regions?_of_nothing rfl]
    rfl
  obtain ⟨rs, hrs, hlength, himages⟩ :=
    assemble_pairs_regions rfl (by decide) hsources hbody
  obtain ⟨-, content, trail, -, -, hsource, hmem⟩ := himages .header "a.png?w=1&h=2" rfl
  exact ⟨rs, hrs, hlength, content, _, hsource, List.append_assoc .. ▸ hmem⟩

end Document

end Letterpress
