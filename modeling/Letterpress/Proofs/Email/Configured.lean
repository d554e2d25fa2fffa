/-
# Configurations as data

The font stack and the image sources of a configuration are data: with any others the
document is read as tokens with the same outline (`outline_tokens_assemble`). Sources
are escaped, and so is the font stack in a style attribute; in a style sheet or a
comment they stand as they are, so there they must not end what they stand in
(`Config.IsContained`). The image below the content comes after the body, which may have
left anything open.

Both dialects are laid out alike: up to the text of a style sheet, the style sheet, on
to the body, the body, the image below it and the end (`Layout`).
-/

import Letterpress.Proofs.Email.Regions
import Letterpress.Proofs.Markup.Templates

namespace Letterpress

open Lexer Reader

/-- A text ends with what ends its last part. -/
theorem getLast?_append_ne {t u : Text} {c : Char} (hlast : u.getLast?.any (· != c) = true) :
    (t ++ u).getLast? ≠ some c := by
  cases hu : u.getLast? with
  | none =>
      rw [hu] at hlast
      cases hlast
  | some d =>
      rw [hu] at hlast
      have hne : d ≠ c := by simpa using hlast
      rw [List.getLast?_append, hu]
      exact fun heq => hne (Option.some.inj heq)

/-! ## Layouts -/

/-- The text of a document, line ends normalized, in parts. -/
structure Layout where
  /-- Up to the text of the style sheet. -/
  front : Text
  sheet : Text
  /-- From the end of the style sheet to the body. -/
  opening : Text
  /-- The body with the tags that end its block. -/
  body : Text
  /-- The block of the image below the content. -/
  footer : Text
  closing : Text

namespace Layout

/-- The text in front of the image below the content. -/
def beforeFooter (l : Layout) : Text := l.front ++ (l.sheet ++ "</style>") ++ l.opening ++ l.body

/-- The whole text. -/
def text (l : Layout) : Text := l.beforeFooter ++ l.footer ++ l.closing

/-- Layouts that differ in data only. -/
structure Resembles (l m : Layout) : Prop where
  front : Keeps (start .document) (start .document) l.front m.front false
  leavesInStyle : (start .document).LeavesInStyle l.front
  sheet : PassesInStyle l.sheet ∧ l.sheet.head?.any (· != '\uFEFF') = true
  sheet' : PassesInStyle m.sheet ∧ m.sheet.head?.any (· != '\uFEFF') = true
  opening : Matches l.opening m.opening
  body_eq : l.body = m.body
  footer : Matches l.footer m.footer
  closing_eq : l.closing = m.closing

variable {l m : Layout}

/-- Readers stay alike up to the body, and it begins between two tags. -/
theorem Resembles.keeps_opening (h : l.Resembles m) :
    ((start .document).feedAll (l.front ++ (l.sheet ++ "</style>") ++ l.opening)).lexer =
        .text .data ∧
      Keeps (start .document) (start .document) (l.front ++ (l.sheet ++ "</style>") ++ l.opening)
        (m.front ++ (m.sheet ++ "</style>") ++ m.opening) false := by
  obtain ⟨hsheet, hhead⟩ := h.sheet
  obtain ⟨hsheet', hhead'⟩ := h.sheet'
  obtain ⟨hdata, hstyled⟩ := h.front.append_of_style h.leavesInStyle hsheet hsheet' hhead hhead'
  exact hstyled.append_of_matches hdata h.opening

/-- A body that is read from between two tags to between two tags is closed in front of the image
below it. -/
theorem Resembles.lexer_beforeFooter {ts : List Token} (h : l.Resembles m)
    (hpasses : Passes (.text .data) l.body ts (.text .data))
    (hhead : l.body.head?.any (· != '\uFEFF') = true) :
    ((start .document).feedAll l.beforeFooter).lexer = .text .data := by
  rw [beforeFooter, feedAll_append, (feedAll_of_passes h.keeps_opening.1 hpasses hhead).1]

/-- Readers stay alike over layouts that differ in data only, if the body is closed in front of
images below it that differ. -/
theorem Resembles.keeps (h : l.Resembles m) (hfooter : l.footer = m.footer ∨
      ((start .document).feedAll l.beforeFooter).lexer = .text .data) :
    Keeps (start .document) (start .document) l.text m.text false := by
  have hbefore : Keeps (start .document) (start .document) l.beforeFooter m.beforeFooter false := by
    have hbody := h.keeps_opening.2.append_same l.body
    rw [beforeFooter, beforeFooter, ← h.body_eq]
    exact hbody
  have hfooters : Keeps (start .document) (start .document) (l.beforeFooter ++ l.footer)
      (m.beforeFooter ++ m.footer) false := by
    rcases hfooter with hsame | hclosed
    · rw [← hsame]
      exact hbefore.append_same l.footer
    · exact (hbefore.append_of_matches hclosed h.footer).2
  have hclosing := hfooters.append_same l.closing
  rw [text, text, ← h.closing_eq]
  exact hclosing

end Layout

/-! ## Data of a configuration -/

namespace Config

/-- Configurations for the same kind of document with the same images, whatever their sources. -/
structure Agrees (c d : Config) : Prop where
  dialect_eq : c.dialect = d.dialect
  maxWidth_eq : c.maxWidth = d.maxWidth
  isSome_eq : ∀ slot : Slot, (slot.source? c).isSome = (slot.source? d).isSome

/-- The width of the content as a document has it. -/
def shownWidth (c : Config) : Text := Text.decimal c.maxWidth.toNat

theorem all_isDigit_shownWidth (c : Config) : c.shownWidth.all Char.isDigit = true :=
  List.all_eq_true.mpr fun _ hmem => Nat.isDigit_of_mem_toDigits (by decide) (by decide) hmem

theorem all_isDigit_normalizeNewlines_shownWidth (c : Config) :
    (normalizeNewlines c.shownWidth).all Char.isDigit = true := by
  rw [normalizeNewlines_eq_self (Template.not_mem_number c.all_isDigit_shownWidth rfl)]
  exact c.all_isDigit_shownWidth

/-- What the block of an image has in its places, if there is one: what `places` makes of the source
and the width. -/
def imageData (c : Config) (slot : Slot) (places : Text → Text → List Text) :
    Option (List Text) :=
  (slot.source? c).map fun source => places source c.shownWidth

variable {c d : Config} {parts : Template}

theorem Agrees.matches_image (hagrees : c.Agrees d) (slot : Slot)
    (places : Text → Text → List Text)
    (houtline : parts.outline?.isSome = true)
    (hc : ∀ source ∈ slot.source? c, parts.Admits (¬EndsComment ·)
      ((places source c.shownWidth).map normalizeNewlines))
    (hd : ∀ source ∈ slot.source? d, parts.Admits (¬EndsComment ·)
      ((places source d.shownWidth).map normalizeNewlines)) :
    Matches (parts.fillIf ((c.imageData slot places).map (List.map normalizeNewlines)))
      (parts.fillIf ((d.imageData slot places).map (List.map normalizeNewlines))) := by
  rw [imageData, imageData, Option.map_map, Option.map_map]
  exact Template.matches_fillIf houtline (hagrees.isSome_eq slot) hc hd

theorem Agrees.imageData_footer (hagrees : c.Agrees d) (hfooter : c.footer? = d.footer?)
    (places : Text → Text → List Text) :
    c.imageData .footer places = d.imageData .footer places := by
  rw [imageData, imageData, shownWidth, shownWidth, hagrees.maxWidth_eq]
  exact congrArg (Option.map _) hfooter

end Config

/-! ## The responsive document -/

namespace Responsive

/-- The document up to the text of the style sheet. -/
def front : Text :=
  "<!DOCTYPE html>\n<html lang=\"en\">\n<head>\n    <meta charset=\"UTF-8\">\n" ++
  "    <meta name=\"viewport\" content=\"width=device-width, initial-scale=1.0\">\n" ++
  "    <title>Email</title>\n    <style>"

/-- The style sheet, with places for the width and the font stack. -/
def sheetTemplate : Template :=
  [.fixed ("\n        body \x7b margin: 0; padding: 0; background-color: #ffffff; \x7d\n" ++
     "        .email-container \x7b max-width: "),
   .number,
   .fixed ("px; margin: 0 auto; background-color: #ffffff; \x7d\n" ++
     "        .email-header img, .email-footer img \x7b display: block; width: 100%; max-width: "),
   .number,
   .fixed ("px; height: auto; \x7d\n" ++ "        .email-content \x7b font-family: "),
   .raw ("; font-size: " ++ textSize ++ "; line-height: 1.5; color: " ++ textColour ++
     "; \x7d\n" ++ "        .email-content img \x7b max-width: 100%; height: auto; \x7d\n" ++
     "        .email-content a \x7b color: #0066cc; \x7d\n" ++
     "        @media only screen and (max-width: "),
   .number,
   .fixed ("px) \x7b\n" ++
     "            .email-content \x7b padding: 0 12px; \x7d\n        \x7d\n    ")]

/-- The block of an image, with places for the source and the width. -/
def imageTemplate (slot : Slot) : Template :=
  [.fixed ("\n        <div class=\"" ++ slot.className ++ "\">\n            <img src=\""),
   .value,
   .fixed "\" width=\"",
   .number,
   .fixed ("\" alt=\"" ++ slot.alternative ++
     "\"\n                style=\"display: block; width: 100%; max-width: "),
   .number,
   .fixed "px; height: auto;\" />\n        </div>"]

/-- The start of the body behind the style sheet. -/
def bodyOpening : Text := "\n</head>\n<body>\n    <div class=\"email-container\">"

/-- The tags in front of the rows, with a place for the width. -/
def tableTemplate : Template :=
  [.fixed ("\n        <div class=\"email-content\">\n            <table role=\"presentation\" " ++
     "width=\"100%\" cellpadding=\"0\" cellspacing=\"0\" border=\"0\"\n" ++
     "                style=\"max-width: "),
   .number,
   .fixed "px;\">"]

theorem styleSheet_eq (font width : Text) :
    styleSheet font width = sheetTemplate.fill [width, width, font, width] := by
  delta styleSheet sheetTemplate
  simp only [Template.fill, List.headD_cons, List.tail_cons, List.append_assoc, List.append_nil]

/-- The tags that end the block of the rows. -/
def tableEnd : Text := "\n            </table>\n        </div>"

/-- The end of the document. -/
def closing : Text := "\n    </div>\n</body>\n</html>"

/-- The document up to the block of the image below the content. -/
def beforeFooter (c : Config) (body : Text) : Text :=
  front ++ styleSheet c.font c.shownWidth ++ "</style>" ++ bodyOpening ++
    imageOf c .header c.shownWidth ++ tableTemplate.fill [c.shownWidth] ++ (body ++ tableEnd)

theorem document_eq (c : Config) (body : Text) :
    document c body = beforeFooter c body ++ imageOf c .footer c.shownWidth ++ closing := by
  have hstyle : ("</style>\n</head>\n<body>\n    <div class=\"email-container\">" : Text) =
      "</style>" ++ "\n</head>\n<body>\n    <div class=\"email-container\">" := by
    repeat rw [String.toList_ofList]
    rfl
  have hend : ("\n    </div>\n</body>\n</html>" : Text) = closing := rfl
  delta document beforeFooter front bodyOpening tableTemplate tableEnd Config.shownWidth
  simp only [hstyle, Template.fill, List.headD_cons, List.append_assoc,
    List.append_nil]
  rfl

/-- What stands in the places of the block of an image. -/
def imagePlaces (source width : Text) : List Text := [source, width, width]

theorem imageOf_eq (c : Config) (slot : Slot) :
    imageOf c slot c.shownWidth = (imageTemplate slot).fillIf (c.imageData slot imagePlaces) := by
  have himage (source : Text) : image slot source c.shownWidth =
      (imageTemplate slot).fill (imagePlaces source c.shownWidth) := by
    delta image imageTemplate imagePlaces
    simp only [Template.fill, List.headD_cons, List.tail_cons, List.append_assoc, List.append_nil]
  rw [imageOf, Template.fillIf, Config.imageData, Option.map_map]
  exact congrArg (Option.getD · []) (Option.map_congr fun source _ => himage source)

/-! ### Checks of the templates -/

section Checks

-- Checks of texts go as deep as the texts are long.
set_option maxRecDepth 20000

theorem entersStyle_front : (start .document).entersStyle front = true := by
  delta front
  repeat rw [String.toList_ofList]
  decide

theorem sheetTemplate_checks : sheetTemplate.beginsFixed = true ∧ sheetTemplate.isStyle = true ∧
    sheetTemplate.keepsLines = true := by
  delta sheetTemplate textSize textColour
  repeat rw [String.toList_ofList]
  decide

theorem imageTemplate_checks (slot : Slot) :
    (imageTemplate slot).outline?.isSome = true ∧ (imageTemplate slot).keepsLines = true := by
  cases slot
  all_goals
    delta imageTemplate Slot.className Slot.alternative
    repeat rw [String.toList_ofList]
    decide

theorem bodyOpening_checks : (Template.outline? [.fixed bodyOpening]).isSome = true := by
  delta bodyOpening
  repeat rw [String.toList_ofList]
  decide

theorem tableTemplate_checks :
    tableTemplate.outline?.isSome = true ∧ tableTemplate.keepsLines = true := by
  delta tableTemplate
  repeat rw [String.toList_ofList]
  decide

theorem return_not_mem_fixed : '\r' ∉ front ∧ '\r' ∉ bodyOpening ∧ '\r' ∉ closing := by
  delta front bodyOpening closing
  repeat rw [String.toList_ofList]
  decide

end Checks

/-! ### The layout -/

/-- The layout of the document. -/
def layout (c : Config) (body : Text) : Layout where
  front := front
  sheet := sheetTemplate.fill
    ([c.shownWidth, c.shownWidth, c.font, c.shownWidth].map normalizeNewlines)
  opening := bodyOpening ++
    (imageTemplate .header).fillIf
        ((c.imageData .header imagePlaces).map (List.map normalizeNewlines)) ++
    tableTemplate.fill ([c.shownWidth].map normalizeNewlines)
  body := normalizeNewlines (body ++ tableEnd)
  footer := (imageTemplate .footer).fillIf
    ((c.imageData .footer imagePlaces).map (List.map normalizeNewlines))
  closing := closing

theorem normalizeNewlines_beforeFooter (c : Config) (body : Text) :
    normalizeNewlines (beforeFooter c body) = (layout c body).beforeFooter := by
  obtain ⟨hfront, hopening, -⟩ := return_not_mem_fixed
  obtain ⟨-, -, hsheet⟩ := sheetTemplate_checks
  obtain ⟨-, himage⟩ := imageTemplate_checks .header
  obtain ⟨-, htable⟩ := tableTemplate_checks
  have hend : '\r' ∉ ("</style>" : Text) := by decide
  simp only [beforeFooter, styleSheet_eq, imageOf_eq, List.append_assoc]
  rw [normalizeNewlines_append_left hfront, Template.normalizeNewlines_fill hsheet,
    normalizeNewlines_append_left hend, normalizeNewlines_append_left hopening,
    Template.normalizeNewlines_fillIf himage, Template.normalizeNewlines_fill htable]
  simp only [Layout.beforeFooter, layout, List.append_assoc]

theorem normalizeNewlines_document (c : Config) (body : Text) :
    normalizeNewlines (document c body) = (layout c body).text := by
  obtain ⟨-, -, hclosing⟩ := return_not_mem_fixed
  obtain ⟨-, himage⟩ := imageTemplate_checks .footer
  have hlast : (beforeFooter c body).getLast? ≠ some '\r' := by
    rw [beforeFooter, ← List.append_assoc]
    exact getLast?_append_ne rfl
  rw [document_eq, List.append_assoc, normalizeNewlines_append (.inl hlast), imageOf_eq,
    Template.normalizeNewlines_fillIf himage, normalizeNewlines_eq_self hclosing,
    normalizeNewlines_beforeFooter, ← List.append_assoc]
  rfl

variable {c d : Config} {body : Text}

theorem resembles_layout (hagrees : c.Agrees d)
    (hc : ¬HoldsEndTag .style (normalizeNewlines c.font))
    (hd : ¬HoldsEndTag .style (normalizeNewlines d.font)) :
    (layout c body).Resembles (layout d body) := by
  have hnumber := Config.all_isDigit_normalizeNewlines_shownWidth
  obtain ⟨hbegins, hstyle, -⟩ := sheetTemplate_checks
  have himages (slot : Slot) := hagrees.matches_image slot imagePlaces
    (imageTemplate_checks slot).1 (fun _ _ => ⟨hnumber c, hnumber c, trivial⟩)
    (fun _ _ => ⟨hnumber d, hnumber d, trivial⟩)
  have htable : Matches (tableTemplate.fill ([c.shownWidth].map normalizeNewlines))
      (tableTemplate.fill ([d.shownWidth].map normalizeNewlines)) := by
    obtain ⟨houtline, -⟩ := tableTemplate_checks
    exact Template.matches_fill houtline rfl ⟨hnumber c, trivial⟩ ⟨hnumber d, trivial⟩
  have hfixed : Matches (Template.fill [.fixed bodyOpening] [])
      (Template.fill [.fixed bodyOpening] []) :=
    Template.matches_fill bodyOpening_checks rfl trivial trivial
  have hopening : Matches bodyOpening bodyOpening := by
    simpa [Template.fill] using hfixed
  have hstyled := leavesInStyle_of_entersStyle entersStyle_front
  refine ⟨(Alike.refl _).keeps front false, hstyled,
    Template.isStyle_fill hbegins hstyle ⟨hnumber c, hnumber c, hc, hnumber c, trivial⟩,
    Template.isStyle_fill hbegins hstyle ⟨hnumber d, hnumber d, hd, hnumber d, trivial⟩,
    (hopening.append (himages .header)).append htable, rfl, himages .footer, rfl⟩

theorem footer_layout (hagrees : c.Agrees d) (hfooter : c.footer? = d.footer?) :
    (layout c body).footer = (layout d body).footer := by
  rw [layout, layout, hagrees.imageData_footer hfooter]

end Responsive

/-! ## The legacy document -/

namespace Legacy

/-- The document up to the remarks for the engine. -/
def front : Text :=
  "<!DOCTYPE html PUBLIC \"-//W3C//DTD XHTML 1.0 Transitional//EN\" " ++
  "\"http://www.w3.org/TR/xhtml1/DTD/xhtml1-transitional.dtd\">\n" ++
  "<html xmlns=\"http://www.w3.org/1999/xhtml\" " ++
  "xmlns:v=\"urn:schemas-microsoft-com:vml\" " ++
  "xmlns:o=\"urn:schemas-microsoft-com:office:office\">\n<head>\n" ++
  "    <meta http-equiv=\"Content-Type\" content=\"text/html; charset=UTF-8\" />\n" ++
  "    <meta name=\"viewport\" content=\"width=device-width, initial-scale=1.0\" />\n" ++
  "    <meta http-equiv=\"X-UA-Compatible\" content=\"IE=edge\" />\n" ++
  "    <meta name=\"x-apple-disable-message-reformatting\" />\n" ++
  "    <title>Email</title>\n    "

/-- The remarks for the engine and the start of the region for the others, with a place for the
font stack. -/
def remarkTemplate : Template :=
  [.fixed (Conditional.shapes.region engineSettings ++ "\n    " ++ Conditional.engine.opener ++
     "\n    <style type=\"text/css\">\n" ++
     "        body, table, td, p, a, li, h1, h2, h3 \x7b font-family: "),
   .raw
     (" !important; \x7d\n        table \x7b border-collapse: collapse; mso-table-lspace: 0pt; " ++
     "mso-table-rspace: 0pt; \x7d\n        img \x7b -ms-interpolation-mode: bicubic; \x7d\n" ++
     "    </style>\n    " ++ Conditional.engine.closer ++ "\n    " ++ Conditional.others.opener)]

/-- The tag in front of the style sheet for the others. -/
def styleTag : Text := "\n    <style type=\"text/css\">"

/-- The style sheet for the others, with a place for the width. -/
def sheetTemplate : Template :=
  [.fixed ("\n        body \x7b margin: 0; padding: 0; " ++
     "-webkit-text-size-adjust: 100%; -ms-text-size-adjust: 100%; \x7d\n" ++
     "        img \x7b border: 0; outline: none; text-decoration: none; max-width: 100%; " ++
     "height: auto; \x7d\n        @media only screen and (max-width: "),
   .number,
   .fixed ("px) \x7b\n            .email-wrapper \x7b width: 100% !important; \x7d\n        \x7d\n" ++
     "    ")]

/-- The end of the head and the tags before the content, with places for the width. -/
def openingTemplate : Template :=
  [.fixed ("\n    " ++ Conditional.others.closer ++ "\n</head>\n" ++
     "<body style=\"margin: 0; padding: 0; background-color: #ffffff;\">\n" ++
     "<table role=\"presentation\" width=\"100%\" cellpadding=\"0\" cellspacing=\"0\" " ++
     "border=\"0\" style=\"background-color: #ffffff;\">\n    <tr>\n" ++
     "        <td align=\"center\" style=\"padding: 0;\">\n            " ++
     Conditional.engine.opener ++
     "\n            <table role=\"presentation\" width=\""),
   .number,
   .fixed ("\" align=\"center\" cellpadding=\"0\" cellspacing=\"0\" border=\"0\">\n" ++
     "            <tr><td>\n            " ++ Conditional.engine.closer ++
     "\n            <table role=\"presentation\" class=\"email-wrapper\" width=\"100%\" " ++
     "cellpadding=\"0\" cellspacing=\"0\" border=\"0\"\n" ++
     "                style=\"max-width: "),
   .number,
   .fixed "px; margin: 0 auto;\">"]

/-- The row of an image, with places for the source and the width. -/
def imageTemplate (slot : Slot) : Template :=
  [.fixed (imageLead slot ++ Conditional.shapes.opener ++
     "<v:rect xmlns:v=\"urn:schemas-microsoft-com:vml\" fill=\"true\" stroke=\"false\" " ++
     "style=\"width: "),
   .number,
   .fixed "px;\"><v:fill type=\"frame\" src=\"",
   .raw ("\" /><v:textbox inset=\"0,0,0,0\" style=\"mso-fit-shape-to-text: true;\">" ++
     Conditional.shapes.closer ++ "<img src=\""),
   .value,
   .fixed "\" width=\"",
   .number,
   .fixed ("\" alt=\"" ++ slot.alternative ++
     "\" border=\"0\"\n                            style=\"display: block; width: 100%; " ++
     "max-width: "),
   .number,
   .fixed ("px; height: auto; border: 0; outline: none; text-decoration: none;\" />" ++
     Conditional.shapes.region "</v:textbox></v:rect>" ++
     "\n                    </td>\n                </tr>")]

/-- The tags in front of the body, with a place for the font stack. -/
def rowTemplate : Template :=
  [.fixed "\n                <tr>\n                    <td style=\"font-family: ",
   .value,
   .fixed ("; font-size: " ++ textSize ++ "; color: " ++ textColour ++
     "; mso-line-height-rule: exactly; line-height: 150%; padding: 10px 0;\">\n")]

/-- The tags that end the row of the body. -/
def rowEnd : Text := "\n                    </td>\n                </tr>"

theorem engineRegion_eq (font : Text) :
    Conditional.shapes.region engineSettings ++ "\n    " ++
      Conditional.engine.region (engineStyleSheet font) ++ "\n    " ++ Conditional.others.opener =
      remarkTemplate.fill [font] := by
  delta engineStyleSheet remarkTemplate
  simp only [Conditional.region, Template.fill, List.headD_cons, List.append_assoc,
    List.append_nil]

theorem othersStyleSheet_eq (width : Text) :
    othersStyleSheet width = styleTag ++ sheetTemplate.fill [width] ++ "</style>" ++ "\n    " := by
  have htag : ("\n    <style type=\"text/css\">\n        body \x7b margin: 0; padding: 0; " : Text) =
      "\n    <style type=\"text/css\">" ++ "\n        body \x7b margin: 0; padding: 0; " := by
    repeat rw [String.toList_ofList]
    rfl
  have hend : ("    </style>\n    " : Text) = "    " ++ ("</style>" ++ "\n    ") := rfl
  delta othersStyleSheet styleTag sheetTemplate
  simp only [htag, hend, Template.fill, List.headD_cons, List.append_assoc, List.append_nil]

theorem bodyRow_eq (font body : Text) :
    bodyRow font body = rowTemplate.fill [font] ++ (body ++ rowEnd) := by
  delta bodyRow rowTemplate rowEnd
  simp only [Template.fill, List.headD_cons, List.append_assoc, List.append_nil]

/-- What stands in the places of the row of an image. -/
def imagePlaces (source width : Text) : List Text :=
  [width, escapeAttribute source, source, width, width]

theorem imageOf_eq (c : Config) (slot : Slot) :
    imageOf c slot c.shownWidth = (imageTemplate slot).fillIf (c.imageData slot imagePlaces) := by
  have himage (source : Text) : image slot source c.shownWidth =
      (imageTemplate slot).fill (imagePlaces source c.shownWidth) := by
    delta image imageTemplate imageLead imagePlaces
    simp only [Conditional.region, Template.fill, List.headD_cons, List.tail_cons,
      List.append_assoc, List.append_nil]
  rw [imageOf, Template.fillIf, Config.imageData, Option.map_map]
  exact congrArg (Option.getD · []) (Option.map_congr fun source _ => himage source)

/-- The rows from the start of the body to the content. -/
theorem opening_eq (c : Config) :
    "\n    " ++ (Conditional.others.closer ++ ("\n</head>\n" ++ opening c.shownWidth)) =
      openingTemplate.fill [c.shownWidth, c.shownWidth] := by
  delta opening openingTemplate
  simp only [Conditional.region, Template.fill, List.headD_cons, List.tail_cons,
    List.append_assoc, List.append_nil]

theorem beforeImage_eq (c : Config) (body : Text) : beforeImage c body .footer =
    front ++ remarkTemplate.fill [c.font] ++ styleTag ++
      (sheetTemplate.fill [c.shownWidth] ++ "</style>") ++
      (openingTemplate.fill [c.shownWidth, c.shownWidth] ++
        (imageTemplate .header).fillIf (c.imageData .header imagePlaces) ++
        rowTemplate.fill [c.font]) ++
      (body ++ rowEnd) := by
  have hregion (content : Text) : Conditional.others.region content =
      Conditional.others.opener ++ (content ++ Conditional.others.closer) :=
    List.append_assoc ..
  rw [← engineRegion_eq, ← opening_eq, ← imageOf_eq, beforeImage, bodyRow_eq]
  delta head front Config.shownWidth
  simp only [hregion, othersStyleSheet_eq, List.append_assoc]

/-! ### Checks of the templates -/

section Checks

-- Checks of texts go as deep as the texts are long.
set_option maxRecDepth 20000

/-- Remarks with nothing in them, as far as the outline goes. -/
def emptyRemarks : Text := "<!---->\n    <!---->\n    <!---->"

theorem front_checks : content? ((start .document).feedAll front).lexer = some .data ∧
    (start .document).entersStyle (front ++ emptyRemarks ++ styleTag) = true := by
  delta front emptyRemarks styleTag
  repeat rw [String.toList_ofList]
  decide

theorem remarkTemplate_checks :
    remarkTemplate.outline?.isSome = true ∧ remarkTemplate.keepsLines = true ∧
      remarkTemplate.outline? = Template.outline? [.fixed emptyRemarks] := by
  delta remarkTemplate emptyRemarks engineSettings Conditional.region
  repeat rw [String.toList_ofList]
  decide

theorem sheetTemplate_checks : sheetTemplate.beginsFixed = true ∧ sheetTemplate.isStyle = true ∧
    sheetTemplate.keepsLines = true := by
  delta sheetTemplate
  repeat rw [String.toList_ofList]
  decide

theorem openingTemplate_checks :
    openingTemplate.outline?.isSome = true ∧ openingTemplate.keepsLines = true := by
  delta openingTemplate
  repeat rw [String.toList_ofList]
  decide

theorem imageTemplate_checks (slot : Slot) :
    (imageTemplate slot).outline?.isSome = true ∧ (imageTemplate slot).keepsLines = true := by
  cases slot
  all_goals
    delta imageTemplate imageLead Slot.alternative Conditional.region
    repeat rw [String.toList_ofList]
    decide

theorem rowTemplate_checks :
    rowTemplate.outline?.isSome = true ∧ rowTemplate.keepsLines = true := by
  delta rowTemplate textSize textColour
  repeat rw [String.toList_ofList]
  decide

theorem return_not_mem_fixed : '\r' ∉ front ∧ '\r' ∉ styleTag ∧ '\r' ∉ closing := by
  delta front styleTag closing Conditional.region
  repeat rw [String.toList_ofList]
  decide

end Checks

/-! ### The layout -/

/-- No text of the configuration ends a remark. -/
structure KeepsRemarks (c : Config) : Prop where
  font : ¬EndsComment (normalizeNewlines c.font)
  source : ∀ slot : Slot, ∀ source ∈ slot.source? c, ¬EndsComment (normalizeNewlines source)

theorem KeepsRemarks.not_endsComment_source {c : Config} {slot : Slot} {source : Text}
    (hc : KeepsRemarks c) (hsource : source ∈ slot.source? c) :
    ¬EndsComment (normalizeNewlines (escapeAttribute source)) := by
  rw [normalizeNewlines_escapeAttribute]
  exact fun hends => hc.source slot source hsource hends.of_escapeAttribute

/-- The layout of the document. -/
def layout (c : Config) (body : Text) : Layout where
  front := front ++ remarkTemplate.fill ([c.font].map normalizeNewlines) ++ styleTag
  sheet := sheetTemplate.fill ([c.shownWidth].map normalizeNewlines)
  opening := openingTemplate.fill ([c.shownWidth, c.shownWidth].map normalizeNewlines) ++
    (imageTemplate .header).fillIf
        ((c.imageData .header imagePlaces).map (List.map normalizeNewlines)) ++
    rowTemplate.fill ([c.font].map normalizeNewlines)
  body := normalizeNewlines (body ++ rowEnd)
  footer := (imageTemplate .footer).fillIf
    ((c.imageData .footer imagePlaces).map (List.map normalizeNewlines))
  closing := closing

theorem normalizeNewlines_beforeFooter (c : Config) (body : Text) :
    normalizeNewlines (beforeImage c body .footer) = (layout c body).beforeFooter := by
  obtain ⟨hfront, htag, -⟩ := return_not_mem_fixed
  obtain ⟨-, hremarks, -⟩ := remarkTemplate_checks
  obtain ⟨-, -, hsheet⟩ := sheetTemplate_checks
  obtain ⟨-, hopening⟩ := openingTemplate_checks
  obtain ⟨-, himage⟩ := imageTemplate_checks .header
  obtain ⟨-, hrow⟩ := rowTemplate_checks
  have hend : '\r' ∉ ("</style>" : Text) := by decide
  simp only [beforeImage_eq, List.append_assoc]
  rw [normalizeNewlines_append_left hfront, Template.normalizeNewlines_fill hremarks,
    normalizeNewlines_append_left htag, Template.normalizeNewlines_fill hsheet,
    normalizeNewlines_append_left hend, Template.normalizeNewlines_fill hopening,
    Template.normalizeNewlines_fillIf himage, Template.normalizeNewlines_fill hrow]
  simp only [Layout.beforeFooter, layout, List.append_assoc]

theorem normalizeNewlines_document (c : Config) (body : Text) :
    normalizeNewlines (document c body) = (layout c body).text := by
  obtain ⟨-, -, hclosing⟩ := return_not_mem_fixed
  obtain ⟨-, himage⟩ := imageTemplate_checks .footer
  have hlast : (beforeImage c body .footer).getLast? ≠ some '\r' := by
    rw [beforeImage_eq, ← List.append_assoc]
    exact getLast?_append_ne rfl
  have hafter : imageOf c .footer (Text.decimal c.maxWidth.toNat) =
      (imageTemplate .footer).fillIf (c.imageData .footer imagePlaces) :=
    imageOf_eq c .footer
  rw [document_eq c body .footer, afterImage, List.append_assoc,
    normalizeNewlines_append (.inl hlast), hafter,
    Template.normalizeNewlines_fillIf himage, normalizeNewlines_eq_self hclosing,
    normalizeNewlines_beforeFooter, ← List.append_assoc]
  rfl

variable {c d : Config} {body t u : Text}

theorem keeps_front (hmatches : Matches t u) : Keeps (start .document) (start .document)
    (front ++ t ++ styleTag) (front ++ u ++ styleTag) false := by
  obtain ⟨hlexer, -⟩ := front_checks
  have hdata := content?_eq_some_iff.mp hlexer
  have hfront := (Alike.refl (start .document)).keeps front false
  exact (hfront.append_of_matches hdata hmatches).2.append_same styleTag

/-- Whatever the font stack, the style sheet is reached as with remarks that hold nothing. -/
theorem leavesInStyle_front {data : List Text}
    (hadmits : remarkTemplate.Admits (¬EndsComment ·) data) :
    (start .document).LeavesInStyle (front ++ remarkTemplate.fill data ++ styleTag) := by
  obtain ⟨-, hstyle⟩ := front_checks
  obtain ⟨hsome, -, hsame⟩ := remarkTemplate_checks
  have hfilled : Matches (Template.fill [.fixed emptyRemarks] []) (remarkTemplate.fill data) :=
    Template.matches_fill (hsame ▸ hsome) hsame.symm trivial hadmits
  have hempty : Matches emptyRemarks (remarkTemplate.fill data) := by
    simpa [Template.fill] using hfilled
  exact (keeps_front hempty).leavesInStyle (leavesInStyle_of_entersStyle hstyle)

theorem resembles_layout (hagrees : c.Agrees d)
    (hc : KeepsRemarks c) (hd : KeepsRemarks d) : (layout c body).Resembles (layout d body) := by
  have hnumber := Config.all_isDigit_normalizeNewlines_shownWidth
  obtain ⟨hremarks, -⟩ := remarkTemplate_checks
  obtain ⟨hbegins, hstyle, -⟩ := sheetTemplate_checks
  obtain ⟨hopening, -⟩ := openingTemplate_checks
  obtain ⟨hrow, -⟩ := rowTemplate_checks
  have himages (slot : Slot) := hagrees.matches_image slot imagePlaces
    (imageTemplate_checks slot).1
    (fun _ hsource =>
      ⟨hnumber c, hc.not_endsComment_source hsource, hnumber c, hnumber c, trivial⟩)
    (fun _ hsource =>
      ⟨hnumber d, hd.not_endsComment_source hsource, hnumber d, hnumber d, trivial⟩)
  have hrows : Matches (rowTemplate.fill ([c.font].map normalizeNewlines))
      (rowTemplate.fill ([d.font].map normalizeNewlines)) :=
    Template.matches_fill hrow rfl trivial trivial
  have hopenings : Matches
      (openingTemplate.fill ([c.shownWidth, c.shownWidth].map normalizeNewlines))
      (openingTemplate.fill ([d.shownWidth, d.shownWidth].map normalizeNewlines)) :=
    Template.matches_fill hopening rfl ⟨hnumber c, hnumber c, trivial⟩
      ⟨hnumber d, hnumber d, trivial⟩
  have hfronts : Matches (remarkTemplate.fill ([c.font].map normalizeNewlines))
      (remarkTemplate.fill ([d.font].map normalizeNewlines)) :=
    Template.matches_fill hremarks rfl ⟨hc.font, trivial⟩ ⟨hd.font, trivial⟩
  refine ⟨keeps_front hfronts, leavesInStyle_front ⟨hc.font, trivial⟩,
    Template.isStyle_fill hbegins hstyle ⟨hnumber c, trivial⟩,
    Template.isStyle_fill hbegins hstyle ⟨hnumber d, trivial⟩,
    (hopenings.append (himages .header)).append hrows, rfl, himages .footer, rfl⟩

theorem footer_layout (hagrees : c.Agrees d) (hfooter : c.footer? = d.footer?) :
    (layout c body).footer = (layout d body).footer := by
  rw [layout, layout, hagrees.imageData_footer hfooter]

end Legacy

/-! ## Any document -/

/-- The document up to the block of the image below the content. -/
def Config.beforeFooter (c : Config) (body : Text) : Text :=
  match c.dialect with
  | .responsive => Responsive.beforeFooter c body
  | .legacy => Legacy.beforeImage c body .footer

theorem Config.beforeFooter_append (c : Config) (body : Text) : ∃ closing, assemble c body =
    c.beforeFooter body ++ match c.dialect with
      | .responsive => Responsive.imageOf c .footer c.shownWidth ++ closing
      | .legacy => Legacy.imageOf c .footer c.shownWidth ++ closing := by
  rw [assemble, beforeFooter]
  cases c.dialect with
  | responsive =>
      refine ⟨Responsive.closing, ?_⟩
      dsimp only
      rw [Responsive.document_eq, List.append_assoc]
  | legacy =>
      refine ⟨Legacy.closing, ?_⟩
      dsimp only
      rw [Legacy.document_eq c body .footer, List.append_assoc]
      rfl

/-- No text of the configuration ends what it stands in without being escaped for it: the style
sheet of a responsive document, the remarks of a legacy one. -/
def Config.IsContained (c : Config) : Prop :=
  match c.dialect with
  | .responsive => ¬HoldsEndTag .style (normalizeNewlines c.font)
  | .legacy => Legacy.KeepsRemarks c

/-- Configurations that agree, and whose texts are contained, give documents with the same outline
around every body. If the images below the content differ, the body with its block must be closed
there. -/
theorem outline_tokens_assemble {c d : Config} {body : Text} (hagrees : c.Agrees d)
    (hc : c.IsContained) (hd : d.IsContained)
    (hfooter : c.footer? = d.footer? ∨
      ((start .document).feedAll (normalizeNewlines (c.beforeFooter body))).lexer =
        .text .data) :
    outline (tokens .document (assemble c body)) =
      outline (tokens .document (assemble d body)) := by
  apply Keeps.outline_tokens_eq
  unfold Config.IsContained at hc hd
  unfold Config.beforeFooter at hfooter
  unfold assemble
  rw [← hagrees.dialect_eq] at hd ⊢
  cases hkind : c.dialect with
  | responsive =>
      simp only [hkind] at hc hd hfooter ⊢
      rw [Responsive.normalizeNewlines_beforeFooter] at hfooter
      rw [Responsive.normalizeNewlines_document, Responsive.normalizeNewlines_document]
      exact (Responsive.resembles_layout hagrees hc hd).keeps
        (hfooter.imp_left (Responsive.footer_layout hagrees))
  | legacy =>
      simp only [hkind] at hc hd hfooter ⊢
      rw [Legacy.normalizeNewlines_beforeFooter] at hfooter
      rw [Legacy.normalizeNewlines_document, Legacy.normalizeNewlines_document]
      exact (Legacy.resembles_layout hagrees hc hd).keeps
        (hfooter.imp_left (Legacy.footer_layout hagrees))

/-- A configuration whose texts have quotes and tags in them. -/
def quoted : Config :=
  { Config.default with
    font := "'Segoe UI', \"A&B\"", headerImage := some "a.png?w=1&h=2",
    footerImage := some "\"><img>" }

/-- A configuration that agrees with it. -/
def plain : Config :=
  { Config.default with headerImage := some "a.png", footerImage := some "b.png" }

theorem outline_tokens_assemble_quoted :
    quoted.Agrees plain ∧ outline (tokens .document (assemble quoted "<p>x</p>")) =
      outline (tokens .document (assemble plain "<p>x</p>")) := by
  have hagrees : quoted.Agrees plain := ⟨rfl, rfl, by rintro (_ | _) <;> rfl⟩
  have hquoted : '<' ∉ normalizeNewlines quoted.font := by decide +kernel
  have hplain : '<' ∉ normalizeNewlines plain.font := by decide +kernel
  have hc : quoted.IsContained := not_holdsEndTag_of_not_mem hquoted
  have hd : plain.IsContained := not_holdsEndTag_of_not_mem hplain
  have hclosed : ((start .document).feedAll
      (normalizeNewlines (quoted.beforeFooter "<p>x</p>"))).lexer = .text .data := by
    refine (congrArg (fun t => ((start .document).feedAll t).lexer)
      (Responsive.normalizeNewlines_beforeFooter quoted "<p>x</p>")).trans ?_
    exact (Responsive.resembles_layout hagrees hc hd).lexer_beforeFooter rfl rfl
  exact ⟨hagrees, outline_tokens_assemble hagrees hc hd (.inr hclosed)⟩

/-- The tag that a token ends. -/
def Token.endTag? : Token → Option Tag
  | .endTag tag => some tag
  | _ => none

/-- A configuration with an image below the content. -/
def below : Config := { Config.default with footerImage := some "b.png" }

/-- One whose font stack ends the style sheet. -/
def spilling : Config := { below with font := "</style>" }

/-- One whose source ends an element that a body may have left open. -/
def trailing : Config := { below with footerImage := some "</textarea>" }

/-- Texts that are not contained show, and so do sources behind a body that is not closed. -/
theorem endTags_spilling : below.Agrees spilling ∧ below.Agrees trailing ∧
    (tokens .document (assemble below "<textarea>")).filterMap Token.endTag? =
      [.title, .style, .head] ∧
    (tokens .document (assemble spilling "<textarea>")).filterMap Token.endTag? =
      [.title, .style, .style, .head] ∧
    (tokens .document (assemble trailing "<textarea>")).filterMap Token.endTag? =
      [.title, .style, .head, .textarea, .div, .div, .body, .html] := by
  refine ⟨⟨rfl, rfl, by rintro (_ | _) <;> rfl⟩, ⟨rfl, rfl, by rintro (_ | _) <;> rfl⟩, ?_, ?_, ?_⟩
  all_goals
    delta assemble Responsive.document Responsive.styleSheet Responsive.imageOf Responsive.image
      spilling trailing below Slot.className Slot.alternative textSize textColour
    repeat rw [String.toList_ofList]
    decide +kernel

end Letterpress
