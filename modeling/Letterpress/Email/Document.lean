/-
# Documents

The scaffolding around a processed body: a document for clients that follow
the standards, and one of nested tables with conditional regions for those
with a word processor's engine. Image sources are escaped for the attributes
they stand in; the font stack and the body are taken as they are.
-/

import Letterpress.Email.Conditional
import Letterpress.Email.Config
import Letterpress.Email.Defaults
import Letterpress.Markup.Written

namespace Letterpress

/-- Which end of the email an image stands at. -/
inductive Slot
  | header
  | footer
  deriving DecidableEq

namespace Slot

/-- The alternative text of the image. -/
def alternative : Slot → Text
  | .header => "Header"
  | .footer => "Footer"

/-- The class of the block around the image. -/
def className : Slot → Text
  | .header => "email-header"
  | .footer => "email-footer"

/-- The source that a configuration has for the slot. -/
def source? (c : Config) : Slot → Option Text
  | .header => c.header?
  | .footer => c.footer?

end Slot

namespace Responsive

/-- The block of an image at one end. -/
def image (slot : Slot) (source width : Text) : Text :=
  "\n        <div class=\"" ++ slot.className ++
  "\">\n            <img src=\"" ++ escapeAttribute source ++ "\" width=\"" ++ width ++
  "\" alt=\"" ++ slot.alternative ++
  "\"\n                style=\"display: block; width: 100%; max-width: " ++ width ++
  "px; height: auto;\" />\n        </div>"

/-- The image of a slot, or nothing. -/
def imageOf (c : Config) (slot : Slot) (width : Text) : Text :=
  ((slot.source? c).map fun source => image slot source width).getD []

/-- The style sheet of the document. -/
def styleSheet (font width : Text) : Text :=
  "\n        body \x7b margin: 0; padding: 0; background-color: #ffffff; \x7d\n" ++
  "        .email-container \x7b max-width: " ++ width ++
  "px; margin: 0 auto; background-color: #ffffff; \x7d\n" ++
  "        .email-header img, .email-footer img \x7b display: block; width: 100%; max-width: " ++
  width ++ "px; height: auto; \x7d\n" ++
  "        .email-content \x7b font-family: " ++ font ++ "; font-size: " ++ textSize ++
  "; line-height: 1.5; color: " ++ textColour ++ "; \x7d\n" ++
  "        .email-content img \x7b max-width: 100%; height: auto; \x7d\n" ++
  "        .email-content a \x7b color: #0066cc; \x7d\n" ++
  "        @media only screen and (max-width: " ++ width ++ "px) \x7b\n" ++
  "            .email-content \x7b padding: 0 12px; \x7d\n        \x7d\n    "

/-- The document around the rows of a body. -/
def document (c : Config) (body : Text) : Text :=
  let width := Text.decimal c.maxWidth.toNat
  "<!DOCTYPE html>\n<html lang=\"en\">\n<head>\n    <meta charset=\"UTF-8\">\n" ++
  "    <meta name=\"viewport\" content=\"width=device-width, initial-scale=1.0\">\n" ++
  "    <title>Email</title>\n    <style>" ++ styleSheet c.font width ++
  "</style>\n</head>\n<body>\n    <div class=\"email-container\">" ++
  imageOf c .header width ++
  "\n        <div class=\"email-content\">\n            <table role=\"presentation\" " ++
  "width=\"100%\" cellpadding=\"0\" cellspacing=\"0\" border=\"0\"\n" ++
  "                style=\"max-width: " ++ width ++ "px;\">" ++ body ++
  "\n            </table>\n        </div>" ++ imageOf c .footer width ++
  "\n    </div>\n</body>\n</html>"

end Responsive

namespace Legacy

/-- The row of an image at one end. For the engine the image is the content of a filled
rectangle, whose two halves are regions of their own. -/
def image (slot : Slot) (source width : Text) : Text :=
  let src := escapeAttribute source
  "\n                <!-- " ++ slot.alternative ++ " Image -->\n                <tr>\n" ++
  "                    <td style=\"margin: 0; padding: 0;\">\n                        " ++
  Conditional.shapes.region
    ("<v:rect xmlns:v=\"urn:schemas-microsoft-com:vml\" fill=\"true\" stroke=\"false\" " ++
     "style=\"width: " ++ width ++ "px;\"><v:fill type=\"frame\" src=\"" ++ src ++
     "\" /><v:textbox inset=\"0,0,0,0\" style=\"mso-fit-shape-to-text: true;\">") ++
  "<img src=\"" ++ src ++ "\" width=\"" ++ width ++ "\" alt=\"" ++ slot.alternative ++
  "\" border=\"0\"\n                            style=\"display: block; width: 100%; " ++
  "max-width: " ++ width ++
  "px; height: auto; border: 0; outline: none; text-decoration: none;\" />" ++
  Conditional.shapes.region "</v:textbox></v:rect>" ++
  "\n                    </td>\n                </tr>"

/-- The image of a slot, or nothing. -/
def imageOf (c : Config) (slot : Slot) (width : Text) : Text :=
  ((slot.source? c).map fun source => image slot source width).getD []

/-- Settings of the engine itself. -/
def engineSettings : Text :=
  "\n    <xml>\n        <o:OfficeDocumentSettings>\n            <o:AllowPNG/>\n" ++
  "            <o:PixelsPerInch>96</o:PixelsPerInch>\n        </o:OfficeDocumentSettings>\n" ++
  "    </xml>\n    "

/-- The style sheet for the engine. -/
def engineStyleSheet (font : Text) : Text :=
  "\n    <style type=\"text/css\">\n" ++
  "        body, table, td, p, a, li, h1, h2, h3 \x7b font-family: " ++ font ++
  " !important; \x7d\n        table \x7b border-collapse: collapse; mso-table-lspace: 0pt; " ++
  "mso-table-rspace: 0pt; \x7d\n        img \x7b -ms-interpolation-mode: bicubic; \x7d\n" ++
  "    </style>\n    "

/-- The style sheet for the others. -/
def othersStyleSheet (width : Text) : Text :=
  "\n    <style type=\"text/css\">\n        body \x7b margin: 0; padding: 0; " ++
  "-webkit-text-size-adjust: 100%; -ms-text-size-adjust: 100%; \x7d\n" ++
  "        img \x7b border: 0; outline: none; text-decoration: none; max-width: 100%; " ++
  "height: auto; \x7d\n        @media only screen and (max-width: " ++ width ++
  "px) \x7b\n            .email-wrapper \x7b width: 100% !important; \x7d\n        \x7d\n" ++
  "    </style>\n    "

/-- The head of the document. -/
def head (font width : Text) : Text :=
  "<!DOCTYPE html PUBLIC \"-//W3C//DTD XHTML 1.0 Transitional//EN\" " ++
  "\"http://www.w3.org/TR/xhtml1/DTD/xhtml1-transitional.dtd\">\n" ++
  "<html xmlns=\"http://www.w3.org/1999/xhtml\" " ++
  "xmlns:v=\"urn:schemas-microsoft-com:vml\" " ++
  "xmlns:o=\"urn:schemas-microsoft-com:office:office\">\n<head>\n" ++
  "    <meta http-equiv=\"Content-Type\" content=\"text/html; charset=UTF-8\" />\n" ++
  "    <meta name=\"viewport\" content=\"width=device-width, initial-scale=1.0\" />\n" ++
  "    <meta http-equiv=\"X-UA-Compatible\" content=\"IE=edge\" />\n" ++
  "    <meta name=\"x-apple-disable-message-reformatting\" />\n" ++
  "    <title>Email</title>\n    " ++
  Conditional.shapes.region engineSettings ++ "\n    " ++
  Conditional.engine.region (engineStyleSheet font) ++ "\n    " ++
  Conditional.others.region (othersStyleSheet width) ++ "\n</head>\n"

/-- The tags before the content, with a table of fixed width for the engine. -/
def opening (width : Text) : Text :=
  "<body style=\"margin: 0; padding: 0; background-color: #ffffff;\">\n" ++
  "<table role=\"presentation\" width=\"100%\" cellpadding=\"0\" cellspacing=\"0\" " ++
  "border=\"0\" style=\"background-color: #ffffff;\">\n    <tr>\n" ++
  "        <td align=\"center\" style=\"padding: 0;\">\n            " ++
  Conditional.engine.region
    ("\n            <table role=\"presentation\" width=\"" ++ width ++
     "\" align=\"center\" cellpadding=\"0\" cellspacing=\"0\" border=\"0\">\n" ++
     "            <tr><td>\n            ") ++
  "\n            <table role=\"presentation\" class=\"email-wrapper\" width=\"100%\" " ++
  "cellpadding=\"0\" cellspacing=\"0\" border=\"0\"\n" ++
  "                style=\"max-width: " ++ width ++ "px; margin: 0 auto;\">"

/-- The row of the body. -/
def bodyRow (font body : Text) : Text :=
  "\n                <tr>\n                    <td style=\"font-family: " ++
  escapeAttribute font ++ "; font-size: " ++ textSize ++ "; color: " ++ textColour ++
  "; mso-line-height-rule: exactly; line-height: 150%; padding: 10px 0;\">\n" ++ body ++
  "\n                    </td>\n                </tr>"

/-- The tags after the content. -/
def closing : Text :=
  "\n            </table>\n            " ++
  Conditional.engine.region
    "\n            </td></tr>\n            </table>\n            " ++
  "\n        </td>\n    </tr>\n</table>\n</body>\n</html>"

/-- The document around a body after the legacy pass. -/
def document (c : Config) (body : Text) : Text :=
  let width := Text.decimal c.maxWidth.toNat
  head c.font width ++ opening width ++ imageOf c .header width ++ bodyRow c.font body ++
    imageOf c .footer width ++ closing

end Legacy

/-- The document of the configured dialect around a processed body. -/
def assemble (c : Config) (body : Text) : Text :=
  match c.dialect with
  | .responsive => Responsive.document c body
  | .legacy => Legacy.document c body

end Letterpress
