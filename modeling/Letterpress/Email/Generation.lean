/-
# Emails

From the body that an editor wrote and a configuration to a complete email.
Generation never fails, and reads nothing but its arguments.
-/

import Letterpress.Email.Document
import Letterpress.Email.Inlined
import Letterpress.Email.Outlook
import Letterpress.Email.Rows
import Letterpress.Log
import Letterpress.Markup.Parsing

namespace Letterpress

/-- A body as rows with inlined styles. -/
def responsiveBody (body font : Text) : Text :=
  rowsMarkup font (inlineStyles font (parseFragment body))

/-- A body after the legacy pass. -/
def legacyBody (body : Text) : Text := (toLegacy (parseFragment body)).innerMarkup

/-- The email of a body. -/
def generateEmail (body : Text) (c : Config) : Text :=
  assemble c
    (match c.dialect with
     | .responsive => responsiveBody body c.font
     | .legacy => legacyBody body)

/-- What the pass that inlines styles reports. -/
def inlineRecord (font : Text) (root : Element) : LogRecord :=
  ⟨.debug, "inlined styles on " ++ Text.decimal (inlinedCount font root) ++ " elements"⟩

/-- What the pass that makes rows reports. -/
def rowsRecord (font : Text) (root : Element) : LogRecord :=
  ⟨.debug, "reshaped " ++ Text.decimal (rows font root).length ++
    " top-level blocks into table rows"⟩

/-- What the legacy pass reports. -/
def legacyRecord (root : Element) : LogRecord :=
  ⟨.debug, "legacy pass promoted " ++ Text.decimal (promotedCount root) ++ " attributes"⟩

/-- What making the rows of a body reports. -/
def responsiveRecords (body font : Text) : List LogRecord :=
  let root := parseFragment body
  [inlineRecord font root, rowsRecord font (inlineStyles font root)]

/-- What the legacy pass over a body reports. -/
def legacyRecords (body : Text) : List LogRecord := [legacyRecord (parseFragment body)]

/-- What generating an email reports. -/
def generationRecords (body : Text) (c : Config) : List LogRecord :=
  let dialect : Text :=
    match c.dialect with
    | .responsive => "Responsive"
    | .legacy => "Legacy"
  ⟨.debug, "generating " ++ dialect ++ " email (" ++ Text.decimal (Text.size body) ++
    " bytes of body, max width " ++ Text.decimal c.maxWidth.toNat ++ "px)"⟩ ::
    match c.dialect with
    | .responsive => responsiveRecords body c.font
    | .legacy => legacyRecords body

/-- What clamping a width reports. -/
def clampRecords (requested : UInt32) : List LogRecord :=
  let clamped := Config.clampWidth requested
  if clamped = requested then []
  else
    [⟨.warn, "max width " ++ Text.decimal requested.toNat ++ "px out of range, using " ++
      Text.decimal clamped.toNat ++ "px"⟩]

end Letterpress
