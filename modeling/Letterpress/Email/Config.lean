/-
# Configurations

Everything besides the body that shapes an email.
-/

import Letterpress.Text.Blank

namespace Letterpress

/-- The kind of document. -/
inductive Dialect
  /-- For clients that follow the standards. -/
  | responsive
  /-- For clients with a word processor's engine. -/
  | legacy
  deriving DecidableEq

namespace Dialect

/-- The legacy dialect if the flag is set. -/
def ofLegacyFlag (legacy : Bool) : Dialect := if legacy then .legacy else .responsive

/-- Whether this is the legacy dialect. -/
def isLegacy (d : Dialect) : Bool := d == .legacy

/-- What the name of an exported file gets after its stem. -/
def fileSuffix : Dialect → Text
  | .responsive => ""
  | .legacy => "-outlook"

end Dialect

/-- The settings of one email. -/
structure Config where
  /-- The width of the content in pixels. -/
  maxWidth : UInt32
  /-- The font stack as styles write it. -/
  font : Text
  dialect : Dialect
  /-- The source of the image above the content. -/
  headerImage : Option Text
  /-- The source of the image below the content. -/
  footerImage : Option Text
  deriving DecidableEq

namespace Config

/-- The width where none is asked for. -/
def defaultMaxWidth : UInt32 := 600

/-- The least width that callers of the binary interface get. -/
def minMaxWidth : UInt32 := 100

/-- The least width of the editor. -/
def narrowest : UInt32 := 300

/-- The greatest width of the editor. -/
def widest : UInt32 := 1200

/-- The font stack where none is asked for. -/
def defaultFont : Text := "Arial, sans-serif"

/-- The settings where none are given. -/
def default : Config := ⟨defaultMaxWidth, defaultFont, .responsive, none, none⟩

/-- The header image, unless its source is blank. -/
def header? (c : Config) : Option Text := c.headerImage.filter fun s => !Text.isBlankText s

/-- The footer image, unless its source is blank. -/
def footer? (c : Config) : Option Text := c.footerImage.filter fun s => !Text.isBlankText s

/-- The width nearest to the requested one that the editor allows. -/
def clampWidth (requested : UInt32) : UInt32 := max narrowest (min widest requested)

/-- Font stacks that mail clients have, each with its label. -/
def fontPresets : List (Text × Text) :=
  [("Arial, Helvetica, sans-serif", "Arial"),
   ("Times New Roman, Times, serif", "Times New Roman"),
   ("Tahoma, Geneva, sans-serif", "Tahoma"),
   ("Verdana, Geneva, sans-serif", "Verdana"),
   ("Georgia, Times, serif", "Georgia"),
   ("Trebuchet MS, Helvetica, sans-serif", "Trebuchet MS"),
   ("Segoe UI, Tahoma, sans-serif", "Segoe UI"),
   ("Calibri, Arial, sans-serif", "Calibri")]

end Config

end Letterpress
