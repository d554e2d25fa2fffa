/-
# The usage message

What the program says of itself when it is asked or called wrongly.
-/

import Letterpress.Text.Basic

namespace Letterpress.Command

/-- The name under which the program is called. -/
def programName : Text := "mailforge"

/-- The lines of the usage message. -/
def usage : List Text :=
  ["mailforge – rich HTML to email-safe HTML (mail-forge)",
   "",
   "Usage:",
   "  " ++ programName ++ " <body.html> [output.html] [flags]",
   "",
   "Arguments:",
   "  <body.html>    HTML fragment or document to convert (.docx must be converted first)",
   "  [output.html]  Output path  (default: <stem>-email.html, -outlook in legacy mode)",
   "",
   "Flags:",
   "  --legacy, -l       Emit the Outlook (table + MSO conditional) dialect",
   "  --max-width, -w N  Content width in pixels, clamped to 300-1200 (default: 600)",
   "  --font, -f F       CSS font-family (default: \"Arial, sans-serif\")",
   "  --header IMG       Header image: file path, data URI or URL",
   "  --footer IMG       Footer image: file path, data URI or URL",
   "  --config, -c FILE  JSON template config; flags override its values",
   "  --pdf BROWSER      Also print a PDF with a headless Chromium binary",
   "  --demo DIR         Write the sample bodies in both dialects to DIR and exit",
   "  --help             Print this message"]

end Letterpress.Command
