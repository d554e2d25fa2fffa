/-
# Records of work

What an operation reports besides its result.
-/

import Letterpress.Text.Basic

namespace Letterpress

/-- How much a record matters. -/
inductive LogLevel
  | warn
  | info
  | debug

/-- One record. -/
structure LogRecord where
  level : LogLevel
  message : Text

/-- The name of a level. -/
def LogLevel.name : LogLevel → Text
  | .warn => "WARN"
  | .info => "INFO"
  | .debug => "DEBUG"

/-- The record as a line. -/
def LogRecord.line (r : LogRecord) : Text := r.level.name ++ " " ++ r.message

end Letterpress
