/-
# Conditional regions

Comments that only mail clients with a word processor's engine look into, and
those that hide their content from them. A region whose opener or closer is
malformed is dropped without notice, so the markers are written in one place.
-/

import Letterpress.Text.Basic

namespace Letterpress

/-- Who sees the content of a region. -/
inductive Conditional
  /-- The word processor's engine. -/
  | engine
  /-- The engine in the versions that draw shapes. -/
  | shapes
  /-- Everyone else. -/
  | others
  deriving DecidableEq

namespace Conditional

/-- The end of a region. -/
def close : Text := "<![endif]-->"

/-- The marker before the content. -/
def opener : Conditional → Text
  | .engine => "<!--[if mso]>"
  | .shapes => "<!--[if gte mso 9]>"
  | .others => "<!--[if !mso]><!-->"

/-- The marker after the content. -/
def closer : Conditional → Text
  | .engine => close
  | .shapes => close
  | .others => "<!--<![endif]-->"

/-- Content between its markers. -/
def region (c : Conditional) (content : Text) : Text := c.opener ++ content ++ c.closer

end Conditional

end Letterpress
