/-
# Alignment

The three ways to place an image across the width of its block.
-/

import Letterpress.Text.Blank

namespace Letterpress

/-- Where an image stands in its block. -/
inductive Alignment
  | left
  | center
  | right
  deriving DecidableEq

namespace Alignment

/-- The name as styles write it. -/
def name : Alignment → Text
  | .left => "left"
  | .center => "center"
  | .right => "right"

/-- Reads an alignment in any case; `start` and `end` are those of text that runs to the
right. -/
def parse? (value : Text) : Option Alignment :=
  let v := Text.lower (Text.trim value)
  if v = ("left" : Text) || v = ("start" : Text) then some .left
  else if v = ("center" : Text) then some .center
  else if v = ("right" : Text) || v = ("end" : Text) then some .right
  else none

end Alignment

end Letterpress
