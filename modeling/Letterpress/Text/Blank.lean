/-
# Blank characters

The characters with the Unicode property `White_Space`, and the trimming of
texts by it. A byte order mark is not blank.
-/

import Letterpress.Text.Basic

namespace Letterpress

/-- The characters with the property `White_Space`. -/
def isBlank (c : Char) : Bool :=
  (0x09 ≤ c.toNat && c.toNat ≤ 0x0D) || c.toNat == 0x20 || c.toNat == 0x85 ||
    c.toNat == 0xA0 || c.toNat == 0x1680 || (0x2000 ≤ c.toNat && c.toNat ≤ 0x200A) ||
    c.toNat == 0x2028 || c.toNat == 0x2029 || c.toNat == 0x202F || c.toNat == 0x205F ||
    c.toNat == 0x3000

namespace Text

/-- The text without its leading blank characters. -/
def trimStart (t : Text) : Text := t.dropWhile isBlank

/-- The text without the trailing characters that satisfy `drop`. -/
def dropEndWhile (drop : Char → Bool) (t : Text) : Text :=
  (t.reverse.dropWhile drop).reverse

/-- The text without its trailing blank characters. -/
def trimEnd (t : Text) : Text := dropEndWhile isBlank t

/-- The text without blank characters at either end. -/
def trim (t : Text) : Text := trimEnd (trimStart t)

/-- A text of blank characters only. -/
def isBlankText (t : Text) : Bool := t.all isBlank

end Text

end Letterpress
