/-
# Quoted text

Text in messages stands between double quotes, with everything escaped that
would not show as itself.
-/

import Letterpress.Text.Basic
import Letterpress.Text.Unprintable

namespace Letterpress.Text

/-- Whether a character shows as itself. -/
def isPrintable (c : Char) : Bool :=
  if c.toNat < 0x80 then 0x20 ≤ c.toNat && c.toNat < 0x7F
  else !Unprintable.contains c.toNat

/-- A character of quoted text. -/
def quotedChar (c : Char) : Text :=
  match c with
  | '\x00' => "\\0"
  | '\t' => "\\t"
  | '\r' => "\\r"
  | '\n' => "\\n"
  | '\\' => "\\\\"
  | '"' => "\\\""
  | c => if isPrintable c then [c] else "\\u\x7b" ++ Nat.toDigits 16 c.toNat ++ "\x7d"

/-- Text between quotes. -/
def quoted (t : Text) : Text := "\"" ++ t.flatMap quotedChar ++ "\""

end Letterpress.Text
