/-
# Named characters

The names by which markup refers to characters. Every name may be followed by
a semicolon; those in `lenient` are also understood without one.
-/

import Letterpress.Markup.Entity.CapitalAToK
import Letterpress.Markup.Entity.CapitalLToZ
import Letterpress.Markup.Entity.SmallAToD
import Letterpress.Markup.Entity.SmallEToL
import Letterpress.Markup.Entity.SmallMToR
import Letterpress.Markup.Entity.SmallSToZ
import Letterpress.Text.Basic

namespace Letterpress.Entity

/-- The names that begin with a character. -/
def startingWith (c : Char) : List (String × List Nat) :=
  match c with
  | 'A' => capitalA
  | 'B' => capitalB
  | 'C' => capitalC
  | 'D' => capitalD
  | 'E' => capitalE
  | 'F' => capitalF
  | 'G' => capitalG
  | 'H' => capitalH
  | 'I' => capitalI
  | 'J' => capitalJ
  | 'K' => capitalK
  | 'L' => capitalL
  | 'M' => capitalM
  | 'N' => capitalN
  | 'O' => capitalO
  | 'P' => capitalP
  | 'Q' => capitalQ
  | 'R' => capitalR
  | 'S' => capitalS
  | 'T' => capitalT
  | 'U' => capitalU
  | 'V' => capitalV
  | 'W' => capitalW
  | 'X' => capitalX
  | 'Y' => capitalY
  | 'Z' => capitalZ
  | 'a' => smallA
  | 'b' => smallB
  | 'c' => smallC
  | 'd' => smallD
  | 'e' => smallE
  | 'f' => smallF
  | 'g' => smallG
  | 'h' => smallH
  | 'i' => smallI
  | 'j' => smallJ
  | 'k' => smallK
  | 'l' => smallL
  | 'm' => smallM
  | 'n' => smallN
  | 'o' => smallO
  | 'p' => smallP
  | 'q' => smallQ
  | 'r' => smallR
  | 's' => smallS
  | 't' => smallT
  | 'u' => smallU
  | 'v' => smallV
  | 'w' => smallW
  | 'x' => smallX
  | 'y' => smallY
  | 'z' => smallZ
  | _ => []

/-- The text that a name stands for. -/
def text? : Text → Option Text
  | [] => none
  | c :: rest =>
    ((startingWith c).find? fun entry => entry.1.toList == c :: rest).map fun entry =>
      entry.2.map Char.ofNat

/-- The names that need no semicolon. -/
def lenient : List String :=
  ["AElig", "AMP", "Aacute", "Acirc", "Agrave", "Aring", "Atilde", "Auml", "COPY", "Ccedil",
   "ETH", "Eacute", "Ecirc", "Egrave", "Euml", "GT", "Iacute", "Icirc", "Igrave", "Iuml",
   "LT", "Ntilde", "Oacute", "Ocirc", "Ograve", "Oslash", "Otilde", "Ouml", "QUOT", "REG",
   "THORN", "Uacute", "Ucirc", "Ugrave", "Uuml", "Yacute", "aacute", "acirc", "acute",
   "aelig", "agrave", "amp", "aring", "atilde", "auml", "brvbar", "ccedil", "cedil", "cent",
   "copy", "curren", "deg", "divide", "eacute", "ecirc", "egrave", "eth", "euml", "frac12",
   "frac14", "frac34", "gt", "iacute", "icirc", "iexcl", "igrave", "iquest", "iuml",
   "laquo", "lt", "macr", "micro", "middot", "nbsp", "not", "ntilde", "oacute", "ocirc",
   "ograve", "ordf", "ordm", "oslash", "otilde", "ouml", "para", "plusmn", "pound", "quot",
   "raquo", "reg", "sect", "shy", "sup1", "sup2", "sup3", "szlig", "thorn", "times",
   "uacute", "ucirc", "ugrave", "uml", "uuml", "yacute", "yen", "yuml"]

/-- The longest of the lenient names that the text begins with, as the text it stands for and
what follows the name. -/
def longestLenient? (t : Text) : Option (Text × Text) :=
  (lenient.foldl pick none).bind fun name =>
    (text? name).map fun meaning => (meaning, t.drop name.length)
where
  pick (best : Option Text) (name : String) : Option Text :=
    if name.toList.isPrefixOf t && (best.all fun b => b.length < name.toList.length) then
      some name
    else best

end Letterpress.Entity
