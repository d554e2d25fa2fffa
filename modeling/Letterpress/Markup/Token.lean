/-
# Tokens

What markup is made of: tags, comments, document types and single characters.
-/

import Letterpress.Markup.Attributes
import Letterpress.Markup.Tag

namespace Letterpress

/-- A start tag; the names of its attributes are distinct. -/
structure StartTag where
  tag : Tag
  attributes : List Attribute
  selfClosing : Bool
  deriving DecidableEq

/-- A document type declaration. -/
structure Doctype where
  name : Option Text
  publicId : Option Text
  systemId : Option Text
  /-- The declaration is broken off or malformed. -/
  broken : Bool
  deriving DecidableEq

/-- One token. -/
inductive Token
  | doctype (declaration : Doctype)
  | startTag (start : StartTag)
  | endTag (tag : Tag)
  | comment (content : Text)
  | char (c : Char)
  /-- U+0000 as it stands in text that is not taken verbatim. -/
  | null
  /-- A malformed place that has no content: an end tag without a name, or the missing semicolon
  of the number that the next character was written as. -/
  | flaw
  /-- The end of the markup. -/
  | done
  deriving DecidableEq

namespace StartTag

/-- The value of an attribute. -/
def attribute? (t : StartTag) (name : Text) : Option Text :=
  (t.attributes.find? fun a => a.name == name).map Attribute.value

end StartTag

namespace Doctype

/-- Beginnings of public identifiers of document types from before standard rendering. -/
def oldPublicIds : List String :=
  ["-//advasoft ltd//dtd html 3.0 aswedit + extensions//",
   "-//as//dtd html 3.0 aswedit + extensions//",
   "-//ietf//dtd html 2.0 level 1//",
   "-//ietf//dtd html 2.0 level 2//",
   "-//ietf//dtd html 2.0 strict level 1//",
   "-//ietf//dtd html 2.0 strict level 2//",
   "-//ietf//dtd html 2.0 strict//",
   "-//ietf//dtd html 2.0//",
   "-//ietf//dtd html 2.1e//",
   "-//ietf//dtd html 3.0//",
   "-//ietf//dtd html 3.2 final//",
   "-//ietf//dtd html 3.2//",
   "-//ietf//dtd html 3//",
   "-//ietf//dtd html level 0//",
   "-//ietf//dtd html level 1//",
   "-//ietf//dtd html level 2//",
   "-//ietf//dtd html level 3//",
   "-//ietf//dtd html strict level 0//",
   "-//ietf//dtd html strict level 1//",
   "-//ietf//dtd html strict level 2//",
   "-//ietf//dtd html strict level 3//",
   "-//ietf//dtd html strict//",
   "-//ietf//dtd html//",
   "-//metrius//dtd metrius presentational//",
   "-//microsoft//dtd internet explorer 2.0 html strict//",
   "-//microsoft//dtd internet explorer 2.0 html//",
   "-//microsoft//dtd internet explorer 2.0 tables//",
   "-//microsoft//dtd internet explorer 3.0 html strict//",
   "-//microsoft//dtd internet explorer 3.0 html//",
   "-//microsoft//dtd internet explorer 3.0 tables//",
   "-//netscape comm. corp.//dtd html//",
   "-//netscape comm. corp.//dtd strict html//",
   "-//o'reilly and associates//dtd html 2.0//",
   "-//o'reilly and associates//dtd html extended 1.0//",
   "-//o'reilly and associates//dtd html extended relaxed 1.0//",
   "-//softquad software//dtd hotmetal pro 6.0::19990601::extensions to html 4.0//",
   "-//softquad//dtd hotmetal pro 4.0::19971010::extensions to html 4.0//",
   "-//spyglass//dtd html 2.0 extended//",
   "-//sq//dtd html 2.0 hotmetal + extensions//",
   "-//sun microsystems corp.//dtd hotjava html//",
   "-//sun microsystems corp.//dtd hotjava strict html//",
   "-//w3c//dtd html 3 1995-03-24//",
   "-//w3c//dtd html 3.2 draft//",
   "-//w3c//dtd html 3.2 final//",
   "-//w3c//dtd html 3.2//",
   "-//w3c//dtd html 3.2s draft//",
   "-//w3c//dtd html 4.0 frameset//",
   "-//w3c//dtd html 4.0 transitional//",
   "-//w3c//dtd html experimental 19960712//",
   "-//w3c//dtd html experimental 970421//",
   "-//w3c//dtd w3 html//",
   "-//w3o//dtd w3 html 3.0//",
   "-//webtechs//dtd mozilla html 2.0//",
   "-//webtechs//dtd mozilla html//"]

/-- Public identifiers that count as old as they stand. -/
def oldPublicIdsExact : List String :=
  ["-//w3o//dtd w3 html strict 3.0//en//", "-/w3c/dtd html 4.0 transitional/en", "html"]

/-- Beginnings of public identifiers that count as old unless a system identifier follows. -/
def oldWithoutSystemId : List String :=
  ["-//w3c//dtd html 4.01 frameset//", "-//w3c//dtd html 4.01 transitional//"]

/-- The system identifier that counts as old. -/
def oldSystemId : Text := "http://www.ibm.com/data/dtd/v11/ibmxhtml1-transitional.dtd"

/-- Whether a document of this type is laid out by the rules from before the standards: then a
table may stand inside a paragraph. -/
def isOld (d : Doctype) : Bool :=
  let publicId := d.publicId.map Text.lower
  let startsWithOneOf (leads : List String) : Bool :=
    publicId.any fun id => leads.any fun lead => lead.toList.isPrefixOf id
  d.broken || d.name != some ("html" : Text) ||
    publicId.any (fun id => oldPublicIdsExact.any fun old => old.toList == id) ||
    startsWithOneOf oldPublicIds ||
    (d.systemId.map Text.lower) == some oldSystemId ||
    (d.systemId.isNone && startsWithOneOf oldWithoutSystemId)

end Doctype

end Letterpress
