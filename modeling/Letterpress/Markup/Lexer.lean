/-
# Reading tokens

The reader of markup as a machine that takes one character at a time. A step
gives the next state and the tokens that the character completes; characters
of text come out one by one. How text is read after a start tag depends on the
element, so whoever uses the tokens may replace the state by `State.text` with
another `Content`.

Reading a text is a fold of `step`, hence reading `s ++ t` is reading `t` from
where `s` ends.
-/

import Letterpress.Markup.Reference
import Letterpress.Markup.Token

namespace Letterpress.Lexer

/-- How far into a commented script the reader is; `dashes` counts the hyphens just read, up
to two. -/
inductive ScriptPhase
  | plain
  | commented (dashes : Nat)
  | nested (dashes : Nat)
  deriving DecidableEq

/-- How the text of the current element is read. -/
inductive Content
  /-- Text, tags and references. -/
  | data
  /-- Text and references up to the end tag of `closer`. -/
  | escapable (closer : Tag)
  /-- Verbatim text up to the end tag of `closer`. -/
  | verbatim (closer : Tag)
  | script (phase : ScriptPhase)
  /-- Verbatim text up to the end. -/
  | plaintext
  deriving DecidableEq

/-- The quotes around an attribute value, if any. -/
inductive Quoting
  | single
  | double
  | bare
  deriving DecidableEq

/-- A tag being read. The latest characters and attributes come first; `name` and `value` are
those of the attribute being read, once there is one. -/
structure Draft where
  closing : Bool
  tagName : Text
  attributes : List Attribute
  name : Text
  value : Text

/-- Where in a comment the reader is. -/
inductive CommentPhase
  | start
  | startDash
  | body
  | endDash
  | ending
  | endBang

/-- Which of the two identifiers of a document type is read. -/
inductive IdentifierKind
  | publicId
  | systemId

/-- Where in a document type declaration the reader is. -/
inductive DoctypePhase
  | beforeName
  | name
  /-- After the name, with the letters of a keyword read so far, latest first. -/
  | afterName (keyword : Text)
  | beforeIdentifier (kind : IdentifierKind)
  | identifier (kind : IdentifierKind) (quote : Char)
  | afterPublic
  | afterSystem
  | rest

/-- The state between two characters. Texts being read hold the latest character first. -/
inductive State
  | text (content : Content)
  | reference (content : Content) (read : Reference)
  | tagOpen
  | endTagOpen
  | tagName (draft : Draft)
  | beforeAttribute (draft : Draft)
  | attributeName (draft : Draft)
  | afterAttributeName (draft : Draft)
  | beforeValue (draft : Draft)
  | value (quoting : Quoting) (draft : Draft)
  | valueReference (quoting : Quoting) (draft : Draft) (read : Reference)
  | afterValue (draft : Draft)
  | selfClosing (draft : Draft)
  /-- After `<` in text that only ends at one end tag. -/
  | closerOpen (content : Content)
  /-- After `</` there. -/
  | closerSlash (content : Content)
  /-- In a name there that may be the closer's. -/
  | closerName (content : Content) (name : Text)
  /-- After `<!` and perhaps a hyphen in a script. -/
  | scriptBang (dashes : Nat)
  /-- In a word after `<` in a commented script. -/
  | nestWord (word : Text)
  /-- After `<` in a nested script. -/
  | nestedOpen
  /-- In a word after `</` in a nested script. -/
  | unnestWord (word : Text)
  /-- After `<!`, with what has been read of the word that follows. -/
  | declaration (word : Text)
  | comment (phase : CommentPhase) (content : Text)
  | bogusComment (content : Text)
  | doctype (phase : DoctypePhase) (declaration : Doctype)
  /-- In a character data section, after up to two closing brackets. -/
  | characterData (brackets : Nat)

/-- Tab, line feed, form feed and space separate the parts of a tag. -/
def isSpace (c : Char) : Bool := c == '\t' || c == '\n' || c == '\x0C' || c == ' '

/-- U+0000 is no character of a name, a value or a verbatim text; U+FFFD stands in for it. -/
def visible (c : Char) : Char := if c = '\x00' then '\uFFFD' else c

/-- A character of a name: small, and visible. -/
def nameChar (c : Char) : Char := visible c.toLower

/-- The characters of a text as tokens. -/
def chars (t : Text) : List Token := t.map .char

/-- A tag of which the first letter of the name has been read. -/
def Draft.ofLetter (closing : Bool) (c : Char) : Draft := ⟨closing, [nameChar c], [], [], []⟩

/-- Puts the attribute being read into the list, unless the list has one of that name. -/
def Draft.keepAttribute (d : Draft) : Draft :=
  let name := d.name.reverse
  if name.isEmpty then d
  else if d.attributes.any fun a => a.name == name then { d with name := [], value := [] }
  else { d with attributes := ⟨name, d.value.reverse⟩ :: d.attributes, name := [], value := [] }

/-- Begins an attribute. -/
def Draft.startAttribute (d : Draft) (c : Char) : Draft :=
  { d.keepAttribute with name := [nameChar c], value := [] }

/-- The token of a tag read to its end. -/
def Draft.token (d : Draft) (selfClosing : Bool) : Token :=
  let tag := Tag.ofName d.tagName.reverse
  if d.closing then .endTag tag
  else .startTag ⟨tag, d.keepAttribute.attributes.reverse, selfClosing⟩

/-- The end of a tag. -/
def Draft.finish (d : Draft) (selfClosing : Bool) : State × List Token :=
  (.text .data, [d.token selfClosing])

/-- One more character of the value being read. -/
def Draft.pushValue (d : Draft) (c : Char) : Draft := { d with value := c :: d.value }

/-- The tag whose end tag ends the text, if there is one. -/
def Content.closer? : Content → Option Tag
  | .escapable closer => some closer
  | .verbatim closer => some closer
  | .script _ => some .script
  | _ => none

/-- A character of a script. -/
def scriptStep (phase : ScriptPhase) (c : Char) : State × List Token :=
  let go (phase : ScriptPhase) : State × List Token :=
    (.text (.script phase), [.char (visible c)])
  match phase with
  | .plain => if c = '<' then (.closerOpen (.script .plain), []) else go .plain
  | .commented dashes =>
    if c = '-' then go (.commented (min 2 (dashes + 1)))
    else if c = '<' then (.closerOpen (.script (.commented 0)), [])
    else if c = '>' && dashes == 2 then go .plain
    else go (.commented 0)
  | .nested dashes =>
    if c = '-' then go (.nested (min 2 (dashes + 1)))
    else if c = '<' then (.nestedOpen, [.char '<'])
    else if c = '>' && dashes == 2 then go .plain
    else go (.nested 0)

/-- A character of text. -/
def textStep (content : Content) (c : Char) : State × List Token :=
  match content with
  | .data =>
    if c = '&' then (.reference .data .ampersand, [])
    else if c = '<' then (.tagOpen, [])
    else if c = '\x00' then (.text .data, [.null])
    else (.text .data, [.char c])
  | .escapable closer =>
    if c = '&' then (.reference content .ampersand, [])
    else if c = '<' then (.closerOpen content, [])
    else (.text (.escapable closer), [.char (visible c)])
  | .verbatim closer =>
    if c = '<' then (.closerOpen content, [])
    else (.text (.verbatim closer), [.char (visible c)])
  | .script phase => scriptStep phase c
  | .plaintext => (.text .plaintext, [.char (visible c)])

/-- A character of text that follows characters already known to be text. -/
def textAfter (before : List Token) (content : Content) (c : Char) : State × List Token :=
  let (state, tokens) := textStep content c
  (state, before ++ tokens)

/-- The tokens of a settled reference in text. -/
def meaningTokens (m : Reference.Meaning) : List Token :=
  (if m.unclosed then [.flaw] else []) ++ chars m.text

/-- A character after the start of a reference in text. -/
def referenceStep (content : Content) (read : Reference) (c : Char) : State × List Token :=
  match read.continue? c with
  | some read => (.reference content read, [])
  | none =>
    let m := read.settle false (some c)
    if m.takesNext then (.text content, meaningTokens m)
    else textAfter (meaningTokens m) content c

/-- A character of a comment that began without hyphens; `>` ends it. -/
def bogusCommentStep (content : Text) (c : Char) : State × List Token :=
  if c = '>' then (.text .data, [.comment content.reverse])
  else (.bogusComment (visible c :: content), [])

/-- A character after `<`. -/
def tagOpenStep (c : Char) : State × List Token :=
  if c = '!' then (.declaration [], [])
  else if c = '/' then (.endTagOpen, [])
  else if c.isAlpha then (.tagName (.ofLetter false c), [])
  else if c = '?' then bogusCommentStep [] c
  else textAfter [.char '<'] .data c

/-- A character after `</`. -/
def endTagOpenStep (c : Char) : State × List Token :=
  if c.isAlpha then (.tagName (.ofLetter true c), [])
  else if c = '>' then (.text .data, [.flaw])
  else bogusCommentStep [] c

/-- A character of the name of a tag. -/
def tagNameStep (d : Draft) (c : Char) : State × List Token :=
  if isSpace c then (.beforeAttribute d, [])
  else if c = '/' then (.selfClosing d, [])
  else if c = '>' then d.finish false
  else (.tagName { d with tagName := nameChar c :: d.tagName }, [])

/-- A character before an attribute. -/
def beforeAttributeStep (d : Draft) (c : Char) : State × List Token :=
  if isSpace c then (.beforeAttribute d, [])
  else if c = '/' then (.selfClosing d, [])
  else if c = '>' then d.finish false
  else (.attributeName (d.startAttribute c), [])

/-- A character of the name of an attribute. -/
def attributeNameStep (d : Draft) (c : Char) : State × List Token :=
  if isSpace c then (.afterAttributeName d, [])
  else if c = '/' then (.selfClosing d, [])
  else if c = '=' then (.beforeValue d, [])
  else if c = '>' then d.finish false
  else (.attributeName { d with name := nameChar c :: d.name }, [])

/-- A character after the name of an attribute and a space. -/
def afterAttributeNameStep (d : Draft) (c : Char) : State × List Token :=
  if isSpace c then (.afterAttributeName d, [])
  else if c = '/' then (.selfClosing d, [])
  else if c = '=' then (.beforeValue d, [])
  else if c = '>' then d.finish false
  else (.attributeName (d.startAttribute c), [])

/-- A character of an attribute value. -/
def valueStep (quoting : Quoting) (d : Draft) (c : Char) : State × List Token :=
  if c = '&' then (.valueReference quoting d .ampersand, [])
  else
    match quoting with
    | .double =>
      if c = '"' then (.afterValue d, []) else (.value .double (d.pushValue (visible c)), [])
    | .single =>
      if c = '\'' then (.afterValue d, []) else (.value .single (d.pushValue (visible c)), [])
    | .bare =>
      if isSpace c then (.beforeAttribute d, [])
      else if c = '>' then d.finish false
      else (.value .bare (d.pushValue (visible c)), [])

/-- A character after the equals sign of an attribute. -/
def beforeValueStep (d : Draft) (c : Char) : State × List Token :=
  if isSpace c then (.beforeValue d, [])
  else if c = '"' then (.value .double d, [])
  else if c = '\'' then (.value .single d, [])
  else if c = '>' then d.finish false
  else valueStep .bare d c

/-- A character after the start of a reference in a value. -/
def valueReferenceStep (quoting : Quoting) (d : Draft) (read : Reference) (c : Char) :
    State × List Token :=
  match read.continue? c with
  | some read => (.valueReference quoting d read, [])
  | none =>
    let m := read.settle true (some c)
    let d := m.text.foldl Draft.pushValue d
    if m.takesNext then (.value quoting d, []) else valueStep quoting d c

/-- A character after the closing quote of a value. -/
def afterValueStep (d : Draft) (c : Char) : State × List Token :=
  beforeAttributeStep d c

/-- A character after a slash in a tag. -/
def selfClosingStep (d : Draft) (c : Char) : State × List Token :=
  if c = '>' then d.finish true else beforeAttributeStep d c

/-- A character after `<` in text that only ends at one end tag. -/
def closerOpenStep (content : Content) (c : Char) : State × List Token :=
  if c = '/' then (.closerSlash content, [])
  else if content = .script .plain && c = '!' then (.scriptBang 0, chars ['<', '!'])
  else if content = .script (.commented 0) && c.isAlpha then
    (.nestWord [c.toLower], chars ['<', c])
  else textAfter [.char '<'] content c

/-- A character after `</` there. -/
def closerSlashStep (content : Content) (c : Char) : State × List Token :=
  if c.isAlpha then (.closerName content [c], [])
  else textAfter (chars ['<', '/']) content c

/-- A character of a name there; the name ends the text if it is the closer's. -/
def closerNameStep (content : Content) (name : Text) (c : Char) : State × List Token :=
  let draft : Draft := ⟨true, name.map nameChar, [], [], []⟩
  let closes := content.closer? == some (Tag.ofName name.reverse)
  if closes && isSpace c then (.beforeAttribute draft, [])
  else if closes && c = '/' then (.selfClosing draft, [])
  else if closes && c = '>' then draft.finish false
  else if c.isAlpha then (.closerName content (c :: name), [])
  else textAfter (chars ('<' :: '/' :: name.reverse)) content c

/-- A character after `<!` in a script: two hyphens begin the commented part. -/
def scriptBangStep (dashes : Nat) (c : Char) : State × List Token :=
  if c = '-' then
    if dashes = 0 then (.scriptBang 1, [.char '-'])
    else (.text (.script (.commented 2)), [.char '-'])
  else textStep (.script .plain) c

/-- Whether a character ends a word of a script that might be its tag. -/
def endsWord (c : Char) : Bool := isSpace c || c == '/' || c == '>'

/-- A character of a word after `<` in a commented script: the script's own tag nests. -/
def nestWordStep (word : Text) (c : Char) : State × List Token :=
  if endsWord c then
    if word.reverse = ("script" : Text) then (.text (.script (.nested 0)), [.char c])
    else (.text (.script (.commented 0)), [.char c])
  else if c.isAlpha then (.nestWord (c.toLower :: word), [.char c])
  else textStep (.script (.commented 0)) c

/-- A character after `<` in a nested script. -/
def nestedOpenStep (c : Char) : State × List Token :=
  if c = '/' then (.unnestWord [], [.char '/']) else textStep (.script (.nested 0)) c

/-- A character of a word after `</` in a nested script: the script's own tag ends nesting. -/
def unnestWordStep (word : Text) (c : Char) : State × List Token :=
  if endsWord c then
    if word.reverse = ("script" : Text) then (.text (.script (.commented 0)), [.char c])
    else (.text (.script (.nested 0)), [.char c])
  else if c.isAlpha then (.unnestWord (c.toLower :: word), [.char c])
  else textStep (.script (.nested 0)) c

/-- A character after `<!`. Two hyphens begin a comment, the word `doctype` a document type,
and outside plain markup `[CDATA[` a character data section; anything else is a comment. -/
def declarationStep (foreign : Bool) (word : Text) (c : Char) : State × List Token :=
  let read : Text := (c :: word).reverse
  if read = ("--" : Text) then (.comment .start [], [])
  else if read.lower = ("doctype" : Text) then
    (.doctype .beforeName ⟨none, none, none, false⟩, [])
  else if foreign && read = ("[CDATA[" : Text) then (.characterData 0, [])
  else if read.isPrefixOf ("--" : Text) || read.lower.isPrefixOf ("doctype" : Text) ||
      (foreign && read.isPrefixOf ("[CDATA[" : Text)) then
    (.declaration (c :: word), [])
  else bogusCommentStep word c

/-- A character of a comment. -/
def commentStep (phase : CommentPhase) (content : Text) (c : Char) : State × List Token :=
  let finish : State × List Token := (.text .data, [.comment content.reverse])
  let body (held : Text) : State × List Token :=
    (.comment .body (visible c :: (held ++ content)), [])
  match phase with
  | .start =>
    if c = '-' then (.comment .startDash content, [])
    else if c = '>' then finish
    else body []
  | .startDash =>
    if c = '-' then (.comment .ending content, [])
    else if c = '>' then finish
    else body ['-']
  | .body => if c = '-' then (.comment .endDash content, []) else body []
  | .endDash => if c = '-' then (.comment .ending content, []) else body ['-']
  | .ending =>
    if c = '>' then finish
    else if c = '!' then (.comment .endBang content, [])
    else if c = '-' then (.comment .ending ('-' :: content), [])
    else body ['-', '-']
  | .endBang =>
    if c = '-' then (.comment .endDash ('!' :: '-' :: '-' :: content), [])
    else if c = '>' then finish
    else body ['!', '-', '-']

/-- A character of a document type declaration; names and identifiers are kept with the latest
character first until the end. -/
def doctypeStep (phase : DoctypePhase) (d : Doctype) (c : Char) : State × List Token :=
  let finish (d : Doctype) : State × List Token :=
    (.text .data, [.doctype { d with
      name := d.name.map List.reverse
      publicId := d.publicId.map List.reverse
      systemId := d.systemId.map List.reverse }])
  let broken := { d with broken := true }
  let stay : State × List Token := (.doctype phase d, [])
  match phase with
  | .beforeName =>
    if isSpace c then stay
    else if c = '>' then finish broken
    else (.doctype .name { d with name := some [nameChar c] }, [])
  | .name =>
    if isSpace c then (.doctype (.afterName []) d, [])
    else if c = '>' then finish d
    else (.doctype .name { d with name := d.name.map (nameChar c :: ·) }, [])
  | .afterName keyword =>
    let read : Text := (c.toLower :: keyword).reverse
    if isSpace c && keyword.isEmpty then stay
    else if c = '>' then finish (if keyword.isEmpty then d else broken)
    else if read = ("public" : Text) then (.doctype (.beforeIdentifier .publicId) d, [])
    else if read = ("system" : Text) then (.doctype (.beforeIdentifier .systemId) d, [])
    else if read.isPrefixOf ("public" : Text) || read.isPrefixOf ("system" : Text) then
      (.doctype (.afterName (c.toLower :: keyword)) d, [])
    else (.doctype .rest broken, [])
  | .beforeIdentifier kind =>
    if isSpace c then stay
    else if c = '>' then finish broken
    else if c = '"' || c = '\'' then
      match kind with
      | .publicId => (.doctype (.identifier .publicId c) { d with publicId := some [] }, [])
      | .systemId => (.doctype (.identifier .systemId c) { d with systemId := some [] }, [])
    else (.doctype .rest broken, [])
  | .identifier .publicId quote =>
    if c = quote then (.doctype .afterPublic d, [])
    else if c = '>' then finish broken
    else (.doctype phase { d with publicId := d.publicId.map (visible c :: ·) }, [])
  | .identifier .systemId quote =>
    if c = quote then (.doctype .afterSystem d, [])
    else if c = '>' then finish broken
    else (.doctype phase { d with systemId := d.systemId.map (visible c :: ·) }, [])
  | .afterPublic =>
    if isSpace c then stay
    else if c = '>' then finish d
    else if c = '"' || c = '\'' then
      (.doctype (.identifier .systemId c) { d with systemId := some [] }, [])
    else (.doctype .rest broken, [])
  | .afterSystem =>
    if isSpace c then stay
    else if c = '>' then finish d
    else (.doctype .rest d, [])
  | .rest => if c = '>' then finish d else stay

/-- A character of a character data section. -/
def characterDataStep (brackets : Nat) (c : Char) : State × List Token :=
  let held := chars (List.replicate brackets ']')
  if c = ']' then
    if brackets < 2 then (.characterData (brackets + 1), []) else (.characterData 2, [.char ']'])
  else if c = '>' && brackets == 2 then (.text .data, [])
  else (.characterData 0, held ++ [if c = '\x00' then .null else .char c])

/-- One character. `foreign` says whether the current element lies outside plain markup, where
character data sections are understood. -/
def step (foreign : Bool) (state : State) (c : Char) : State × List Token :=
  match state with
  | .text content => textStep content c
  | .reference content read => referenceStep content read c
  | .tagOpen => tagOpenStep c
  | .endTagOpen => endTagOpenStep c
  | .tagName d => tagNameStep d c
  | .beforeAttribute d => beforeAttributeStep d c
  | .attributeName d => attributeNameStep d c
  | .afterAttributeName d => afterAttributeNameStep d c
  | .beforeValue d => beforeValueStep d c
  | .value quoting d => valueStep quoting d c
  | .valueReference quoting d read => valueReferenceStep quoting d read c
  | .afterValue d => afterValueStep d c
  | .selfClosing d => selfClosingStep d c
  | .closerOpen content => closerOpenStep content c
  | .closerSlash content => closerSlashStep content c
  | .closerName content name => closerNameStep content name c
  | .scriptBang dashes => scriptBangStep dashes c
  | .nestWord word => nestWordStep word c
  | .nestedOpen => nestedOpenStep c
  | .unnestWord word => unnestWordStep word c
  | .declaration word => declarationStep foreign word c
  | .comment phase content => commentStep phase content c
  | .bogusComment content => bogusCommentStep content c
  | .doctype phase d => doctypeStep phase d c
  | .characterData brackets => characterDataStep brackets c

/-- The tokens that the end of the markup completes. A tag that is broken off is dropped. -/
def finish (state : State) : List Token :=
  match state with
  | .reference _ read => meaningTokens (read.settle false none)
  | .tagOpen => chars ['<']
  | .endTagOpen => chars ['<', '/']
  | .closerOpen _ => chars ['<']
  | .closerSlash _ => chars ['<', '/']
  | .closerName _ name => chars ('<' :: '/' :: name.reverse)
  | .declaration word => [.comment word.reverse]
  | .comment _ content => [.comment content.reverse]
  | .bogusComment content => [.comment content.reverse]
  | .doctype _ d => [.doctype { d with broken := true }]
  | .characterData brackets => chars (List.replicate brackets ']')
  | _ => []

end Letterpress.Lexer
