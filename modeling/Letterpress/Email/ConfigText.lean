/-
# Configurations as JSON

The file format of configurations. It is written with every field; a reader
takes an object with some of them, in any order and among others, or a list of
the first of them, and fills in defaults.
-/

import Letterpress.Email.Config
import Letterpress.Json.Digits
import Letterpress.Json.Skipped

namespace Letterpress

namespace Dialect

/-- The name in configurations. -/
def name : Dialect → Text
  | .responsive => "responsive"
  | .legacy => "legacy"

/-- The dialect with a name. -/
def ofName? (name : Text) : Option Dialect :=
  if name = Dialect.responsive.name then some .responsive
  else if name = Dialect.legacy.name then some .legacy
  else none

end Dialect

namespace Config

/-- The fields of a configuration in their order. -/
inductive Field
  | maxWidth
  | font
  | dialect
  | headerImage
  | footerImage
  deriving DecidableEq

namespace Field

/-- The name in configurations. -/
def name : Field → Text
  | maxWidth => "max_width"
  | font => "font_family"
  | dialect => "dialect"
  | headerImage => "header_image"
  | footerImage => "footer_image"

/-- All fields. -/
def all : List Field := [maxWidth, font, dialect, headerImage, footerImage]

/-- The field with a name. -/
def ofName? (name : Text) : Option Field := all.find? fun f => f.name == name

end Field

/-- An optional text as JSON. -/
def writtenOption : Option Text → Text
  | none => "null"
  | some t => Json.Literal.written t

/-- The value of a field as JSON. -/
def writtenValue (c : Config) : Field → Text
  | .maxWidth => Text.decimal c.maxWidth.toNat
  | .font => Json.Literal.written c.font
  | .dialect => Json.Literal.written c.dialect.name
  | .headerImage => writtenOption c.headerImage
  | .footerImage => writtenOption c.footerImage

/-- A field on a line of its own. -/
def writtenField (c : Config) (f : Field) : Text :=
  "\n  " ++ Json.Literal.written f.name ++ ": " ++ c.writtenValue f

/-- The configuration as JSON. -/
def written (c : Config) : Text :=
  "\x7b" ++ Text.joinWith "," (Field.all.map c.writtenField) ++ "\n\x7d"

/-- What has been read of a configuration. -/
structure Given where
  maxWidth : Option UInt32
  font : Option Text
  dialect : Option Dialect
  headerImage : Option (Option Text)
  footerImage : Option (Option Text)

namespace Given

/-- Nothing yet. -/
def nothing : Given := ⟨none, none, none, none, none⟩

/-- The configuration with defaults for what was not given. -/
def config (g : Given) : Config where
  maxWidth := g.maxWidth.getD Config.default.maxWidth
  font := g.font.getD Config.default.font
  dialect := g.dialect.getD Config.default.dialect
  headerImage := g.headerImage.getD Config.default.headerImage
  footerImage := g.footerImage.getD Config.default.footerImage

/-- Whether a field has been read. -/
def has (g : Given) : Field → Bool
  | .maxWidth => g.maxWidth.isSome
  | .font => g.font.isSome
  | .dialect => g.dialect.isSome
  | .headerImage => g.headerImage.isSome
  | .footerImage => g.footerImage.isSome

end Given

namespace Reading

open Json Read

/-- What stands in place of a value of another kind. Lists and objects are not read. -/
def found : Read Found := do
  match ← peek? with
  | some 'n' => advance; word "ull"; return .null
  | some 't' => advance; word "rue"; return .boolean true
  | some 'f' => advance; word "alse"; return .boolean false
  | some '"' => advance; return .text (← text)
  | some '[' => return .list
  | some '\x7b' => return .object
  | some c => if c = '-' || c.isDigit then return .number (← signed) else failNext .expectedValue
  | none => failNext .expectedValue

/-- Stops because the value is of another kind. -/
def wrongType (expected : Text) : Read α := do fail (.wrongType (← found) expected)

/-- A text in quotes. -/
def aText (expected : Text) : Read Text := do
  if (← valueStart) = '"' then
    advance
    text
  else wrongType expected

/-- A text or nothing. -/
def optionalText : Read (Option Text) := do
  if (← token?) = some 'n' then
    advance
    word "ull"
    return none
  else return some (← aText "a string")

/-- A whole number of 32 bits. -/
def width : Read UInt32 := do
  let c ← valueStart
  if c = '-' || c.isDigit then
    match ← signed with
    | .natural n =>
      if n < UInt32.size then return n.toUInt32
      else fail (.wrongValue (.number (.natural n)) "u32")
    | .negative n => fail (.wrongValue (.number (.negative n)) "u32")
    | n => fail (.wrongType (.number n) "u32")
  else wrongType "u32"

/-- The name of a dialect. -/
def dialectName : Read Dialect := do
  let name ← aText "variant identifier"
  match Dialect.ofName? name with
  | some d => return d
  | none => fail (.unknownChoice name Dialect.responsive.name Dialect.legacy.name)

/-- The value `null`. -/
def unit : Read Unit := do
  if (← valueStart) = 'n' then
    advance
    word "ull"
  else wrongType "unit"

/-- Stops unless a name follows. -/
def dialectKey : Read Unit := do
  match ← token? with
  | some '"' => return
  | some '\x7d' => failNext .expectedValue
  | some _ => failNext .keyNotText
  | none => failNext .endInObject

/-- A dialect: its name, or an object in which the name has the value `null`. -/
def dialect : Read Dialect := do
  match ← valueStart with
  | '"' => dialectName
  | '\x7b' =>
    advance
    dialectKey
    let d ← dialectName
    colon
    unit
    match ← token? with
    | some '\x7d' => advance; return d
    | some _ => fail .expectedValue
    | none => fail .endInObject
  | _ => failNext .expectedValue

/-- The value of a field. -/
def fieldValue (g : Given) : Field → Read Given
  | .maxWidth => do return { g with maxWidth := some (← width) }
  | .font => do return { g with font := some (← aText "a string") }
  | .dialect => do return { g with dialect := some (← dialect) }
  | .headerImage => do return { g with headerImage := some (← optionalText) }
  | .footerImage => do return { g with footerImage := some (← optionalText) }

/-- Whether another member follows; if so, its opening quote is consumed. -/
def nextMember (first : Bool) : Read Bool := do
  match ← token? with
  | none => failNext .endInObject
  | some '\x7d' => return false
  | some c =>
    if first then
      if c = '"' then advance; return true else failNext .keyNotText
    else if c = ',' then
      advance
      match ← token? with
      | some '"' => advance; return true
      | some '\x7d' => failNext .trailingComma
      | some _ => failNext .keyNotText
      | none => failNext .endInValue
    else failNext .expectedObjectEnd

/-- Stops because a field comes again. The place is behind the object if it ends there. -/
def repeated (f : Field) : Read α := do
  if (← token?) = some '\x7d' then advance
  fail (.repeatedField f.name)

/-- The members of an object, at most so many. -/
def membersWithin : Nat → Bool → Given → Read Given
  | 0, _, g => return g
  | fuel + 1, first, g => do
    if ← nextMember first then
      match Field.ofName? (← text) with
      | some f =>
        if g.has f then repeated f
        else
          colon
          membersWithin fuel false (← fieldValue g f)
      | none =>
        colon
        skip
        membersWithin fuel false g
    else return g

/-- The members of an object. -/
def members : Read Given := fun c => membersWithin (c.rest.length + 1) true .nothing c

/-- Whether another element of a list follows. -/
def nextElement (first : Bool) : Read Bool := do
  match ← token? with
  | none => failNext .endInList
  | some ']' => return false
  | some c =>
    if first then return true
    else if c = ',' then
      advance
      match ← token? with
      | some ']' => failNext .trailingComma
      | some _ => return true
      | none => failNext .endInValue
    else failNext .expectedListEnd

/-- The values of fields in a list, as many as there are. -/
def elements (first : Bool) (g : Given) : List Field → Read Given
  | [] => return g
  | f :: rest => do
    if ← nextElement first then elements false (← fieldValue g f) rest else return g

/-- The end of a list that holds no more elements than there are fields. -/
def listEnd : Read Unit := do
  match ← token? with
  | some ']' => advance
  | some ',' =>
    advance
    if (← token?) = some ']' then failNext .trailingComma else failNext .trailingCharacters
  | some _ => failNext .trailingCharacters
  | none => failNext .endInList

/-- A configuration. -/
def config : Read Config := do
  match ← valueStart with
  | '[' =>
    advance
    let g ← elements true .nothing Field.all
    listEnd
    return g.config
  | '\x7b' =>
    advance
    let g ← members
    advance
    return g.config
  | _ => wrongType "struct EmailTemplateConfig"

end Reading

/-- Reads a configuration. -/
def parse (t : Text) : Except Json.Fault Config := Reading.config.run t

end Config

end Letterpress
