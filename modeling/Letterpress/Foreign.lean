/-
# The binary interface

Generation for callers in other languages. Texts come as octets that end at
the first zero, or not at all; results are codes, with the message of the last
failure kept for the caller to ask for.
-/

import Letterpress.Email.ConfigText
import Letterpress.Email.Generation
import Letterpress.Failure

namespace Letterpress.Foreign

/-- The version of the interface. -/
def version : Text := "0.1.0"

/-- The octets that a caller passes as a text, up to the first zero. -/
structure RawText where
  octets : Octets

/-- The octets before the first zero. -/
def RawText.content (t : RawText) : Octets := t.octets.takeWhile (· != 0)

/-- A configuration as callers pass it. What is missing, and a width of zero, stand for the
default. -/
structure RawConfig where
  headerImage : Option RawText
  footerImage : Option RawText
  legacy : Bool
  maxWidth : UInt32
  font : Option RawText

/-- Why a call failed. -/
inductive CallFault
  /-- A body or a place for the result is missing. -/
  | nullPointer
  | badBody (fault : Utf8.Fault)
  /-- A field of a configuration is not UTF-8. -/
  | badField (name : Text) (fault : Utf8.Fault)
  /-- A configuration is not UTF-8. -/
  | badConfigText (fault : Utf8.Fault)
  | badConfig (text : Text) (fault : Json.Fault)
  /-- The document contains a character that would end it. -/
  | zeroInOutput

namespace CallFault

/-- The code that callers get. -/
def code : CallFault → Nat
  | nullPointer => 1
  | badBody _ => 2
  | badConfigText _ => 2
  | badField _ _ => 3
  | badConfig _ _ => 3
  | zeroInOutput => 4

/-- The fault in words. -/
def message : CallFault → Text
  | nullPointer => "Null pointer argument"
  | badBody fault => "Invalid UTF-8: " ++ fault.message
  | badConfigText fault => "Invalid UTF-8 in config_json: " ++ fault.message
  | badField name fault => "Invalid UTF-8 in " ++ name ++ ": " ++ fault.message
  | badConfig text fault => (Failure.config text fault).message
  | zeroInOutput => "Generated HTML contained a null byte"

end CallFault

/-- The text of a field, if the caller passes one. -/
def field (name : Text) : Option RawText → Except CallFault (Option Text)
  | none => .ok none
  | some raw =>
    match Utf8.decode raw.content with
    | .ok t => .ok (some t)
    | .error fault => .error (.badField name fault)

/-- The configuration that a caller passes. -/
def RawConfig.config (raw : RawConfig) : Except CallFault Config := do
  let font ← field "font_family" raw.font
  let headerImage ← field "header_image" raw.headerImage
  let footerImage ← field "footer_image" raw.footerImage
  return {
    maxWidth :=
      if raw.maxWidth = 0 then Config.defaultMaxWidth
      else max raw.maxWidth Config.minMaxWidth
    font := (font.filter fun f => !Text.isBlankText f).getD Config.defaultFont
    dialect := .ofLegacyFlag raw.legacy
    headerImage := headerImage
    footerImage := footerImage }

/-- What a call says about the configuration. -/
inductive ConfigArgument
  /-- The fields, or defaults where there are none. -/
  | fields (raw : Option RawConfig)
  /-- A JSON text, or defaults where there is none. -/
  | json (raw : Option RawText)

/-- The configuration of a call. -/
def ConfigArgument.config : ConfigArgument → Except CallFault Config
  | fields none => .ok Config.default
  | fields (some raw) => raw.config
  | json none => .ok Config.default
  | json (some raw) =>
    match Utf8.decode raw.content with
    | .error fault => .error (.badConfigText fault)
    | .ok t =>
      match Config.parse t with
      | .ok c => .ok c
      | .error fault => .error (.badConfig t fault)

/-- One call: the body, the configuration, and whether there is a place for the result. -/
structure Call where
  body : Option Octets
  config : ConfigArgument
  hasPlace : Bool

/-- The body and the configuration of a call. -/
def Call.inputs (c : Call) : Except CallFault (Text × Config) :=
  match c.body with
  | none => .error .nullPointer
  | some bytes =>
    if !c.hasPlace then .error .nullPointer
    else
      match Utf8.decode bytes with
      | .error fault => .error (.badBody fault)
      | .ok body => c.config.config.map (body, ·)

/-- The document of a call. -/
def Call.document (c : Call) : Except CallFault Text := do
  let (body, config) ← c.inputs
  let html := generateEmail body config
  if html.contains '\x00' then throw .zeroInOutput else return html

/-- What a call reports. -/
def Call.records (c : Call) : List LogRecord :=
  match c.inputs with
  | .ok (body, config) => generationRecords body config
  | .error _ => []

/-- What is kept between the calls of a thread. -/
structure State where
  lastError : Option Text
  deriving DecidableEq

namespace State

/-- Before the first call. -/
def initial : State := ⟨none⟩

/-- A message that contains the character that would end it cannot be kept. -/
def storable? (message : Text) : Option Text :=
  if message.contains '\x00' then none else some message

end State

/-- What a call answers: zero and a document, or the code of a fault. -/
structure Answer where
  code : Nat
  html : Option Text

/-- Carries out a call. -/
def call (s : State) (c : Call) : State × Answer :=
  match c.document with
  | .ok html => (s, ⟨0, some html⟩)
  | .error fault => (⟨State.storable? fault.message⟩, ⟨fault.code, none⟩)

end Letterpress.Foreign
