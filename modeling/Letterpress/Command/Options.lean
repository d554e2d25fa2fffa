/-
# Command line options

Reading a command line. Arguments that do not begin with a hyphen are the
input and the output; an option that takes a value takes the next argument,
whatever that looks like, and of repeated options the last one counts.
-/

import Letterpress.Command.Usage

namespace Letterpress.Command

/-- Options that take a value. -/
inductive Valued
  | maxWidth
  | font
  | header
  | footer
  | config
  | browser
  | demo
  deriving DecidableEq

/-- Options. -/
inductive Flag
  | legacy
  | help
  | valued (option : Valued)
  deriving DecidableEq

/-- The options by their spellings. -/
def flags : List (Text × Flag) :=
  [("--legacy", .legacy), ("-l", .legacy), ("--help", .help), ("-h", .help),
   ("--max-width", .valued .maxWidth), ("-w", .valued .maxWidth),
   ("--font", .valued .font), ("-f", .valued .font),
   ("--header", .valued .header), ("--footer", .valued .footer),
   ("--config", .valued .config), ("-c", .valued .config),
   ("--pdf", .valued .browser), ("--demo", .valued .demo)]

/-- The option that an argument spells. -/
def flag? (argument : Text) : Option Flag :=
  (flags.find? fun f => f.1 == argument).map Prod.snd

/-- Why a command line cannot be read. -/
inductive ArgumentFault
  | badWidth (value : Text)
  | missingValue (flag : Text)
  | unknownFlag (flag : Text)
  | unexpected (argument : Text)
  | noInput

namespace ArgumentFault

/-- The fault in words, on lines. -/
def lines : ArgumentFault → List Text
  | badWidth value =>
    ["Error: --max-width expects a whole number of pixels, got '" ++ value ++ "'"]
  | missingValue flag => ("Error: " ++ flag ++ " needs a value.") :: usage
  | unknownFlag flag => ("Unknown flag: " ++ flag) :: usage
  | unexpected argument => ("Unexpected argument: " ++ argument) :: usage
  | noInput => "Error: no input file specified." :: usage

end ArgumentFault

/-- What a command line says so far. -/
structure Options where
  input : Option Text
  output : Option Text
  configFile : Option Text
  legacy : Bool
  maxWidth : Option UInt32
  font : Option Text
  header : Option Text
  footer : Option Text
  browser : Option Text
  deriving DecidableEq

namespace Options

/-- Nothing said. -/
def none : Options := ⟨.none, .none, .none, false, .none, .none, .none, .none, .none⟩

end Options

/-- A whole number of 32 bits: digits, perhaps behind a plus sign. -/
def width? (t : Text) : Option UInt32 :=
  let digits := (Text.after? "+" t).getD t
  if digits.isEmpty || !digits.all Char.isDigit then none
  else
    let n := digits.foldl (fun n c => 10 * n + (c.toNat - '0'.toNat)) 0
    if n < UInt32.size then some n.toUInt32 else none

/-- What a command line asks for. -/
inductive Request
  | help
  | demo (directory : Text)
  | convert (input : Text) (options : Options)

/-- Takes an option with its value; the demonstration is asked for at once. -/
def takeValue (o : Options) (value : Text) : Valued → Except ArgumentFault Options
  | .maxWidth =>
    match width? value with
    | some w => .ok { o with maxWidth := some w }
    | none => .error (.badWidth value)
  | .font => .ok { o with font := some value }
  | .header => .ok { o with header := some value }
  | .footer => .ok { o with footer := some value }
  | .config => .ok { o with configFile := some value }
  | .browser => .ok { o with browser := some value }
  | .demo => .ok o

/-- Takes an argument that is no option. -/
def takePositional (o : Options) (argument : Text) : Except ArgumentFault Options :=
  if argument.head? = some '-' then .error (.unknownFlag argument)
  else if o.input.isNone then .ok { o with input := some argument }
  else if o.output.isNone then .ok { o with output := some argument }
  else .error (.unexpected argument)

/-- Reads the rest of a command line. -/
def parseFrom (o : Options) : List Text → Except ArgumentFault Request
  | [] =>
    match o.input with
    | some input => .ok (.convert input o)
    | none => .error .noInput
  | argument :: rest =>
    match flag? argument with
    | some .help => .ok .help
    | some .legacy => parseFrom { o with legacy := true } rest
    | some (.valued option) =>
      match rest with
      | [] => .error (.missingValue argument)
      | value :: rest =>
        if option = .demo then .ok (.demo value)
        else
          match takeValue o value option with
          | .ok o => parseFrom o rest
          | .error fault => .error fault
    | none =>
      match takePositional o argument with
      | .ok o => parseFrom o rest
      | .error fault => .error fault

/-- Reads a command line. -/
def parse (arguments : List Text) : Except ArgumentFault Request := parseFrom .none arguments

end Letterpress.Command
