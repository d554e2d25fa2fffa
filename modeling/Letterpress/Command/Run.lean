/-
# Running the command

From a command line to an exit code, messages and files. Everything that can
be wrong with the input is found out before the first file is written.
-/

import Letterpress.Command.Options
import Letterpress.Email.ConfigText
import Letterpress.Email.Generation
import Letterpress.Email.Sample
import Letterpress.Export
import Letterpress.Import
import Letterpress.Print.Browser

namespace Letterpress.Command

/-- What the command works on: files, and programs to print with. -/
structure World where
  files : FileSystem
  launcher : FileSystem → Browser.Launcher

/-- What a run comes to: the exit code, the lines of messages, and the files. -/
structure Outcome where
  code : Nat
  messages : List Text
  files : FileSystem

/-- Why a conversion stops. -/
inductive RunFault
  | configFile (path : Text) (fault : FileFault)
  | configNotText (path : Text)
  | config (path : Text) (f : Failure)
  | failed (f : Failure)

namespace RunFault

/-- The fault in words. -/
def message : RunFault → Text
  | configFile path fault => "Error reading '" ++ path ++ "': " ++ fault.message
  | configNotText path =>
    "Error reading '" ++ path ++ "': stream did not contain valid UTF-8"
  | config path f => "Error in '" ++ path ++ "': " ++ f.message
  | failed f => "Error: " ++ f.message

end RunFault

/-- The configuration of a file, or the default. -/
def baseConfig (fs : FileSystem) : Option Text → Except RunFault Config
  | none => .ok Config.default
  | some path =>
    match fs.read path with
    | .error fault => .error (.configFile path fault)
    | .ok bytes =>
      match Utf8.decode bytes with
      | .error _ => .error (.configNotText path)
      | .ok t =>
        match Config.parse t with
        | .ok c => .ok c
        | .error fault => .error (.config path (.config t fault))

/-- Whether an image is given by a reference and not by a file. -/
def isReference (value : Text) : Bool :=
  let small := Text.lower value
  [("data:" : Text), "http://", "https://"].any fun lead => lead.isPrefixOf small

/-- The source of an image: a reference as it is, a file as a data URI. -/
def imageSource (fs : FileSystem) (value : Text) : Except RunFault Text :=
  if isReference value then .ok value
  else
    match Payload.ofFile fs value with
    | .ok payload => .ok payload.uri
    | .error f => .error (.failed f)

/-- The configuration with what options say of texts and sizes. -/
def overridden (c : Config) (o : Options) : Config :=
  { c with
    dialect := if o.legacy then .legacy else c.dialect
    maxWidth := (o.maxWidth.map Config.clampWidth).getD c.maxWidth
    font := (o.font.filter fun f => !Text.isBlankText f).getD c.font }

/-- An optional image: the one that an option names, or else the configured one. -/
def imageOption (fs : FileSystem) (configured : Option Text) :
    Option Text → Except RunFault (Option Text)
  | none => .ok configured
  | some value => (imageSource fs value).map some

/-- The configuration of a run: a file first, then options. -/
def configOf (fs : FileSystem) (o : Options) : Except RunFault Config := do
  let c ← baseConfig fs o.configFile
  let header ← imageOption fs c.headerImage o.header
  let footer ← imageOption fs c.footerImage o.footer
  return { overridden c o with headerImage := header, footerImage := footer }

/-- Where the email of an input goes if nothing is said about it. -/
def defaultOutput (input : Text) (dialect : Dialect) : Text :=
  Path.withFileName input
    (Export.fileName ((Path.stem? input).map fun stem => stem ++ "-email") dialect)

/-- What is to be written, and how it is to be printed. -/
structure Job where
  html : Text
  warnings : List Text
  output : Text
  browser : Option Text

/-- Everything up to the first file written. -/
def prepare (fs : FileSystem) (input : Text) (o : Options) : Except RunFault Job := do
  let c ← configOf fs o
  match Import.ofFile fs input with
  | .error f => throw (.failed f)
  | .ok imported =>
    return {
      html := generateEmail imported.html c
      warnings := imported.notes.map fun note => "warning: " ++ note.message
      output := o.output.getD (defaultOutput input c.dialect)
      browser := o.browser }

/-- The message of a file written. -/
def wrote (path : Text) (size : Nat) : Text :=
  "Wrote '" ++ path ++ "' (" ++ Text.decimal size ++ " bytes)"

/-- The message of a file not written. -/
def notWritten (path reason : Text) : Text := "Error writing '" ++ path ++ "': " ++ reason

/-- Prints a document next to its file. -/
def printBeside (w : World) (program html path : Text) : Outcome :=
  let backend := Browser.backend (w.launcher w.files) program []
  match (Print.document backend html []).1 with
  | .error fault => ⟨1, ["Error: " ++ fault.message], w.files⟩
  | .ok pdf =>
    let pdfPath := Path.withExtension path "pdf"
    match w.files.write pdfPath pdf with
    | .error fault => ⟨1, [notWritten pdfPath fault.message], w.files⟩
    | .ok files => ⟨0, [wrote pdfPath pdf.length], files⟩

/-- The name of a file at a path that names none. -/
def unnamedFile : Text := "email-template.html"

/-- Writes what a job holds, and prints it. -/
def deliver (w : World) (job : Job) : Outcome :=
  let directory := (Path.parent? job.output).getD []
  let name := (Path.fileName? job.output).getD unnamedFile
  match Export.write w.files directory name job.html with
  | (files, .error f) => ⟨1, job.warnings ++ [notWritten job.output f.message], files⟩
  | (files, .ok written) =>
    let said := job.warnings ++ [wrote written.path written.size]
    match job.browser with
    | none => ⟨0, said, files⟩
    | some program =>
      let printed := printBeside { w with files := files } program job.html written.path
      { printed with messages := said ++ printed.messages }

/-- Converts an input. -/
def convert (w : World) (input : Text) (o : Options) : Outcome :=
  match prepare w.files input o with
  | .error fault => ⟨1, [fault.message], w.files⟩
  | .ok job => deliver w job

/-- The samples in both dialects, each with the name of its file. -/
def demonstrations : List (Text × Text) :=
  Sample.all.flatMap fun (name, body) =>
    [Dialect.responsive, .legacy].map fun dialect =>
      (Export.fileName (some name) dialect,
        generateEmail body { Config.default with dialect := dialect })

/-- Writes documents into a directory up to the first that cannot be written. -/
def writeAll (directory : Text) : List (Text × Text) → FileSystem → Outcome
  | [], fs => ⟨0, [], fs⟩
  | (name, html) :: rest, fs =>
    match Export.write fs directory name html with
    | (fs, .error f) => ⟨1, [notWritten name f.message], fs⟩
    | (fs, .ok written) =>
      let later := writeAll directory rest fs
      { later with messages := wrote written.path written.size :: later.messages }

/-- Runs the command on arguments. -/
def run (w : World) (arguments : List Text) : Outcome :=
  match parse arguments with
  | .error fault => ⟨1, fault.lines, w.files⟩
  | .ok .help => ⟨0, usage, w.files⟩
  | .ok (.demo directory) => writeAll directory demonstrations w.files
  | .ok (.convert input o) => convert w input o

end Letterpress.Command
