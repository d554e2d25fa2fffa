/-
# Runs that print

A run that prints writes its document and then the print beside it, at the same path with
another extension. The print is what stands there in the end. The document stands where it
was written unless its own path has the extension of a print: the two paths are one then,
and the print takes the place of the document (`run_prints_beside_document`).
-/

import Letterpress.Proofs.Command.Failing
import Letterpress.Proofs.Command.Grouping
import Letterpress.Proofs.Files.Naming
import Letterpress.Proofs.Print.Sessions

namespace Letterpress

/-! ## Prints and documents -/

theorem Browser.signature_prefix_of_outcome {run : Browser.Run} {pdf : Octets}
    (h : outcome run = .ok pdf) : signature <+: pdf := by
  rw [outcome] at h
  split at h
  · cases h
  · split at h
    · cases h
    · split at h
      · rename_i hsignature
        cases h
        exact List.isPrefixOf_iff_prefix.mp hsignature
      · cases h

/-- A print begins like a PDF file. -/
theorem Browser.signature_prefix {launch : Browser.Launcher} {program html : Text}
    {extra : List Text} {h : Print.History} {pdf : Octets}
    (hprint : (Print.document (backend launch program extra) html h).1 = .ok pdf) :
    signature <+: pdf := by
  by_cases hblank : Text.isBlankText html = true
  · rw [Print.document_of_isBlankText hblank] at hprint
    cases hprint
  · rw [Print.document_of_launch_ok (b := backend launch program extra) hblank rfl] at hprint
    simp only at hprint
    split at hprint
    · cases hprint
    · exact signature_prefix_of_outcome (eq_ok_of_mapError_eq_ok hprint)

theorem exists_generateEmail_eq_cons (body : Text) (c : Config) :
    ∃ rest, generateEmail body c = '<' :: rest := by
  rw [generateEmail, assemble]
  cases c.dialect <;> exact ⟨_, rfl⟩

/-- No print is the text of an email. -/
theorem Browser.ne_encode_generateEmail {pdf : Octets} (hpdf : signature <+: pdf) (body : Text)
    (c : Config) : pdf ≠ Utf8.encode (generateEmail body c) := by
  obtain ⟨rest, hemail⟩ := exists_generateEmail_eq_cons body c
  obtain ⟨more, rfl⟩ := hpdf
  have hpercent : (signature ++ more).head? = some 0x25 := rfl
  have hbracket : (Utf8.encode ('<' :: rest)).head? = some 0x3C := rfl
  intro heq
  rw [heq, hemail, hbracket] at hpercent
  exact absurd hpercent (by decide)

namespace Command

variable {w : World} {job : Job}

/-! ## Paths -/

/-- The path of the print that belongs to a job. -/
def Job.printPath (job : Job) : Text := Path.withExtension job.path "pdf"

theorem Job.exists_path_eq (job : Job) :
    ∃ lead name, Path.IsLead lead ∧ Path.IsName name ∧ job.path = lead ++ name := by
  have hname : Path.IsName ((Path.fileName? job.output).getD unnamedFile) := by
    cases hfile : Path.fileName? job.output with
    | none => exact ⟨by decide, by decide, by decide⟩
    | some name => exact Path.isName_of_fileName? hfile
  obtain ⟨lead, hlead, hpath⟩ := Path.exists_join_eq ((Path.parent? job.output).getD [])
    ((Path.fileName? job.output).getD unnamedFile)
  exact ⟨lead, _, hlead, hname, hpath⟩

/-- The print goes to the document's own path only if that has the extension of a print. -/
theorem Job.printPath_eq_path_iff (job : Job) :
    job.printPath = job.path ↔ Path.extension? job.path = some "pdf".toList := by
  obtain ⟨lead, name, hlead, hname, hpath⟩ := job.exists_path_eq
  rw [Job.printPath, hpath]
  exact Path.withExtension_eq_self_iff hlead hname

/-- Paths of a document and its print that differ lead to different places. -/
theorem Job.place_printPath_ne {fs : FileSystem} {l : Location}
    (hne : job.printPath ≠ job.path) (hplace : fs.place job.path = .ok l) :
    fs.place job.printPath ≠ .ok l := by
  obtain ⟨lead, name, hlead, hname, hpath⟩ := job.exists_path_eq
  have hprint : job.printPath = lead ++ ((Path.splitAtLastDot name).1 ++ '.' :: "pdf".toList) := by
    rw [Job.printPath, hpath, Path.withExtension_append hlead hname]
  have hother : Path.IsName ((Path.splitAtLastDot name).1 ++ '.' :: "pdf".toList) :=
    Path.isName_with_extension hname (by decide) (by decide) (by decide)
  rw [hpath] at hplace
  obtain ⟨directory, rfl, hsame⟩ := FileSystem.exists_place_of_name hlead hname hplace
  rw [hprint]
  intro hboth
  have hnames := (List.cons.inj (hsame _ hother _ hboth)).1
  exact hne ((hprint.trans (congrArg (lead ++ ·) hnames.symm)).trans hpath.symm)

/-! ## Runs -/

/-- Whether a line announces a file that has been written. -/
def isAnnouncement (line : Text) : Bool := ("Wrote '" : Text).isPrefixOf line

theorem isAnnouncement_wrote (path : Text) (size : Nat) :
    isAnnouncement (wrote path size) = true := rfl

theorem filter_isAnnouncement_warnings {fs : FileSystem} {input : Text} {o : Options}
    {c : Config} {imported : Imported} (h : Prepared fs input o c imported job) :
    job.warnings.filter isAnnouncement = [] := by
  rw [h.warnings, List.filter_eq_nil_iff]
  intro line hline
  obtain ⟨note, -, rfl⟩ := List.mem_map.mp hline
  simp [isAnnouncement]

theorem printBeside_success {program html path : Text}
    (h : (printBeside w program html path).code = 0) :
    ∃ pdf files, (Print.document (Browser.backend (w.launcher w.files) program []) html []).1 =
        .ok pdf ∧
      w.files.write (Path.withExtension path "pdf") pdf = .ok files ∧
      printBeside w program html path =
        ⟨0, [wrote (Path.withExtension path "pdf") pdf.length], files⟩ := by
  cases hprint : (Print.document (Browser.backend (w.launcher w.files) program []) html []).1 with
  | error fault => simp only [printBeside, hprint, Nat.one_ne_zero] at h
  | ok pdf =>
      cases hwrite : w.files.write (Path.withExtension path "pdf") pdf with
      | error fault => simp only [printBeside, hprint, hwrite, Nat.one_ne_zero] at h
      | ok files => exact ⟨pdf, files, rfl, hwrite, by simp only [printBeside, hprint, hwrite]⟩

/-- An outcome of a run that has written the document of a job and then its print, with the
files as they were in between. -/
structure PrintsBeside (w : World) (job : Job) (program : Text) (between : FileSystem)
    (pdf : Octets) (outcome : Outcome) : Prop where
  /-- The document is where it belongs before the print is made. -/
  document : w.files.Writes job.path (Utf8.encode job.html) between
  print : (Print.document (Browser.backend (w.launcher between) program []) job.html []).1 =
    .ok pdf
  write : between.write job.printPath pdf = .ok outcome.files
  messages : outcome.messages =
    job.warnings ++ [wrote job.path (Text.size job.html), wrote job.printPath pdf.length]

theorem deliver_success {program : Text} (hbrowser : job.browser = some program)
    (h : (deliver w job).code = 0) :
    ∃ between pdf, PrintsBeside w job program between pdf (deliver w job) := by
  have hexport := Export.write_cases w.files ((Path.parent? job.output).getD [])
    ((Path.fileName? job.output).getD unnamedFile) job.html
  rcases hexport with ⟨files, f, hwrite, -⟩ | ⟨between, hwrite, hwrites⟩
  · simp only [deliver, hwrite, Nat.one_ne_zero] at h
  · simp only [deliver, hwrite, hbrowser] at h
    obtain ⟨pdf, files, hprint, hfile, hprinted⟩ := printBeside_success h
    have hdeliver : deliver w job =
        ⟨0, job.warnings ++ [wrote job.path (Text.size job.html), wrote job.printPath pdf.length],
          files⟩ := by
      simp only [deliver, hwrite, hbrowser, hprinted, List.append_assoc]
      rfl
    rw [hdeliver]
    exact ⟨between, pdf, hwrites, hprint, hfile, rfl⟩

theorem convert_success {input program : Text} {o : Options} (hbrowser : o.browser = some program)
    (h : (convert w input o).code = 0) :
    ∃ c imported job between pdf, Prepared w.files input o c imported job ∧
      PrintsBeside w job program between pdf (convert w input o) := by
  rw [convert] at h ⊢
  cases hprepare : prepare w.files input o with
  | error fault => simp only [hprepare, Nat.one_ne_zero] at h
  | ok job =>
      rw [hprepare] at h
      obtain ⟨c, imported, hprepared⟩ := exists_prepared_of_prepare hprepare
      obtain ⟨between, pdf, hprinted⟩ := deliver_success (hprepared.browser.trans hbrowser) h
      exact ⟨c, imported, job, between, pdf, hprepared, hprinted⟩

namespace PrintsBeside

variable {program : Text} {between : FileSystem} {pdf : Octets} {outcome : Outcome}

theorem read_printPath (h : PrintsBeside w job program between pdf outcome) :
    outcome.files.read job.printPath = .ok pdf :=
  (FileSystem.writes_of_write h.write).reads

variable {fs : FileSystem} {input : Text} {o : Options} {c : Config} {imported : Imported}

theorem ne_encode (h : PrintsBeside w job program between pdf outcome)
    (hprepared : Prepared fs input o c imported job) : pdf ≠ Utf8.encode job.html := by
  rw [hprepared.html]
  exact Browser.ne_encode_generateEmail (Browser.signature_prefix h.print) imported.html c

/-- The document stays where it is exactly if the print goes to another path. -/
theorem read_path_iff (h : PrintsBeside w job program between pdf outcome)
    (hprepared : Prepared fs input o c imported job) :
    outcome.files.read job.path = .ok (Utf8.encode job.html) ↔
      Path.extension? job.path ≠ some "pdf".toList := by
  rw [Ne, ← job.printPath_eq_path_iff]
  constructor
  · intro hread hsame
    have hpdf := h.read_printPath
    rw [hsame, hread] at hpdf
    exact h.ne_encode hprepared (Except.ok.inj hpdf).symm
  · intro hother
    exact FileSystem.read_of_write_elsewhere h.document.reads h.write
      fun l hplace => Job.place_printPath_ne hother hplace

/-- The two files are announced, the document first. -/
theorem announcements (h : PrintsBeside w job program between pdf outcome)
    (hprepared : Prepared fs input o c imported job) :
    outcome.messages.filter isAnnouncement =
      [wrote job.path (Text.size job.html), wrote job.printPath pdf.length] := by
  simp [h.messages, filter_isAnnouncement_warnings hprepared, isAnnouncement_wrote]

end PrintsBeside

/-- A run that is asked for a print and succeeds announces two files, a document and its print.
At the second path stands the print in the end. At the first one stands the document, the email
of the imported body, unless that path has the extension of a print. -/
theorem run_prints_beside_document (w : World) (arguments : List Text) (program : Text)
    (hbrowser : last? .browser (cut arguments) = some program)
    (hdemo : ∀ directory, parse arguments ≠ .ok (.demo directory))
    (hhelp : parse arguments ≠ .ok .help) (hsuccess : (run w arguments).code = 0) :
    ∃ input o c imported job between pdf, parse arguments = .ok (.convert input o) ∧
      Prepared w.files input o c imported job ∧
      PrintsBeside w job program between pdf (run w arguments) ∧
      (run w arguments).messages.filter isAnnouncement =
        [wrote job.path (Text.size job.html), wrote job.printPath pdf.length] ∧
      (run w arguments).files.read job.printPath = .ok pdf ∧
      ((run w arguments).files.read job.path = .ok (Utf8.encode (generateEmail imported.html c)) ↔
        Path.extension? job.path ≠ some "pdf".toList) := by
  cases hparse : parse arguments with
  | error fault =>
      rw [run, hparse] at hsuccess
      exact absurd hsuccess Nat.one_ne_zero
  | ok request =>
      cases request with
      | help => exact absurd hparse hhelp
      | demo directory => exact absurd hparse (hdemo directory)
      | convert input o =>
          have ho : o.browser = some program := by
            rw [eq_ofGroups_of_parse hparse]
            exact hbrowser
          have hrun : run w arguments = convert w input o := by rw [run, hparse]
          rw [hrun] at hsuccess ⊢
          obtain ⟨c, imported, job, between, pdf, hprepared, hprinted⟩ :=
            convert_success ho hsuccess
          have hdocument := hprinted.read_path_iff hprepared
          rw [hprepared.html] at hdocument
          exact ⟨input, o, c, imported, job, between, pdf, rfl, hprepared, hprinted,
            hprinted.announcements hprepared, hprinted.read_printPath, hdocument⟩

section Sample

/-- A short body, and a browser that prints every page. -/
def readyBrowser : World where
  files :=
    { entries := [(["in.html".toList], .file (Utf8.encode "<p>x</p>"))]
      workingDirectory := [] }
  launcher := fun _ _ _ page => .ok ⟨.exited 0, some (Browser.signature ++ page)⟩

/-- Asks for a document without an extension in a new directory, and for its print. -/
def printingInside : List Text :=
  ["in.html".toList, "mail/out".toList, "--pdf".toList, "browser".toList]

theorem run_prints_beside_document_inside :
    (run readyBrowser printingInside).code = 0 ∧
    ∃ input o c imported job between pdf, parse printingInside = .ok (.convert input o) ∧
      Prepared readyBrowser.files input o c imported job ∧
      PrintsBeside readyBrowser job "browser" between pdf (run readyBrowser printingInside) ∧
      job.path = "mail/out" ∧ job.printPath = "mail/out.pdf" ∧
      (run readyBrowser printingInside).files.read "mail/out.pdf" = .ok pdf ∧
      (run readyBrowser printingInside).files.read "mail/out" =
        .ok (Utf8.encode (generateEmail imported.html c)) := by
  have hparse : parse printingInside =
      .ok (.convert "in.html" (Options.ofGroups (cut printingInside))) := rfl
  obtain ⟨input, o, c, imported, job, between, pdf, hsame, hprepared, hprinted, -, hpdf, hread⟩ :=
    run_prints_beside_document readyBrowser printingInside "browser" (by decide)
      (parse_ne_demo (by decide)) (by rw [hparse]; exact nofun) rfl
  rw [hparse] at hsame
  cases hsame
  have houtput : job.output = "mail/out" := hprepared.output
  have hpath : job.path = "mail/out" := by rw [Job.path, houtput]; decide
  have hprint : job.printPath = "mail/out.pdf" := by rw [Job.printPath, hpath]; decide
  rw [hpath] at hread
  rw [hprint] at hpdf
  exact ⟨rfl, _, _, c, imported, job, between, pdf, hparse, hprepared, hprinted, hpath, hprint,
    hpdf, hread.mpr (by decide)⟩

/-- Asks for a document at the path of its print. -/
def printingOver : List Text :=
  ["in.html".toList, "out.pdf".toList, "--pdf".toList, "browser".toList]

/-- This run succeeds and announces a document that is no longer there. -/
theorem print_replaces_document :
    last? .browser (cut printingOver) = some "browser".toList ∧
    (run readyBrowser printingOver).code = 0 ∧
    ∃ o c imported job pdf, parse printingOver = .ok (.convert "in.html" o) ∧
      Prepared readyBrowser.files "in.html" o c imported job ∧
      (run readyBrowser printingOver).messages.filter isAnnouncement =
        [wrote "out.pdf" (Text.size job.html), wrote "out.pdf" (List.length pdf)] ∧
      (run readyBrowser printingOver).files.read "out.pdf" = .ok pdf ∧
      pdf ≠ Utf8.encode (generateEmail imported.html c) := by
  have hcode : (run readyBrowser printingOver).code = 0 := rfl
  have hrun : run readyBrowser printingOver =
      convert readyBrowser "in.html" (Options.ofGroups (cut printingOver)) := rfl
  have hbrowser : (Options.ofGroups (cut printingOver)).browser = some "browser".toList := by
    decide
  refine ⟨hbrowser, hcode, ?_⟩
  rw [hrun] at hcode ⊢
  obtain ⟨c, imported, job, between, pdf, hprepared, hprinted⟩ := convert_success hbrowser hcode
  have houtput : job.output = "out.pdf" := hprepared.output
  have hpath : job.path = "out.pdf" := by rw [Job.path, houtput]; decide
  have hprint : job.printPath = "out.pdf" := by rw [Job.printPath, hpath]; decide
  have hannounced := hprinted.announcements hprepared
  have hpdf := hprinted.read_printPath
  have hne := hprinted.ne_encode hprepared
  rw [hpath, hprint] at hannounced
  rw [hprint] at hpdf
  rw [hprepared.html] at hne
  exact ⟨_, c, imported, job, pdf, rfl, hprepared, hannounced, hpdf, hne⟩

end Sample

end Command

end Letterpress
