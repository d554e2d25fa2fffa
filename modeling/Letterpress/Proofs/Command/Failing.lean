/-
# Runs that fail

Nothing is written before everything has been read, and the print is the last thing asked
for. So a run that fails either leaves all files as they were or has written its document
and then failed to print it (`run_keeps_files_of_failure`).
-/

import Letterpress.Proofs.Command.Preparing
import Letterpress.Proofs.Files.Writing

namespace Letterpress.Command

variable {w : World}

/-- The path of the document that a job writes. -/
def Job.path (job : Job) : Text :=
  Path.join ((Path.parent? job.output).getD []) ((Path.fileName? job.output).getD unnamedFile)

/-- Why a document that has been written is not printed beside its file, with the line that
says so. -/
inductive NotPrinted (w : World) (program html path : Text) : Text → Prop
  | print {fault : PrintFault}
      (hprint : (Print.document (Browser.backend (w.launcher w.files) program []) html []).1 =
        .error fault) :
      NotPrinted w program html path ("Error: " ++ fault.message)
  | file {pdf : Octets} {fault : FileFault}
      (hprint : (Print.document (Browser.backend (w.launcher w.files) program []) html []).1 =
        .ok pdf)
      (hwrite : w.files.write (Path.withExtension path "pdf") pdf = .error fault) :
      NotPrinted w program html path (notWritten (Path.withExtension path "pdf") fault.message)

theorem printBeside_failure {program html path : Text}
    (h : (printBeside w program html path).code ≠ 0) :
    ∃ line, NotPrinted w program html path line ∧
      printBeside w program html path = ⟨1, [line], w.files⟩ := by
  cases hprint : (Print.document (Browser.backend (w.launcher w.files) program []) html []).1 with
  | error fault =>
      exact ⟨_, .print hprint, by simp only [printBeside, hprint]⟩
  | ok pdf =>
      cases hwrite : w.files.write (Path.withExtension path "pdf") pdf with
      | error fault => exact ⟨_, .file hprint hwrite, by simp only [printBeside, hprint, hwrite]⟩
      | ok files => simp only [printBeside, hprint, hwrite, ne_eq, not_true] at h

/-- An outcome of a run that has written the document of a job and then failed to print it. -/
structure StopsAtPrint (w : World) (job : Job) (outcome : Outcome) : Prop where
  /-- The document is where it belongs, and no other file is another one. -/
  writes : w.files.Writes job.path (Utf8.encode job.html) outcome.files
  /-- The document has been announced, and the last line is about the print. -/
  print : ∃ program line, job.browser = some program ∧
    NotPrinted { w with files := outcome.files } program job.html job.path line ∧
    outcome.messages = job.warnings ++ [wrote job.path (Text.size job.html), line]

theorem deliver_failure {job : Job} (h : (deliver w job).code ≠ 0) :
    w.files.KeepsFiles (deliver w job).files ∨ StopsAtPrint w job (deliver w job) := by
  have hexport := Export.write_cases w.files ((Path.parent? job.output).getD [])
    ((Path.fileName? job.output).getD unnamedFile) job.html
  rcases hexport with ⟨files, f, hwrite, hkeep⟩ | ⟨files, hwrite, hwrites⟩
  · left
    simpa only [deliver, hwrite] using hkeep
  · right
    cases hbrowser : job.browser with
    | none => simp only [deliver, hwrite, hbrowser, ne_eq, not_true] at h
    | some program =>
        simp only [deliver, hwrite, hbrowser] at h
        obtain ⟨line, hline, hprinted⟩ := printBeside_failure h
        have hdeliver : deliver w job =
            ⟨1, job.warnings ++ [wrote job.path (Text.size job.html), line], files⟩ := by
          simp only [deliver, hwrite, hbrowser, hprinted, List.append_assoc]
          rfl
        rw [hdeliver]
        exact ⟨hwrites, program, line, hbrowser, hline, rfl⟩

theorem eq_of_flag?_demo {argument : Text} (h : flag? argument = some (.valued .demo)) :
    argument = "--demo".toList := by
  obtain ⟨f, hfound, hdemo⟩ := Option.map_eq_some_iff.mp h
  have honly : ∀ f ∈ flags, f.2 = .valued .demo → f.1 = "--demo".toList := by decide
  have hspelling : f.1 = argument := by simpa using List.find?_some hfound
  rw [← hspelling]
  exact honly f (List.mem_of_find?_eq_some hfound) hdemo

theorem mem_of_parseFrom_eq_demo {o : Options} {arguments : List Text} {directory : Text}
    (h : parseFrom o arguments = .ok (.demo directory)) : "--demo".toList ∈ arguments := by
  fun_induction parseFrom o arguments with
  | case1 | case2 | case3 | case5 | case8 | case10 => cases h
  | case4 o argument rest hflag ih => exact List.mem_cons_of_mem _ (ih h)
  | case6 o argument value rest hflag =>
      rw [eq_of_flag?_demo hflag]
      exact List.mem_cons_self
  | case7 o argument option hflag value rest hdemo taken htaken ih =>
      exact List.mem_cons_of_mem _ (List.mem_cons_of_mem _ (ih h))
  | case9 o argument rest hflag taken htaken ih => exact List.mem_cons_of_mem _ (ih h)

/-- A demonstration is asked for by its flag only. -/
theorem parse_ne_demo {arguments : List Text} (h : "--demo".toList ∉ arguments)
    (directory : Text) : parse arguments ≠ .ok (.demo directory) := fun hparse =>
  h (mem_of_parseFrom_eq_demo hparse)

/-- A run that fails keeps every file, or it has written its document, has said so, and fails
at the print. -/
theorem run_keeps_files_of_failure (w : World) (arguments : List Text)
    (hdemo : ∀ directory, parse arguments ≠ .ok (.demo directory))
    (hfail : (run w arguments).code ≠ 0) :
    w.files.KeepsFiles (run w arguments).files ∨
      ∃ input o c imported job, parse arguments = .ok (.convert input o) ∧
        Prepared w.files input o c imported job ∧ StopsAtPrint w job (run w arguments) := by
  rw [run] at hfail ⊢
  cases hparse : parse arguments with
  | error fault => exact .inl (.refl w.files)
  | ok request =>
      cases request with
      | help => exact .inl (.refl w.files)
      | demo directory => exact absurd hparse (hdemo directory)
      | convert input o =>
          rw [hparse] at hfail
          simp only [convert] at hfail ⊢
          cases hprepare : prepare w.files input o with
          | error fault => exact .inl (.refl w.files)
          | ok job =>
              rw [hprepare] at hfail
              obtain ⟨c, imported, hprepared⟩ := exists_prepared_of_prepare hprepare
              rcases deliver_failure hfail with hkeep | hstops
              · exact .inl hkeep
              · exact .inr ⟨input, o, c, imported, job, rfl, hprepared, hstops⟩

section Sample

/-- A short body, and no browser anywhere. -/
def browserless : World where
  files :=
    { entries := [(["in.html".toList], .file (Utf8.encode "<p>x</p>"))]
      workingDirectory := [] }
  launcher := fun _ _ _ _ => .error .notFound

/-- Asks for a print. -/
def printing : List Text := ["in.html".toList, "--pdf".toList, "browser".toList]

theorem run_keeps_files_of_failure_browserless :
    (run browserless printing).code ≠ 0 ∧
    ∃ input o c imported job, parse printing = .ok (.convert input o) ∧
      Prepared browserless.files input o c imported job ∧
      StopsAtPrint browserless job (run browserless printing) := by
  have hfail : (run browserless printing).code ≠ 0 := by
    have hcode : (run browserless printing).code = 1 := rfl
    rw [hcode]
    exact Nat.one_ne_zero
  have hwritten : ((run browserless printing).files.content? ["in-email.html".toList]).isSome :=
    rfl
  refine ⟨hfail, ?_⟩
  rcases run_keeps_files_of_failure browserless printing
      (parse_ne_demo (by decide)) hfail with hkeep | hstops
  · rw [hkeep] at hwritten
    cases hwritten
  · exact hstops

end Sample

end Letterpress.Command
