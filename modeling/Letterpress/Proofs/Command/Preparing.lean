/-
# Prepared jobs

What a job is made of that everything has been read for: the configuration, in which
options stand above the file (`Overrides`), and the imported body.
-/

import Letterpress.Command.Run
import Letterpress.Proofs.Steps

namespace Letterpress.Command

variable {fs : FileSystem} {input : Text} {o : Options} {job : Job}

/-- A configuration in which options stand above another configuration. -/
structure Overrides (fs : FileSystem) (o : Options) (base c : Config) : Prop where
  dialect : c.dialect = if o.legacy then .legacy else base.dialect
  maxWidth : c.maxWidth = (o.maxWidth.map Config.clampWidth).getD base.maxWidth
  font : c.font = (o.font.filter fun f => !Text.isBlankText f).getD base.font
  header : imageOption fs base.headerImage o.header = .ok c.headerImage
  footer : imageOption fs base.footerImage o.footer = .ok c.footerImage

theorem exists_overrides_of_configOf {c : Config} (h : configOf fs o = .ok c) :
    ∃ base, baseConfig fs o.configFile = .ok base ∧ Overrides fs o base c := by
  obtain ⟨base, hbase, h⟩ := exists_of_bind_eq_ok h
  obtain ⟨header, hheader, h⟩ := exists_of_bind_eq_ok h
  obtain ⟨footer, hfooter, h⟩ := exists_of_bind_eq_ok h
  cases h
  exact ⟨base, hbase, rfl, rfl, rfl, hheader, hfooter⟩

/-- A job whose configuration and body are the ones that were asked for. -/
structure Prepared (fs : FileSystem) (input : Text) (o : Options) (c : Config)
    (imported : Imported) (job : Job) : Prop where
  config : configOf fs o = .ok c
  body : Import.ofFile fs input = .ok imported
  html : job.html = generateEmail imported.html c
  warnings : job.warnings = imported.notes.map fun note => ("warning: " : Text) ++ note.message
  output : job.output = o.output.getD (defaultOutput input c.dialect)
  browser : job.browser = o.browser

theorem exists_prepared_of_prepare (h : prepare fs input o = .ok job) :
    ∃ c imported, Prepared fs input o c imported job := by
  obtain ⟨c, hconfig, h⟩ := exists_of_bind_eq_ok h
  cases hbody : Import.ofFile fs input with
  | error f =>
      simp only [hbody] at h
      cases h
  | ok imported =>
      simp only [hbody] at h
      cases h
      exact ⟨c, imported, hconfig, hbody, rfl, rfl, rfl, rfl⟩

end Letterpress.Command
