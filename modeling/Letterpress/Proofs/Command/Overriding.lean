/-
# Flags above the configuration file

The file is read when the whole command line has been, so the flags stand above it wherever
it is named (`flagsOverride_of_overrides`). One value counts as none: a blank font.
-/

import Letterpress.Proofs.Command.Grouping
import Letterpress.Proofs.Email.ConfigReading
import Letterpress.Proofs.Text.Encoding

namespace Letterpress.Command

variable {fs : FileSystem} {gs : List Group}

/-- An image that is the one a flag names, or else the configured one. -/
structure ImageOverrides (fs : FileSystem) (value configured image : Option Text) : Prop where
  named : ∀ v, value = some v → ∃ source, imageSource fs v = .ok source ∧ image = some source
  unnamed : value = none → image = configured

theorem imageOverrides_of_imageOption {value configured image : Option Text}
    (h : imageOption fs configured value = .ok image) :
    ImageOverrides fs value configured image := by
  cases value with
  | none => exact ⟨nofun, fun _ => (Except.ok.inj h).symm⟩
  | some v =>
      refine ⟨fun w hw => ?_, nofun⟩
      cases hw
      rw [imageOption] at h
      cases hsource : imageSource fs v with
      | error fault =>
          rw [hsource] at h
          cases h
      | ok source =>
          rw [hsource] at h
          exact ⟨source, rfl, (Except.ok.inj h).symm⟩

/-- A configuration in which the flags of a command line stand above another configuration.
Settings that no flag names are those of the other one. -/
structure FlagsOverride (fs : FileSystem) (gs : List Group) (base c : Config) : Prop where
  legacy : .bare .legacy ∈ gs → c.dialect = .legacy
  notLegacy : .bare .legacy ∉ gs → c.dialect = base.dialect
  maxWidth : ∀ v, last? .maxWidth gs = some v →
    ∃ w, width? v = some w ∧ c.maxWidth = Config.clampWidth w
  noMaxWidth : last? .maxWidth gs = none → c.maxWidth = base.maxWidth
  font : ∀ v, last? .font gs = some v → Text.isBlankText v = false → c.font = v
  /-- Fonts that are not named or blank. -/
  noFont : (∀ v, last? .font gs = some v → Text.isBlankText v = true) → c.font = base.font
  header : ImageOverrides fs (last? .header gs) base.headerImage c.headerImage
  footer : ImageOverrides fs (last? .footer gs) base.footerImage c.footerImage

/-- A value that counts has been given. -/
theorem mem_of_last? {option : Valued} {v : Text} (h : last? option gs = some v) :
    .valued option v ∈ gs := by
  obtain ⟨g, hg, hvalue⟩ := List.mem_filterMap.mp (List.mem_of_getLast? h)
  cases g with
  | positional argument | bare flag => cases hvalue
  | valued other value =>
      by_cases hsame : other = option
      · rw [Group.value?, if_pos hsame] at hvalue
        cases hvalue
        rwa [← hsame]
      · rw [Group.value?, if_neg hsame] at hvalue
        cases hvalue

theorem flagsOverride_of_overrides {base c : Config} (hsound : Sound gs)
    (h : Overrides fs (Options.ofGroups gs) base c) : FlagsOverride fs gs base c where
  legacy := fun hmem => by simp [h.dialect, Options.ofGroups, hmem]
  notLegacy := fun hmem => by simp [h.dialect, Options.ofGroups, hmem]
  maxWidth := fun v hv => by
    have hfits := hsound.fits _ (mem_of_last? hv)
    obtain ⟨w, hw⟩ := Option.isSome_iff_exists.mp (hfits.2 rfl)
    exact ⟨w, hw, by simp [h.maxWidth, Options.ofGroups, hv, hw]⟩
  noMaxWidth := fun hnone => by simp [h.maxWidth, Options.ofGroups, hnone]
  font := fun v hv hblank => by simp [h.font, Options.ofGroups, hv, hblank, Option.filter]
  noFont := fun hblank => by
    cases hlast : last? .font gs with
    | none => simp [h.font, Options.ofGroups, hlast]
    | some v => simp [h.font, Options.ofGroups, hlast, hblank v hlast, Option.filter]
  header := imageOverrides_of_imageOption h.header
  footer := imageOverrides_of_imageOption h.footer

/-- Flags may stand in any order: only the positional arguments and the values of each option
have one. The configuration file is looked at last, wherever it is named, and every flag
stands above it; a font counts unless it is blank. -/
theorem run_of_groups :
    (∀ (w : World) (first second : List Text), Reordered first second → ReachesEnd first →
      run w first = run w second) ∧
    ∀ (w : World) (arguments : List Text) (input : Text) (o : Options) (job : Job),
      parse arguments = .ok (.convert input o) → prepare w.files input o = .ok job →
      run w arguments = deliver w job ∧
      ∃ base c imported, baseConfig w.files (last? .config (cut arguments)) = .ok base ∧
        FlagsOverride w.files (cut arguments) base c ∧
        Prepared w.files input o c imported job := by
  constructor
  · intro w first second hreordered hend
    exact run_eq_of_reordered w hreordered hend
  · intro w arguments input o job hparse hprepare
    have hend : ReachesEnd arguments := .inr ⟨input, o, hparse⟩
    have ho : Options.ofGroups (cut arguments) = o := by
      have hrequest := parse_eq_request hend
      rw [hparse, Options.request] at hrequest
      split at hrequest
      · cases hrequest
        rfl
      · cases hrequest
    obtain ⟨c, imported, hprepared⟩ := exists_prepared_of_prepare hprepare
    obtain ⟨base, hbase, hoverrides⟩ := exists_overrides_of_configOf hprepared.config
    subst ho
    have hflags := flagsOverride_of_overrides ((reachesEnd_iff_sound arguments).mp hend)
      hoverrides
    refine ⟨?_, base, c, imported, hbase, hflags, hprepared⟩
    rw [run, hparse]
    simp only [convert, hprepare]

section Sample

/-- A configuration that differs from the default in its font. -/
def courier : Config := { Config.default with font := "Courier" }

/-- A short body and a configuration in files. -/
def courierSample : World where
  files :=
    { entries := [(["in.html".toList], .file (Utf8.encode "<p>x</p>")),
        (["c.json".toList], .file (Utf8.encode courier.written))]
      workingDirectory := [] }
  launcher := fun _ _ _ _ => .error .notFound

theorem baseConfig_of_read {path : Text} {c : Config}
    (hread : fs.read path = .ok (Utf8.encode c.written)) : baseConfig fs (some path) = .ok c := by
  simp only [baseConfig, hread, Utf8.decode_encode, Config.parse_written]

theorem ofFile_of_read (hread : fs.read "in.html" = .ok (Utf8.encode "<p>x</p>")) :
    Import.ofFile fs "in.html" = .ok ⟨"<p>x</p>", []⟩ := by
  have htext : Import.textOf (Utf8.encode "<p>x</p>") = ("<p>x</p>".toList, []) := by
    simp only [Import.textOf, Utf8.decode_encode]
  have hword : Import.isWordDocument "in.html" = false := rfl
  simp only [Import.ofFile, hword, hread, Import.ofOctets, htext]
  rfl

theorem configOf_of_read {base : Config} {o : Options}
    (hread : fs.read "c.json" = .ok (Utf8.encode base.written))
    (hfile : o.configFile = some "c.json".toList) (hheader : o.header = none)
    (hfooter : o.footer = none) : configOf fs o = .ok (overridden base o) := by
  rw [configOf, hfile, hheader, hfooter, baseConfig_of_read hread]
  rfl

/-- Configurations of the sample in which no flag names an image. -/
theorem prepare_courierSample {o : Options} (hfile : o.configFile = some "c.json".toList)
    (hheader : o.header = none) (hfooter : o.footer = none) :
    prepare courierSample.files "in.html" o = .ok
      { html := generateEmail "<p>x</p>" (overridden courier o)
        warnings := []
        output := o.output.getD (defaultOutput "in.html" (overridden courier o).dialect)
        browser := o.browser } := by
  have hconfig : configOf courierSample.files o = .ok (overridden courier o) :=
    configOf_of_read rfl hfile hheader hfooter
  have hbody : Import.ofFile courierSample.files "in.html" = .ok ⟨"<p>x</p>", []⟩ :=
    ofFile_of_read rfl
  rw [prepare, hconfig]
  simp only [bind, Except.bind, hbody]
  rfl

/-- The font behind the configuration file, and the same groups with the font before it. -/
def fontLast : List Text :=
  ["in.html".toList, "--config".toList, "c.json".toList, "--legacy".toList, "-f".toList,
   "Times".toList]

@[inherit_doc fontLast]
def fontFirst : List Text :=
  ["--font".toList, "Times".toList, "--legacy".toList, "-c".toList, "c.json".toList,
   "in.html".toList]

theorem run_of_groups_font :
    run courierSample fontFirst = run courierSample fontLast ∧
    run courierSample fontLast = deliver courierSample
      { html := generateEmail "<p>x</p>" { courier with dialect := .legacy, font := "Times" }
        warnings := []
        output := "in-email-outlook.html"
        browser := none } := by
  have hreordered : Reordered fontFirst fontLast :=
    ⟨by decide, by decide, fun option => by cases option <;> decide⟩
  have hend : ReachesEnd fontFirst :=
    .inr ⟨"in.html", Options.ofGroups (cut fontFirst), rfl⟩
  have hparse : parse fontLast = .ok (.convert "in.html" (Options.ofGroups (cut fontLast))) :=
    rfl
  have hprepare := prepare_courierSample (o := Options.ofGroups (cut fontLast)) rfl rfl rfl
  exact ⟨run_of_groups.1 courierSample fontFirst fontLast hreordered hend,
    (run_of_groups.2 courierSample fontLast "in.html" _ _ hparse hprepare).1⟩

/-- A blank font behind the configuration file. -/
def blankFont : List Text :=
  ["in.html".toList, "--config".toList, "c.json".toList, "--font".toList, " ".toList]

theorem blank_font_keeps_configured :
    parse blankFont = .ok (.convert "in.html" (Options.ofGroups (cut blankFont))) ∧
    last? .font (cut blankFont) = some " ".toList ∧
    prepare courierSample.files "in.html" (Options.ofGroups (cut blankFont)) = .ok
      { html := generateEmail "<p>x</p>" courier
        warnings := []
        output := "in-email.html"
        browser := none } ∧
    courier.font ≠ " ".toList := by
  have hprepare := prepare_courierSample (o := Options.ofGroups (cut blankFont)) rfl rfl rfl
  exact ⟨rfl, by decide, hprepare, by decide⟩

end Sample

end Letterpress.Command
