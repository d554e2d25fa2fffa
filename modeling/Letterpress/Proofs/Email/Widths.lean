/-
# Widths of configurations

A configuration comes from a command line, from the fields of a call or from a JSON text. A
flag takes its width into the editor's range, a field is raised to the least width, and the
default is above it. A width that stands in a JSON text is taken as it is, in a file as in a
call. So a narrow width comes from a JSON text that asks for it, and from nowhere else
(`Route.isNarrow_iff_isNarrowText`).
-/

import Letterpress.Proofs.Command.Overriding
import Letterpress.Proofs.Foreign.Output

namespace Letterpress

namespace Config

/-- Whether the width is below the least one. -/
def IsNarrow (c : Config) : Prop := c.maxWidth < minMaxWidth

/-- A configuration that stands in octets as a JSON text. -/
def IsReadFrom (c : Config) (bytes : Octets) : Prop :=
  ∃ t, Utf8.decode bytes = .ok t ∧ parse t = .ok c

/-- The JSON text of a configuration with a width below the least one. -/
def IsNarrowText (bytes : Octets) : Prop := ∃ c : Config, c.IsReadFrom bytes ∧ c.IsNarrow

variable {c other : Config} {bytes : Octets}

/-- A text stands for one configuration. -/
theorem IsReadFrom.eq (h : c.IsReadFrom bytes) (hother : other.IsReadFrom bytes) : c = other := by
  obtain ⟨t, hdecode, hparse⟩ := h
  obtain ⟨t', hdecode', hparse'⟩ := hother
  cases hdecode.symm.trans hdecode'
  exact Except.ok.inj (hparse.symm.trans hparse')

theorem IsReadFrom.isNarrowText_iff (h : c.IsReadFrom bytes) :
    IsNarrowText bytes ↔ c.IsNarrow := by
  constructor
  · rintro ⟨other, hother, hnarrow⟩
    rwa [h.eq hother]
  · exact fun hnarrow => ⟨c, h, hnarrow⟩

theorem isReadFrom_encode_written (c : Config) : c.IsReadFrom (Utf8.encode c.written) :=
  ⟨c.written, Utf8.decode_encode c.written, parse_written c⟩

/-! ## Bounds -/

theorem le_max_left (v w : UInt32) : v ≤ max v w := by
  change v ≤ if v ≤ w then w else v
  split
  · assumption
  · exact UInt32.le_refl v

theorem le_max_right (v w : UInt32) : w ≤ max v w := by
  change w ≤ if v ≤ w then w else v
  split
  · exact UInt32.le_refl w
  · rename_i hlt
    exact UInt32.le_of_lt (UInt32.not_le.mp hlt)

theorem not_isNarrow_of_le (h : minMaxWidth ≤ c.maxWidth) : ¬ c.IsNarrow := UInt32.not_lt.mpr h

theorem not_isNarrow_default : ¬ default.IsNarrow := by
  rw [IsNarrow]
  decide

/-- The editor's range lies above the least width. -/
theorem minMaxWidth_le_clampWidth (requested : UInt32) : minMaxWidth ≤ clampWidth requested :=
  UInt32.le_trans (by decide) (le_max_left narrowest (min widest requested))

end Config

open Config

/-! ## Command lines -/

namespace Command

variable {fs : FileSystem} {gs : List Group} {base c : Config}

theorem baseConfig_some_eq_ok_iff {path : Text} :
    baseConfig fs (some path) = .ok base ↔
      ∃ bytes, fs.read path = .ok bytes ∧ base.IsReadFrom bytes := by
  cases hread : fs.read path with
  | error fault => simp [baseConfig, hread]
  | ok bytes =>
      cases hdecode : Utf8.decode bytes with
      | error fault => simp [baseConfig, hread, hdecode, IsReadFrom]
      | ok t =>
          cases hparse : Config.parse t with
          | error fault => simp [baseConfig, hread, hdecode, hparse, IsReadFrom]
          | ok read => simp [baseConfig, hread, hdecode, hparse, IsReadFrom]

/-- A flag for the width leaves no narrow one, and without it the file decides. -/
theorem FlagsOverride.isNarrow_iff (h : FlagsOverride fs gs base c) :
    c.IsNarrow ↔ last? .maxWidth gs = none ∧ base.IsNarrow := by
  cases hlast : last? .maxWidth gs with
  | none => simp [IsNarrow, h.noMaxWidth hlast]
  | some v =>
      obtain ⟨w, -, hw⟩ := h.maxWidth v hlast
      have hwide : ¬ c.IsNarrow := not_isNarrow_of_le (hw ▸ minMaxWidth_le_clampWidth w)
      simp [hwide]

theorem isNarrow_iff_of_configOf {arguments : List Text} {input : Text} {o : Options}
    (hparse : parse arguments = .ok (.convert input o)) (hconfig : configOf fs o = .ok c) :
    c.IsNarrow ↔ last? .maxWidth (cut arguments) = none ∧ ∃ path bytes,
      last? .config (cut arguments) = some path ∧ fs.read path = .ok bytes ∧
        IsNarrowText bytes := by
  have hsound := (reachesEnd_iff_sound arguments).mp (.inr ⟨input, o, hparse⟩)
  obtain rfl := eq_ofGroups_of_parse hparse
  obtain ⟨base, hbase, hoverrides⟩ := exists_overrides_of_configOf hconfig
  rw [(flagsOverride_of_overrides hsound hoverrides).isNarrow_iff]
  apply and_congr_right
  intro _
  change baseConfig fs (last? .config (cut arguments)) = _ at hbase
  cases hfile : last? .config (cut arguments) with
  | none =>
      rw [hfile] at hbase
      cases hbase
      simp [not_isNarrow_default]
  | some path =>
      rw [hfile] at hbase
      obtain ⟨bytes, hread, hfrom⟩ := baseConfig_some_eq_ok_iff.mp hbase
      simp [hread, hfrom.isNarrowText_iff]

end Command

/-! ## Calls -/

namespace Foreign

variable {c : Config}

theorem RawConfig.not_isNarrow_config {raw : RawConfig} (h : raw.config = .ok c) :
    ¬ c.IsNarrow := by
  obtain ⟨font, -, h⟩ := exists_of_bind_eq_ok h
  obtain ⟨header, -, h⟩ := exists_of_bind_eq_ok h
  obtain ⟨footer, -, h⟩ := exists_of_bind_eq_ok h
  cases h
  apply not_isNarrow_of_le
  dsimp only
  split
  · decide
  · exact le_max_right raw.maxWidth minMaxWidth

theorem isNarrow_iff_of_config {argument : ConfigArgument} (h : argument.config = .ok c) :
    c.IsNarrow ↔ ∃ raw, argument = .json (some raw) ∧ IsNarrowText raw.content := by
  cases argument with
  | fields raw =>
      have hwide : ¬ c.IsNarrow := by
        cases raw with
        | none =>
            cases h
            exact not_isNarrow_default
        | some raw => exact raw.not_isNarrow_config h
      simp [hwide]
  | json raw =>
      cases raw with
      | none =>
          cases h
          simp [not_isNarrow_default]
      | some raw =>
          have hfrom : c.IsReadFrom raw.content := by
            simp only [ConfigArgument.config] at h
            split at h
            · cases h
            · rename_i t hdecode
              split at h
              · rename_i read hparse
                cases h
                exact ⟨t, hdecode, hparse⟩
              · cases h
          simp [hfrom.isNarrowText_iff]

end Foreign

/-! ## Routes -/

open Command Foreign

/-- The ways to the generator. -/
inductive Route
  | command (w : World) (arguments : List Text)
  | call (passed : Call)

namespace Route

/-- The configurations that emails are made with on a route. -/
inductive HandsOn : Route → Config → Prop
  | convert {w : World} {arguments : List Text} {input : Text} {o : Options} {c : Config}
      {imported : Imported} {job : Job} (parsed : parse arguments = .ok (.convert input o))
      (prepared : Prepared w.files input o c imported job) : HandsOn (.command w arguments) c
  | demo {w : World} {arguments : List Text} {directory : Text} (dialect : Dialect)
      (parsed : parse arguments = .ok (.demo directory)) :
      HandsOn (.command w arguments) { Config.default with dialect := dialect }
  | call {passed : Call} {body : Text} {c : Config} (inputs : passed.inputs = .ok (body, c)) :
      HandsOn (.call passed) c

-- Every email is made with a configuration that some route hands on: that of a job, those of the
-- demonstrations and that of a call.

theorem exists_handsOn_of_prepare {w : World} {arguments : List Text} {input : Text} {o : Options}
    {job : Job} (hparse : parse arguments = .ok (.convert input o))
    (h : prepare w.files input o = .ok job) :
    ∃ body c, HandsOn (.command w arguments) c ∧ job.html = generateEmail body c := by
  obtain ⟨c, imported, hprepared⟩ := exists_prepared_of_prepare h
  exact ⟨imported.html, c, .convert hparse hprepared, hprepared.html⟩

theorem exists_handsOn_of_mem_demonstrations (w : World) {arguments : List Text}
    {directory : Text} {d : Text × Text} (hparse : parse arguments = .ok (.demo directory))
    (hmem : d ∈ demonstrations) :
    ∃ body c, HandsOn (.command w arguments) c ∧ d.2 = generateEmail body c := by
  obtain ⟨⟨name, body⟩, -, hmem⟩ := List.mem_flatMap.mp hmem
  obtain ⟨dialect, -, rfl⟩ := List.mem_map.mp hmem
  exact ⟨body, _, .demo dialect hparse, rfl⟩

theorem exists_handsOn_of_document {passed : Call} {html : Text}
    (h : passed.document = .ok html) :
    ∃ body c, HandsOn (.call passed) c ∧ html = generateEmail body c := by
  obtain ⟨⟨body, c⟩, hinputs, hrefused⟩ := exists_of_bind_eq_ok h
  change (if _ then _ else _) = _ at hrefused
  split at hrefused
  · cases hrefused
  · cases hrefused
    exact ⟨body, c, .call hinputs, rfl⟩

/-- The octets of the JSON text that decides over the width: those of the configuration file
where a job has no flag for the width, and in a call those that are passed in place of fields. -/
def TakesWidthFrom (bytes : Octets) : Route → Prop
  | .command w arguments =>
    (∃ input o, parse arguments = .ok (.convert input o)) ∧
      last? .maxWidth (cut arguments) = none ∧
      ∃ path, last? .config (cut arguments) = some path ∧ w.files.read path = .ok bytes
  | .call passed => ∃ raw, passed.config = .json (some raw) ∧ raw.content = bytes

/-- The width of a configuration that emails are made with is below the least one exactly if
the JSON text that decides over it asks for that. Flags, fields, defaults and demonstrations
never give such a width. -/
theorem isNarrow_iff_isNarrowText {route : Route} {c : Config} (h : route.HandsOn c) :
    c.IsNarrow ↔ ∃ bytes, route.TakesWidthFrom bytes ∧ IsNarrowText bytes := by
  cases h with
  | convert hparse hprepared =>
      rw [isNarrow_iff_of_configOf hparse hprepared.config]
      constructor
      · rintro ⟨hflag, path, bytes, hpath, hread, hnarrow⟩
        exact ⟨bytes, ⟨⟨_, _, hparse⟩, hflag, path, hpath, hread⟩, hnarrow⟩
      · rintro ⟨bytes, ⟨-, hflag, path, hpath, hread⟩, hnarrow⟩
        exact ⟨hflag, path, bytes, hpath, hread, hnarrow⟩
  | demo dialect hparse =>
      refine iff_of_false not_isNarrow_default ?_
      rintro ⟨bytes, ⟨⟨input, o, hconvert⟩, -⟩, -⟩
      rw [hparse] at hconvert
      cases hconvert
  | call hinputs =>
      rw [isNarrow_iff_of_config (config_of_inputs hinputs)]
      constructor
      · rintro ⟨raw, hraw, hnarrow⟩
        exact ⟨_, ⟨raw, hraw, rfl⟩, hnarrow⟩
      · rintro ⟨bytes, ⟨raw, hraw, rfl⟩, hnarrow⟩
        exact ⟨raw, hraw, hnarrow⟩

section Sample

/-- A configuration with a width of one pixel. -/
def onePixel : Config := { Config.default with maxWidth := 1 }

/-- A short body, and a configuration file that asks for one pixel. -/
def narrowSample : World where
  files :=
    { entries := [(["in.html".toList], .file (Utf8.encode "<p>x</p>")),
        (["c.json".toList], .file (Utf8.encode onePixel.written))]
      workingDirectory := [] }
  launcher := fun _ _ _ _ => .error .notFound

/-- Names the configuration file, and lets a flag decide the width. -/
def narrowFlag : List Text :=
  ["in.html".toList, "--config".toList, "c.json".toList, "--max-width".toList, "1".toList]

@[inherit_doc narrowFlag]
def narrowFile : List Text := ["in.html".toList, "--config".toList, "c.json".toList]

/-- A call that passes the same configuration as a text. -/
def narrowCall : Call := ⟨some [], .json (some (.ofText onePixel.written)), true⟩

theorem inputs_narrowCall : narrowCall.inputs = .ok ([], onePixel) := by
  have hconfig : narrowCall.config.config = .ok onePixel :=
    ConfigArgument.config_json_written onePixel
  have hbody : Utf8.decode [] = .ok [] := rfl
  simp only [Call.inputs, narrowCall, hbody] at hconfig ⊢
  rw [hconfig]
  rfl

theorem isNarrow_onePixel : onePixel.IsNarrow := by
  rw [Config.IsNarrow]
  decide

theorem exists_prepared_narrowSample {o : Options} (hfile : o.configFile = some "c.json".toList)
    (hheader : o.header = none) (hfooter : o.footer = none) :
    ∃ imported job,
      Prepared narrowSample.files "in.html" o (overridden onePixel o) imported job :=
  ⟨_, ⟨generateEmail "<p>x</p>" (overridden onePixel o), _, _, _⟩,
    configOf_of_read rfl hfile hheader hfooter, ofFile_of_read rfl, rfl, rfl, rfl, rfl⟩

theorem isNarrow_iff_isNarrowText_narrow :
    (∃ c, HandsOn (.command narrowSample narrowFlag) c ∧
      (c.IsNarrow ↔ ∃ bytes, TakesWidthFrom bytes (.command narrowSample narrowFlag) ∧
        IsNarrowText bytes)) ∧
    HandsOn (.call narrowCall) onePixel ∧
    ∃ bytes, TakesWidthFrom bytes (.call narrowCall) ∧ IsNarrowText bytes := by
  have hparse : parse narrowFlag =
      .ok (.convert "in.html" (Options.ofGroups (cut narrowFlag))) := rfl
  obtain ⟨imported, job, hprepared⟩ := exists_prepared_narrowSample
    (o := Options.ofGroups (cut narrowFlag)) (by decide) (by decide) (by decide)
  have hcommand := HandsOn.convert hparse hprepared
  have hcall := HandsOn.call inputs_narrowCall
  exact ⟨⟨_, hcommand, isNarrow_iff_isNarrowText hcommand⟩, hcall,
    (isNarrow_iff_isNarrowText hcall).mp isNarrow_onePixel⟩

/-- A file and a text of a call that ask for one pixel are both taken as they are. -/
theorem narrow_texts_are_taken :
    (∃ c, HandsOn (.command narrowSample narrowFile) c ∧ c.maxWidth < 100) ∧
    ∃ c, HandsOn (.call narrowCall) c ∧ c.maxWidth < 100 := by
  constructor
  · have hparse : parse narrowFile =
        .ok (.convert "in.html" (Options.ofGroups (cut narrowFile))) := rfl
    obtain ⟨imported, job, hprepared⟩ := exists_prepared_narrowSample
      (o := Options.ofGroups (cut narrowFile)) (by decide) (by decide) (by decide)
    exact ⟨_, .convert hparse hprepared, by decide⟩
  · exact ⟨onePixel, .call inputs_narrowCall, by decide⟩

end Sample

end Route

end Letterpress
