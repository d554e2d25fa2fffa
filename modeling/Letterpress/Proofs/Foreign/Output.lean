/-
# Documents that callers can take

A document is handed over up to its first zero, so one that contains U+0000 is
refused. Callers that pass the fields of a configuration never see this happen:
their texts end at the first zero, and a body brings no U+0000 into a document.
-/

import Letterpress.Proofs.Email.NullFree
import Letterpress.Proofs.Foreign.Failures

namespace Letterpress.Foreign

theorem RawText.null_not_mem_of_decode {raw : RawText} {t : Text}
    (h : Utf8.decode raw.content = .ok t) : '\x00' ∉ t := by
  have hcontent : raw.content = Utf8.encode t := Utf8.decode_eq_ok_iff.mp h
  have hzero : 0 ∉ raw.content := by
    intro hmem
    have hne := List.all_eq_true.mp List.all_takeWhile 0 hmem
    exact absurd hne (by decide)
  rw [hcontent, Utf8.zero_mem_encode_iff] at hzero
  exact hzero

theorem null_not_mem_field {name : Text} {raw : Option RawText} {o : Option Text}
    (h : field name raw = .ok o) : ∀ t ∈ o, '\x00' ∉ t := by
  cases raw with
  | none =>
      cases h
      exact nofun
  | some raw =>
      simp only [field] at h
      split at h
      case h_1 t hdecode =>
        cases h
        rintro _ ⟨⟩
        exact RawText.null_not_mem_of_decode hdecode
      case h_2 => cases h

/-- The texts of a configuration that comes as fields. -/
theorem RawConfig.null_not_mem_config {raw : RawConfig} {c : Config} (h : raw.config = .ok c) :
    '\x00' ∉ c.font ∧ (∀ s ∈ c.headerImage, '\x00' ∉ s) ∧ ∀ s ∈ c.footerImage, '\x00' ∉ s := by
  obtain ⟨font, hfont, h⟩ := exists_of_bind_eq_ok h
  obtain ⟨header, hheader, h⟩ := exists_of_bind_eq_ok h
  obtain ⟨footer, hfooter, h⟩ := exists_of_bind_eq_ok h
  cases h
  refine ⟨?_, null_not_mem_field hheader, null_not_mem_field hfooter⟩
  change '\x00' ∉ (font.filter fun f => !Text.isBlankText f).getD Config.defaultFont
  cases hchosen : font.filter fun f => !Text.isBlankText f with
  | none => decide
  | some f => exact null_not_mem_field hfont f (Option.filter_eq_some_iff.mp hchosen).1

theorem null_not_mem_of_fields {raw : Option RawConfig} {c : Config}
    (h : (ConfigArgument.fields raw).config = .ok c) :
    '\x00' ∉ c.font ∧ (∀ s ∈ c.headerImage, '\x00' ∉ s) ∧ ∀ s ∈ c.footerImage, '\x00' ∉ s := by
  cases raw with
  | none =>
      cases h
      exact ⟨by decide, nofun, nofun⟩
  | some raw => exact raw.null_not_mem_config h

theorem config_of_inputs {c : Call} {inputs : Text × Config} (h : c.inputs = .ok inputs) :
    c.config.config = .ok inputs.2 := by
  rw [Call.inputs] at h
  split at h
  · cases h
  split at h
  · cases h
  split at h
  · cases h
  · cases hconfig : c.config.config with
    | error fault =>
        rw [hconfig] at h
        cases h
    | ok config =>
        rw [hconfig] at h
        cases h
        rfl

/-- The document of a call with fields is not refused. -/
theorem fault?_ne_zeroInOutput (body : Option Octets) (raw : Option RawConfig) (hasPlace : Bool) :
    Call.fault? ⟨body, .fields raw, hasPlace⟩ ≠ some .zeroInOutput := by
  intro h
  rw [fault?_eq_some_iff] at h
  rcases cases_of_bind_eq_error h with hinputs | ⟨inputs, hinputs, -⟩
  · exact isOfInput_of_inputs hinputs
  · obtain ⟨hfont, hheader, hfooter⟩ := null_not_mem_of_fields (config_of_inputs hinputs)
    have hclean : '\x00' ∉ generateEmail inputs.1 inputs.2 := by
      intro hmem
      rcases null_mem_generateEmail hmem with hmem | ⟨s, hs, hmem⟩ | ⟨s, hs, hmem⟩
      · exact hfont hmem
      · exact hheader s hs hmem
      · exact hfooter s hs hmem
    rw [document_of_inputs hinputs hclean] at h
    cases h

/-- U+0000 in an email comes from the font or from the source of an image at one end, never from
the body; so a call with the fields of a configuration never fails because of it. -/
theorem null_comes_from_config :
    (∀ (body : Text) (c : Config), '\x00' ∈ generateEmail body c →
      '\x00' ∈ c.font ∨ (∃ s ∈ c.headerImage, '\x00' ∈ s) ∨ ∃ s ∈ c.footerImage, '\x00' ∈ s) ∧
    ∀ (s : State) (body : Option Octets) (raw : Option RawConfig) (hasPlace : Bool),
      (call s ⟨body, .fields raw, hasPlace⟩).2.code ≠ 4 := by
  refine ⟨fun body c h => null_mem_generateEmail h, fun s body raw hasPlace => ?_⟩
  cases hfault : Call.fault? ⟨body, .fields raw, hasPlace⟩ with
  | none =>
      rw [(call_of_fault?_eq_none hfault s).2]
      decide
  | some fault =>
      rw [call_of_fault? hfault]
      intro hcode
      have hzero : fault = .zeroInOutput := by
        cases fault <;> first | rfl | cases hcode
      exact fault?_ne_zeroInOutput body raw hasPlace (hzero ▸ hfault)

/-- A configuration whose font is the zero character. -/
def nullFont : Config := { Config.default with font := "\x00" }

theorem null_comes_from_config_nullFont : '\x00' ∈ generateEmail [] nullFont ∧
    ('\x00' ∈ nullFont.font ∨ (∃ s ∈ nullFont.headerImage, '\x00' ∈ s) ∨
      ∃ s ∈ nullFont.footerImage, '\x00' ∈ s) := by
  have hmem : '\x00' ∈ generateEmail [] nullFont := by decide +kernel
  exact ⟨hmem, null_comes_from_config.1 [] nullFont hmem⟩

end Letterpress.Foreign
