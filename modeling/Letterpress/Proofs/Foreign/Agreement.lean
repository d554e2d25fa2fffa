/-
# Fields or JSON

A caller may pass a configuration as fields or as a JSON text. Both ways lead to
the same configuration, and from there on a call does not see which way it came.
The text itself gets through because JSON writes the zero character as an escape.
-/

import Letterpress.Foreign
import Letterpress.Proofs.Email.ConfigReading
import Letterpress.Proofs.Steps
import Letterpress.Proofs.Text.Encoding

namespace Letterpress

namespace Foreign

/-- A text as a caller passes it. -/
def RawText.ofText (t : Text) : RawText := ⟨Utf8.encode t⟩

theorem RawText.content_ofText {t : Text} (hnull : '\x00' ∉ t) :
    (RawText.ofText t).content = Utf8.encode t := by
  have hzero : 0 ∉ Utf8.encode t := fun h => hnull ((Utf8.zero_mem_encode_iff t).mp h)
  have hall : ∀ b ∈ Utf8.encode t, (b != 0) = true := fun b hb =>
    bne_iff_ne.mpr fun h => hzero (h ▸ hb)
  have h : (Utf8.encode t ++ []).takeWhile (· != 0) = Utf8.encode t ++ [] :=
    List.takeWhile_append_of_pos hall
  rwa [List.append_nil] at h

namespace RawConfig

/-- The texts that a caller passes. -/
def texts (raw : RawConfig) : List RawText :=
  raw.font.toList ++ raw.headerImage.toList ++ raw.footerImage.toList

/-- Whether all texts are UTF-8. -/
def IsReadable (raw : RawConfig) : Prop :=
  ∀ t ∈ raw.texts, ∃ u, Utf8.decode t.content = .ok u

/-- No fields at all. -/
def zeroed : RawConfig := ⟨none, none, false, 0, none⟩

end RawConfig

/-! ## Fields and texts -/

theorem exists_field_eq_ok (name : Text) {raw : Option RawText}
    (h : ∀ t ∈ raw.toList, ∃ u, Utf8.decode t.content = .ok u) :
    ∃ o, field name raw = .ok o := by
  cases raw with
  | none => exact ⟨none, rfl⟩
  | some t =>
      obtain ⟨u, hu⟩ := h t (by simp)
      exact ⟨some u, by simp [field, hu]⟩

theorem RawConfig.IsReadable.exists_config {raw : RawConfig} (h : raw.IsReadable) :
    ∃ c, raw.config = .ok c := by
  have hmem {t : RawText} (ht : t ∈ raw.font.toList ∨ t ∈ raw.headerImage.toList ∨
      t ∈ raw.footerImage.toList) : t ∈ raw.texts := by
    simpa [texts, or_assoc] using ht
  obtain ⟨font, hfont⟩ := exists_field_eq_ok "font_family"
    fun t ht => h t (hmem (.inl ht))
  obtain ⟨header, hheader⟩ := exists_field_eq_ok "header_image"
    fun t ht => h t (hmem (.inr (.inl ht)))
  obtain ⟨footer, hfooter⟩ := exists_field_eq_ok "footer_image"
    fun t ht => h t (hmem (.inr (.inr ht)))
  exact ⟨_, by rw [config, hfont, hheader, hfooter]; rfl⟩

namespace ConfigArgument

/-- The JSON text of a configuration stands for the configuration. -/
theorem config_json_written (c : Config) :
    (ConfigArgument.json (some (.ofText c.written))).config = .ok c := by
  simp only [ConfigArgument.config, RawText.content_ofText (Config.null_not_mem_written c),
    Utf8.decode_encode, Config.parse_written]

theorem config_fields_zeroed : (ConfigArgument.fields (some .zeroed)).config = .ok .default := rfl

theorem config_json_empty :
    (ConfigArgument.json (some (.ofText "\x7b\x7d"))).config = .ok .default := rfl

end ConfigArgument

/-- A call sees of its configuration only what it stands for. -/
theorem call_congr {left right : ConfigArgument} (h : left.config = right.config) (s : State)
    (body : Option Octets) (hasPlace : Bool) :
    call s ⟨body, left, hasPlace⟩ = call s ⟨body, right, hasPlace⟩ := by
  have hinputs : Call.inputs ⟨body, left, hasPlace⟩ = Call.inputs ⟨body, right, hasPlace⟩ := by
    simp only [Call.inputs, h]
  simp only [call, Call.document, hinputs]

/-- Fields that can be read stand for a configuration, and a call with the JSON text of that
configuration does the same on every body: it leaves the same message and gives the same
answer. So do calls without fields, with zeroed fields, without a text and with an empty object. -/
theorem call_fields_eq_call_json :
    (∀ raw : RawConfig, raw.IsReadable → ∃ c, raw.config = .ok c ∧
      ∀ (s : State) (body : Option Octets) (hasPlace : Bool),
        call s ⟨body, .json (some (.ofText c.written)), hasPlace⟩ =
          call s ⟨body, .fields (some raw), hasPlace⟩) ∧
    ∀ (s : State) (body : Option Octets) (hasPlace : Bool),
      ∀ other ∈ [ConfigArgument.fields (some .zeroed), .json none,
          .json (some (.ofText "\x7b\x7d"))],
        call s ⟨body, other, hasPlace⟩ = call s ⟨body, .fields none, hasPlace⟩ := by
  constructor
  · intro raw hraw
    obtain ⟨c, hc⟩ := hraw.exists_config
    refine ⟨c, hc, fun s body hasPlace => call_congr ?_ s body hasPlace⟩
    rw [ConfigArgument.config_json_written]
    exact hc.symm
  · intro s body hasPlace other hother
    refine call_congr ?_ s body hasPlace
    simp only [List.mem_cons, List.not_mem_nil, or_false] at hother
    rcases hother with rfl | rfl | rfl
    · exact ConfigArgument.config_fields_zeroed
    · rfl
    · exact ConfigArgument.config_json_empty

/-- A font with quotes, a line break and a letter beyond ASCII, and a width that gets raised. -/
def RawConfig.quotedFont : RawConfig where
  headerImage := some (.ofText "a.png")
  footerImage := none
  legacy := true
  maxWidth := 50
  font := some (.ofText "\"Tête\"\n\\ serif")

theorem call_fields_eq_call_json_quotedFont :
    RawConfig.quotedFont.IsReadable ∧ ∃ c, RawConfig.quotedFont.config = .ok c ∧
      call .initial ⟨some [], .json (some (.ofText c.written)), true⟩ =
        call .initial ⟨some [], .fields (some .quotedFont), true⟩ := by
  have hreadable : RawConfig.quotedFont.IsReadable := by
    intro t ht
    have hread {u : Text} (hu : '\x00' ∉ u) : ∃ v, Utf8.decode (RawText.ofText u).content = .ok v :=
      ⟨u, by rw [RawText.content_ofText hu, Utf8.decode_encode]⟩
    simp only [RawConfig.texts, RawConfig.quotedFont, Option.toList, List.append_nil,
      List.cons_append, List.nil_append, List.mem_cons, List.not_mem_nil, or_false] at ht
    rcases ht with rfl | rfl
    · exact hread (by decide)
    · exact hread (by decide)
  obtain ⟨c, hc, hcall⟩ := call_fields_eq_call_json.1 .quotedFont hreadable
  exact ⟨hreadable, c, hc, hcall .initial (some []) true⟩

end Foreign

end Letterpress
