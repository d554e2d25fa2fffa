/-
# The message of the last failure

After any run of calls the message kept is that of the last call that failed. Every
message can be kept but one: a JSON configuration may name its dialect with an
escaped zero character, and the message that quotes the name is dropped, although
the call fails.
-/

import Letterpress.Proofs.Email.ConfigFaults
import Letterpress.Proofs.Email.NullFree
import Letterpress.Proofs.Foreign.Agreement
import Mathlib.Data.List.Induction

namespace Letterpress

theorem Utf8.Fault.null_not_mem_message (fault : Utf8.Fault) : '\x00' ∉ fault.message := by
  cases fault with
  | malformed length offset =>
      exact List.not_mem_append (List.not_mem_append (List.not_mem_append (by decide)
        (Text.null_not_mem_decimal length)) (by decide)) (Text.null_not_mem_decimal offset)
  | cut offset => exact List.not_mem_append (by decide) (Text.null_not_mem_decimal offset)

namespace Foreign

/-! ## One call -/

/-- Why a call fails, if it does. -/
def Call.fault? (c : Call) : Option CallFault :=
  match c.document with
  | .ok _ => none
  | .error fault => some fault

/-- Whether the fault is the name of a dialect with the zero character. -/
def CallFault.namesNull : CallFault → Bool
  | badConfig _ fault => fault.cause.namesNull
  | _ => false

/-- The message that is kept of a fault. -/
def CallFault.kept? (fault : CallFault) : Option Text :=
  if fault.namesNull then none else some fault.message

theorem CallFault.code_ne_zero (fault : CallFault) : fault.code ≠ 0 := by
  cases fault <;> exact Nat.succ_ne_zero _

/-- What is known of the faults of inputs: the message names the zero character with a dialect or
not at all. -/
def CallFault.IsOfInput : CallFault → Prop
  | badField name _ => '\x00' ∉ name
  | badConfig _ fault => fault.cause.IsFixed
  | zeroInOutput => False
  | _ => True

theorem CallFault.null_mem_message_iff {fault : CallFault} (h : fault.IsOfInput) :
    '\x00' ∈ fault.message ↔ fault.namesNull = true := by
  cases fault with
  | nullPointer => exact iff_of_false (by decide) Bool.false_ne_true
  | badBody octets =>
      exact iff_of_false (List.not_mem_append (by decide) octets.null_not_mem_message)
        Bool.false_ne_true
  | badField name octets =>
      exact iff_of_false (List.not_mem_append (List.not_mem_append (List.not_mem_append
        (by decide) h) (by decide)) octets.null_not_mem_message) Bool.false_ne_true
  | badConfigText octets =>
      exact iff_of_false (List.not_mem_append (by decide) octets.null_not_mem_message)
        Bool.false_ne_true
  | badConfig text fault =>
      have hlead : '\x00' ∉ FailureKind.config.lead := by decide
      change '\x00' ∈ FailureKind.config.lead ++ fault.message text ↔ _
      simp only [List.mem_append, hlead, false_or]
      exact Json.Fault.null_mem_message_iff h text
  | zeroInOutput => exact h.elim

/-- The message of a fault is kept unless it names the zero character. -/
theorem CallFault.storable?_message {fault : CallFault}
    (h : fault.IsOfInput ∨ fault = .zeroInOutput) :
    State.storable? fault.message = fault.kept? := by
  rcases h with h | rfl
  · have hiff : fault.message.contains '\x00' = fault.namesNull := by
      rw [Bool.eq_iff_iff, List.contains_iff_mem]
      exact null_mem_message_iff h
    rw [State.storable?, hiff, kept?]
  · rfl

/-! ## Faults that arise -/

theorem isOfInput_of_field {name : Text} {raw : Option RawText} {fault : CallFault}
    (hname : '\x00' ∉ name) (h : field name raw = .error fault) : fault.IsOfInput := by
  cases raw with
  | none => cases h
  | some raw =>
      simp only [field] at h
      split at h <;> cases h
      exact hname

theorem isOfInput_of_rawConfig {raw : RawConfig} {fault : CallFault}
    (h : raw.config = .error fault) : fault.IsOfInput := by
  rcases cases_of_bind_eq_error h with hfont | ⟨font, -, h⟩
  · exact isOfInput_of_field (by decide) hfont
  rcases cases_of_bind_eq_error h with hheader | ⟨header, -, h⟩
  · exact isOfInput_of_field (by decide) hheader
  rcases cases_of_bind_eq_error h with hfooter | ⟨footer, -, h⟩
  · exact isOfInput_of_field (by decide) hfooter
  · cases h

theorem isOfInput_of_config {argument : ConfigArgument} {fault : CallFault}
    (h : argument.config = .error fault) : fault.IsOfInput := by
  cases argument with
  | fields raw =>
      cases raw with
      | none => cases h
      | some raw => exact isOfInput_of_rawConfig h
  | json raw =>
      cases raw with
      | none => cases h
      | some raw =>
          simp only [ConfigArgument.config] at h
          split at h
          · cases h
            trivial
          · split at h
            · cases h
            case h_2 hparse =>
              cases h
              exact Config.Reading.failsFixed_config.run hparse

theorem isOfInput_of_inputs {c : Call} {fault : CallFault} (h : c.inputs = .error fault) :
    fault.IsOfInput := by
  rw [Call.inputs] at h
  split at h
  · cases h
    trivial
  split at h
  · cases h
    trivial
  split at h
  · cases h
    trivial
  · cases hconfig : c.config.config with
    | error first =>
        rw [hconfig] at h
        cases h
        exact isOfInput_of_config hconfig
    | ok config =>
        rw [hconfig] at h
        cases h

theorem fault?_eq_some_iff {c : Call} {fault : CallFault} :
    c.fault? = some fault ↔ c.document = .error fault := by
  rw [Call.fault?]
  split
  case h_1 html hdocument => simp [hdocument]
  case h_2 first hdocument => simp [hdocument]

/-- A document without U+0000 is handed over. -/
theorem document_of_inputs {c : Call} {inputs : Text × Config} (hinputs : c.inputs = .ok inputs)
    (hclean : '\x00' ∉ generateEmail inputs.1 inputs.2) :
    c.document = .ok (generateEmail inputs.1 inputs.2) := by
  simp only [Call.document, hinputs, bind, Except.bind]
  generalize generateEmail inputs.1 inputs.2 = html at hclean ⊢
  exact if_neg (by simpa using hclean)

theorem isOfInput_of_fault? {c : Call} {fault : CallFault} (h : c.fault? = some fault) :
    fault.IsOfInput ∨ fault = .zeroInOutput := by
  rw [fault?_eq_some_iff, Call.document] at h
  rcases cases_of_bind_eq_error h with hinputs | ⟨inputs, -, h⟩
  · exact .inl (isOfInput_of_inputs hinputs)
  · change (if _ then _ else _) = _ at h
    split at h <;> cases h
    exact .inr rfl

/-- A call that succeeds keeps the message. -/
theorem call_of_fault?_eq_none {c : Call} (h : c.fault? = none) (s : State) :
    (call s c).1 = s ∧ (call s c).2.code = 0 := by
  rw [Call.fault?] at h
  split at h
  case h_1 html hdocument => simp [call, hdocument]
  case h_2 first hdocument => cases h

/-- A call that fails replaces the message. -/
theorem call_of_fault? {c : Call} {fault : CallFault} (h : c.fault? = some fault) (s : State) :
    call s c = (⟨fault.kept?⟩, ⟨fault.code, none⟩) := by
  simp only [call, fault?_eq_some_iff.mp h, CallFault.storable?_message (isOfInput_of_fault? h)]

/-! ## Runs of calls -/

/-- What is kept after calls, one after another. -/
def run (s : State) (calls : List Call) : State := calls.foldl (fun s c => (call s c).1) s

/-- The fault of the last call that fails. -/
def lastFault? (calls : List Call) : Option CallFault := calls.reverse.findSome? Call.fault?

theorem run_append_singleton (s : State) (calls : List Call) (c : Call) :
    run s (calls ++ [c]) = (call (run s calls) c).1 := by
  rw [run, List.foldl_append]
  rfl

theorem lastFault?_append_singleton (calls : List Call) (c : Call) :
    lastFault? (calls ++ [c]) = c.fault?.or (lastFault? calls) := by
  cases hfault : c.fault? with
  | none => simp [lastFault?, hfault]
  | some fault => simp [lastFault?, hfault]

theorem lastError_run (calls : List Call) :
    (run .initial calls).lastError = (lastFault? calls).bind CallFault.kept? := by
  induction calls using List.reverseRecOn with
  | nil => rfl
  | append_singleton calls c ih =>
      rw [run_append_singleton, lastFault?_append_singleton]
      cases hfault : c.fault? with
      | none =>
          rw [(call_of_fault?_eq_none hfault _).1]
          exact ih
      | some fault =>
          rw [call_of_fault? hfault]
          rfl

/-- After any run, a call that succeeds keeps the message, and one that fails leaves its own
message, unless that names a dialect with the zero character: then it leaves none. -/
theorem call_run_keeps_message (calls : List Call) (c : Call) :
    ((call (run .initial calls) c).2.code = 0 →
      (call (run .initial calls) c).1 = run .initial calls) ∧
    ((call (run .initial calls) c).2.code ≠ 0 → ∃ fault, c.document = .error fault ∧
      (call (run .initial calls) c).2.code = fault.code ∧
      (call (run .initial calls) c).1.lastError =
        if fault.namesNull then none else some fault.message) ∧
    (run .initial calls).lastError = (lastFault? calls).bind CallFault.kept? := by
  refine ⟨fun hcode => ?_, fun hcode => ?_, lastError_run calls⟩
  · cases hfault : c.fault? with
    | none => exact (call_of_fault?_eq_none hfault _).1
    | some fault =>
        rw [call_of_fault? hfault] at hcode
        exact absurd hcode fault.code_ne_zero
  · cases hfault : c.fault? with
    | none => exact absurd (call_of_fault?_eq_none hfault _).2 hcode
    | some fault =>
        rw [call_of_fault? hfault]
        exact ⟨fault, fault?_eq_some_iff.mp hfault, rfl, rfl⟩

/-- A configuration of which the dialect is unknown, with an escaped zero in its name. -/
def nullDialect : Call :=
  ⟨some [], .json (some (.ofText "\x7b\"dialect\":\"a\\u0000b\"\x7d")), true⟩

theorem code_nullDialect (s : State) : (call s nullDialect).2.code = 3 := by
  have hcode : nullDialect.fault?.any (fun fault => fault.code = 3) = true := by decide +kernel
  obtain ⟨fault, hfault, hthree⟩ := (Option.any_eq_true _ _).mp hcode
  rw [call_of_fault? hfault]
  simpa using hthree

/-- A call with an empty body and without fields succeeds. -/
def emptyBody : Call := ⟨some [], .fields none, true⟩

theorem code_emptyBody (s : State) : (call s emptyBody).2.code = 0 := by
  have hinputs : emptyBody.inputs = .ok ([], Config.default) := rfl
  have hclean : '\x00' ∉ generateEmail [] Config.default := by
    intro hmem
    rcases null_mem_generateEmail hmem with hfont | ⟨source, hsource, -⟩ | ⟨source, hsource, -⟩
    · exact absurd hfont (by decide)
    · cases hsource
    · cases hsource
  rw [call, document_of_inputs hinputs hclean]

theorem call_run_keeps_message_nullDialect :
    ((call (run .initial [nullDialect]) emptyBody).2.code = 0 ∧
      (call (run .initial [nullDialect]) emptyBody).1 = run .initial [nullDialect]) ∧
    (call (run .initial [emptyBody]) nullDialect).2.code ≠ 0 ∧ ∃ fault,
      nullDialect.document = .error fault ∧
      (call (run .initial [emptyBody]) nullDialect).2.code = fault.code ∧
      (call (run .initial [emptyBody]) nullDialect).1.lastError =
        if fault.namesNull then none else some fault.message := by
  have hcode : (call (run .initial [emptyBody]) nullDialect).2.code ≠ 0 := by
    rw [code_nullDialect]
    decide
  exact ⟨⟨code_emptyBody _, (call_run_keeps_message [nullDialect] emptyBody).1 (code_emptyBody _)⟩,
    hcode, (call_run_keeps_message [emptyBody] nullDialect).2.1 hcode⟩

/-- This call fails and leaves no message. -/
theorem call_nullDialect_loses_message :
    ¬ ∀ (calls : List Call) (c : Call), (call (run .initial calls) c).2.code ≠ 0 →
      ∃ fault, c.document = .error fault ∧
        (call (run .initial calls) c).1.lastError = some fault.message := by
  intro h
  have hnames : nullDialect.fault?.any CallFault.namesNull = true := by decide +kernel
  obtain ⟨fault, hfault, hnull⟩ := (Option.any_eq_true _ _).mp hnames
  obtain ⟨other, -, hmessage⟩ := h [] nullDialect (by
    rw [code_nullDialect]
    decide)
  rw [call_of_fault? hfault, CallFault.kept?, hnull] at hmessage
  cases hmessage

end Foreign

end Letterpress
