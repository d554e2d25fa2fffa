/-
# Faults in a configuration

What a reader of configurations expects is fixed text, so of the caller's text
only the name of an unknown dialect gets into a message as it stands.
-/

import Letterpress.Email.ConfigText
import Letterpress.Proofs.Json.Faults

namespace Letterpress.Config

open Json Json.Read

namespace Reading

variable {α : Type} {expected : Text}

/-! ## Values -/

theorem failsFixed_found : FailsFixed found := by
  refine failsFixed_peek.bind fun next => ?_
  split
  · exact failsFixed_advance.bind fun _ => (failsFixed_word _).bind fun _ => failsFixed_pure _
  · exact failsFixed_advance.bind fun _ => (failsFixed_word _).bind fun _ => failsFixed_pure _
  · exact failsFixed_advance.bind fun _ => (failsFixed_word _).bind fun _ => failsFixed_pure _
  · exact failsFixed_advance.bind fun _ => failsFixed_text.bind fun _ => failsFixed_pure _
  · exact failsFixed_pure _
  · exact failsFixed_pure _
  · exact failsFixed_ite (failsFixed_signed.bind fun _ => failsFixed_pure _)
      (failsFixed_failNext trivial)
  · exact failsFixed_failNext trivial

theorem failsFixed_wrongType (h : '\x00' ∉ expected) :
    FailsFixed (wrongType expected : Read α) :=
  failsFixed_found.bind fun _ => failsFixed_fail h

theorem failsFixed_aText (h : '\x00' ∉ expected) : FailsFixed (aText expected) :=
  failsFixed_valueStart.bind fun _ =>
    failsFixed_ite (failsFixed_advance.bind fun _ => failsFixed_text) (failsFixed_wrongType h)

theorem failsFixed_optionalText : FailsFixed optionalText :=
  failsFixed_token.bind fun _ => failsFixed_ite
    (failsFixed_advance.bind fun _ => (failsFixed_word _).bind fun _ => failsFixed_pure none)
    ((failsFixed_aText (by decide)).bind fun _ => failsFixed_pure _)

theorem failsFixed_width : FailsFixed width := by
  have hwidth : '\x00' ∉ ("u32" : Text) := by decide
  refine failsFixed_valueStart.bind fun c =>
    failsFixed_ite (failsFixed_signed.bind fun n => ?_) (failsFixed_wrongType hwidth)
  split
  · exact failsFixed_ite (failsFixed_pure _) (failsFixed_fail hwidth)
  · exact failsFixed_fail hwidth
  · exact failsFixed_fail hwidth

theorem failsFixed_dialectName : FailsFixed dialectName := by
  refine (failsFixed_aText (by decide)).bind fun name => ?_
  split
  · exact failsFixed_pure _
  · exact failsFixed_fail ⟨by decide, by decide⟩

theorem failsFixed_unit : FailsFixed unit :=
  failsFixed_valueStart.bind fun _ => failsFixed_ite
    (failsFixed_advance.bind fun _ => failsFixed_word _) (failsFixed_wrongType (by decide))

theorem failsFixed_dialectKey : FailsFixed dialectKey := by
  refine failsFixed_token.bind fun next => ?_
  split
  · exact failsFixed_pure ()
  · exact failsFixed_failNext trivial
  · exact failsFixed_failNext trivial
  · exact failsFixed_failNext trivial

theorem failsFixed_dialect : FailsFixed dialect := by
  refine failsFixed_valueStart.bind fun c => ?_
  split
  · exact failsFixed_dialectName
  · refine failsFixed_advance.bind fun _ => failsFixed_dialectKey.bind fun _ =>
      failsFixed_dialectName.bind fun d => failsFixed_colon.bind fun _ =>
        failsFixed_unit.bind fun _ => failsFixed_token.bind fun next => ?_
    split
    · exact failsFixed_advance.bind fun _ => failsFixed_pure d
    · exact failsFixed_fail trivial
    · exact failsFixed_fail trivial
  · exact failsFixed_failNext trivial

theorem failsFixed_fieldValue (g : Given) (f : Field) : FailsFixed (fieldValue g f) := by
  cases f with
  | maxWidth => exact failsFixed_width.bind fun _ => failsFixed_pure _
  | font => exact (failsFixed_aText (by decide)).bind fun _ => failsFixed_pure _
  | dialect => exact failsFixed_dialect.bind fun _ => failsFixed_pure _
  | headerImage => exact failsFixed_optionalText.bind fun _ => failsFixed_pure _
  | footerImage => exact failsFixed_optionalText.bind fun _ => failsFixed_pure _

/-! ## Objects -/

theorem failsFixed_nextMember (first : Bool) : FailsFixed (nextMember first) := by
  have hmember : FailsFixed (do advance; return true : Read Bool) :=
    failsFixed_advance.bind fun _ => failsFixed_pure true
  refine failsFixed_token.bind fun next => ?_
  split
  · exact failsFixed_failNext trivial
  · exact failsFixed_pure false
  · refine failsFixed_ite (failsFixed_ite hmember (failsFixed_failNext trivial)) (failsFixed_ite
      (failsFixed_advance.bind fun _ => failsFixed_token.bind fun next => ?_)
      (failsFixed_failNext trivial))
    split
    · exact hmember
    · exact failsFixed_failNext trivial
    · exact failsFixed_failNext trivial
    · exact failsFixed_failNext trivial

theorem failsFixed_repeated (f : Field) : FailsFixed (repeated f : Read α) := by
  have hname : Cause.IsFixed (.repeatedField f.name) := by
    change '\x00' ∉ f.name
    cases f <;> decide
  have hfail : FailsFixed (fail (.repeatedField f.name) : Read α) := failsFixed_fail hname
  exact failsFixed_token.bind fun _ =>
    failsFixed_ite (failsFixed_advance.bind fun _ => hfail) hfail

theorem failsFixed_membersWithin (fuel : Nat) (first : Bool) (g : Given) :
    FailsFixed (membersWithin fuel first g) := by
  induction fuel generalizing first g with
  | zero => exact failsFixed_pure g
  | succ fuel ih =>
      refine (failsFixed_nextMember first).bind fun more =>
        failsFixed_ite (failsFixed_text.bind fun name => ?_) (failsFixed_pure g)
      split
      · exact failsFixed_ite (failsFixed_repeated _) (failsFixed_colon.bind fun _ =>
          (failsFixed_fieldValue g _).bind fun _ => ih false _)
      · exact failsFixed_colon.bind fun _ => failsFixed_skip.bind fun _ => ih false g

theorem failsFixed_members : FailsFixed members := fun c => failsFixed_membersWithin _ _ _ c

/-! ## Lists -/

theorem failsFixed_nextElement (first : Bool) : FailsFixed (nextElement first) := by
  refine failsFixed_token.bind fun next => ?_
  split
  · exact failsFixed_failNext trivial
  · exact failsFixed_pure false
  · refine failsFixed_ite (failsFixed_pure true) (failsFixed_ite
      (failsFixed_advance.bind fun _ => failsFixed_token.bind fun next => ?_)
      (failsFixed_failNext trivial))
    split
    · exact failsFixed_failNext trivial
    · exact failsFixed_pure true
    · exact failsFixed_failNext trivial

theorem failsFixed_elements (first : Bool) (g : Given) (fields : List Field) :
    FailsFixed (elements first g fields) := by
  induction fields generalizing first g with
  | nil => exact failsFixed_pure g
  | cons f fields ih =>
      exact (failsFixed_nextElement first).bind fun _ => failsFixed_ite
        ((failsFixed_fieldValue g f).bind fun _ => ih false _) (failsFixed_pure g)

theorem failsFixed_listEnd : FailsFixed listEnd := by
  refine failsFixed_token.bind fun next => ?_
  split
  · exact failsFixed_advance
  · exact failsFixed_advance.bind fun _ => failsFixed_token.bind fun _ =>
      failsFixed_ite (failsFixed_failNext trivial) (failsFixed_failNext trivial)
  · exact failsFixed_failNext trivial
  · exact failsFixed_failNext trivial

theorem failsFixed_config : FailsFixed config := by
  refine failsFixed_valueStart.bind fun c => ?_
  split
  · exact failsFixed_advance.bind fun _ => (failsFixed_elements _ _ _).bind fun _ =>
      failsFixed_listEnd.bind fun _ => failsFixed_pure _
  · exact failsFixed_advance.bind fun _ => failsFixed_members.bind fun _ =>
      failsFixed_advance.bind fun _ => failsFixed_pure _
  · exact failsFixed_wrongType (by decide)

end Reading

/-- The message for a text that is no configuration contains the zero character only with the
name of an unknown dialect. -/
theorem null_mem_message_iff {t u : Text} {fault : Fault} (h : parse t = .error fault) :
    '\x00' ∈ fault.message u ↔ fault.cause.namesNull = true :=
  Fault.null_mem_message_iff (Reading.failsFixed_config.run h) u

end Letterpress.Config
