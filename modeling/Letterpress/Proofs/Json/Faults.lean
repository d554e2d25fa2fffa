/-
# What a fault quotes

A fault names what was found. Values are quoted with escapes; only an unknown
choice is named as it stands. So a message contains the zero character in this one
case, if the rest of it is fixed text, and readers are made of parts that put
nothing else into it.
-/

import Letterpress.Json.Digits
import Letterpress.Json.Skipped

namespace Letterpress

/-! ## Numbers and quoted texts -/

theorem Text.null_not_mem_toDigits {base : Nat} (hbase : 1 < base) (hsixteen : base ≤ 16)
    (n : Nat) : '\x00' ∉ Nat.toDigits base n := by
  have hdigit : ∀ m < 16, '\x00' ∉ [Nat.digitChar m] := by decide
  induction n using Nat.strongRecOn with
  | ind n ih =>
      by_cases hn : n < base
      · rw [Nat.toDigits_of_lt_base hn]
        exact hdigit n (by omega)
      · have hpos : 0 < n := by omega
        have hmod : n % base < base := Nat.mod_lt n (by omega)
        rw [Nat.toDigits_of_base_le hbase (by omega)]
        exact List.not_mem_append (ih (n / base) (Nat.div_lt_self hpos hbase))
          (hdigit _ (by omega))

theorem Text.null_not_mem_decimal (n : Nat) : '\x00' ∉ Text.decimal n :=
  null_not_mem_toDigits (by decide) (by decide) n

theorem Text.null_not_mem_quoted (t : Text) : '\x00' ∉ Text.quoted t := by
  have hchar (c : Char) : '\x00' ∉ quotedChar c := by
    unfold quotedChar
    split
    case h_7 hnull _ _ _ _ _ =>
      split
      · exact fun hmem => hnull (List.mem_singleton.mp hmem).symm
      · exact List.not_mem_append (List.not_mem_append (by decide)
          (null_not_mem_toDigits (by decide) (by decide) _)) (by decide)
    all_goals decide
  have hall : '\x00' ∉ t.flatMap quotedChar := by
    simp [List.mem_flatMap, hchar]
  exact List.not_mem_append (List.not_mem_append (by decide) hall) (by decide)

theorem Binary.null_not_mem_written (f : Format) (negative : Bool) (v : Value) :
    '\x00' ∉ written f negative v := by
  have hdigits (n : Nat) : '\x00' ∉ Text.decimal n := Text.null_not_mem_decimal n
  have htake (n k : Nat) : '\x00' ∉ (Text.decimal n).take k :=
    fun hmem => hdigits n (List.mem_of_mem_take hmem)
  have hdrop (n k : Nat) : '\x00' ∉ (Text.decimal n).drop k :=
    fun hmem => hdigits n (List.mem_of_mem_drop hmem)
  have hzeros (k : Nat) : '\x00' ∉ List.replicate k '0' :=
    fun hmem => absurd (List.eq_of_mem_replicate hmem) (by decide)
  have hsign : '\x00' ∉ (if negative then "-" else "" : Text) := by
    cases negative <;> decide
  unfold written
  simp only
  split
  · exact List.not_mem_append hsign (by decide)
  refine List.not_mem_append hsign ?_
  split
  · split
    · exact List.not_mem_append (List.not_mem_append (hdigits _) (hzeros _)) (by decide)
    split
    · exact List.not_mem_append (List.not_mem_append (htake _ _) (by decide)) (hdrop _ _)
    · exact List.not_mem_append (List.not_mem_append (by decide) (hzeros _)) (hdigits _)
  · refine List.not_mem_append (List.not_mem_append (List.not_mem_append
      (List.not_mem_append (htake _ _) ?_) (by decide)) ?_) (hdigits _)
    · split
      · decide
      · exact List.not_mem_append (by decide) (hdrop _ _)
    · split <;> decide

namespace Json

theorem Found.null_not_mem_words (found : Found) : '\x00' ∉ found.words := by
  have hbetween {before t after : Text} (hbefore : '\x00' ∉ before) (ht : '\x00' ∉ t)
      (hafter : '\x00' ∉ after) : '\x00' ∉ before ++ t ++ after :=
    List.not_mem_append (List.not_mem_append hbefore ht) hafter
  cases found with
  | null => decide
  | boolean b => cases b <;> decide
  | number n =>
      cases n with
      | natural n => exact hbetween (by decide) (Text.null_not_mem_decimal n) (by decide)
      | negative n => exact hbetween (by decide) (Text.null_not_mem_decimal n) (by decide)
      | floating negative v =>
          exact hbetween (by decide) (Binary.null_not_mem_written .double negative v) (by decide)
  | text t => exact List.not_mem_append (by decide) (Text.null_not_mem_quoted t)
  | list => decide
  | object => decide

namespace Cause

/-- Whether all of the message besides what was found is without the zero character. -/
def IsFixed : Cause → Prop
  | wrongType _ expected => '\x00' ∉ expected
  | wrongValue _ expected => '\x00' ∉ expected
  | unknownChoice _ first second => '\x00' ∉ first ∧ '\x00' ∉ second
  | repeatedField name => '\x00' ∉ name
  | _ => True

/-- Whether an unknown choice contains the zero character. -/
def namesNull : Cause → Bool
  | unknownChoice found _ _ => found.contains '\x00'
  | _ => false

/-- The zero character gets into a message with an unknown choice and in no other way. -/
theorem null_mem_message_iff {cause : Cause} (h : cause.IsFixed) :
    '\x00' ∈ cause.message ↔ cause.namesNull = true := by
  have hfound (found : Found) {lead expected : Text} (hlead : '\x00' ∉ lead)
      (hexpected : '\x00' ∉ expected) :
      '\x00' ∉ lead ++ found.words ++ ", expected " ++ expected :=
    List.not_mem_append (List.not_mem_append (List.not_mem_append hlead
      found.null_not_mem_words) (by decide)) hexpected
  cases cause with
  | wrongType found expected => exact iff_of_false (hfound found (by decide) h) Bool.false_ne_true
  | wrongValue found expected => exact iff_of_false (hfound found (by decide) h) Bool.false_ne_true
  | unknownChoice found first second =>
      obtain ⟨hfirst, hsecond⟩ : '\x00' ∉ first ∧ '\x00' ∉ second := h
      have hlead : '\x00' ∉ ("unknown variant `" : Text) := by decide
      have hexpected : '\x00' ∉ ("`, expected `" : Text) := by decide
      have hor : '\x00' ∉ ("` or `" : Text) := by decide
      have hclose : '\x00' ∉ ("`" : Text) := by decide
      change '\x00' ∈ ("unknown variant `" ++ found ++ "`, expected `" ++ first ++ "` or `" ++
        second ++ "`" : Text) ↔ found.contains '\x00' = true
      simp only [List.mem_append, hlead, hexpected, hor, hclose, hfirst, hsecond, false_or,
        or_false, List.contains_iff_mem]
  | repeatedField name =>
      exact iff_of_false (List.not_mem_append (List.not_mem_append (by decide) h) (by decide))
        Bool.false_ne_true
  | _ => exact iff_of_false (by decide) Bool.false_ne_true

end Cause

theorem Fault.null_mem_message_iff {fault : Fault} (h : fault.cause.IsFixed) (t : Text) :
    '\x00' ∈ fault.message t ↔ fault.cause.namesNull = true := by
  have hline : '\x00' ∉ (" at line " : Text) := by decide
  have hcolumn : '\x00' ∉ (" column " : Text) := by decide
  simp only [message, List.mem_append, Text.null_not_mem_decimal, hline, hcolumn, or_false,
    Cause.null_mem_message_iff h]

namespace Read

/-- The reader fails only with fixed causes. -/
def FailsFixed (r : Read α) : Prop := ∀ c fault, r c = .error fault → fault.cause.IsFixed

variable {α β : Type} {r : Read α} {f : α → Read β} {cause atEnd : Cause}

/-! ## Parts of readers -/

theorem failsFixed_pure (a : α) : FailsFixed (pure a) := by
  intro c fault h
  cases h

theorem FailsFixed.bind (hr : FailsFixed r) (hf : ∀ a, FailsFixed (f a)) :
    FailsFixed (r >>= f) := by
  intro c fault h
  change Except.bind (r c) _ = _ at h
  cases hfirst : r c with
  | error first =>
      rw [hfirst] at h
      cases h
      exact hr c fault hfirst
  | ok result =>
      rw [hfirst] at h
      exact hf result.1 result.2 fault h

theorem failsFixed_ite {p : Prop} [Decidable p] {s : Read α} (hr : FailsFixed r)
    (hs : FailsFixed s) : FailsFixed (if p then r else s) := by
  split
  · exact hr
  · exact hs

theorem failsFixed_fail (h : cause.IsFixed) : FailsFixed (fail cause : Read α) := by
  rintro c fault ⟨⟩
  exact h

theorem failsFixed_failNext (h : cause.IsFixed) : FailsFixed (failNext cause : Read α) := by
  rintro c fault ⟨⟩
  exact h

theorem failsFixed_failAfter (h : cause.IsFixed) (hend : atEnd.IsFixed) :
    FailsFixed (failAfter cause atEnd : Read α) := by
  intro c fault hfault
  rw [failAfter] at hfault
  split at hfault <;> cases hfault
  · exact hend
  · exact h

theorem failsFixed_peek : FailsFixed peek? := by
  intro c fault h
  cases h

theorem failsFixed_advance : FailsFixed advance := by
  intro c fault h
  rw [advance] at h
  split at h <;> cases h

theorem failsFixed_takeWhile (p : Char → Bool) : FailsFixed (takeWhile p) := by
  intro c fault h
  cases h

/-! ## Tokens -/

theorem failsFixed_token : FailsFixed token? :=
  (failsFixed_takeWhile isSpace).bind fun _ => failsFixed_peek

theorem failsFixed_valueStart : FailsFixed valueStart := by
  refine failsFixed_token.bind fun next => ?_
  split
  · exact failsFixed_pure _
  · exact failsFixed_failNext trivial

theorem failsFixed_word (t : Text) : FailsFixed (word t) := by
  induction t with
  | nil => exact failsFixed_pure ()
  | cons x t ih =>
      refine failsFixed_peek.bind fun next => ?_
      split
      · exact failsFixed_advance.bind fun _ => ih
      · exact failsFixed_failAfter trivial trivial

theorem failsFixed_colon : FailsFixed colon := by
  refine failsFixed_token.bind fun next => ?_
  split
  · exact failsFixed_advance
  · exact failsFixed_failNext trivial
  · exact failsFixed_failNext trivial

theorem failsFixed_finish : FailsFixed finish := by
  refine failsFixed_token.bind fun next => ?_
  split
  · exact failsFixed_failNext trivial
  · exact failsFixed_pure ()

/-- A whole text fails where its reader does or behind what was read. -/
theorem FailsFixed.run {t : Text} {fault : Fault} (hr : FailsFixed r)
    (h : Read.run r t = .error fault) : fault.cause.IsFixed := by
  have hall : FailsFixed (do let a ← r; finish; return a : Read α) :=
    hr.bind fun a => failsFixed_finish.bind fun _ => failsFixed_pure a
  rw [Read.run] at h
  split at h
  · cases h
  case h_2 first hfirst =>
    cases h
    exact hall _ _ hfirst

/-! ## Texts in quotes -/

theorem failsFixed_fourDigits : FailsFixed fourDigits := by
  intro c fault h
  simp only [fourDigits] at h
  split at h
  · cases h
    trivial
  · split at h <;> cases h
    trivial

theorem failsFixed_between (x : Char) : FailsFixed (between x) := by
  refine failsFixed_peek.bind fun next => ?_
  split
  · exact failsFixed_advance
  · exact failsFixed_failAfter trivial trivial

theorem failsFixed_unicodeEscape : FailsFixed unicodeEscape := by
  refine failsFixed_fourDigits.bind fun n => ?_
  split
  · exact failsFixed_fail trivial
  split
  · refine (failsFixed_between '\\').bind fun _ => (failsFixed_between 'u').bind fun _ =>
      failsFixed_fourDigits.bind fun low => ?_
    split
    · exact failsFixed_pure _
    · exact failsFixed_fail trivial
  · exact failsFixed_pure _

theorem failsFixed_escape : FailsFixed escape := by
  refine failsFixed_peek.bind fun next => ?_
  split
  · exact failsFixed_advance.bind fun _ => failsFixed_unicodeEscape
  · split
    · exact failsFixed_advance.bind fun _ => failsFixed_pure _
    · exact failsFixed_failAfter trivial trivial
  · exact failsFixed_fail trivial

theorem failsFixed_textWithin (fuel : Nat) : FailsFixed (textWithin fuel) := by
  induction fuel with
  | zero => exact failsFixed_fail trivial
  | succ fuel ih =>
      refine failsFixed_peek.bind fun next => ?_
      split
      · exact failsFixed_fail trivial
      · exact failsFixed_advance.bind fun _ => failsFixed_pure _
      · exact failsFixed_advance.bind fun _ => failsFixed_escape.bind fun _ =>
          ih.bind fun _ => failsFixed_pure _
      · split
        · exact failsFixed_failAfter trivial trivial
        · exact failsFixed_advance.bind fun _ => ih.bind fun _ => failsFixed_pure _

theorem failsFixed_text : FailsFixed text := fun c => failsFixed_textWithin _ c

theorem failsFixed_skipEscape : FailsFixed skipEscape := by
  refine failsFixed_peek.bind fun next => ?_
  split
  · exact failsFixed_advance.bind fun _ => failsFixed_fourDigits.bind fun _ => failsFixed_pure ()
  · split
    · exact failsFixed_advance
    · exact failsFixed_failAfter trivial trivial
  · exact failsFixed_fail trivial

theorem failsFixed_skipTextWithin (fuel : Nat) : FailsFixed (skipTextWithin fuel) := by
  induction fuel with
  | zero => exact failsFixed_fail trivial
  | succ fuel ih =>
      refine failsFixed_peek.bind fun next => ?_
      split
      · exact failsFixed_fail trivial
      · exact failsFixed_advance
      · exact failsFixed_advance.bind fun _ => failsFixed_skipEscape.bind fun _ => ih
      · split
        · exact failsFixed_fail trivial
        · exact failsFixed_advance.bind fun _ => ih

theorem failsFixed_skipText : FailsFixed skipText := fun c => failsFixed_skipTextWithin _ c

/-! ## Numbers -/

theorem failsFixed_gather (limit n : Nat) : FailsFixed (gather limit n) := by
  intro c fault h
  cases h

theorem failsFixed_floating (negative : Bool) (significand : Nat) (power : Int) :
    FailsFixed (floating negative significand power) := by
  rw [floating]
  split
  · exact failsFixed_pure _
  · exact failsFixed_fail trivial

theorem failsFixed_exponentSign : FailsFixed exponentSign := by
  refine failsFixed_peek.bind fun next => ?_
  split
  · exact failsFixed_advance.bind fun _ => failsFixed_pure _
  · exact failsFixed_advance.bind fun _ => failsFixed_pure _
  · exact failsFixed_pure _

/-- A power is read, and more of it makes a significand huge or zero. -/
theorem failsFixed_power (negative below : Bool) (significand : Nat) (power : Int) :
    FailsFixed (do
      let (n, _) ← gather Number.largestExponent 0
      if (← peek?).any Char.isDigit then
        if significand != 0 && !below then
          advance
          fail .hugeNumber
        let _ ← takeWhile Char.isDigit
        return .floating negative ⟨0, 0⟩
      else floating negative significand (if below then power - n else power + n)) := by
  have hzero : FailsFixed (do
      let _ ← takeWhile Char.isDigit
      return .floating negative ⟨0, 0⟩ : Read Number) :=
    (failsFixed_takeWhile _).bind fun _ => failsFixed_pure _
  have hhuge : FailsFixed (fail .hugeNumber : Read Unit) := failsFixed_fail trivial
  refine (failsFixed_gather _ _).bind fun found => failsFixed_peek.bind fun next => ?_
  exact failsFixed_ite
    (failsFixed_ite (failsFixed_advance.bind fun _ => hhuge.bind fun _ => hzero) hzero)
    (failsFixed_floating _ _ _)

theorem failsFixed_exponent (negative : Bool) (significand : Nat) (power : Int) :
    FailsFixed (exponent negative significand power) := by
  have hbad : FailsFixed (failAfter .badNumber .endInValue : Read Unit) :=
    failsFixed_failAfter trivial trivial
  refine failsFixed_advance.bind fun _ => failsFixed_exponentSign.bind fun below =>
    failsFixed_peek.bind fun next => ?_
  have hpower := failsFixed_power negative below significand power
  split
  · exact failsFixed_ite (hbad.bind fun _ => hpower) hpower
  · exact failsFixed_fail trivial

theorem failsFixed_afterPlaces (negative : Bool) (significand : Nat) (power : Int) :
    FailsFixed (afterPlaces negative significand power) := by
  refine failsFixed_peek.bind fun next => ?_
  split
  · exact failsFixed_exponent _ _ _
  · exact failsFixed_exponent _ _ _
  · exact failsFixed_floating _ _ _

theorem failsFixed_places (negative : Bool) (significand : Nat) (power : Int) :
    FailsFixed (places negative significand power) := by
  refine failsFixed_advance.bind fun _ => (failsFixed_gather _ _).bind fun found =>
    (failsFixed_takeWhile _).bind fun dropped => ?_
  split
  · refine failsFixed_peek.bind fun next => ?_
    split
    · exact failsFixed_failNext trivial
    · exact failsFixed_failNext trivial
  · exact failsFixed_afterPlaces _ _ _

theorem failsFixed_afterWhole (negative : Bool) (significand beyond : Nat) :
    FailsFixed (afterWhole negative significand beyond) := by
  refine failsFixed_peek.bind fun next => ?_
  split
  · exact failsFixed_places _ _ _
  · exact failsFixed_exponent _ _ _
  · exact failsFixed_exponent _ _ _
  · split
    · exact failsFixed_floating _ _ _
    split
    · exact failsFixed_pure _
    split
    · exact failsFixed_floating _ _ _
    · exact failsFixed_pure _

theorem failsFixed_number (negative : Bool) : FailsFixed (number negative) := by
  refine failsFixed_peek.bind fun next => ?_
  split
  · refine failsFixed_advance.bind fun _ => failsFixed_peek.bind fun next => ?_
    split
    · exact failsFixed_failNext trivial
    · exact failsFixed_afterWhole _ _ _
  · split
    · exact (failsFixed_gather _ _).bind fun found => (failsFixed_takeWhile _).bind fun beyond =>
        failsFixed_afterWhole _ _ _
    · exact failsFixed_failAfter trivial trivial
  · exact failsFixed_fail trivial

theorem failsFixed_signed : FailsFixed signed := by
  refine failsFixed_peek.bind fun next => ?_
  split
  · exact failsFixed_advance.bind fun _ => failsFixed_number true
  · exact failsFixed_number false

/-! ## Values that nobody looks at -/

theorem failsFixed_skipDigits : FailsFixed skipDigits :=
  (failsFixed_takeWhile _).bind fun _ => failsFixed_pure ()

theorem failsFixed_skipSign : FailsFixed skipSign := by
  refine failsFixed_peek.bind fun next => ?_
  split
  · exact failsFixed_advance
  · exact failsFixed_advance
  · exact failsFixed_pure ()

theorem failsFixed_skipExponentIfAny : FailsFixed skipExponentIfAny := by
  have hexponent : FailsFixed skipExponent := by
    refine failsFixed_advance.bind fun _ => failsFixed_skipSign.bind fun _ =>
      failsFixed_peek.bind fun next => ?_
    split
    · exact failsFixed_skipDigits
    · exact failsFixed_failAfter trivial trivial
  refine failsFixed_peek.bind fun next => ?_
  split
  · exact hexponent
  · exact hexponent
  · exact failsFixed_pure ()

theorem failsFixed_skipAfterWhole : FailsFixed skipAfterWhole := by
  refine failsFixed_peek.bind fun next => ?_
  split
  · refine failsFixed_advance.bind fun _ => (failsFixed_takeWhile _).bind fun digits => ?_
    split
    · exact failsFixed_failNext trivial
    · exact failsFixed_skipExponentIfAny
  · exact failsFixed_skipExponentIfAny

theorem failsFixed_skipNumber : FailsFixed skipNumber := by
  refine failsFixed_peek.bind fun next => ?_
  split
  · refine failsFixed_advance.bind fun _ => failsFixed_peek.bind fun next => ?_
    split
    · exact failsFixed_failNext trivial
    · exact failsFixed_skipAfterWhole
  · split
    · exact failsFixed_skipDigits.bind fun _ => failsFixed_skipAfterWhole
    · exact failsFixed_failAfter trivial trivial
  · exact failsFixed_fail trivial

theorem failsFixed_skipSimple : FailsFixed skipSimple := by
  have hnone : FailsFixed (pure none : Read (Option Enclosing)) := failsFixed_pure none
  refine failsFixed_valueStart.bind fun c => ?_
  split
  · exact failsFixed_advance.bind fun _ => (failsFixed_word _).bind fun _ => hnone
  · exact failsFixed_advance.bind fun _ => (failsFixed_word _).bind fun _ => hnone
  · exact failsFixed_advance.bind fun _ => (failsFixed_word _).bind fun _ => hnone
  · exact failsFixed_advance.bind fun _ => failsFixed_skipText.bind fun _ => hnone
  · exact failsFixed_advance.bind fun _ => failsFixed_skipNumber.bind fun _ => hnone
  · exact failsFixed_advance.bind fun _ => failsFixed_pure _
  · exact failsFixed_advance.bind fun _ => failsFixed_pure _
  · split
    · exact failsFixed_skipNumber.bind fun _ => hnone
    · exact failsFixed_failNext trivial

theorem failsFixed_skipName : FailsFixed skipName := by
  have hmore : FailsFixed (do skipText; colon) :=
    failsFixed_skipText.bind fun _ => failsFixed_colon
  have hkey : FailsFixed (failNext .keyNotText : Read Unit) := failsFixed_failNext trivial
  have hend : FailsFixed (failNext .endInObject : Read Unit) := failsFixed_failNext trivial
  refine failsFixed_token.bind fun next => ?_
  split
  · exact failsFixed_advance.bind fun _ => hmore
  · exact hkey.bind fun _ => hmore
  · exact hend.bind fun _ => hmore

theorem failsFixed_skipLead (e : Enclosing) : FailsFixed (skipLead e) := by
  cases e with
  | list => exact failsFixed_pure ()
  | object => exact failsFixed_skipName

theorem failsFixed_skipToNext (afterValue : Bool) (enclosing : List Enclosing) :
    FailsFixed (skipToNext afterValue enclosing) := by
  induction enclosing generalizing afterValue with
  | nil => exact failsFixed_pure []
  | cons e outer ih =>
      have hend : e.atEnd.IsFixed := by cases e <;> trivial
      have hstop : FailsFixed (failNext e.expectedEnd : Read Unit) :=
        failsFixed_failNext (by cases e <;> trivial)
      have hlead : FailsFixed (do skipLead e; return e :: outer) :=
        (failsFixed_skipLead e).bind fun _ => failsFixed_pure _
      refine failsFixed_token.bind fun next => ?_
      split
      · exact failsFixed_failNext hend
      split
      · exact failsFixed_advance.bind fun _ => ih true
      · exact failsFixed_ite
          (failsFixed_ite (failsFixed_advance.bind fun _ => hlead) (hstop.bind fun _ => hlead))
          hlead

theorem failsFixed_skipWithin (fuel : Nat) (enclosing : List Enclosing) :
    FailsFixed (skipWithin fuel enclosing) := by
  induction fuel generalizing enclosing with
  | zero => exact failsFixed_failNext trivial
  | succ fuel ih =>
      have hnext (next : List Enclosing) :
          FailsFixed (if next.isEmpty then return else skipWithin fuel next) :=
        failsFixed_ite (failsFixed_pure ()) (ih next)
      refine failsFixed_skipSimple.bind fun opened => ?_
      split
      · exact (failsFixed_skipToNext _ _).bind hnext
      · exact (failsFixed_skipToNext _ _).bind hnext

theorem failsFixed_skip : FailsFixed skip := fun c => failsFixed_skipWithin _ _ c

end Read

end Json

end Letterpress
