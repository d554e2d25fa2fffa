/-
# Groups of a command line

The arguments of a command line, cut into positional arguments, flags and flags with their
values (`cut`). What a command line says so far is a function of its groups
(`Options.ofGroups`), each group adds itself to them (`take_ofGroups`), and so a reading that
reaches its end says what the groups say (`parse_eq_request`). The function looks at the
positional arguments, at the values of each option and at which flags occur, and at nothing
else: groups may change places as long as those keep theirs (`Reordered`).
-/

import Letterpress.Proofs.Command.Preparing

namespace Letterpress.Command

/-- What belongs together on a command line. Spellings of one flag make one group. -/
inductive Group
  | positional (argument : Text)
  | bare (flag : Flag)
  | valued (option : Valued) (value : Text)
  deriving DecidableEq

namespace Group

/-- The positional argument, if the group is one. -/
def positional? : Group → Option Text
  | positional argument => some argument
  | _ => none

/-- The value for an option, if the group gives one. -/
def value? (option : Valued) : Group → Option Text
  | valued other value => if other = option then some value else none
  | _ => none

end Group

/-- The groups of a command line. A flag that takes a value takes the next argument, whatever
that looks like; at the end it stands alone. -/
def cut : List Text → List Group
  | [] => []
  | argument :: rest =>
    match flag? argument with
    | some (.valued option) =>
      match rest with
      | [] => [.bare (.valued option)]
      | value :: rest => .valued option value :: cut rest
    | some flag => .bare flag :: cut rest
    | none => .positional argument :: cut rest

/-- The positional arguments, in their order. -/
def positionals (gs : List Group) : List Text := gs.filterMap Group.positional?

/-- The values for an option, in their order. -/
def values (option : Valued) (gs : List Group) : List Text := gs.filterMap (Group.value? option)

/-- The value for an option that counts. -/
def last? (option : Valued) (gs : List Group) : Option Text := (values option gs).getLast?

section Lists

variable (gs hs : List Group) (option : Valued) (argument value : Text) (flag : Flag)

@[simp]
theorem positionals_append : positionals (gs ++ hs) = positionals gs ++ positionals hs :=
  List.filterMap_append

@[simp]
theorem positionals_positional : positionals [.positional argument] = [argument] := rfl

@[simp]
theorem positionals_bare : positionals [.bare flag] = [] := rfl

@[simp]
theorem positionals_valued : positionals [.valued option value] = [] := rfl

@[simp]
theorem last?_append : last? option (gs ++ hs) = (last? option hs).or (last? option gs) := by
  rw [last?, values, List.filterMap_append, List.getLast?_append]
  rfl

@[simp]
theorem last?_positional : last? option [.positional argument] = none := rfl

@[simp]
theorem last?_bare : last? option [.bare flag] = none := rfl

@[simp]
theorem last?_valued (other : Valued) :
    last? option [.valued other value] = if other = option then some value else none := by
  by_cases h : other = option <;> simp [last?, values, Group.value?, h]

end Lists

/-- What groups say. -/
def Options.ofGroups (gs : List Group) : Options where
  input := (positionals gs)[0]?
  output := (positionals gs)[1]?
  configFile := last? .config gs
  legacy := decide (.bare .legacy ∈ gs)
  maxWidth := (last? .maxWidth gs).bind width?
  font := last? .font gs
  header := last? .header gs
  footer := last? .footer gs
  browser := last? .browser gs

/-- Takes a group, unless the reading stops there. -/
def Options.take (o : Options) : Group → Option Options
  | .positional argument => (takePositional o argument).toOption
  | .bare .legacy => some { o with legacy := true }
  | .bare _ => .none
  | .valued option value =>
    if option = .demo then .none else (takeValue o value option).toOption

/-- What options ask for at the end of a command line. -/
def Options.request (o : Options) : Except ArgumentFault Request :=
  match o.input with
  | .some input => .ok (.convert input o)
  | .none => .error .noInput

/-- Whether a result is one that only the end of a command line gives. -/
def IsFinal (result : Except ArgumentFault Request) : Prop :=
  result = .error .noInput ∨ ∃ input o, result = .ok (.convert input o)

/-- Whether the reading of a command line reaches its end. -/
def ReachesEnd (arguments : List Text) : Prop := IsFinal (parse arguments)

theorem isFinal_request (o : Options) : IsFinal o.request := by
  rw [Options.request]
  cases o.input with
  | none => exact .inl rfl
  | some input => exact .inr ⟨input, o, rfl⟩

/-! ## Reading groups -/

theorem ne_noInput_of_takeValue {o : Options} {value : Text} {option : Valued}
    {fault : ArgumentFault} (h : takeValue o value option = .error fault) :
    fault ≠ .noInput := by
  cases option with
  | maxWidth =>
      rw [takeValue] at h
      split at h
      · cases h
      · cases h
        exact nofun
  | font | header | footer | config | browser | demo => cases h

theorem ne_noInput_of_takePositional {o : Options} {argument : Text} {fault : ArgumentFault}
    (h : takePositional o argument = .error fault) : fault ≠ .noInput := by
  rw [takePositional] at h
  split at h
  · cases h
    exact nofun
  · split at h
    · cases h
    · split at h
      · cases h
      · cases h
        exact nofun

/-- A reading takes the groups one after another. If it takes them all, it has reached the end
of the command line, and otherwise it has not. -/
theorem parseFrom_by_groups (o : Options) (arguments : List Text) :
    match (cut arguments).foldlM Options.take o with
    | some o' => parseFrom o arguments = o'.request
    | none => ¬ IsFinal (parseFrom o arguments) := by
  -- The induction is on the reading: each of its steps takes one group.
  fun_induction parseFrom o arguments with
  | case1 o input hinput => simp [cut, Options.request, hinput]
  | case2 o hinput => simp [cut, Options.request, hinput]
  | case3 o argument rest hflag => simp [cut, hflag, Options.take, IsFinal]
  | case4 o argument rest hflag ih => simpa [cut, hflag, Options.take] using ih
  | case5 o argument option hflag => simp [cut, hflag, Options.take, IsFinal]
  | case6 o argument value rest hflag => simp [cut, hflag, Options.take, IsFinal]
  | case7 o argument option hflag value rest hdemo taken htaken ih =>
      simpa [cut, hflag, Options.take, hdemo, htaken, Except.toOption] using ih
  | case8 o argument option hflag value rest hdemo fault hfault =>
      have hother : fault ≠ .noInput := ne_noInput_of_takeValue hfault
      simp [cut, hflag, Options.take, hdemo, hfault, hother, Except.toOption, IsFinal]
  | case9 o argument rest hflag taken htaken ih =>
      simpa [cut, hflag, Options.take, htaken, Except.toOption] using ih
  | case10 o argument rest hflag fault hfault =>
      have hother : fault ≠ .noInput := ne_noInput_of_takePositional hfault
      simp [cut, hflag, Options.take, hfault, hother, Except.toOption, IsFinal]

/-! ## What groups say -/

/-- Groups at which no reading stops. -/
def Group.Fits : Group → Prop
  | positional argument => argument.head? ≠ some '-'
  | bare flag => flag = .legacy
  | valued option value => option ≠ .demo ∧ (option = .maxWidth → (width? value).isSome)

/-- Groups that a reading takes up to the end. -/
structure Sound (gs : List Group) : Prop where
  fits : ∀ g ∈ gs, g.Fits
  few : (positionals gs).length ≤ 2

theorem sound_nil : Sound [] := ⟨by simp, by simp [positionals]⟩

/-- Every group adds itself to what the groups before it say. -/
theorem take_ofGroups {done : List Group} {g : Group} (h : Sound (done ++ [g])) :
    (Options.ofGroups done).take g = some (Options.ofGroups (done ++ [g])) := by
  have hfits := h.fits g (by simp)
  have hfew := h.few
  cases g with
  | positional argument =>
      have hpositional : takePositional (Options.ofGroups done) argument =
          .ok (Options.ofGroups (done ++ [.positional argument])) := by
        rw [takePositional, if_neg hfits]
        match hbefore : positionals done with
        | [] => simp [Options.ofGroups, hbefore]
        | [input] => simp [Options.ofGroups, hbefore]
        | input :: output :: more =>
            simp [hbefore] at hfew
      simp [Options.take, hpositional, Except.toOption]
  | bare flag =>
      cases hfits
      simp [Options.take, Options.ofGroups]
  | valued option value =>
      have hvalue : takeValue (Options.ofGroups done) value option =
          .ok (Options.ofGroups (done ++ [.valued option value])) := by
        cases option with
        | demo => exact absurd rfl hfits.1
        | maxWidth =>
            obtain ⟨w, hw⟩ := Option.isSome_iff_exists.mp (hfits.2 rfl)
            simp [takeValue, hw, Options.ofGroups]
        | font | header | footer | config | browser => simp [takeValue, Options.ofGroups]
      simp [Options.take, hfits.1, hvalue, Except.toOption]

theorem sound_of_take {done : List Group} {g : Group} {o : Options} (hdone : Sound done)
    (h : (Options.ofGroups done).take g = some o) : Sound (done ++ [g]) := by
  suffices hboth : g.Fits ∧ (positionals (done ++ [g])).length ≤ 2 by
    refine ⟨fun other hother => ?_, hboth.2⟩
    rcases List.mem_append.mp hother with hother | hother
    · exact hdone.fits other hother
    · rw [List.mem_singleton.mp hother]
      exact hboth.1
  have hfew := hdone.few
  cases g with
  | positional argument =>
      rw [Options.take, takePositional] at h
      split at h
      · cases h
      · rename_i hhead
        refine ⟨hhead, ?_⟩
        match hbefore : positionals done with
        | [] => simp [hbefore]
        | [input] => simp [hbefore]
        | input :: output :: more =>
            simp [Options.ofGroups, hbefore, Except.toOption] at h
  | bare flag =>
      cases flag with
      | legacy => exact ⟨rfl, by simpa using hfew⟩
      | help | valued option => cases h
  | valued option value =>
      rw [Options.take] at h
      split at h
      · cases h
      · rename_i hdemo
        refine ⟨⟨hdemo, ?_⟩, by simpa using hfew⟩
        rintro rfl
        cases hwidth : width? value with
        | none => simp [takeValue, hwidth, Except.toOption] at h
        | some w => rfl

theorem Sound.left {gs hs : List Group} (h : Sound (gs ++ hs)) : Sound gs := by
  have hfew := h.few
  rw [positionals_append, List.length_append] at hfew
  exact ⟨fun g hg => h.fits g (List.mem_append_left hs hg), by omega⟩

/-- All groups add themselves to what the groups before them say. -/
theorem foldlM_take_ofGroups {done gs : List Group} (h : Sound (done ++ gs)) :
    gs.foldlM Options.take (Options.ofGroups done) = some (Options.ofGroups (done ++ gs)) := by
  induction gs generalizing done with
  | nil => simp
  | cons g gs ih =>
      rw [← List.singleton_append, ← List.append_assoc] at h ⊢
      rw [List.singleton_append, List.foldlM_cons, take_ofGroups h.left]
      exact ih h

theorem sound_of_foldlM_take {done gs : List Group} {o : Options} (hdone : Sound done)
    (h : gs.foldlM Options.take (Options.ofGroups done) = some o) : Sound (done ++ gs) := by
  induction gs generalizing done with
  | nil => simpa using hdone
  | cons g gs ih =>
      rw [List.foldlM_cons] at h
      cases hfirst : (Options.ofGroups done).take g with
      | none =>
          rw [hfirst] at h
          cases h
      | some taken =>
          have hsound : Sound (done ++ [g]) := sound_of_take hdone hfirst
          rw [take_ofGroups hsound] at h
          rw [← List.singleton_append, ← List.append_assoc]
          exact ih hsound h

/-- A reading reaches its end if and only if it stops at no group. -/
theorem reachesEnd_iff_sound (arguments : List Text) :
    ReachesEnd arguments ↔ Sound (cut arguments) := by
  have hread := parseFrom_by_groups (Options.ofGroups []) arguments
  constructor
  · intro hend
    cases hall : (cut arguments).foldlM Options.take (Options.ofGroups []) with
    | none =>
        rw [hall] at hread
        exact absurd hend hread
    | some o => exact sound_of_foldlM_take sound_nil hall
  · intro hsound
    have hsound : Sound ([] ++ cut arguments) := hsound
    rw [foldlM_take_ofGroups hsound] at hread
    have hparse : parse arguments = (Options.ofGroups (cut arguments)).request := hread
    rw [ReachesEnd, hparse]
    exact isFinal_request _

/-- What a reading that reaches its end says is what the groups say. -/
theorem parse_eq_request {arguments : List Text} (h : ReachesEnd arguments) :
    parse arguments = (Options.ofGroups (cut arguments)).request := by
  have hread := parseFrom_by_groups (Options.ofGroups []) arguments
  have hsound : Sound ([] ++ cut arguments) := (reachesEnd_iff_sound arguments).mp h
  rw [foldlM_take_ofGroups hsound] at hread
  exact hread

/-- The options of a command line that asks for a conversion are what its groups say. -/
theorem eq_ofGroups_of_parse {arguments : List Text} {input : Text} {o : Options}
    (h : parse arguments = .ok (.convert input o)) : o = Options.ofGroups (cut arguments) := by
  have hrequest := parse_eq_request (.inr ⟨input, o, h⟩)
  rw [h, Options.request] at hrequest
  split at hrequest
  · cases hrequest
    rfl
  · cases hrequest

/-! ## Groups in another order -/

/-- Two command lines of the same groups, in which the positional arguments and the values of
each option come in the same order. -/
structure Reordered (first second : List Text) : Prop where
  groups : (cut first).Perm (cut second)
  positionals : positionals (cut first) = positionals (cut second)
  values : ∀ option, values option (cut first) = values option (cut second)

variable {first second : List Text}

theorem Reordered.ofGroups_eq (h : Reordered first second) :
    Options.ofGroups (cut first) = Options.ofGroups (cut second) := by
  simp only [Options.ofGroups, last?, h.positionals, h.values, h.groups.mem_iff]

theorem Reordered.reachesEnd (h : Reordered first second) (hend : ReachesEnd first) :
    ReachesEnd second := by
  have hsound := (reachesEnd_iff_sound first).mp hend
  apply (reachesEnd_iff_sound second).mpr
  exact ⟨fun g hg => hsound.fits g (h.groups.mem_iff.mpr hg), h.positionals ▸ hsound.few⟩

theorem Reordered.parse_eq (h : Reordered first second) (hend : ReachesEnd first) :
    parse first = parse second := by
  rw [parse_eq_request hend, parse_eq_request (h.reachesEnd hend), h.ofGroups_eq]

theorem run_eq_of_reordered (w : World) (h : Reordered first second)
    (hend : ReachesEnd first) : run w first = run w second := by
  rw [run, run, h.parse_eq hend]

end Letterpress.Command
