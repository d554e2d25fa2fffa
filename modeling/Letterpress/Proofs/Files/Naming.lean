/-
# Files named by paths

A path that joins a name to a directory ends with that name (`exists_join_eq`,
`fileName?_append`). Names behind the same lead stand for files of the same directory
(`exists_place_of_name`). Another extension changes nothing but the name, and not even that
if the name has the extension already (`withExtension_eq_self_iff`).
-/

import Letterpress.Proofs.Files.Writing
import Letterpress.Proofs.Text.Splitting

namespace Letterpress

namespace Path

/-- A part of a path that names a file. -/
structure IsName (name : Text) : Prop where
  slash_not_mem : '/' ∉ name
  not_silent : isSilent name = false
  not_up : name ≠ "..".toList

/-- What can stand before the name of a file in a path. -/
def IsLead (lead : Text) : Prop := lead = [] ∨ ∃ directory, lead = directory ++ ['/']

variable {path lead name extension : Text}

/-! ## Parts -/

theorem parts_append_slash (t u : Text) : parts (t ++ '/' :: u) = parts t ++ parts u := by
  fun_induction parts t with
  | case1 => rfl
  | case2 t ih => rw [List.cons_append, parts, ih, List.cons_append]
  | case3 c t _ hparts ih => exact absurd hparts (parts_ne_nil t)
  | case4 c t hslash p ps hparts ih =>
      rw [List.cons_append, parts, ih, hparts, List.cons_append, List.cons_append]
      exact hslash

theorem parts_eq_singleton (hslash : '/' ∉ name) : parts name = [name] := by
  induction name with
  | nil => rfl
  | cons c name ih =>
      simp only [List.mem_cons, not_or] at hslash
      rw [parts, ih hslash.2]
      exact Ne.symm hslash.1

theorem slash_not_mem_of_mem_parts {part : Text} (hmem : part ∈ parts path) : '/' ∉ part := by
  fun_induction parts path generalizing part with
  | case1 =>
      rw [List.mem_singleton.mp hmem]
      exact List.not_mem_nil
  | case2 t ih =>
      rcases List.mem_cons.mp hmem with rfl | hlater
      · exact List.not_mem_nil
      · exact ih hlater
  | case3 c t _ hparts ih => exact absurd hparts (parts_ne_nil t)
  | case4 c t hslash p ps hparts ih =>
      rw [hparts] at ih
      rcases List.mem_cons.mp hmem with rfl | hlater
      · rw [List.mem_cons, not_or]
        exact ⟨fun heq => hslash heq.symm, ih List.mem_cons_self⟩
      · exact ih (List.mem_cons_of_mem p hlater)

/-- The parts before a name do not depend on the name. -/
theorem exists_parts_eq (hlead : IsLead lead) :
    ∃ before, ∀ name, '/' ∉ name → parts (lead ++ name) = before ++ [name] := by
  rcases hlead with rfl | ⟨directory, rfl⟩
  · exact ⟨[], fun name hslash => parts_eq_singleton hslash⟩
  · refine ⟨parts directory, fun name hslash => ?_⟩
    rw [List.append_assoc, List.singleton_append, parts_append_slash, parts_eq_singleton hslash]

/-! ## Names -/

theorem dropSilent_cons {last : Text} (hlast : isSilent last = false) (before : List Text) :
    dropSilent (last :: before) = last :: before := by
  cases before with
  | nil =>
      have hne : last.isEmpty = false := by
        rw [isSilent, Bool.or_eq_false_iff] at hlast
        exact hlast.1
      simp [dropSilent, hne]
  | cons part before => simp [dropSilent, hlast]

theorem mem_and_ne_nil_of_dropSilent {ps before : List Text} {last : Text}
    (h : dropSilent ps = last :: before) : last ∈ ps ∧ last ≠ [] := by
  fun_induction dropSilent ps with
  | case1 => cases h
  | case2 first hempty => cases h
  | case3 first hempty =>
      cases h
      exact ⟨List.mem_cons_self, by simpa using hempty⟩
  | case4 final more hmore hsilent ih =>
      exact ⟨List.mem_cons_of_mem final (ih h).1, (ih h).2⟩
  | case5 final more hmore hsilent =>
      cases h
      refine ⟨List.mem_cons_self, ?_⟩
      rintro rfl
      exact hsilent rfl

theorem exists_before_of_fileName? (h : fileName? path = some name) :
    ∃ before, dropSilent (parts path).reverse = name :: before ∧
      name ≠ ".".toList ∧ name ≠ "..".toList := by
  obtain ⟨⟨last, before⟩, hlast, hname⟩ := Option.bind_eq_some_iff.mp h
  rw [lastPart?] at hlast
  split at hlast
  · cases hlast
  · rename_i last' before' hdrop
    cases hlast
    simp only at hname
    split at hname
    · cases hname
    · rename_i hdots
      cases hname
      simp only [Bool.or_eq_true, decide_eq_true_eq, not_or] at hdots
      exact ⟨before, hdrop, hdots⟩

theorem isName_of_fileName? (h : fileName? path = some name) : IsName name := by
  obtain ⟨before, hdrop, hdot, hup⟩ := exists_before_of_fileName? h
  obtain ⟨hmem, hne⟩ := mem_and_ne_nil_of_dropSilent hdrop
  have hsilent : isSilent name = false := by
    rw [isSilent, List.isEmpty_eq_false_iff.mpr hne, beq_false_of_ne hdot, Bool.or_false]
  exact ⟨slash_not_mem_of_mem_parts (List.mem_reverse.mp hmem), hsilent, hup⟩

/-- Text that ends in no dot is none of those that consist of dots. -/
theorem isName_of_getLast? {c : Char} (hslash : '/' ∉ name) (hlast : name.getLast? = some c)
    (hdot : c ≠ '.') : IsName name := by
  have hother (dots : Text) (hend : dots.getLast? ≠ some c) : name ≠ dots := by
    rintro rfl
    exact hend hlast
  have hempty := hother [] nofun
  have hone := hother ".".toList fun h => hdot (Option.some.inj h).symm
  have htwo := hother "..".toList fun h => hdot (Option.some.inj h).symm
  refine ⟨hslash, ?_, htwo⟩
  rw [isSilent, List.isEmpty_eq_false_iff.mpr hempty, beq_false_of_ne hone, Bool.or_false]

/-- A path has the name that it ends with. -/
theorem fileName?_append (hlead : IsLead lead) (hname : IsName name) :
    fileName? (lead ++ name) = some name := by
  obtain ⟨before, hparts⟩ := exists_parts_eq hlead
  have hlast : lastPart? (lead ++ name) = some (name, before.reverse) := by
    rw [lastPart?, hparts name hname.slash_not_mem, List.reverse_append, List.reverse_singleton,
      List.singleton_append, dropSilent_cons hname.not_silent]
  have hdot : name ≠ ".".toList := by
    rintro rfl
    exact absurd hname.not_silent (by decide)
  rw [fileName?, hlast]
  exact if_neg (by simp only [hdot, hname.not_up, decide_false, Bool.or_self, Bool.false_eq_true,
    not_false_eq_true])

/-- A path begins at the root if its lead does. -/
theorem isAbsolute_append (hlead : IsLead lead) (hname : IsName name) :
    isAbsolute (lead ++ name) = isAbsolute lead := by
  rcases hlead with rfl | ⟨directory, rfl⟩
  · cases name with
    | nil => rfl
    | cons c name =>
        have hne : c ≠ '/' := fun h => hname.slash_not_mem (h ▸ List.mem_cons_self)
        simp [isAbsolute, hne]
  · cases directory <;> rfl

/-- Joining a name to a directory puts a lead before it. -/
theorem exists_join_eq (directory name : Text) :
    ∃ lead, IsLead lead ∧ join directory name = lead ++ name := by
  rw [join]
  split
  · exact ⟨[], .inl rfl, rfl⟩
  · split
    · rename_i hslash
      obtain ⟨before, rfl⟩ := List.getLast?_eq_some_iff.mp hslash
      exact ⟨before ++ ['/'], .inr ⟨before, rfl⟩, rfl⟩
    · exact ⟨directory ++ ['/'], .inr ⟨directory, rfl⟩, rfl⟩

/-! ## Extensions -/

/-- A name ends with its extension, or has no dot behind its first character. -/
theorem splitAtLastDot_cases (name : Text) :
    '.' ∉ name.tail ∧ splitAtLastDot name = (name, none) ∨
      ∃ stem extension, stem ≠ [] ∧ '.' ∉ extension ∧ name = stem ++ '.' :: extension ∧
        splitAtLastDot name = (stem, some extension) := by
  rw [splitAtLastDot]
  cases hsplit : Text.splitAtFirst '.' name.reverse with
  | none =>
      have habsent := Text.not_mem_of_splitAtFirst_eq_none hsplit
      rw [List.mem_reverse] at habsent
      exact .inl ⟨fun hmem => habsent (List.mem_of_mem_tail hmem), rfl⟩
  | some halves =>
      obtain ⟨after, before⟩ := halves
      have hafter : '.' ∉ after.reverse := by
        rw [List.mem_reverse]
        exact Text.not_mem_left_of_splitAtFirst hsplit
      have hname : name = before.reverse ++ '.' :: after.reverse := by
        simpa using congrArg List.reverse (Text.eq_of_splitAtFirst hsplit)
      cases before with
      | nil =>
          refine .inl ⟨?_, rfl⟩
          rw [hname]
          exact hafter
      | cons c before => exact .inr ⟨_, _, by simp, hafter, hname, rfl⟩

theorem splitAtLastDot_append_dot {stem : Text} (hstem : stem ≠ []) (hdot : '.' ∉ extension) :
    splitAtLastDot (stem ++ '.' :: extension) = (stem, some extension) := by
  have hsplit : Text.splitAtFirst '.' (stem ++ '.' :: extension).reverse =
      some (extension.reverse, stem.reverse) := by
    have habsent : '.' ∉ extension.reverse := by simpa using hdot
    rw [List.reverse_append, List.reverse_cons, List.append_assoc,
      Text.splitAtFirst_append habsent]
    simp [Text.splitAtFirst]
  rw [splitAtLastDot, hsplit]
  simp [hstem]

/-- A name consists of what stands before an extension, and of that extension, exactly if it
has that extension. -/
theorem splitAtLastDot_snd_eq_some_iff :
    (splitAtLastDot name).2 = some extension ↔
      name = (splitAtLastDot name).1 ++ '.' :: extension := by
  rcases splitAtLastDot_cases name with ⟨-, hself⟩ | ⟨stem, own, hstem, -, hname, hcut⟩
  · simp [hself]
  · rw [hcut, hname, List.append_cancel_left_eq, List.cons.injEq, Option.some.injEq]
    simp only [true_and]

theorem mem_tail_of_append_dot {stem : Text} (hstem : stem ≠ []) (extension : Text) :
    '.' ∈ (stem ++ '.' :: extension).tail := by
  cases stem with
  | nil => exact absurd rfl hstem
  | cons c stem => simp

/-- Text without a dot, put behind a name, is cut off again exactly if the name can be cut. -/
theorem splitAtLastDot_append {more : Text} (hdot : '.' ∉ more) (name : Text) :
    (splitAtLastDot (name ++ more)).1 =
      if '.' ∈ name.tail then (splitAtLastDot name).1 else name ++ more := by
  rcases splitAtLastDot_cases name with ⟨habsent, -⟩ | ⟨stem, own, hstem, hown, hname, hcut⟩
  · rw [if_neg habsent]
    rcases splitAtLastDot_cases (name ++ more) with
      ⟨-, hself⟩ | ⟨stem, own, hstem, -, hname, -⟩
    · rw [hself]
    · have hmem := mem_tail_of_append_dot hstem own
      rw [← hname] at hmem
      cases name with
      | nil => exact absurd (List.mem_of_mem_tail hmem) hdot
      | cons c name =>
          rcases List.mem_append.mp hmem with hbehind | hmore
          · exact absurd hbehind habsent
          · exact absurd hmore hdot
  · have hmem : '.' ∈ name.tail := hname ▸ mem_tail_of_append_dot hstem own
    have hlonger : name ++ more = stem ++ '.' :: (own ++ more) := by simp [hname]
    have hboth : '.' ∉ own ++ more := by simp [hown, hdot]
    rw [if_pos hmem, hcut, hlonger, splitAtLastDot_append_dot hstem hboth]

theorem withExtension_append (hlead : IsLead lead) (hname : IsName name) (extension : Text) :
    withExtension (lead ++ name) extension =
      lead ++ ((splitAtLastDot name).1 ++ '.' :: extension) := by
  have hbefore : Text.before? name (lead ++ name) = some lead :=
    Text.before?_eq_some_iff.mpr rfl
  simp [withExtension, fileName?_append hlead hname, hbefore]

theorem extension?_append (hlead : IsLead lead) (hname : IsName name) :
    extension? (lead ++ name) = (splitAtLastDot name).2 := by
  rw [extension?, fileName?_append hlead hname]
  rfl

/-- A path keeps its name only if that has the extension already. -/
theorem withExtension_eq_self_iff (hlead : IsLead lead) (hname : IsName name) :
    withExtension (lead ++ name) extension = lead ++ name ↔
      extension? (lead ++ name) = some extension := by
  rw [withExtension_append hlead hname, extension?_append hlead hname,
    splitAtLastDot_snd_eq_some_iff, List.append_cancel_left_eq, eq_comm]

theorem mem_of_mem_splitAtLastDot_fst {c : Char} (hc : c ∈ (splitAtLastDot name).1) :
    c ∈ name := by
  rcases splitAtLastDot_cases name with ⟨-, hself⟩ | ⟨stem, own, -, -, hname, hcut⟩
  · rwa [hself] at hc
  · rw [hcut] at hc
    exact hname ▸ List.mem_append_left _ hc

/-- Text with an extension is a name. -/
theorem isName_append_extension {stem : Text} (hstem : '/' ∉ stem) (hne : extension ≠ [])
    (hslash : '/' ∉ extension) (hdot : '.' ∉ extension) :
    IsName (stem ++ '.' :: extension) := by
  have hlast : (stem ++ '.' :: extension).getLast? = some (extension.getLast hne) := by
    rw [List.getLast?_append, List.getLast?_cons_of_ne_nil hne, List.getLast?_eq_some_getLast hne,
      Option.some_or]
  refine isName_of_getLast? (by simp [hstem, hslash]) hlast fun heq => ?_
  exact hdot (heq ▸ List.getLast_mem hne)

/-- A name with another extension is a name. -/
theorem isName_with_extension (hname : IsName name) (hne : extension ≠ [])
    (hslash : '/' ∉ extension) (hdot : '.' ∉ extension) :
    IsName ((splitAtLastDot name).1 ++ '.' :: extension) :=
  isName_append_extension (fun hmem => hname.slash_not_mem (mem_of_mem_splitAtLastDot_fst hmem))
    hne hslash hdot

end Path

namespace FileSystem

open Letterpress.Path

variable {fs fs' : FileSystem} {path other lead name : Text} {l : Location} {bytes : Octets}

/-- A name leads into the directory that its lead leads to, and so does every other name behind
that lead. -/
theorem exists_place_of_name (hlead : IsLead lead) (hname : IsName name)
    (hplace : fs.place (lead ++ name) = .ok l) :
    ∃ directory, l = name :: directory ∧
      ∀ other, IsName other → ∀ l', fs.place (lead ++ other) = .ok l' → l' = other :: directory := by
  obtain ⟨before, hparts⟩ := exists_parts_eq hlead
  have hway : ∀ other, IsName other → ∀ l', fs.place (lead ++ other) = .ok l' →
      ∃ directory, fs.follow (if isAbsolute lead then [] else fs.workingDirectory) before =
        .ok directory ∧ l' = other :: directory := by
    intro other hother l' hplace
    obtain ⟨⟨origin, ps⟩, hstart, hfollow⟩ := exists_of_bind_eq_ok hplace
    obtain ⟨-, rfl, rfl⟩ := start_eq_ok hstart
    simp only [hparts other hother.slash_not_mem, isAbsolute_append hlead hother] at hfollow
    rw [follow_append] at hfollow
    obtain ⟨directory, hdirectory, hlast⟩ := exists_of_bind_eq_ok hfollow
    exact ⟨directory, hdirectory, follow_name hother.not_silent hother.not_up hlast⟩
  obtain ⟨directory, hdirectory, hl⟩ := hway name hname l hplace
  refine ⟨directory, hl, fun other hother l' hplace' => ?_⟩
  obtain ⟨directory', hdirectory', hl'⟩ := hway other hother l' hplace'
  rw [hdirectory] at hdirectory'
  cases hdirectory'
  exact hl'

/-- What is read at a path is the file at the place that the path leads to. -/
theorem exists_place_of_read (h : fs.read path = .ok bytes) :
    ∃ l, fs.place path = .ok l ∧ fs.content? l = some bytes := by
  obtain ⟨entry, hentry, h⟩ := exists_of_bind_eq_ok h
  obtain ⟨⟨origin, ps⟩, hstart, hentry⟩ := exists_of_bind_eq_ok hentry
  obtain ⟨l, hfollow, hentry⟩ := exists_of_bind_eq_ok hentry
  have hplace : fs.place path = .ok l := by
    rw [place, hstart]
    exact hfollow
  refine ⟨l, hplace, ?_⟩
  cases hat : fs.at? l with
  | none =>
      simp only [hat] at hentry
      cases hentry
  | some found =>
      simp only [hat] at hentry
      cases hentry
      cases entry with
      | directory => cases h
      | file content =>
          cases h
          rw [content?, hat]

/-- Writing a file keeps what is read at a path that leads elsewhere. -/
theorem read_of_write_elsewhere {new : Octets} (hread : fs.read path = .ok bytes)
    (hwrite : fs.write other new = .ok fs')
    (helse : ∀ l, fs.place path = .ok l → fs.place other ≠ .ok l) : fs'.read path = .ok bytes := by
  obtain ⟨l, hplace, hcontent⟩ := exists_place_of_read hread
  obtain ⟨l', hplace', hroot, hfile, rfl⟩ := exists_put_of_write hwrite
  have hne : l ≠ l' := by
    rintro rfl
    exact helse l hplace hplace'
  refine read_of_place (place_put_of_file hfile hplace new) ?_
  rw [content?_put_of_ne hne, hcontent]

end FileSystem

end Letterpress
