/-
# Files beside other files

A file name in place of another one leads into the directory that the other file stands in.
The path is written anew for it: parts that mean nothing are left out before the name and
behind it, and no directory is lost with them (`place_withFileName`).
-/

import Letterpress.Proofs.Files.Naming

namespace Letterpress

namespace Path

variable {path name other : Text}

/-! ## Parts put together -/

theorem parts_joinWith {ps : List Text} (hne : ps ≠ []) (hslash : ∀ p ∈ ps, '/' ∉ p) :
    parts (Text.joinWith "/" ps) = ps := by
  induction ps with
  | nil => exact absurd rfl hne
  | cons p rest ih =>
      have hp := parts_eq_singleton (hslash p List.mem_cons_self)
      cases rest with
      | nil => exact hp
      | cons q rest =>
          have hlater := ih (List.cons_ne_nil q rest) fun r hr =>
            hslash r (List.mem_cons_of_mem p hr)
          have hcut : Text.joinWith "/" (p :: q :: rest) =
              p ++ '/' :: Text.joinWith "/" (q :: rest) := by
            simp [Text.joinWith]
          rw [hcut, parts_append_slash, hp, hlater, List.singleton_append]

theorem mem_iff_exists_mem_parts {c : Char} (hc : c ≠ '/') :
    c ∈ path ↔ ∃ p ∈ parts path, c ∈ p := by
  fun_induction parts path with
  | case1 => simp
  | case2 t ih => simp [hc, ih]
  | case3 d t _ hparts ih => exact absurd hparts (parts_ne_nil t)
  | case4 d t _ p ps hparts ih =>
      rw [hparts] at ih
      simp [ih, or_assoc]

theorem mem_of_mem_fileName? {c : Char} (hname : fileName? path = some name) (hc : c ∈ name) :
    c ∈ path := by
  obtain ⟨before, hdrop, -, -⟩ := exists_before_of_fileName? hname
  have hmem := (mem_and_ne_nil_of_dropSilent hdrop).1
  rw [List.mem_reverse] at hmem
  have hslash : c ≠ '/' := by
    rintro rfl
    exact slash_not_mem_of_mem_parts hmem hc
  exact (mem_iff_exists_mem_parts hslash).mpr ⟨name, hmem, hc⟩

theorem isAbsolute_iff : isAbsolute path = true ↔ ∃ ps, ps ≠ [] ∧ parts path = [] :: ps := by
  fun_cases parts path with
  | case1 => simp [isAbsolute]
  | case2 t => simp [isAbsolute, parts_ne_nil]
  | case3 c t _ hparts => exact absurd hparts (parts_ne_nil t)
  | case4 c t hslash p ps hparts => simpa [isAbsolute] using hslash

/-- A name joined to parts without a slash at their end becomes the last part. -/
theorem parts_join {directory : Text} (hne : directory ≠ [])
    (hlast : (parts directory).getLast? ≠ some []) (hother : IsName other) :
    parts (join directory other) = parts directory ++ [other] := by
  have hrelative : isAbsolute other = false := isAbsolute_append (.inl rfl) hother
  have hend : directory.getLast? ≠ some '/' := by
    intro hslash
    obtain ⟨before, rfl⟩ := List.getLast?_eq_some_iff.mp hslash
    rw [parts_append_slash] at hlast
    simp [parts] at hlast
  have hjoin : join directory other = directory ++ '/' :: other := by
    simp [join, hrelative, hne, hend]
  rw [hjoin, parts_append_slash, parts_eq_singleton hother.slash_not_mem]

/-! ## The name in a path -/

theorem exists_silent_append_dropSilent (ps : List Text) :
    ∃ quiet, (∀ p ∈ quiet, isSilent p = true) ∧ ps = quiet ++ dropSilent ps := by
  fun_induction dropSilent ps with
  | case1 => exact ⟨[], by simp, rfl⟩
  | case2 first hempty => exact ⟨[first], by simp_all [isSilent], rfl⟩
  | case3 first hempty => exact ⟨[], by simp, rfl⟩
  | case4 last before hbefore hsilent ih =>
      obtain ⟨quiet, hquiet, hcut⟩ := ih
      refine ⟨last :: quiet, ?_, by rw [List.cons_append, ← hcut]⟩
      rintro p (_ | ⟨_, hp⟩)
      · exact hsilent
      · exact hquiet p hp
  | case5 last before hbefore hsilent => exact ⟨[], by simp, rfl⟩

/-- A path around the name of its file. Only parts that mean nothing stand behind the name, and
only such parts between the way to the directory and the name. Other names are put behind the
same way. -/
structure HasWay (path name : Text) (way quiet rest : List Text) : Prop where
  parts : parts path = way ++ quiet ++ name :: rest
  quiet : ∀ p ∈ quiet, isSilent p = true
  rest : ∀ p ∈ rest, isSilent p = true
  isAbsolute : isAbsolute path = true → way ≠ []
  sibling : ∀ other, IsName other → Path.parts (withFileName path other) = way ++ [other]

/-- The directory of a path is spelled by the way to it. -/
theorem parts_withFileName_of_parent? {way : List Text} (hname : fileName? path = some name)
    (hparent : parent? path = some (Text.joinWith "/" way)) (hway : way ≠ [])
    (hslash : ∀ p ∈ way, '/' ∉ p) (hlast : way.getLast? ≠ some []) (hother : IsName other) :
    parts (withFileName path other) = way ++ [other] := by
  have hparts := parts_joinWith hway hslash
  have hne : Text.joinWith "/" way ≠ [] := by
    intro hnil
    rw [hnil] at hparts
    exact hlast (hparts ▸ rfl)
  simp only [withFileName, hname, hparent, Option.getD_some]
  rw [parts_join hne (by rwa [hparts]) hother, hparts]

theorem exists_hasWay (hname : fileName? path = some name) :
    ∃ way quiet rest, HasWay path name way quiet rest := by
  obtain ⟨before, hdrop, -, -⟩ := exists_before_of_fileName? hname
  obtain ⟨rest, hrest, hcut⟩ := exists_silent_append_dropSilent (parts path).reverse
  obtain ⟨quiet, hquiet, hbefore⟩ := exists_silent_append_dropSilent before
  have hparts : parts path =
      (dropSilent before).reverse ++ quiet.reverse ++ name :: rest.reverse := by
    rw [← List.reverse_reverse (parts path), hcut, hdrop]
    conv => lhs; rw [hbefore]
    simp
  have hquiet' : ∀ p ∈ quiet.reverse, isSilent p = true := by simpa using hquiet
  have hrest' : ∀ p ∈ rest.reverse, isSilent p = true := by simpa using hrest
  cases hway : (dropSilent before).reverse with
  | cons p ps =>
      have hparent : parent? path = some (Text.joinWith "/" (p :: ps)) := by
        simp only [parent?, lastPart?, hdrop, Option.map_some, hway]
      rw [hway] at hparts
      have hlast : (p :: ps).getLast? ≠ some [] := by
        rw [← hway, List.getLast?_reverse, Ne, List.head?_eq_some_iff]
        rintro ⟨more, hmore⟩
        exact (mem_and_ne_nil_of_dropSilent hmore).2 rfl
      have hslash : ∀ q ∈ p :: ps, '/' ∉ q := by
        intro q hq
        have hmem : q ∈ parts path := by
          rw [hparts, List.append_assoc]
          exact List.mem_append_left _ hq
        exact slash_not_mem_of_mem_parts hmem
      have hne : p :: ps ≠ [] := List.cons_ne_nil p ps
      exact ⟨p :: ps, quiet.reverse, rest.reverse, hparts, hquiet', hrest', fun _ => hne,
        fun _ => parts_withFileName_of_parent? hname hparent hne hslash hlast⟩
  | nil =>
      have hparent : parent? path = some (if isAbsolute path then ("/" : Text) else []) := by
        simp only [parent?, lastPart?, hdrop, Option.map_some, hway]
      rw [hway] at hparts
      cases habsolute : isAbsolute path with
      | false =>
          refine ⟨[], quiet.reverse, rest.reverse, hparts, hquiet', hrest', by simp [habsolute], ?_⟩
          intro other hother
          have hjoin : withFileName path other = other := by
            simp [withFileName, hname, hparent, habsolute, join]
          rw [hjoin, parts_eq_singleton hother.slash_not_mem, List.nil_append]
      | true =>
          -- The empty part before the first slash is the way, and not one that is left out.
          obtain ⟨behind, -, hbehind⟩ := isAbsolute_iff.mp habsolute
          rw [hparts, List.nil_append] at hbehind
          cases hfirst : quiet.reverse with
          | nil =>
              rw [hfirst] at hbehind
              exact absurd (List.cons.inj hbehind).1 (mem_and_ne_nil_of_dropSilent hdrop).2
          | cons first more =>
              rw [hfirst] at hbehind hparts hquiet'
              obtain rfl : first = [] := (List.cons.inj hbehind).1
              refine ⟨[[]], more, rest.reverse, hparts,
                fun p hp => hquiet' p (List.mem_cons_of_mem _ hp), hrest',
                fun _ => List.cons_ne_nil [] [], ?_⟩
              intro other hother
              have hrelative : isAbsolute other = false := isAbsolute_append (.inl rfl) hother
              have hjoin : withFileName path other = '/' :: other := by
                simp [withFileName, hname, hparent, habsolute, join, hrelative]
              rw [hjoin, parts, parts_eq_singleton hother.slash_not_mem, List.singleton_append]

/-- Another file name keeps where a path begins. -/
theorem HasWay.isAbsolute_withFileName {way quiet rest : List Text}
    (h : HasWay path name way quiet rest) (hother : IsName other) :
    Path.isAbsolute (withFileName path other) = Path.isAbsolute path := by
  rw [Bool.eq_iff_iff]
  cases way with
  | nil =>
      have hrelative : Path.isAbsolute path ≠ true := fun habsolute => h.isAbsolute habsolute rfl
      simp [hrelative, isAbsolute_iff, h.sibling other hother]
  | cons p ps => simp [isAbsolute_iff, h.sibling other hother, h.parts]

end Path

namespace FileSystem

open Letterpress.Path

variable {fs : FileSystem} {path name other : Text} {l l' : Location}

theorem follow_of_silent {ps : List Text} (hsilent : ∀ p ∈ ps, isSilent p = true)
    (h : fs.follow l ps = .ok l') : l' = l := by
  induction ps with
  | nil => exact (Except.ok.inj h).symm
  | cons p ps ih =>
      rw [follow] at h
      split at h
      · cases h
      · cases h
      · rw [if_pos (hsilent p List.mem_cons_self)] at h
        exact ih (fun q hq => hsilent q (List.mem_cons_of_mem p hq)) h

theorem at?_of_follow {p : Text} {ps : List Text} (h : fs.follow l (p :: ps) = .ok l') :
    fs.at? l = some .directory := by
  rw [follow] at h
  split at h
  · cases h
  · cases h
  · assumption

theorem null_not_mem_of_place (h : fs.place path = .ok l) : '\x00' ∉ path := by
  obtain ⟨⟨origin, ps⟩, hstart, -⟩ := exists_of_bind_eq_ok h
  intro hmem
  simp [start, hmem] at hstart

/-- A name in a directory leads into it unless it is too long. -/
theorem follow_name_of_directory (hdirectory : fs.at? l = some .directory) (hname : IsName name) :
    fs.follow l [name] = .ok (name :: l) ∨ fs.follow l [name] = .error .longName := by
  simp only [follow, hdirectory, hname.not_silent, hname.not_up, Bool.false_eq_true, if_false]
  split
  · exact .inr rfl
  · exact .inl rfl

/-- The way leads to the directory, where the name stands. -/
theorem exists_directory_of_hasWay {way quiet rest : List Text}
    (hway : HasWay path name way quiet rest) (hname : IsName name)
    (hplace : fs.place path = .ok l) :
    ∃ directory, l = name :: directory ∧ fs.at? directory = some .directory ∧
      fs.follow (if isAbsolute path then [] else fs.workingDirectory) way = .ok directory := by
  obtain ⟨⟨origin, ps⟩, hstart, hfollow⟩ := exists_of_bind_eq_ok hplace
  obtain ⟨-, rfl, rfl⟩ := start_eq_ok hstart
  simp only [hway.parts, List.append_assoc] at hfollow
  rw [follow_append] at hfollow
  obtain ⟨directory, hdirectory, hbehind⟩ := exists_of_bind_eq_ok hfollow
  rw [follow_append] at hbehind
  obtain ⟨same, hquiet, hlast⟩ := exists_of_bind_eq_ok hbehind
  obtain rfl := follow_of_silent hway.quiet hquiet
  have hthere := at?_of_follow hlast
  rw [follow_cons] at hlast
  obtain ⟨inside, hinside, hrest⟩ := exists_of_bind_eq_ok hlast
  obtain rfl := follow_name hname.not_silent hname.not_up hinside
  exact ⟨same, follow_of_silent hway.rest hrest, hthere, hdirectory⟩

theorem null_not_mem_withFileName {way quiet rest : List Text}
    (hway : HasWay path name way quiet rest) (hpath : '\x00' ∉ path) (hother : IsName other)
    (hnull : '\x00' ∉ other) : '\x00' ∉ withFileName path other := by
  have hslash : '\x00' ≠ '/' := by decide
  rw [mem_iff_exists_mem_parts hslash, hway.sibling other hother]
  rintro ⟨p, hp, hc⟩
  rcases List.mem_append.mp hp with hbefore | hlast
  · refine hpath ((mem_iff_exists_mem_parts hslash).mpr ⟨p, ?_, hc⟩)
    rw [hway.parts, List.append_assoc]
    exact List.mem_append_left _ hbefore
  · exact hnull (List.mem_singleton.mp hlast ▸ hc)

/-- Where a file name leads, another one leads into the same directory, or is too long to lead
anywhere. -/
theorem place_withFileName (hname : fileName? path = some name) (hplace : fs.place path = .ok l)
    (hother : IsName other) (hnull : '\x00' ∉ other) :
    ∃ directory, l = name :: directory ∧
      (fs.place (withFileName path other) = .ok (other :: directory) ∨
        fs.place (withFileName path other) = .error .longName) := by
  obtain ⟨way, quiet, rest, hway⟩ := exists_hasWay hname
  obtain ⟨directory, hl, hthere, hdirectory⟩ :=
    exists_directory_of_hasWay hway (isName_of_fileName? hname) hplace
  refine ⟨directory, hl, ?_⟩
  have hclean := null_not_mem_withFileName hway (null_not_mem_of_place hplace) hother hnull
  have hne : withFileName path other ≠ [] := by
    intro hnil
    have hmem : other ∈ parts [] := by
      rw [← hnil, hway.sibling other hother]
      exact List.mem_append_right way (List.mem_singleton_self other)
    have hsilent := hother.not_silent
    rw [List.mem_singleton.mp hmem] at hsilent
    cases hsilent
  rw [place, start, hway.isAbsolute_withFileName hother, hway.sibling other hother]
  by_cases hlong : longestPath < Text.size (withFileName path other)
  · right
    simp [hclean, hne, hlong, bind, Except.bind]
  · simp only [List.contains_eq_mem, hclean, decide_false, Bool.false_eq_true, if_false,
      List.isEmpty_eq_false_iff.mpr hne, hlong, bind, Except.bind]
    rw [follow_append, hdirectory]
    exact follow_name_of_directory hthere hother

end FileSystem

end Letterpress
