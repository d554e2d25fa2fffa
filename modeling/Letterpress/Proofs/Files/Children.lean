/-
# Files in a directory

A name that is joined to a directory leads to a file that stands in the directory itself. Of
the path this says that its components are those of the directory with the name behind them
(`components_join`), whatever slashes and dots the directory is spelled with; of the place that
the path leads to, that it is the name in the place of the directory (`place_join`).

Exported files have such names for every source, so that exports go nowhere but into the
directory that is asked for (`write_stays_inside`).
-/

import Letterpress.Proofs.Files.Siblings

namespace Letterpress

namespace Path

variable {directory name : Text}

/-- The parts of a path that mean something. A path from the root begins with an empty part, and
a dot means something only where a path begins with it. -/
def components (path : Text) : List Text :=
  if path.isEmpty then []
  else
    match parts path with
    | [] => []
    | first :: rest => first :: rest.filter fun part => !isSilent part

theorem join_nil (path : Text) : join [] path = path := by
  simp [join]

/-- What stands behind a directory in a path that joins a name to it. -/
theorem exists_join_eq_append (hne : directory ≠ []) (hname : IsName name) :
    ∃ more, join directory name = directory ++ more := by
  have hrelative : isAbsolute name = false := isAbsolute_append (.inl rfl) hname
  rw [join, if_neg (by simp [hrelative, hne])]
  split
  · exact ⟨name, rfl⟩
  · exact ⟨"/" ++ name, List.append_assoc ..⟩

/-- A name follows the parts of the directory that it is joined to. Only a part that means
nothing is left out, where the directory ends with a slash. -/
theorem exists_parts_join (hne : directory ≠ []) (hname : IsName name) :
    ∃ before quiet, before ≠ [] ∧ (∀ part ∈ quiet, isSilent part = true) ∧
      parts directory = before ++ quiet ∧ parts (join directory name) = before ++ [name] := by
  have hrelative : isAbsolute name = false := isAbsolute_append (.inl rfl) hname
  have hone := parts_eq_singleton hname.slash_not_mem
  rw [join, if_neg (by simp [hrelative, hne])]
  split
  · rename_i hslash
    obtain ⟨lead, rfl⟩ := List.getLast?_eq_some_iff.mp hslash
    refine ⟨parts lead, [[]], parts_ne_nil lead, by simp [isSilent], parts_append_slash lead [], ?_⟩
    rw [List.append_assoc, List.singleton_append, parts_append_slash, hone]
  · refine ⟨parts directory, [], parts_ne_nil directory, by simp, by simp, ?_⟩
    have hcut : directory ++ ("/" : Text) ++ name = directory ++ '/' :: name := by simp
    rw [hcut, parts_append_slash, hone]

/-- A name joined to a directory is one component more. -/
theorem components_join (directory : Text) (hname : IsName name) :
    components (join directory name) = components directory ++ [name] := by
  have hkept : isSilent name = false := hname.not_silent
  by_cases hne : directory = []
  · subst hne
    have hfilled : name ≠ [] := by
      rintro rfl
      cases hkept
    rw [join_nil]
    simp [components, hfilled, parts_eq_singleton hname.slash_not_mem]
  · obtain ⟨before, quiet, hbefore, hquiet, hparts, hjoin⟩ := exists_parts_join hne hname
    obtain ⟨more, hmore⟩ := exists_join_eq_append hne hname
    have hfilled : join directory name ≠ [] := by
      rw [hmore]
      simp [hne]
    obtain ⟨first, rest, rfl⟩ := List.exists_cons_of_ne_nil hbefore
    have hnone : quiet.filter (fun part => !isSilent part) = [] := by
      rw [List.filter_eq_nil_iff]
      intro part hpart
      simp [hquiet part hpart]
    simp [components, hne, hfilled, hparts, hjoin, hnone, hkept]

end Path

namespace FileSystem

open Letterpress.Path

variable {fs : FileSystem} {directory name : Text} {l : Location}

/-- The place of the directory that a path names. An empty path names the directory at work. -/
def directoryPlace (fs : FileSystem) (directory : Text) : Except FileFault Location :=
  if directory.isEmpty then .ok fs.workingDirectory else fs.place directory

/-- Silent parts lead nowhere else. -/
theorem follow_silent (hdirectory : fs.at? l = some .directory) {ps : List Text}
    (hsilent : ∀ part ∈ ps, isSilent part = true) : fs.follow l ps = .ok l := by
  induction ps with
  | nil => rfl
  | cons part ps ih =>
      have hpart := hsilent part List.mem_cons_self
      simp only [follow, hdirectory, hpart, if_true]
      exact ih fun other hother => hsilent other (List.mem_cons_of_mem part hother)

/-- A path starts where its lead starts. -/
theorem start_of_start_append {path more : Text} {origin : Location} {ps : List Text}
    (hne : path ≠ []) (h : fs.start (path ++ more) = .ok (origin, ps)) :
    fs.start path = .ok (origin, parts path) := by
  obtain ⟨c, rest, rfl⟩ := List.exists_cons_of_ne_nil hne
  rw [start] at h ⊢
  split at h
  · cases h
  · rename_i hnull
    split at h
    · cases h
    · split at h
      · cases h
      · rename_i hsize
        cases h
        rw [Text.size_append] at hsize
        have hclean : ¬ (c :: rest).contains '\x00' = true := by
          simp only [List.contains_append, Bool.or_eq_true, not_or] at hnull
          exact hnull.1
        rw [if_neg hclean, if_neg (by simp), if_neg (by omega)]
        rfl

/-- A name that is joined to a directory leads into the place of the directory. -/
theorem place_join (hname : IsName name) (hplace : fs.place (join directory name) = .ok l) :
    ∃ outer, fs.directoryPlace directory = .ok outer ∧ l = name :: outer := by
  obtain ⟨⟨origin, ps⟩, hstart, hfollow⟩ := exists_of_bind_eq_ok hplace
  obtain ⟨-, hps, horigin⟩ := start_eq_ok hstart
  simp only [hps] at hfollow
  by_cases hne : directory = []
  · subst hne
    have hrelative : isAbsolute name = false := isAbsolute_append (.inl rfl) hname
    rw [join_nil, parts_eq_singleton hname.slash_not_mem] at hfollow
    rw [join_nil, hrelative, if_neg Bool.false_ne_true] at horigin
    subst horigin
    exact ⟨_, rfl, follow_name hname.not_silent hname.not_up hfollow⟩
  · obtain ⟨before, quiet, -, hquiet, hparts, hjoin⟩ := exists_parts_join hne hname
    obtain ⟨more, hmore⟩ := exists_join_eq_append hne hname
    rw [hjoin, follow_append] at hfollow
    obtain ⟨outer, hbefore, hlast⟩ := exists_of_bind_eq_ok hfollow
    rw [hmore] at hstart
    have hdirectory : fs.directoryPlace directory = .ok outer := by
      rw [directoryPlace, if_neg (by simpa using hne), place, start_of_start_append hne hstart,
        hparts]
      change fs.follow origin (before ++ quiet) = .ok outer
      rw [follow_append, hbefore]
      exact follow_silent (at?_of_follow hlast) hquiet
    exact ⟨outer, hdirectory, follow_name hname.not_silent hname.not_up hlast⟩

end FileSystem

/-! ## Exports -/

namespace Export

open Letterpress.Path FileSystem

/-- No name that is made from a source leads to another directory. -/
theorem isName_fileName (source : Option Text) (dialect : Dialect) :
    IsName (fileName source dialect) := by
  have hstem : '/' ∉ (source.bind stem?).getD defaultStem := by
    cases hsource : source.bind stem? with
    | none => decide
    | some stem =>
        obtain ⟨path, -, hstem⟩ := Option.bind_eq_some_iff.mp hsource
        obtain ⟨name, hname, rfl⟩ := Option.map_eq_some_iff.mp hstem
        exact fun hmem => (isName_of_fileName? hname).slash_not_mem
          (mem_of_mem_splitAtLastDot_fst hmem)
  have hsuffix : '/' ∉ dialect.fileSuffix := by
    cases dialect <;> decide
  have hmarked : '/' ∉ (source.bind stem?).getD defaultStem ++ dialect.fileSuffix := by
    simp [hstem, hsuffix]
  have hname : IsName ((source.bind stem?).getD defaultStem ++ dialect.fileSuffix ++
      '.' :: "html".toList) :=
    isName_append_extension hmarked (by decide) (by decide) (by decide)
  exact hname

/-- What a write of a file with a name to a directory comes to: the file stands in the directory
and is all that has changed, or there is no change to files. -/
inductive WritesInto (fs : FileSystem) (directory name html : Text) :
    FileSystem × Except Failure Written → Prop
  | written {fs' : FileSystem} {outer : Location}
      (hdirectory : fs'.directoryPlace directory = .ok outer)
      (hcontent : fs'.content? (name :: outer) = some (Utf8.encode html))
      (hothers : ∀ l, l ≠ name :: outer → fs'.content? l = fs.content? l) :
      WritesInto fs directory name html
        (fs', .ok ⟨Path.join directory name, Text.size html⟩)
  | failed {fs' : FileSystem} {f : Failure} (hkeep : KeepsFiles fs fs') :
      WritesInto fs directory name html (fs', .error f)

theorem writesInto_write {name : Text} (hname : IsName name) (fs : FileSystem)
    (directory html : Text) : WritesInto fs directory name html (write fs directory name html) := by
  rcases write_cases fs directory name html with ⟨fs', f, hwrite, hkeep⟩ | ⟨fs', hwrite, hwrites⟩
  · rw [hwrite]
    exact .failed hkeep
  · obtain ⟨l, hplace, hcontent⟩ := exists_place_of_read hwrites.reads
    obtain ⟨outer, hdirectory, rfl⟩ := place_join hname hplace
    rw [hwrite]
    refine .written hdirectory hcontent fun l hne => Classical.byContradiction fun hchanged => ?_
    rw [hwrites.only l hchanged] at hplace
    exact hne (Except.ok.inj hplace)

/-- Whatever a document is made from, its name is a single component with the extension of a
page. So the path that it is exported to is a direct child of the directory, and so is the file
that is written there. -/
theorem write_stays_inside (source : Option Text) (dialect : Dialect) :
    IsName (fileName source dialect) ∧ (".html" : Text) <:+ fileName source dialect ∧
      ∀ directory, Path.components (Path.join directory (fileName source dialect)) =
          Path.components directory ++ [fileName source dialect] ∧
        ∀ fs html, WritesInto fs directory (fileName source dialect) html
          (write fs directory (fileName source dialect) html) := by
  have hname := isName_fileName source dialect
  exact ⟨hname, List.suffix_append _ _, fun directory =>
    ⟨components_join directory hname, fun fs html => writesInto_write hname fs directory html⟩⟩

/-- Slashes and dots at the end of the source and of the directory lead nowhere else. -/
example : Path.components (Path.join "./a//." (fileName (some "/x/..y.tar.gz/.") .legacy)) =
    ([".", "a", "..y.tar-outlook.html"] : List Text) := by decide

end Export

end Letterpress
