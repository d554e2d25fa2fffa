/-
# Writing files

What a file system holds after an operation. Making directories keeps every file, and
writing changes the one place that the path leads to, so that reading the path gives back
what was written (`read_of_write`).
-/

import Letterpress.Export
import Letterpress.Proofs.Steps

namespace Letterpress

namespace Path

theorem parts_ne_nil (path : Text) : parts path ≠ [] := by
  fun_induction parts path <;> simp

/-- The last part is empty only behind a slash. -/
theorem getLast?_parts_ne {path : Text} (hne : path ≠ []) (hslash : path.getLast? ≠ some '/') :
    (parts path).getLast? ≠ some [] := by
  fun_induction parts path with
  | case1 => exact absurd rfl hne
  | case2 t ih =>
      cases t with
      | nil => exact absurd rfl hslash
      | cons c t =>
          have hlast := ih (List.cons_ne_nil c t) hslash
          rwa [List.getLast?_cons_of_ne_nil (parts_ne_nil _)]
  | case3 c t _ hparts ih => simp
  | case4 c t _ p ps hparts ih =>
      cases t with
      | nil =>
          cases hparts
          simp
      | cons d t =>
          have hlast := ih (List.cons_ne_nil d t) hslash
          rw [hparts] at hlast
          cases ps with
          | nil => simp
          | cons q ps => simpa [List.getLast?_cons_cons] using hlast

/-- Nothing is silent at the end of a path that no slash ends. -/
theorem dropWhile_reverse_parts {path : Text} (hne : path ≠ [])
    (hslash : path.getLast? ≠ some '/') :
    (parts path).reverse.dropWhile List.isEmpty = (parts path).reverse := by
  have hlast := getLast?_parts_ne hne hslash
  rw [← List.head?_reverse] at hlast
  cases h : (parts path).reverse with
  | nil => rfl
  | cons last before =>
      rw [h] at hlast
      cases last with
      | nil => exact absurd rfl hlast
      | cons c name => rfl

end Path

namespace FileSystem

variable {fs fs' : FileSystem} {location l : Location} {entry : Entry} {path : Text}
  {bytes : Octets}

/-- The content of the file at a place, if a file stands there. -/
def content? (fs : FileSystem) (location : Location) : Option Octets :=
  match fs.at? location with
  | some (.file bytes) => some bytes
  | _ => none

/-- The place that a path leads to. -/
def place (fs : FileSystem) (path : Text) : Except FileFault Location := do
  let (location, parts) ← fs.start path
  fs.follow location parts

/-! ## Entries -/

theorem at?_put_self (hroot : location ≠ []) :
    (fs.put location entry).at? location = some entry := by
  cases location with
  | nil => exact absurd rfl hroot
  | cons name outer => simp [at?, put]

theorem at?_put_of_ne (hne : l ≠ location) : (fs.put location entry).at? l = fs.at? l := by
  cases l with
  | nil => rfl
  | cons name outer =>
      have hfind : (fs.entries.filter fun e => e.1 != location).find?
          (fun e => e.1 == name :: outer) = fs.entries.find? fun e => e.1 == name :: outer := by
        rw [List.find?_filter]
        congr 1
        funext e
        by_cases he : e.1 = name :: outer
        · simp [he, hne]
        · simp [he]
      simp [at?, put, Ne.symm hne, hfind]

theorem content?_put_of_ne (hne : l ≠ location) :
    (fs.put location entry).content? l = fs.content? l := by
  rw [content?, content?, at?_put_of_ne hne]

theorem content?_put_file (hroot : location ≠ []) :
    (fs.put location (.file bytes)).content? location = some bytes := by
  rw [content?, at?_put_self hroot]

/-- A directory in an empty place is no file in it. -/
theorem content?_put_directory (hempty : fs.at? location = none) (l : Location) :
    (fs.put location .directory).content? l = fs.content? l := by
  have hroot : location ≠ [] := by
    rintro rfl
    cases hempty
  by_cases hne : l = location
  · rw [hne, content?, content?, at?_put_self hroot, hempty]
  · exact content?_put_of_ne hne

/-! ## Ways -/

/-- A way begins with its first part. -/
theorem follow_cons (location : Location) (part : Text) (rest : List Text) :
    fs.follow location (part :: rest) =
      fs.follow location [part] >>= fun l => fs.follow l rest := by
  rw [follow, follow]
  split
  · rfl
  · rfl
  · split
    · rfl
    · split
      · rfl
      · split <;> rfl

theorem follow_append (location : Location) (before after : List Text) :
    fs.follow location (before ++ after) =
      fs.follow location before >>= fun l => fs.follow l after := by
  induction before generalizing location with
  | nil => rfl
  | cons part before ih =>
      rw [List.cons_append, follow_cons, follow_cons location part before]
      cases fs.follow location [part] with
      | error fault => rfl
      | ok l => exact ih l

/-- A step stays open while no directory is lost. -/
theorem follow_singleton_of_directories (hkeep : ∀ l, fs.at? l = some .directory →
    fs'.at? l = some .directory) {part : Text} (h : fs.follow location [part] = .ok l) :
    fs'.follow location [part] = .ok l := by
  cases hentry : fs.at? location with
  | none =>
      rw [follow, hentry] at h
      cases h
  | some entry =>
      cases entry with
      | file bytes =>
          rw [follow, hentry] at h
          cases h
      | directory =>
          rw [follow, hentry] at h
          rw [follow, hkeep _ hentry]
          exact h

theorem follow_of_directories (hkeep : ∀ l, fs.at? l = some .directory →
    fs'.at? l = some .directory) {ps : List Text} (h : fs.follow location ps = .ok l) :
    fs'.follow location ps = .ok l := by
  induction ps generalizing location with
  | nil => exact h
  | cons part ps ih =>
      rw [follow_cons] at h
      obtain ⟨between, hpart, hrest⟩ := exists_of_bind_eq_ok h
      rw [follow_cons, follow_singleton_of_directories hkeep hpart]
      exact ih hrest

theorem start_eq_ok {origin : Location} {ps : List Text} (h : fs.start path = .ok (origin, ps)) :
    path ≠ [] ∧ ps = Path.parts path ∧
      origin = if Path.isAbsolute path then [] else fs.workingDirectory := by
  simp only [start] at h
  split at h
  · cases h
  · split at h
    · cases h
    · split at h
      · cases h
      · cases h
        exact ⟨by simp_all, rfl, rfl⟩

/-- A part that names something leads into a directory. -/
theorem follow_name {directory : Location} {name : Text} (hsilent : Path.isSilent name = false)
    (hup : name ≠ "..".toList) (h : fs.follow directory [name] = .ok location) :
    location = name :: directory := by
  simp only [follow, hsilent, hup, Bool.false_eq_true, if_false] at h
  split at h
  · cases h
  · cases h
  · split at h
    · cases h
    · exact (Except.ok.inj h).symm

/-- A new place is named by the last part of the path, in the directory that the parts before
it lead to. -/
theorem place_of_newPlace {unnamed : FileFault}
    (h : fs.newPlace path false unnamed = .ok location) :
    fs.place path = .ok location ∧ location ≠ [] := by
  obtain ⟨⟨origin, ps⟩, hstart, h⟩ := exists_of_bind_eq_ok h
  obtain ⟨hpath, rfl, -⟩ := start_eq_ok hstart
  simp only at h
  split at h
  · cases h
  · rename_i last before hlast
    obtain ⟨directory, hdirectory, h⟩ := exists_of_bind_eq_ok h
    obtain ⟨_, _, h⟩ := exists_of_bind_eq_ok h
    by_cases hname : Path.isSilent last || last = "..".toList
    · rw [if_pos hname] at h
      cases h
    rw [if_neg hname] at h
    by_cases hslash : !false && path.getLast? = some '/'
    · rw [if_pos hslash] at h
      cases h
    rw [if_neg hslash] at h
    simp only [Bool.or_eq_true, decide_eq_true_eq, not_or, Bool.not_eq_true] at hname
    have hend : path.getLast? ≠ some '/' := by simpa using hslash
    have hparts : Path.parts path = before.reverse ++ [last] := by
      rw [Path.dropWhile_reverse_parts hpath hend] at hlast
      rw [← List.reverse_reverse (Path.parts path), hlast, List.reverse_cons]
    constructor
    · rw [place, hstart]
      change fs.follow origin (Path.parts path) = _
      rw [hparts, follow_append, hdirectory]
      exact h
    · rw [follow_name hname.1 hname.2 h]
      exact List.cons_ne_nil _ _

/-! ## Operations -/

/-- Reading finds the file at the place that the path leads to. -/
theorem read_of_place (hplace : fs.place path = .ok location)
    (hcontent : fs.content? location = some bytes) : fs.read path = .ok bytes := by
  obtain ⟨⟨origin, ps⟩, hstart, hfollow⟩ := exists_of_bind_eq_ok hplace
  have hentry : fs.at? location = some (.file bytes) := by
    rw [content?] at hcontent
    split at hcontent
    · rename_i hfile
      rw [hfile, Option.some.inj hcontent]
    · cases hcontent
  have hfollow : fs.follow origin ps = .ok location := hfollow
  simp [read, lookUp, hstart, hfollow, hentry, bind, Except.bind, pure, Except.pure]

/-- A file is written to the place that its path leads to. -/
theorem exists_put_of_write (h : fs.write path bytes = .ok fs') :
    ∃ location, fs.place path = .ok location ∧ location ≠ [] ∧
      fs.at? location ≠ some .directory ∧ fs' = fs.put location (.file bytes) := by
  obtain ⟨location, hplace, h⟩ := exists_of_bind_eq_ok h
  obtain ⟨hplace, hroot⟩ := place_of_newPlace hplace
  refine ⟨location, hplace, hroot, ?_⟩
  cases hentry : fs.at? location with
  | none =>
      simp only [hentry] at h
      exact ⟨nofun, (Except.ok.inj h).symm⟩
  | some entry =>
      cases entry with
      | directory =>
          simp only [hentry] at h
          cases h
      | file old =>
          simp only [hentry] at h
          exact ⟨nofun, (Except.ok.inj h).symm⟩

/-- What a write leaves: the content where the path leads, and every other place as it was. -/
structure Writes (fs : FileSystem) (path : Text) (bytes : Octets) (fs' : FileSystem) : Prop where
  /-- The path leads to what has been written. -/
  reads : fs'.read path = .ok bytes
  /-- A place whose file is new or another one is where the path leads. -/
  only : ∀ l, fs'.content? l ≠ fs.content? l → fs'.place path = .ok l

/-- A way that leads somewhere leads there after a file is put in no directory's place. -/
theorem place_put_of_file (hfile : fs.at? location ≠ some .directory)
    (hplace : fs.place path = .ok l) (bytes : Octets) :
    (fs.put location (.file bytes)).place path = .ok l := by
  have hkeep : ∀ l, fs.at? l = some .directory →
      (fs.put location (.file bytes)).at? l = some .directory := by
    intro l hl
    have hne : l ≠ location := fun h => hfile (h ▸ hl)
    rw [at?_put_of_ne hne, hl]
  obtain ⟨⟨origin, ps⟩, hstart, hfollow⟩ := exists_of_bind_eq_ok hplace
  have hsame : (fs.put location (.file bytes)).start path = .ok (origin, ps) := hstart
  rw [place, hsame]
  exact follow_of_directories hkeep hfollow

theorem writes_of_write (h : fs.write path bytes = .ok fs') : Writes fs path bytes fs' := by
  obtain ⟨location, hplace, hroot, hfile, rfl⟩ := exists_put_of_write h
  have hafter := place_put_of_file hfile hplace bytes
  constructor
  · exact read_of_place hafter (content?_put_file hroot)
  · intro l hne
    by_cases hl : l = location
    · rw [hl, hafter]
    · exact absurd (content?_put_of_ne hl) hne

/-- No file is made, changed or lost. -/
def KeepsFiles (fs fs' : FileSystem) : Prop := ∀ l, fs'.content? l = fs.content? l

theorem KeepsFiles.refl (fs : FileSystem) : KeepsFiles fs fs := fun _ => rfl

theorem KeepsFiles.trans {between : FileSystem} (first : KeepsFiles fs between)
    (second : KeepsFiles between fs') : KeepsFiles fs fs' := fun l =>
  (second l).trans (first l)

theorem keepsFiles_of_makeDirectory (h : fs.makeDirectory path = .ok fs') :
    KeepsFiles fs fs' := by
  obtain ⟨location, -, h⟩ := exists_of_bind_eq_ok h
  cases hentry : fs.at? location with
  | some entry =>
      simp only [hentry] at h
      cases h
  | none =>
      simp only [hentry] at h
      cases h
      exact content?_put_directory hentry

theorem keepsFiles_of_ensureDirectory (h : fs.ensureDirectory path = .ok fs') :
    KeepsFiles fs fs' := by
  rw [ensureDirectory] at h
  split at h
  · cases h
  · split at h
    · cases h
      exact .refl fs
    · cases h
  · exact keepsFiles_of_makeDirectory h

theorem keepsFiles_makeDirectoriesWithin (fuel : Nat) (fs : FileSystem) (path : Text) :
    KeepsFiles fs (fs.makeDirectoriesWithin fuel path).1 := by
  fun_induction makeDirectoriesWithin fuel fs path with
  | case1 fs => exact .refl fs
  | case2 _ fs => exact .refl fs
  | case3 fuel fs path hpath made hmade => exact keepsFiles_of_ensureDirectory hmade
  | case4 fuel fs path hpath parent hparent hmissing made fault houter ih => rwa [houter] at ih
  | case5 fuel fs path hpath parent hparent hmissing made houter whole hwhole ih =>
      rw [houter] at ih
      exact ih.trans (keepsFiles_of_ensureDirectory hwhole)
  | case6 fuel fs path hpath parent hparent hmissing made houter fault hfault ih =>
      rwa [houter] at ih
  | case7 fuel fs => exact .refl fs

/-- Making directories keeps every file, also where it stops half way. -/
theorem keepsFiles_makeDirectories (fs : FileSystem) (path : Text) :
    KeepsFiles fs (fs.makeDirectories path).1 :=
  keepsFiles_makeDirectoriesWithin _ fs path

/-- What was kept before a write is kept with it. -/
theorem KeepsFiles.writes {between : FileSystem} (hkeep : KeepsFiles fs between)
    (hwrite : Writes between path bytes fs') : Writes fs path bytes fs' where
  reads := hwrite.reads
  only := fun l hne => hwrite.only l (by rwa [hkeep l])

end FileSystem

open FileSystem in
/-- An export keeps every file, or writes the document where it says. -/
theorem Export.write_cases (fs : FileSystem) (directory name html : Text) :
    (∃ fs' f, write fs directory name html = (fs', .error f) ∧ KeepsFiles fs fs') ∨
      ∃ fs', write fs directory name html =
          (fs', .ok ⟨Path.join directory name, Text.size html⟩) ∧
        Writes fs (Path.join directory name) (Utf8.encode html) fs' := by
  have hmade : KeepsFiles fs
      (if directory.isEmpty then (fs, none) else fs.makeDirectories directory).1 := by
    split
    · exact .refl fs
    · exact keepsFiles_makeDirectories fs directory
  rw [write]
  split
  · rename_i made fault hfault
    rw [hfault] at hmade
    exact .inl ⟨made, .output fault, rfl, hmade⟩
  · rename_i made hnone
    rw [hnone] at hmade
    cases hwrite : made.write (Path.join directory name) (Utf8.encode html) with
    | error fault => exact .inl ⟨made, .output fault, by simp only [hwrite], hmade⟩
    | ok written =>
        exact .inr ⟨written, by simp only [hwrite], hmade.writes (writes_of_write hwrite)⟩

end Letterpress
