/-
# Where emails go by default

Without an output path the email of an input goes into the directory of the input. The name
that is documented is the stem of the input followed by a mark of its own. A stem is taken a
second time after that mark is put on, so that the mark is lost with what stands behind the
last dot of a stem (`emailStem`). The name is the documented one exactly if no dot stands
behind the first character of the stem, and only such inputs are kept apart by their stems
(`defaultOutput_documented_iff`). No input is its own output.
-/

import Letterpress.Command.Run
import Letterpress.Proofs.Files.Siblings

namespace Letterpress.Command

open Letterpress.Path

variable {fs : FileSystem} {input name stem : Text} {imported : Imported} (dialect : Dialect)

/-! ## Names -/

/-- The name that is documented for the email of an input. -/
def documentedName (stem : Text) (dialect : Dialect) : Text :=
  stem ++ "-email" ++ dialect.fileSuffix ++ ".html"

/-- What the name of an email begins with. -/
def emailStem (stem : Text) : Text :=
  if '.' ∈ stem.tail then (splitAtLastDot stem).1 else stem ++ "-email"

/-- The name that the email of an input gets. -/
def emailName (stem : Text) (dialect : Dialect) : Text :=
  emailStem stem ++ dialect.fileSuffix ++ ".html"

/-- A stem keeps all that it has and gets a mark, or it loses its last dot and what follows. -/
theorem emailStem_cases (stem : Text) :
    '.' ∉ stem.tail ∧ emailStem stem = stem ++ "-email" ∨
      ∃ lost, '.' ∈ stem.tail ∧ emailStem stem ≠ [] ∧ stem = emailStem stem ++ '.' :: lost := by
  by_cases hmem : '.' ∈ stem.tail
  · rcases splitAtLastDot_cases stem with ⟨habsent, -⟩ | ⟨kept, lost, hkept, -, hstem, hcut⟩
    · exact absurd hmem habsent
    · have hemail : emailStem stem = kept := by rw [emailStem, if_pos hmem, hcut]
      exact .inr ⟨lost, hmem, hemail ▸ hkept, hemail ▸ hstem⟩
  · exact .inl ⟨hmem, if_neg hmem⟩

/-- The stem is taken again from the marked stem. -/
theorem fileName_marked (hslash : '/' ∉ stem) :
    Export.fileName (some (stem ++ "-email")) dialect = emailName stem dialect := by
  have hlast : (stem ++ ("-email" : Text)).getLast? = some 'l' := by
    rw [List.getLast?_append]
    rfl
  have hmarked : IsName (stem ++ ("-email" : Text)) :=
    isName_of_getLast? (by simp [hslash]) hlast (by decide)
  have hfile : fileName? (stem ++ ("-email" : Text)) = some (stem ++ "-email") :=
    fileName?_append (.inl rfl) hmarked
  have hcut : (splitAtLastDot (stem ++ ("-email" : Text))).1 = emailStem stem :=
    splitAtLastDot_append (by decide) stem
  simp only [Export.fileName, Option.bind_some, stem?, hfile, Option.map_some, hcut,
    Option.getD_some, emailName]

theorem defaultOutput_eq (hname : fileName? input = some name) :
    defaultOutput input dialect =
      withFileName input (emailName (splitAtLastDot name).1 dialect) := by
  have hslash : '/' ∉ (splitAtLastDot name).1 := fun hmem =>
    (isName_of_fileName? hname).slash_not_mem (mem_of_mem_splitAtLastDot_fst hmem)
  simp only [defaultOutput, stem?, hname, Option.map_some, fileName_marked dialect hslash]

theorem emailName_eq_documentedName_iff :
    emailName stem dialect = documentedName stem dialect ↔ '.' ∉ stem.tail := by
  rw [emailName, documentedName, List.append_cancel_right_eq, List.append_cancel_right_eq]
  rcases emailStem_cases stem with ⟨habsent, hemail⟩ | ⟨lost, hmem, -, hstem⟩
  · simp only [hemail, habsent, not_false_eq_true]
  · have hshorter := congrArg List.length hstem
    refine iff_of_false (fun h => ?_) (not_not_intro hmem)
    have hlonger := congrArg List.length h
    simp only [List.length_append, List.length_cons] at hshorter hlonger
    omega

/-- Stems without inner dots are kept apart. -/
theorem eq_of_emailName_eq {other : Text} (hstem : '.' ∉ stem.tail) (hother : '.' ∉ other.tail)
    (h : emailName stem dialect = emailName other dialect) : stem = other := by
  rw [(emailName_eq_documentedName_iff dialect).mpr hstem,
    (emailName_eq_documentedName_iff dialect).mpr hother] at h
  simpa [documentedName] using h

/-- An input does not have the name of its email. -/
theorem emailName_ne_self (name : Text) : emailName (splitAtLastDot name).1 dialect ≠ name := by
  intro h
  generalize hstem : (splitAtLastDot name).1 = stem at h
  have hemail : emailStem stem ≠ [] := by
    rcases emailStem_cases stem with ⟨-, hemail⟩ | ⟨-, -, hemail, -⟩
    · simp [hemail]
    · exact hemail
  -- The name of an email has one extension, so that its stem would be the one of the input.
  have hown : emailStem stem ++ dialect.fileSuffix = stem := by
    have hcut := splitAtLastDot_append_dot
      (List.append_ne_nil_of_left_ne_nil hemail dialect.fileSuffix)
      (by decide : '.' ∉ "html".toList)
    have hsame : (splitAtLastDot name).1 = emailStem stem ++ dialect.fileSuffix := by
      rw [← h]
      exact congrArg Prod.fst hcut
    exact hsame.symm.trans hstem
  rcases emailStem_cases stem with ⟨-, hmarked⟩ | ⟨lost, -, -, hlost⟩
  · have hlength := congrArg List.length hown
    simp [hmarked] at hlength
  · have hsuffix : dialect.fileSuffix = '.' :: lost :=
      List.append_cancel_left (hown.trans hlost)
    have hdot : '.' ∈ dialect.fileSuffix := hsuffix ▸ List.mem_cons_self
    cases dialect <;> exact absurd hdot (by decide)

/-- The name of an email has characters of the stem and of what is put behind it. -/
theorem not_mem_emailName {c : Char} (hstem : c ∉ stem)
    (hown : c ∉ "-email-outlook.html".toList) : c ∉ emailName stem dialect := by
  have hpieces : "-email".toList ⊆ "-email-outlook.html".toList ∧
      dialect.fileSuffix ⊆ "-email-outlook.html".toList ∧
      ".html".toList ⊆ "-email-outlook.html".toList := by
    cases dialect <;> decide
  have hemail : c ∉ emailStem stem := by
    rw [emailStem]
    split
    · exact fun hmem => hstem (mem_of_mem_splitAtLastDot_fst hmem)
    · rw [List.mem_append, not_or]
      exact ⟨hstem, fun hmem => hown (hpieces.1 hmem)⟩
  rw [emailName, List.mem_append, List.mem_append, not_or, not_or]
  exact ⟨⟨hemail, fun hmem => hown (hpieces.2.1 hmem)⟩, fun hmem => hown (hpieces.2.2 hmem)⟩

theorem isName_emailName (hslash : '/' ∉ stem) : IsName (emailName stem dialect) := by
  have hlast : (emailName stem dialect).getLast? = some 'l' := by
    rw [emailName, List.getLast?_append]
    rfl
  exact isName_of_getLast? (not_mem_emailName dialect hslash (by decide)) hlast (by decide)

/-! ## Places -/

theorem exists_read_of_ofFile (h : Import.ofFile fs input = .ok imported) :
    ∃ bytes, fs.read input = .ok bytes := by
  rw [Import.ofFile] at h
  split at h
  · cases h
  · split at h
    · exact ⟨_, by assumption⟩
    · cases h

/-- Where an output goes that belongs to an input: into the directory of the input, unless the
path is too long to lead anywhere, and not to the input. -/
structure GoesBeside (fs : FileSystem) (input output name written : Text)
    (directory : Location) : Prop where
  input_place : fs.place input = .ok (name :: directory)
  output_place : fs.place output = .ok (written :: directory) ∨ fs.place output = .error .longName
  output_name : fileName? output = some written
  ne : written ≠ name

/-- An output that leads somewhere leads into the directory of the input. -/
theorem GoesBeside.place_eq {output written : Text} {directory l : Location}
    (h : GoesBeside fs input output name written directory) (hplace : fs.place output = .ok l) :
    l = written :: directory := by
  rcases h.output_place with houtput | hlong
  · exact Except.ok.inj (hplace.symm.trans houtput)
  · rw [hlong] at hplace
    cases hplace

theorem exists_goesBeside (himport : Import.ofFile fs input = .ok imported)
    (hstem : stem? input = some stem) :
    ∃ name directory,
      GoesBeside fs input (defaultOutput input dialect) name (emailName stem dialect) directory := by
  obtain ⟨name, hname, rfl⟩ := Option.map_eq_some_iff.mp hstem
  obtain ⟨bytes, hread⟩ := exists_read_of_ofFile himport
  obtain ⟨l, hplace, -⟩ := FileSystem.exists_place_of_read hread
  have hslash : '/' ∉ (splitAtLastDot name).1 := fun hmem =>
    (isName_of_fileName? hname).slash_not_mem (mem_of_mem_splitAtLastDot_fst hmem)
  have hnull : '\x00' ∉ (splitAtLastDot name).1 := fun hmem =>
    FileSystem.null_not_mem_of_place hplace
      (mem_of_mem_fileName? hname (mem_of_mem_splitAtLastDot_fst hmem))
  obtain ⟨directory, rfl, houtput⟩ := FileSystem.place_withFileName hname hplace
    (isName_emailName dialect hslash) (not_mem_emailName dialect hnull (by decide))
  obtain ⟨lead, hlead, hjoin⟩ := exists_join_eq ((parent? input).getD [])
    (emailName (splitAtLastDot name).1 dialect)
  have hnamed : fileName? (defaultOutput input dialect) =
      some (emailName (splitAtLastDot name).1 dialect) := by
    rw [defaultOutput_eq dialect hname, withFileName, hname, hjoin]
    exact fileName?_append hlead (isName_emailName dialect hslash)
  rw [← defaultOutput_eq dialect hname] at houtput
  exact ⟨name, directory, hplace, houtput, hnamed, emailName_ne_self dialect name⟩

/-- The email of every input that can be imported goes into the directory of the input and not
to the input itself. It has the documented name exactly if the stem has no dot behind its first
character, and inputs with such stems do not share an output unless their stems are equal. -/
theorem defaultOutput_documented_iff (himport : Import.ofFile fs input = .ok imported)
    (hstem : stem? input = some stem) :
    ∃ name directory,
      GoesBeside fs input (defaultOutput input dialect) name (emailName stem dialect) directory ∧
      (emailName stem dialect = documentedName stem dialect ↔ '.' ∉ stem.tail) ∧
      ∀ other imported' stem' l, Import.ofFile fs other = .ok imported' →
        stem? other = some stem' → '.' ∉ stem.tail → '.' ∉ stem'.tail → stem ≠ stem' →
        fs.place (defaultOutput input dialect) = .ok l →
        fs.place (defaultOutput other dialect) ≠ .ok l := by
  obtain ⟨name, directory, hbeside⟩ := exists_goesBeside dialect himport hstem
  refine ⟨name, directory, hbeside, emailName_eq_documentedName_iff dialect, ?_⟩
  intro other imported' stem' l himport' hstem' habsent habsent' hne hplace hplace'
  obtain ⟨name', directory', hbeside'⟩ := exists_goesBeside dialect himport' hstem'
  have hsame := (hbeside.place_eq hplace).symm.trans (hbeside'.place_eq hplace')
  exact hne (eq_of_emailName_eq dialect habsent habsent' (List.cons.inj hsame).1)

section Sample

/-- Letters in one directory. -/
def letters : FileSystem where
  entries := [(["letters".toList], .directory),
    (["a.html".toList, "letters".toList], .file (Utf8.encode "<p>a</p>")),
    (["b.html".toList, "letters".toList], .file (Utf8.encode "<p>b</p>")),
    (["a.b.html".toList, "letters".toList], .file (Utf8.encode "<p>c</p>")),
    (["a.c.html".toList, "letters".toList], .file (Utf8.encode "<p>d</p>"))]
  workingDirectory := []

theorem defaultOutput_documented_iff_letters :
    Import.ofFile letters "letters//a.html" = .ok ⟨"<p>a</p>", []⟩ ∧
    Import.ofFile letters "letters/b.html" = .ok ⟨"<p>b</p>", []⟩ ∧
    stem? "letters//a.html" = some "a" ∧ stem? "letters/b.html" = some "b" ∧
    letters.place (defaultOutput "letters//a.html" .legacy) =
      .ok ["a-email-outlook.html", "letters"] ∧
    letters.place (defaultOutput "letters/b.html" .legacy) ≠
      letters.place (defaultOutput "letters//a.html" .legacy) := by
  have ha : Import.ofFile letters "letters//a.html" = .ok ⟨"<p>a</p>", []⟩ := rfl
  have hb : Import.ofFile letters "letters/b.html" = .ok ⟨"<p>b</p>", []⟩ := rfl
  have hstem : stem? "letters//a.html" = some "a".toList := by decide
  have hstem' : stem? "letters/b.html" = some "b".toList := by decide
  obtain ⟨name, directory, hbeside, hdocumented, hapart⟩ :=
    defaultOutput_documented_iff .legacy ha hstem
  have hname : emailName "a" .legacy = "a-email-outlook.html".toList :=
    hdocumented.mpr (by decide)
  have hinput : letters.place "letters//a.html" = .ok ["a.html", "letters"] := rfl
  obtain ⟨rfl, rfl⟩ := List.cons.inj (Except.ok.inj (hinput.symm.trans hbeside.input_place))
  have hplace : letters.place (defaultOutput "letters//a.html" .legacy) =
      .ok ["a-email-outlook.html", "letters"] := by
    rcases hbeside.output_place with hplace | hlong
    · rw [hplace, hname]
    · cases hlong
  refine ⟨ha, hb, hstem, hstem', hplace, ?_⟩
  rw [hplace]
  exact hapart _ _ _ _ hb hstem' (by decide) (by decide) (by decide) hplace

/-- Letters with different stems that have dots go where a third letter stands. -/
theorem dotted_stems_share_output :
    Import.ofFile letters "letters/a.b.html" = .ok ⟨"<p>c</p>", []⟩ ∧
    Import.ofFile letters "letters/a.c.html" = .ok ⟨"<p>d</p>", []⟩ ∧
    stem? "letters/a.b.html" = some "a.b" ∧ stem? "letters/a.c.html" = some "a.c" ∧
    documentedName "a.b" .responsive = "a.b-email.html" ∧
    defaultOutput "letters/a.b.html" .responsive = "letters/a.html" ∧
    defaultOutput "letters/a.c.html" .responsive = "letters/a.html" ∧
    letters.read "letters/a.html" = .ok (Utf8.encode "<p>a</p>") :=
  ⟨rfl, rfl, by decide, by decide, by decide, by decide, by decide, rfl⟩

end Sample

end Letterpress.Command
