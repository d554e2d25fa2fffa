/-
# What references stand for

No reference stands for U+0000: the table of names has no such character, a
number that is no other character stands for U+FFFD, and text that forms no
reference is kept as it was read. `Reference.IsRead` says of a reference being
read what that rests on; the lexer keeps it.
-/

import Letterpress.Markup.Reference

namespace Letterpress

namespace Entity

/-- Whether none of the characters of an entry is U+0000. -/
def isVisible (entry : String × List Nat) : Bool :=
  entry.2.all fun code => Char.ofNat code != '\x00'

set_option maxRecDepth 8192 in
/-- No name in the table stands for U+0000. -/
theorem all_isVisible_startingWith (c : Char) : (startingWith c).all isVisible = true := by
  unfold startingWith
  split
  all_goals rfl

theorem null_not_mem_text? {name t : Text} (hmeaning : text? name = some t) : '\x00' ∉ t := by
  cases name with
  | nil => cases hmeaning
  | cons c rest =>
      obtain ⟨entry, hfind, rfl⟩ := Option.map_eq_some_iff.mp hmeaning
      have hvisible := List.all_eq_true.mp (all_isVisible_startingWith c) entry
        (List.mem_of_find?_eq_some hfind)
      intro hnull
      obtain ⟨code, hcode, heq⟩ := List.mem_map.mp hnull
      have hne := List.all_eq_true.mp hvisible code hcode
      rw [heq] at hne
      cases hne

theorem null_not_mem_longestLenient? {t meaning rest : Text} (hnull : '\x00' ∉ t)
    (hlongest : longestLenient? t = some (meaning, rest)) :
    '\x00' ∉ meaning ∧ '\x00' ∉ rest := by
  obtain ⟨name, -, hname⟩ := Option.bind_eq_some_iff.mp hlongest
  obtain ⟨found, hfound, hpair⟩ := Option.map_eq_some_iff.mp hname
  cases hpair
  refine ⟨null_not_mem_text? hfound, ?_⟩
  intro hrest
  exact hnull (List.mem_of_mem_drop hrest)

end Entity

namespace Reference

/-- A number that is valid as a code point stands for a character other than U+0000. -/
theorem ofNat_ne_null {code : Nat} (hvalid : code.isValidChar) (hne : code ≠ 0) :
    Char.ofNat code ≠ '\x00' := by
  intro heq
  have hnat : (Char.ofNat code).toNat = code := by
    rw [Char.ofNat, dif_pos hvalid]
    rfl
  rw [heq] at hnat
  exact hne hnat.symm

theorem windows_ne_null : character.windows.all (fun code => Char.ofNat code != '\x00') = true := by
  decide

/-- Numbers stand for visible characters. -/
theorem character_ne_null (code : Nat) : character code ≠ '\x00' := by
  rw [character]
  split
  · decide
  · rename_i hcode
    simp only [Bool.or_eq_true, Bool.and_eq_true, decide_eq_true_eq, not_or, not_and] at hcode
    obtain ⟨⟨hzero, hhigh⟩, hsurrogate⟩ := hcode
    have hvalid : code.isValidChar := by
      rw [Nat.isValidChar]
      omega
    split
    · cases hentry : character.windows[code - 0x80]? with
      | none => exact ofNat_ne_null hvalid hzero
      | some shown =>
          have hmem := List.mem_of_getElem? hentry
          simpa using List.all_eq_true.mp windows_ne_null shown hmem
    · exact ofNat_ne_null hvalid hzero

/-- What has been read of a reference holds no U+0000. -/
def IsRead : Reference → Prop
  | name letters => '\x00' ∉ letters
  | hexMark mark => mark ≠ '\x00'
  | _ => True

theorem isNameChar_ne_null {c : Char} (hname : isNameChar c = true) : c ≠ '\x00' := by
  rintro rfl
  cases hname

theorem IsRead.continue {r next : Reference} (hread : r.IsRead) {c : Char}
    (hnext : r.continue? c = some next) : next.IsRead := by
  cases r with
  | ampersand =>
      simp only [continue?] at hnext
      split at hnext
      · cases hnext
        trivial
      · split at hnext
        · rename_i hname
          cases hnext
          simpa [IsRead] using (isNameChar_ne_null hname).symm
        · cases hnext
  | name letters =>
      simp only [continue?] at hnext
      split at hnext
      · rename_i hname
        cases hnext
        simpa [IsRead] using ⟨(isNameChar_ne_null hname).symm, hread⟩
      · cases hnext
  | hash =>
      simp only [continue?] at hnext
      split at hnext
      · rename_i hmark
        cases hnext
        rintro rfl
        cases hmark
      · obtain ⟨d, -, rfl⟩ := Option.map_eq_some_iff.mp hnext
        trivial
  | hexMark mark | decimal value | hexadecimal value =>
      obtain ⟨d, -, rfl⟩ := Option.map_eq_some_iff.mp hnext
      trivial

/-- No reference stands for U+0000. -/
theorem IsRead.null_not_mem_settle {r : Reference} (hread : r.IsRead) (inAttribute : Bool)
    (next : Option Char) : '\x00' ∉ (r.settle inAttribute next).text := by
  have hnumber (value : Nat) : '\x00' ∉ (settleNumber value next).text := by
    rw [settleNumber]
    split <;> simpa using (character_ne_null value).symm
  cases r with
  | ampersand => exact (by decide : '\x00' ∉ (literal []).text)
  | hash => exact (by decide : '\x00' ∉ (literal ['#']).text)
  | hexMark mark => simpa [settle, literal] using Ne.symm hread
  | decimal value => exact hnumber value
  | hexadecimal value => exact hnumber value
  | name letters =>
      have hletters : '\x00' ∉ letters.reverse := by
        rw [List.mem_reverse]
        exact hread
      have hliteral : '\x00' ∉ (literal letters.reverse).text := by
        rw [literal, List.mem_cons, not_or]
        exact ⟨by decide, hletters⟩
      rw [settle, settleName]
      split
      · rename_i t hclosed
        split at hclosed
        · exact Entity.null_not_mem_text? hclosed
        · cases hclosed
      · split
        · exact hliteral
        · rename_i t rest hlongest
          obtain ⟨hmeaning, hrest⟩ := Entity.null_not_mem_longestLenient? hletters hlongest
          split
          · exact hliteral
          · simp [hmeaning, hrest]

end Reference

end Letterpress
