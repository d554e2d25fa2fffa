/-
# Base64 and back

Decoding undoes encoding, for octets of any number, and nothing else is decoded
(`decode_eq_ok_iff`). Three octets and four numbers below 64 carry the same bits. With one
or two octets at the end, the last number ends in bits that are zero, and equals signs fill
up: both is what a reader asks for, and without it octets would have several spellings.

The arithmetic of bits is done on numbers; that a symbol stands for its number is said
once (`value?_symbol`).
-/

import Mathlib.Data.List.Basic
import Letterpress.Proofs.Steps
import Letterpress.Text.Base64

namespace Letterpress.Base64

/-! ## Symbols -/

/-- The symbol of a number is read as the number, and it does not fill up. -/
theorem value?_symbol {n : Nat} (hn : n < 64) :
    value? (symbol n).toNat = some n ∧ (symbol n).toNat ≠ padding := by
  have hall : ∀ n < 64, value? (symbol n).toNat = some n ∧ (symbol n).toNat ≠ padding := by
    decide
  exact hall n hn

/-- The codes of the symbols of numbers. -/
def codesOf (numbers : List Nat) : List Nat := numbers.map fun n => (symbol n).toNat

variable {numbers filling : List Nat}

theorem values_codesOf (hnumbers : ∀ n ∈ numbers, n < 64) (offset : Nat) :
    values offset (codesOf numbers) = .ok numbers := by
  induction numbers generalizing offset with
  | nil => rfl
  | cons n numbers ih =>
      have hrest := ih (fun m hm => hnumbers m (List.mem_cons_of_mem n hm)) (offset + 1)
      have hfirst := (value?_symbol (hnumbers n List.mem_cons_self)).1
      show values offset ((symbol n).toNat :: codesOf numbers) = _
      simp only [values, hfirst, hrest]
      rfl

/-- The symbols end where filling characters begin. -/
theorem takeWhile_codesOf (hnumbers : ∀ n ∈ numbers, n < 64)
    (hfilling : ∀ code ∈ filling, code = padding) :
    (codesOf numbers ++ filling).takeWhile (· != padding) = codesOf numbers ∧
      (codesOf numbers ++ filling).dropWhile (· != padding) = filling := by
  have hsymbols : ∀ code ∈ codesOf numbers, (code != padding) = true := by
    intro code hcode
    obtain ⟨n, hn, rfl⟩ := List.mem_map.mp hcode
    exact bne_iff_ne.mpr (value?_symbol (hnumbers n hn)).2
  rw [List.takeWhile_append_of_pos hsymbols, List.dropWhile_append_of_pos hsymbols]
  cases filling with
  | nil => exact ⟨List.append_nil _, rfl⟩
  | cons code filling =>
      have hfirst : (code != padding) = false := by
        rw [hfilling code List.mem_cons_self]
        rfl
      simp only [List.takeWhile_cons, List.dropWhile_cons, hfirst, List.append_nil,
        Bool.false_eq_true, if_false, and_self]

/-- A last group of two, three or four symbols, filled up to four, is read as the octets of its
numbers if no bits are left over. -/
theorem decodeLast_codesOf (numbers filling : List Nat) (hnumbers : ∀ n ∈ numbers, n < 64)
    (hfilling : ∀ code ∈ filling, code = padding) (hmany : 2 ≤ numbers.length)
    (hlength : numbers.length + filling.length = 4) (hbits : hasExtraBits numbers = false)
    (offset : Nat) :
    decodeLast offset (codesOf numbers ++ filling) = .ok (octets numbers) := by
  obtain ⟨hsymbols, hrest⟩ := takeWhile_codesOf hnumbers hfilling
  have hcount : (codesOf numbers).length = numbers.length := List.length_map _
  have hplaced : misplaced? offset (codesOf numbers) filling = none := by
    have hother : filling.any (· != padding) = false := by
      simpa using hfilling
    have hfew : ¬ (codesOf numbers).length < 2 := by omega
    simp [misplaced?, hother, hfew]
  have htotal : (codesOf numbers ++ filling).length = 4 := by
    rw [List.length_append, hcount, hlength]
  have hone : ¬ (codesOf numbers).length = 1 := by omega
  simp [decodeLast, hsymbols, hrest, values_codesOf hnumbers, hplaced, htotal, hone, hbits, bind,
    Except.bind, pure, Except.pure]

/-! ## The numbers of octets -/

section

variable (a b c : UInt8)

/-- A number that carries the bits of an octet is turned back into it. -/
theorem toUInt8_eq_of_eq_toNat {n : Nat} {a : UInt8} (h : n = a.toNat) : n.toUInt8 = a := by
  rw [h]
  exact UInt8.ofNat_toNat

theorem octets_one : octets [a.toNat / 4, a.toNat % 4 * 16] = [a] := by
  have ha : (a.toNat / 4 * 4 + a.toNat % 4 * 16 / 16).toUInt8 = a :=
    toUInt8_eq_of_eq_toNat (by omega)
  rw [octets, ha]

theorem octets_two :
    octets [a.toNat / 4, a.toNat % 4 * 16 + b.toNat / 16, b.toNat % 16 * 4] = [a, b] := by
  have hlarge := b.toNat_lt
  have ha : (a.toNat / 4 * 4 + (a.toNat % 4 * 16 + b.toNat / 16) / 16).toUInt8 = a :=
    toUInt8_eq_of_eq_toNat (by omega)
  have hb : ((a.toNat % 4 * 16 + b.toNat / 16) % 16 * 16 + b.toNat % 16 * 4 / 4).toUInt8 = b :=
    toUInt8_eq_of_eq_toNat (by omega)
  rw [octets, ha, hb]

/-- The numbers that carry the bits of three octets. -/
def fullGroup : List Nat :=
  [a.toNat / 4, a.toNat % 4 * 16 + b.toNat / 16, b.toNat % 16 * 4 + c.toNat / 64, c.toNat % 64]

theorem lt_of_mem_fullGroup : ∀ n ∈ fullGroup a b c, n < 64 := by
  have ha := a.toNat_lt
  have hb := b.toNat_lt
  have hc := c.toNat_lt
  simp [fullGroup]
  omega

theorem octets_fullGroup : octets (fullGroup a b c) = [a, b, c] := by
  have hlarge := b.toNat_lt
  have hlarge' := c.toNat_lt
  have ha : (a.toNat / 4 * 4 + (a.toNat % 4 * 16 + b.toNat / 16) / 16).toUInt8 = a :=
    toUInt8_eq_of_eq_toNat (by omega)
  have hb : ((a.toNat % 4 * 16 + b.toNat / 16) % 16 * 16 +
      (b.toNat % 16 * 4 + c.toNat / 64) / 4).toUInt8 = b :=
    toUInt8_eq_of_eq_toNat (by omega)
  have hc : ((b.toNat % 16 * 4 + c.toNat / 64) % 4 * 64 + c.toNat % 64).toUInt8 = c :=
    toUInt8_eq_of_eq_toNat (by omega)
  rw [fullGroup, octets, ha, hb, hc]

end

/-! ## Whole texts -/

/-- The codes of the characters that octets are written with. -/
def writtenCodes (bytes : Octets) : List Nat := (encode bytes).map Char.toNat

theorem writtenCodes_ne_nil {bytes : Octets} (hne : bytes ≠ []) : writtenCodes bytes ≠ [] := by
  cases bytes using encode.fun_cases with
  | case1 => exact absurd rfl hne
  | case2 a => simp [writtenCodes, encode]
  | case3 a b => simp [writtenCodes, encode]
  | case4 a b c rest => simp [writtenCodes, encode]

/-- Symbols come in groups of four. -/
theorem length_encode_mod (bytes : Octets) : (encode bytes).length % 4 = 0 := by
  induction bytes using encode.induct with
  | case1 => rfl
  | case2 a => simp [encode]
  | case3 a b => simp [encode]
  | case4 a b c rest _ _ _ _ ih =>
      simp only [encode, List.length_cons]
      omega

/-- Octets are written with symbols and filling characters only. -/
theorem mem_encode_cases {bytes : Octets} {x : Char} (hx : x ∈ encode bytes) :
    (∃ n < 64, x = symbol n) ∨ x = '=' := by
  induction bytes using encode.induct with
  | case1 => cases hx
  | case2 a =>
      have ha := a.toNat_lt
      simp only [encode, List.mem_cons, List.not_mem_nil, or_false] at hx
      rcases hx with hx | hx | hx | hx
      · exact .inl ⟨_, by omega, hx⟩
      · exact .inl ⟨_, by omega, hx⟩
      · exact .inr hx
      · exact .inr hx
  | case3 a b =>
      have ha := a.toNat_lt
      have hb := b.toNat_lt
      simp only [encode, List.mem_cons, List.not_mem_nil, or_false] at hx
      rcases hx with hx | hx | hx | hx
      · exact .inl ⟨_, by omega, hx⟩
      · exact .inl ⟨_, by omega, hx⟩
      · exact .inl ⟨_, by omega, hx⟩
      · exact .inr hx
  | case4 a b c rest _ _ _ _ ih =>
      have hfirst : x ∈ (fullGroup a b c).map symbol ∨ x ∈ encode rest := by
        simpa [encode, fullGroup, or_assoc] using hx
      rcases hfirst with hfirst | hrest
      · obtain ⟨n, hn, rfl⟩ := List.mem_map.mp hfirst
        exact .inl ⟨n, lt_of_mem_fullGroup a b c n hn, rfl⟩
      · exact ih hrest

/-- What is written is read as the octets, group by group. -/
theorem decodeFrom_writtenCodes (bytes : Octets) (offset : Nat) :
    decodeFrom offset (writtenCodes bytes) = .ok bytes := by
  induction bytes using encode.induct generalizing offset with
  | case1 => rfl
  | case2 a =>
      have ha := a.toNat_lt
      have hlast := decodeLast_codesOf [a.toNat / 4, a.toNat % 4 * 16] [padding, padding]
        (by simp; omega) (by simp) (by simp) rfl (by simp [hasExtraBits]) offset
      rw [octets_one] at hlast
      exact hlast
  | case3 a b =>
      have ha := a.toNat_lt
      have hb := b.toNat_lt
      have hlast := decodeLast_codesOf
        [a.toNat / 4, a.toNat % 4 * 16 + b.toNat / 16, b.toNat % 16 * 4] [padding]
        (by simp; omega) (by simp) (by simp) rfl (by simp [hasExtraBits]) offset
      rw [octets_two] at hlast
      exact hlast
  | case4 a b c rest _ _ _ _ ih =>
      have hnumbers := lt_of_mem_fullGroup a b c
      have hwritten : writtenCodes (a :: b :: c :: rest) =
          codesOf (fullGroup a b c) ++ writtenCodes rest := by
        rw [writtenCodes, encode]
        rfl
      rw [hwritten]
      by_cases hrest : rest = []
      · subst hrest
        have hlast := decodeLast_codesOf (fullGroup a b c) [] hnumbers nofun (by simp [fullGroup])
          rfl rfl offset
        rw [octets_fullGroup] at hlast
        exact hlast
      · -- Five symbols or more are a full group with something behind it.
        obtain ⟨code, codes, hcodes⟩ := List.exists_cons_of_ne_nil (writtenCodes_ne_nil hrest)
        have hlater := ih (offset + 4)
        have hfirst := values_codesOf hnumbers offset
        rw [hcodes] at hlater ⊢
        simp only [codesOf, fullGroup, List.map_cons, List.map_nil, List.cons_append,
          List.nil_append] at hfirst ⊢
        rw [decodeFrom, hfirst, hlater]
        show Except.ok (octets (fullGroup a b c) ++ rest) = _
        rw [octets_fullGroup]
        rfl

/-- Octets come back from what is written. -/
theorem decode_writtenCodes (bytes : Octets) : decode (writtenCodes bytes) = .ok bytes := by
  have hstray : strayEnd? (writtenCodes bytes) = none := by
    have hlength : (writtenCodes bytes).length % 4 = 0 := by
      rw [writtenCodes, List.length_map]
      exact length_encode_mod bytes
    simp [strayEnd?, hlength]
  rw [decode, hstray]
  exact decodeFrom_writtenCodes bytes 0

/-! ## One spelling -/

/-- A code that is read as a number is the code of the number's symbol. -/
theorem eq_symbol_of_value? {code n : Nat} (hvalue : value? code = some n) :
    n < 64 ∧ code = (symbol n).toNat := by
  have hsmall : ∀ code < 123, (value? code).all
      (fun n => n < 64 && code == (symbol n).toNat) = true := by decide
  have hlarge : 123 ≤ code → value? code = none := by
    intro hcode
    have hcapital : ¬ (65 ≤ code ∧ code ≤ 90) := by omega
    have hletter : ¬ (97 ≤ code ∧ code ≤ 122) := by omega
    have hdigit : ¬ (48 ≤ code ∧ code ≤ 57) := by omega
    have hsign : code ≠ 43 ∧ code ≠ 47 := by omega
    simp [value?, hcapital, hletter, hdigit, hsign]
  by_cases hcode : code < 123
  · have hall := hsmall code hcode
    rw [hvalue] at hall
    simpa using hall
  · rw [hlarge (Nat.le_of_not_lt hcode)] at hvalue
    cases hvalue

/-- Codes that are read as numbers are the codes of the numbers' symbols. -/
theorem eq_codesOf_of_values {codes numbers : List Nat} {offset : Nat}
    (hvalues : values offset codes = .ok numbers) :
    codes = codesOf numbers ∧ ∀ n ∈ numbers, n < 64 := by
  induction codes generalizing offset numbers with
  | nil =>
      cases hvalues
      exact ⟨rfl, by simp⟩
  | cons code codes ih =>
      cases hvalue : value? code with
      | none =>
          simp only [values, hvalue] at hvalues
          cases hvalues
      | some n =>
          simp only [values, hvalue] at hvalues
          obtain ⟨rest, hrest, heq⟩ := exists_of_bind_eq_ok hvalues
          cases heq
          obtain ⟨hn, hcode⟩ := eq_symbol_of_value? hvalue
          obtain ⟨hcodes, hall⟩ := ih hrest
          refine ⟨?_, List.forall_mem_cons.mpr ⟨hn, hall⟩⟩
          rw [hcode, hcodes]
          rfl

variable {a b c d : Nat}

theorem writtenCodes_octets_two (ha : a < 64) (hb : b < 64) (hbits : b % 16 = 0) :
    writtenCodes (octets [a, b]) = codesOf [a, b] ++ [padding, padding] := by
  have hfirst : (a * 4 + b / 16).toUInt8.toNat = a * 4 + b / 16 := Octets.toNat_toUInt8 (by omega)
  have hleft : (a * 4 + b / 16) / 4 = a := by omega
  have hright : (a * 4 + b / 16) % 4 * 16 = b := by omega
  simp only [octets, writtenCodes, encode, hfirst, hleft, hright]
  rfl

theorem writtenCodes_octets_three (ha : a < 64) (hb : b < 64) (hc : c < 64) (hbits : c % 4 = 0) :
    writtenCodes (octets [a, b, c]) = codesOf [a, b, c] ++ [padding] := by
  have hfirst : (a * 4 + b / 16).toUInt8.toNat = a * 4 + b / 16 := Octets.toNat_toUInt8 (by omega)
  have hsecond : (b % 16 * 16 + c / 4).toUInt8.toNat = b % 16 * 16 + c / 4 :=
    Octets.toNat_toUInt8 (by omega)
  have hleft : (a * 4 + b / 16) / 4 = a := by omega
  have hmiddle : (a * 4 + b / 16) % 4 * 16 + (b % 16 * 16 + c / 4) / 16 = b := by omega
  have hright : (b % 16 * 16 + c / 4) % 16 * 4 = c := by omega
  simp only [octets, writtenCodes, encode, hfirst, hsecond, hleft, hmiddle, hright]
  rfl

/-- A full group is written in front of the octets behind it. -/
theorem writtenCodes_octets_append (ha : a < 64) (hb : b < 64) (hc : c < 64) (hd : d < 64)
    (bytes : Octets) :
    writtenCodes (octets [a, b, c, d] ++ bytes) = codesOf [a, b, c, d] ++ writtenCodes bytes := by
  have hfirst : (a * 4 + b / 16).toUInt8.toNat = a * 4 + b / 16 := Octets.toNat_toUInt8 (by omega)
  have hsecond : (b % 16 * 16 + c / 4).toUInt8.toNat = b % 16 * 16 + c / 4 :=
    Octets.toNat_toUInt8 (by omega)
  have hthird : (c % 4 * 64 + d).toUInt8.toNat = c % 4 * 64 + d := Octets.toNat_toUInt8 (by omega)
  have hfull : fullGroup (a * 4 + b / 16).toUInt8 (b % 16 * 16 + c / 4).toUInt8
      (c % 4 * 64 + d).toUInt8 = [a, b, c, d] := by
    rw [fullGroup, hfirst, hsecond, hthird]
    congr <;> omega
  rw [← hfull, octets_fullGroup]
  rfl

/-- Two to four numbers without bits left over are what their octets are written with, filled up to
four. -/
theorem writtenCodes_octets {numbers : List Nat} (hsmall : ∀ n ∈ numbers, n < 64)
    (hmany : 2 ≤ numbers.length) (hfew : numbers.length ≤ 4)
    (hbits : hasExtraBits numbers = false) :
    writtenCodes (octets numbers) =
      codesOf numbers ++ List.replicate (4 - numbers.length) padding := by
  obtain _ | ⟨a, _ | ⟨b, _ | ⟨c, _ | ⟨d, _ | ⟨e, rest⟩⟩⟩⟩⟩ := numbers
  · simp at hmany
  · simp at hmany
  · exact writtenCodes_octets_two (hsmall a (by simp)) (hsmall b (by simp))
      (by simpa [hasExtraBits] using hbits)
  · exact writtenCodes_octets_three (hsmall a (by simp)) (hsmall b (by simp))
      (hsmall c (by simp)) (by simpa [hasExtraBits] using hbits)
  · have hfull := writtenCodes_octets_append (hsmall a (by simp)) (hsmall b (by simp))
      (hsmall c (by simp)) (hsmall d (by simp)) []
    rw [List.append_nil] at hfull
    exact hfull
  · simp only [List.length_cons] at hfew
    omega

/-- Filling characters that are in place are all the same, behind two symbols at least. -/
theorem filling_of_misplaced? {offset : Nat} {symbols filling : List Nat}
    (hplaced : misplaced? offset symbols filling = none) :
    filling = List.replicate filling.length padding ∧ (symbols.length < 2 → filling = []) := by
  cases filling with
  | nil => exact ⟨rfl, fun _ => rfl⟩
  | cons code filling =>
      simp only [misplaced?, List.isEmpty_cons, Bool.false_eq_true, if_false] at hplaced
      split at hplaced
      · cases hplaced
      · rename_i hright
        simp only [Bool.or_eq_true, decide_eq_true_eq, not_or, List.any_eq_true, not_exists,
          not_and, bne_iff_ne, ne_eq, Decidable.not_not] at hright
        exact ⟨List.eq_replicate_of_mem hright.2, fun hfew => absurd hfew hright.1⟩

/-- Last symbols that are read as octets are those that the octets are written with. -/
theorem eq_writtenCodes_of_decodeLast {last : List Nat} {offset : Nat} {bytes : Octets}
    (hfew : last.length ≤ 4) (hdecode : decodeLast offset last = .ok bytes) :
    last = writtenCodes bytes := by
  obtain ⟨numbers, hvalues, hdecode⟩ := exists_of_bind_eq_ok hdecode
  obtain ⟨hsymbols, hsmall⟩ := eq_codesOf_of_values hvalues
  have hlast : codesOf numbers ++ last.dropWhile (· != padding) = last := by
    rw [← hsymbols]
    exact List.takeWhile_append_dropWhile
  rw [hsymbols] at hdecode
  generalize last.dropWhile (· != padding) = filling at hdecode hlast
  have hcount : (codesOf numbers).length = numbers.length := List.length_map _
  have htotal : last.length = numbers.length + filling.length := by
    rw [← hlast, List.length_append, hcount]
  -- None of the four faults has been found.
  have hplaced : misplaced? offset (codesOf numbers) filling = none := by
    cases hplaced : misplaced? offset (codesOf numbers) filling with
    | none => rfl
    | some fault =>
        rw [hplaced] at hdecode
        cases hdecode
  simp only [hplaced, hcount] at hdecode
  have hone : numbers.length ≠ 1 := by
    intro hone
    rw [if_pos hone] at hdecode
    cases hdecode
  rw [if_neg hone] at hdecode
  have hfours : ¬ (last.length % 4 != 0) = true := by
    intro hfours
    rw [if_pos hfours] at hdecode
    cases hdecode
  rw [if_neg hfours] at hdecode
  have hbits : ¬ hasExtraBits numbers = true := by
    intro hbits
    rw [if_pos hbits] at hdecode
    cases hdecode
  rw [if_neg hbits] at hdecode
  cases hdecode
  rw [bne_iff_ne, ne_eq, Decidable.not_not] at hfours
  rw [Bool.not_eq_true] at hbits
  obtain ⟨hfilling, hnone⟩ := filling_of_misplaced? hplaced
  rw [← hlast]
  by_cases hempty : numbers = []
  · subst hempty
    rw [hnone (by simp [codesOf])]
    rfl
  · have hpositive := List.length_pos_iff.mpr hempty
    have hfill : filling.length = 4 - numbers.length := by omega
    rw [writtenCodes_octets hsmall (by omega) (by omega) hbits, hfilling, hfill]

/-- Codes that are read as octets are those that the octets are written with. -/
theorem eq_writtenCodes_of_decodeFrom {codes : List Nat} {offset : Nat} {bytes : Octets}
    (hdecode : decodeFrom offset codes = .ok bytes) : codes = writtenCodes bytes := by
  induction offset, codes using decodeFrom.induct generalizing bytes with
  | case1 offset a b c d e rest ih =>
      rw [decodeFrom] at hdecode
      obtain ⟨numbers, hvalues, hdecode⟩ := exists_of_bind_eq_ok hdecode
      obtain ⟨later, hlater, heq⟩ := exists_of_bind_eq_ok hdecode
      cases heq
      obtain ⟨hgroup, hsmall⟩ := eq_codesOf_of_values hvalues
      have hlength : numbers.length = 4 := by
        have hcount := congrArg List.length hgroup
        rw [codesOf, List.length_map] at hcount
        exact hcount.symm
      obtain ⟨m, n, o, p, rfl⟩ := List.length_eq_four.mp hlength
      rw [writtenCodes_octets_append (hsmall m (by simp)) (hsmall n (by simp))
        (hsmall o (by simp)) (hsmall p (by simp)), ← hgroup, ← ih hlater]
      rfl
  | case2 offset last hshort =>
      have hfew : last.length ≤ 4 := by
        obtain _ | ⟨a, _ | ⟨b, _ | ⟨c, _ | ⟨d, _ | ⟨e, rest⟩⟩⟩⟩⟩ := last
        · simp
        · simp
        · simp
        · simp
        · simp
        · exact absurd rfl (hshort a b c d e rest)
      rw [decodeFrom] at hdecode
      · exact eq_writtenCodes_of_decodeLast hfew hdecode
      · exact hshort

/-- Octets are read from what they are written with, and from nothing else. -/
theorem decode_eq_ok_iff {codes : List Nat} {bytes : Octets} :
    decode codes = .ok bytes ↔ codes = writtenCodes bytes := by
  constructor
  · intro hdecode
    rw [decode] at hdecode
    split at hdecode
    · cases hdecode
    · exact eq_writtenCodes_of_decodeFrom hdecode
  · rintro rfl
    exact decode_writtenCodes bytes

end Letterpress.Base64
