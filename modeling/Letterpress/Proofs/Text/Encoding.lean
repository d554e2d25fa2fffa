/-
# Octets and texts

Decoding undoes encoding, and octets that decode are the encoding of what they
decode to. A character begun allows only some octets to come next; they are those
which the encoding of some character has in this place.
-/

import Letterpress.Text.Utf8

namespace Letterpress.Utf8

/-- Characters are the numbers below the surrogates and those above them. -/
theorem toNat_cases (c : Char) :
    c.toNat < 0xD800 ∨ (0xDFFF < c.toNat ∧ c.toNat < 0x110000) := c.valid

theorem toNat_ofNat {n : Nat} (hn : n < 0xD800 ∨ (0xDFFF < n ∧ n < 0x110000)) :
    (Char.ofNat n).toNat = n := by
  have hvalid : n.isValidChar := hn
  rw [Char.ofNat, dif_pos hvalid]
  rfl

/-! ## One octet after another -/

section Octet

variable {begun : Begun} {b : Nat}

theorem start_ascii (hb : b < 0x80) : start b = (none, [.char (Char.ofNat b)]) := by
  simp [start, hb]

theorem start_two (hleast : 0xC2 ≤ b) (hgreatest : b < 0xE0) :
    start b = (some ⟨b - 0xC0, 1, 0x80, 0xBF, 0⟩, []) := by
  simp [start, show ¬ b < 0x80 by omega, show ¬ b < 0xC2 by omega, hgreatest]

theorem start_three (hleast : 0xE0 ≤ b) (hgreatest : b < 0xF0) :
    start b = (some ⟨b - 0xE0, 1, if b = 0xE0 then 0xA0 else 0x80,
      if b = 0xED then 0x9F else 0xBF, 1⟩, []) := by
  simp [start, show ¬ b < 0x80 by omega, show ¬ b < 0xC2 by omega, show ¬ b < 0xE0 by omega,
    hgreatest]

theorem start_four (hleast : 0xF0 ≤ b) (hgreatest : b < 0xF5) :
    start b = (some ⟨b - 0xF0, 1, if b = 0xF0 then 0x90 else 0x80,
      if b = 0xF4 then 0x8F else 0xBF, 2⟩, []) := by
  simp [start, show ¬ b < 0x80 by omega, show ¬ b < 0xC2 by omega, show ¬ b < 0xE0 by omega,
    show ¬ b < 0xF0 by omega, hgreatest]

/-- No character begins with an octet from the middle of one, or with one too great. -/
theorem start_malformed (hleast : 0x80 ≤ b) (hb : b < 0xC2 ∨ 0xF5 ≤ b) :
    start b = (none, [.malformed 1]) := by
  rcases hb with hb | hb
  · simp [start, show ¬ b < 0x80 by omega, hb]
  · simp [start, show ¬ b < 0x80 by omega, show ¬ b < 0xC2 by omega, show ¬ b < 0xE0 by omega,
      show ¬ b < 0xF0 by omega, show ¬ b < 0xF5 by omega]

theorem step_last (hmore : begun.more = 0) (hleast : begun.least ≤ b)
    (hgreatest : b ≤ begun.greatest) :
    step (some begun) b = (none, [.char (Char.ofNat (64 * begun.value + (b - 0x80)))]) := by
  simp [step, hmore, hleast, hgreatest]

theorem step_more {more : Nat} (hmore : begun.more = more + 1) (hleast : begun.least ≤ b)
    (hgreatest : b ≤ begun.greatest) :
    step (some begun) b =
      (some ⟨64 * begun.value + (b - 0x80), begun.length + 1, 0x80, 0xBF, more⟩, []) := by
  simp [step, hmore, hleast, hgreatest]

end Octet

/-! ## Decoding what is encoded -/

/-- The octets of a character are one piece, whatever follows them. -/
theorem pieces_encodeChar_append (c : Char) (rest : Octets) :
    pieces (encodeChar c ++ rest) = .char c :: pieces rest := by
  have hvalid := toNat_cases c
  obtain ⟨n, hn⟩ : ∃ n, c.toNat = n := ⟨_, rfl⟩
  have hc : c = Char.ofNat n := by rw [← hn, Char.ofNat_toNat]
  rw [hn] at hvalid
  simp only [encodeChar, hn]
  split
  case isTrue hone =>
    simp only [pieces, List.cons_append, List.nil_append, piecesFrom, step,
      Octets.toNat_toUInt8 (show n < 256 by omega), start_ascii hone, hc]
  case isFalse hone =>
  split
  case isTrue htwo =>
    simp only [pieces, List.cons_append, List.nil_append, piecesFrom,
      Octets.toNat_toUInt8 (show 0xC0 + n / 64 < 256 by omega),
      Octets.toNat_toUInt8 (show 0x80 + n % 64 < 256 by omega)]
    have hsum : 64 * (0xC0 + n / 64 - 0xC0) + (0x80 + n % 64 - 0x80) = n := by omega
    rw [step, start_two (by omega) (by omega), step_last rfl (by simp) (by simp; omega), hsum, hc]
    rfl
  case isFalse htwo =>
  split
  case isTrue hthree =>
    simp only [pieces, List.cons_append, List.nil_append, piecesFrom,
      Octets.toNat_toUInt8 (show 0xE0 + n / 4096 < 256 by omega),
      Octets.toNat_toUInt8 (show 0x80 + n / 64 % 64 < 256 by omega),
      Octets.toNat_toUInt8 (show 0x80 + n % 64 < 256 by omega)]
    have hsum : 64 * (64 * (0xE0 + n / 4096 - 0xE0) + (0x80 + n / 64 % 64 - 0x80)) +
        (0x80 + n % 64 - 0x80) = n := by omega
    rw [step, start_three (by omega) (by omega),
      step_more rfl (by simp only; split <;> omega) (by simp only; split <;> omega),
      step_last rfl (by simp) (by simp; omega), hsum, hc]
    rfl
  case isFalse hthree =>
    simp only [pieces, List.cons_append, List.nil_append, piecesFrom,
      Octets.toNat_toUInt8 (show 0xF0 + n / 262144 < 256 by omega),
      Octets.toNat_toUInt8 (show 0x80 + n / 4096 % 64 < 256 by omega),
      Octets.toNat_toUInt8 (show 0x80 + n / 64 % 64 < 256 by omega),
      Octets.toNat_toUInt8 (show 0x80 + n % 64 < 256 by omega)]
    have hsum : 64 * (64 * (64 * (0xF0 + n / 262144 - 0xF0) + (0x80 + n / 4096 % 64 - 0x80)) +
        (0x80 + n / 64 % 64 - 0x80)) + (0x80 + n % 64 - 0x80) = n := by omega
    rw [step, start_four (by omega) (by omega),
      step_more rfl (by simp only; split <;> omega) (by simp only; split <;> omega),
      step_more rfl (by simp) (by simp; omega),
      step_last rfl (by simp) (by simp; omega), hsum, hc]
    rfl

theorem pieces_encode (t : Text) : pieces (encode t) = t.map .char := by
  induction t with
  | nil => rfl
  | cons c t ih =>
      rw [encode, List.flatMap_cons, pieces_encodeChar_append, List.map_cons]
      exact congrArg _ ih

theorem textOf_map_char (t : Text) (offset : Nat) : textOf offset (t.map .char) = .ok t := by
  induction t generalizing offset with
  | nil => rfl
  | cons c t ih =>
      rw [List.map_cons, textOf, ih]
      rfl

theorem decode_encode (t : Text) : decode (encode t) = .ok t := by
  rw [decode, pieces_encode, textOf_map_char]

/-! ## Encoding what is decoded -/

theorem textOf_char_eq_ok {c : Char} {offset : Nat} {rest : List Piece} {t : Text}
    (h : textOf offset (.char c :: rest) = .ok t) :
    ∃ u, t = c :: u ∧ textOf (offset + c.utf8Size) rest = .ok u := by
  rw [textOf] at h
  cases hrest : textOf (offset + c.utf8Size) rest with
  | error fault => rw [hrest] at h; cases h
  | ok u =>
      rw [hrest] at h
      cases h
      exact ⟨u, rfl, rfl⟩

/-- A character begun goes on with an octet that it allows. -/
theorem exists_of_textOf_begun {begun : Begun} {offset : Nat} {bytes : Octets} {t : Text}
    (h : textOf offset (piecesFrom (some begun) bytes) = .ok t) :
    ∃ b rest, bytes = b :: rest ∧ begun.least ≤ b.toNat ∧ b.toNat ≤ begun.greatest := by
  cases bytes with
  | nil => cases h
  | cons b rest =>
      by_cases hb : begun.least ≤ b.toNat ∧ b.toNat ≤ begun.greatest
      · exact ⟨b, rest, rfl, hb⟩
      · have hstep : ∃ next pieces,
            step (some begun) b.toNat = (next, .malformed begun.length :: pieces) := by
          simp [step, hb]
        obtain ⟨next, pieces, hstep⟩ := hstep
        rw [piecesFrom, hstep] at h
        cases h

/-- The last octet of a character leaves the text behind it. -/
theorem exists_of_textOf_last {begun : Begun} {offset : Nat} {bytes : Octets} {t : Text}
    (h : textOf offset (piecesFrom (some begun) bytes) = .ok t) (hmore : begun.more = 0) :
    ∃ b rest u, bytes = b :: rest ∧ begun.least ≤ b.toNat ∧ b.toNat ≤ begun.greatest ∧
      t = Char.ofNat (64 * begun.value + (b.toNat - 0x80)) :: u ∧
      ∃ next, textOf next (pieces rest) = .ok u := by
  obtain ⟨b, rest, rfl, hleast, hgreatest⟩ := exists_of_textOf_begun h
  rw [piecesFrom, step_last hmore hleast hgreatest] at h
  obtain ⟨u, ht, hu⟩ := textOf_char_eq_ok h
  exact ⟨b, rest, u, rfl, hleast, hgreatest, ht, _, hu⟩

/-- An octet in the middle of a character leaves the character with one more octet. -/
theorem exists_of_textOf_more {begun : Begun} {offset more : Nat} {bytes : Octets} {t : Text}
    (h : textOf offset (piecesFrom (some begun) bytes) = .ok t) (hmore : begun.more = more + 1) :
    ∃ b rest, bytes = b :: rest ∧ begun.least ≤ b.toNat ∧ b.toNat ≤ begun.greatest ∧
      textOf offset (piecesFrom (some ⟨64 * begun.value + (b.toNat - 0x80), begun.length + 1,
        0x80, 0xBF, more⟩) rest) = .ok t := by
  obtain ⟨b, rest, rfl, hleast, hgreatest⟩ := exists_of_textOf_begun h
  rw [piecesFrom, step_more hmore hleast hgreatest] at h
  exact ⟨b, rest, rfl, hleast, hgreatest, h⟩

section Width

variable {b d e f : UInt8}

theorem toUInt8_eq {n : Nat} (hn : n = b.toNat) : n.toUInt8 = b := by
  rw [hn]
  exact UInt8.ofNat_toNat

theorem encodeChar_ascii (hb : b.toNat < 0x80) : encodeChar (Char.ofNat b.toNat) = [b] := by
  rw [encodeChar, toNat_ofNat (.inl (by omega)), if_pos hb, toUInt8_eq rfl]

theorem encodeChar_two (hbleast : 0xC2 ≤ b.toNat) (hbgreatest : b.toNat < 0xE0)
    (hdleast : 0x80 ≤ d.toNat) (hdgreatest : d.toNat ≤ 0xBF) :
    encodeChar (Char.ofNat (64 * (b.toNat - 0xC0) + (d.toNat - 0x80))) = [b, d] := by
  rw [encodeChar, toNat_ofNat (.inl (by omega)), if_neg (by omega), if_pos (by omega),
    toUInt8_eq (b := b) (by omega), toUInt8_eq (b := d) (by omega)]

theorem encodeChar_three (hbleast : 0xE0 ≤ b.toNat) (hbgreatest : b.toNat < 0xF0)
    (hdleast : (if b.toNat = 0xE0 then 0xA0 else 0x80) ≤ d.toNat)
    (hdgreatest : d.toNat ≤ if b.toNat = 0xED then 0x9F else 0xBF)
    (heleast : 0x80 ≤ e.toNat) (hegreatest : e.toNat ≤ 0xBF) :
    encodeChar (Char.ofNat (64 * (64 * (b.toNat - 0xE0) + (d.toNat - 0x80)) + (e.toNat - 0x80))) =
      [b, d, e] := by
  have hd : 0x80 ≤ d.toNat ∧ d.toNat ≤ 0xBF ∧ (b.toNat = 0xE0 → 0xA0 ≤ d.toNat) ∧
      (b.toNat = 0xED → d.toNat ≤ 0x9F) := by
    split at hdleast <;> split at hdgreatest <;> omega
  rw [encodeChar, toNat_ofNat (by omega), if_neg (by omega), if_neg (by omega),
    if_pos (by omega), toUInt8_eq (b := b) (by omega), toUInt8_eq (b := d) (by omega),
    toUInt8_eq (b := e) (by omega)]

theorem encodeChar_four (hbleast : 0xF0 ≤ b.toNat) (hbgreatest : b.toNat < 0xF5)
    (hdleast : (if b.toNat = 0xF0 then 0x90 else 0x80) ≤ d.toNat)
    (hdgreatest : d.toNat ≤ if b.toNat = 0xF4 then 0x8F else 0xBF)
    (heleast : 0x80 ≤ e.toNat) (hegreatest : e.toNat ≤ 0xBF)
    (hfleast : 0x80 ≤ f.toNat) (hfgreatest : f.toNat ≤ 0xBF) :
    encodeChar (Char.ofNat (64 * (64 * (64 * (b.toNat - 0xF0) + (d.toNat - 0x80)) +
      (e.toNat - 0x80)) + (f.toNat - 0x80))) = [b, d, e, f] := by
  have hd : 0x80 ≤ d.toNat ∧ d.toNat ≤ 0xBF ∧ (b.toNat = 0xF0 → 0x90 ≤ d.toNat) ∧
      (b.toNat = 0xF4 → d.toNat ≤ 0x8F) := by
    split at hdleast <;> split at hdgreatest <;> omega
  rw [encodeChar, toNat_ofNat (by omega), if_neg (by omega), if_neg (by omega),
    if_neg (by omega), toUInt8_eq (b := b) (by omega), toUInt8_eq (b := d) (by omega),
    toUInt8_eq (b := e) (by omega), toUInt8_eq (b := f) (by omega)]

end Width

/-- The octets of the first character are its encoding. -/
theorem exists_encodeChar_of_textOf {offset : Nat} {bytes : Octets} {t : Text}
    (hne : bytes ≠ []) (h : textOf offset (pieces bytes) = .ok t) :
    ∃ c u rest next, t = c :: u ∧ bytes = encodeChar c ++ rest ∧
      textOf next (pieces rest) = .ok u := by
  obtain ⟨b, rest, rfl⟩ := List.exists_cons_of_ne_nil hne
  rw [pieces, piecesFrom, step] at h
  by_cases hascii : b.toNat < 0x80
  · rw [start_ascii hascii] at h
    obtain ⟨u, rfl, hu⟩ := textOf_char_eq_ok h
    refine ⟨_, u, rest, _, rfl, ?_, hu⟩
    rw [encodeChar_ascii hascii]
    rfl
  by_cases htwo : 0xC2 ≤ b.toNat ∧ b.toNat < 0xE0
  · rw [start_two htwo.1 htwo.2] at h
    obtain ⟨d, rest, u, rfl, hleast, hgreatest, rfl, next, hu⟩ := exists_of_textOf_last h rfl
    refine ⟨_, u, rest, next, rfl, ?_, hu⟩
    rw [encodeChar_two htwo.1 htwo.2 hleast hgreatest]
    rfl
  by_cases hthree : 0xE0 ≤ b.toNat ∧ b.toNat < 0xF0
  · rw [start_three hthree.1 hthree.2] at h
    obtain ⟨d, rest, rfl, hdleast, hdgreatest, h⟩ := exists_of_textOf_more h rfl
    obtain ⟨e, rest, u, rfl, heleast, hegreatest, rfl, next, hu⟩ := exists_of_textOf_last h rfl
    refine ⟨_, u, rest, next, rfl, ?_, hu⟩
    rw [encodeChar_three hthree.1 hthree.2 hdleast hdgreatest heleast hegreatest]
    rfl
  by_cases hfour : 0xF0 ≤ b.toNat ∧ b.toNat < 0xF5
  · rw [start_four hfour.1 hfour.2] at h
    obtain ⟨d, rest, rfl, hdleast, hdgreatest, h⟩ := exists_of_textOf_more h rfl
    obtain ⟨e, rest, rfl, heleast, hegreatest, h⟩ := exists_of_textOf_more h rfl
    obtain ⟨f, rest, u, rfl, hfleast, hfgreatest, rfl, next, hu⟩ := exists_of_textOf_last h rfl
    refine ⟨_, u, rest, next, rfl, ?_, hu⟩
    rw [encodeChar_four hfour.1 hfour.2 hdleast hdgreatest heleast hegreatest hfleast hfgreatest]
    rfl
  · rw [start_malformed (by omega) (by omega)] at h
    cases h

theorem encode_of_textOf {offset : Nat} {bytes : Octets} {t : Text}
    (h : textOf offset (pieces bytes) = .ok t) : encode t = bytes := by
  induction t generalizing offset bytes with
  | nil =>
      by_cases hne : bytes = []
      · rw [hne]
        rfl
      · obtain ⟨c, u, rest, next, ht, -⟩ := exists_encodeChar_of_textOf hne h
        cases ht
  | cons c t ih =>
      have hne : bytes ≠ [] := by
        rintro rfl
        cases h
      obtain ⟨d, u, rest, next, ht, rfl, hu⟩ := exists_encodeChar_of_textOf hne h
      cases ht
      rw [encode, List.flatMap_cons]
      exact congrArg _ (ih hu)

/-- Octets stand for a text exactly if they are its encoding. -/
theorem decode_eq_ok_iff {bytes : Octets} {t : Text} : decode bytes = .ok t ↔ bytes = encode t := by
  constructor
  · exact fun h => (encode_of_textOf h).symm
  · rintro rfl
    exact decode_encode t

/-! ## The octet zero -/

/-- Zero stands for the character with this number and is no part of any other. -/
theorem zero_mem_encodeChar_iff (c : Char) : 0 ∈ encodeChar c ↔ c = '\x00' := by
  have hvalid := toNat_cases c
  have hne {n : Nat} (hpos : 0 < n) (hn : n < 256) : (0 : UInt8) ≠ n.toUInt8 := by
    intro h
    rw [← Octets.toNat_toUInt8 hn, ← h] at hpos
    exact Nat.lt_irrefl 0 hpos
  constructor
  · intro h
    by_cases hzero : c.toNat = 0
    · rw [← Char.ofNat_toNat c, hzero]
    · simp only [encodeChar] at h
      split at h
      · simp only [List.mem_singleton] at h
        exact absurd h (hne (by omega) (by omega))
      split at h
      · simp only [List.mem_cons, List.not_mem_nil, or_false] at h
        rcases h with h | h <;> exact absurd h (hne (by omega) (by omega))
      split at h <;>
        simp only [List.mem_cons, List.not_mem_nil, or_false] at h
      · rcases h with h | h | h <;> exact absurd h (hne (by omega) (by omega))
      · rcases h with h | h | h | h <;> exact absurd h (hne (by omega) (by omega))
  · rintro rfl
    decide

theorem zero_mem_encode_iff (t : Text) : 0 ∈ encode t ↔ '\x00' ∈ t := by
  simp [encode, List.mem_flatMap, zero_mem_encodeChar_iff]

end Letterpress.Utf8
