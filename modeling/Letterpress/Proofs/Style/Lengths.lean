/-
# Lengths over the rational numbers

Which number of pixels a style value gives (`pixels?_eq_some_iff`): the decimal number that it
spells is read as the nearest number of 32 bits in floating point, this is rounded to a whole
number, a half going up, and cut off at the greatest number of 32 bits. A number that is too
great for floating point gives none.

Pixels that are written as an attribute are read back as the same
(`pixels?_decimal_of_eq_some`). The format holds every whole number of pixels that can come out,
but for the greatest one, which is read as the power of two behind it and then cut off again.
-/

import Letterpress.Proofs.Number.Nearest
import Letterpress.Proofs.Text.Letters
import Letterpress.Proofs.Text.Splitting
import Letterpress.Style.Pixels

namespace Letterpress

open Binary Format

/-! ## The numbers that are spelled -/

namespace Text

/-- The number of digits places a number between two powers of ten. -/
theorem between_length_decimal {n : ℕ} (hn : n ≠ 0) :
    10 ^ ((decimal n).length - 1) ≤ n ∧ n < 10 ^ (decimal n).length := by
  have hpos : 0 < (decimal n).length := Nat.length_toDigits_pos
  refine ⟨?_, (Nat.length_toDigits_le_iff (by norm_num) hpos).mp (le_refl _)⟩
  rcases Nat.eq_zero_or_pos ((decimal n).length - 1) with hzero | hmore
  · rw [hzero, pow_zero]
    omega
  · by_contra hlt
    have hle := (Nat.length_toDigits_le_iff (by norm_num) hmore).mpr (not_le.mp hlt)
    rw [decimal] at *
    omega

/-- Digits are not blank, and no letters. -/
theorem digit_spec {c : Char} (hdigit : c.isDigit = true) :
    isBlank c = false ∧ c.toLower = c := by
  simp only [Char.isDigit, Bool.and_eq_true, decide_eq_true_eq] at hdigit
  have hlow : 48 ≤ c.toNat := UInt32.le_iff_toNat_le.mp hdigit.1
  have hhigh : c.toNat ≤ 57 := UInt32.le_iff_toNat_le.mp hdigit.2
  constructor
  · simp [isBlank]
    omega
  · refine toLower_eq_self fun hcapital => ?_
    have hletter : 65 ≤ c.toNat := UInt32.le_iff_toNat_le.mp hcapital.1
    omega

end Text

namespace DecimalNumber

/-- The number as a rational one. -/
def toRat (d : DecimalNumber) : ℚ :=
  (if d.negative then -1 else 1) * (d.digits * 10 ^ d.exponent)

variable {d : DecimalNumber} {v : Value}

theorem abs_toRat (d : DecimalNumber) : |d.toRat| = d.digits * 10 ^ d.exponent := by
  have hnonneg : (0 : ℚ) ≤ d.digits * 10 ^ d.exponent := by positivity
  rw [toRat, abs_mul, abs_of_nonneg hnonneg]
  split <;> simp

theorem between_length (hdigits : d.digits ≠ 0) :
    (10 : ℚ) ^ ((Text.decimal d.digits).length - 1 + d.exponent) ≤ |d.toRat| ∧
      |d.toRat| < 10 ^ ((Text.decimal d.digits).length + d.exponent) := by
  obtain ⟨hlow, hhigh⟩ := Text.between_length_decimal hdigits
  have hpos : (0 : ℚ) < 10 ^ d.exponent := by positivity
  have hlength : 0 < (Text.decimal d.digits).length := Nat.length_toDigits_pos
  have hcast : ((Text.decimal d.digits).length : ℤ) - 1 =
      (((Text.decimal d.digits).length - 1 : ℕ) : ℤ) := by omega
  rw [abs_toRat, zpow_add₀ (by norm_num), zpow_add₀ (by norm_num), hcast, zpow_natCast,
    zpow_natCast]
  constructor
  · exact mul_le_mul_of_nonneg_right (by exact_mod_cast hlow) hpos.le
  · exact mul_lt_mul_of_pos_right (by exact_mod_cast hhigh) hpos

/-- The fraction that stands for the absolute value. -/
theorem exists_fraction (d : DecimalNumber) :
    ∃ num den : ℕ, 0 < den ∧ (num : ℚ) / den = |d.toRat| ∧
      (if 0 ≤ d.exponent then single.nearest? (d.digits * Nat.pow 10 d.exponent.toNat) 1
        else single.nearest? d.digits (Nat.pow 10 (-d.exponent).toNat)) =
        single.nearest? num den := by
  rw [abs_toRat]
  split
  case isTrue hexponent =>
    refine ⟨_, _, Nat.one_pos, ?_, rfl⟩
    rw [Nat.cast_mul, natCast_pow_toNat 10 hexponent, Nat.cast_ofNat, Nat.cast_one, div_one]
  case isFalse hexponent =>
    refine ⟨d.digits, Nat.pow 10 (-d.exponent).toNat, Nat.pow_pos (by norm_num), ?_, rfl⟩
    rw [natCast_pow_toNat_neg 10 hexponent, Nat.cast_ofNat, div_inv_eq_mul]

/-- More than forty digits before the point are beyond floating point. -/
theorem limit_le_abs_toRat (hdigits : d.digits ≠ 0)
    (hgreat : 40 < (Text.decimal d.digits).length + d.exponent) : single.limit ≤ |d.toRat| := by
  have hpower : (10 : ℚ) ^ (40 : ℤ) ≤
      10 ^ (((Text.decimal d.digits).length : ℤ) - 1 + d.exponent) :=
    zpow_le_zpow_right₀ (by norm_num) (by omega)
  refine le_trans ?_ (hpower.trans (between_length hdigits).1)
  rw [single_limit]
  norm_num

/-- With more than fifty zeros after the point zero is nearest. -/
theorem isNearest_zero_abs_toRat (hdigits : d.digits ≠ 0)
    (hsmall : (Text.decimal d.digits).length + d.exponent < -50) :
    single.IsNearest |d.toRat| 0 ∧ |d.toRat| < single.limit := by
  have hpower : (10 : ℚ) ^ (((Text.decimal d.digits).length : ℤ) + d.exponent) ≤
      10 ^ (-51 : ℤ) := zpow_le_zpow_right₀ (by norm_num) (by omega)
  have htiny : |d.toRat| < 10 ^ (-51 : ℤ) := (between_length hdigits).2.trans_le hpower
  constructor
  · refine isNearest_zero single_range (abs_nonneg _) ?_
    have hleast : 2 * (10 : ℚ) ^ (-51 : ℤ) < 2 ^ single.least := by
      norm_num [single]
    linarith
  · refine htiny.trans ?_
    rw [single_limit]
    norm_num

/-- What is read of a number is nearest to it, and nothing is read from the limit on. Numbers
that are far from the limits are settled by the number of their digits. -/
theorem magnitude?_spec (d : DecimalNumber) :
    (∀ v ∈ d.magnitude?, single.IsNearest |d.toRat| v.toRat) ∧
      (d.magnitude? = none ↔ single.limit ≤ |d.toRat|) := by
  have hzero : Value.toRat ⟨0, 0⟩ = 0 := by simp [Value.toRat]
  rw [magnitude?]
  split
  case isTrue hdigits =>
    have habs : |d.toRat| = 0 := by simp [abs_toRat, hdigits]
    rw [habs, single_limit]
    refine ⟨?_, iff_of_false (Option.some_ne_none _) (by norm_num)⟩
    rintro v ⟨⟩
    rw [hzero]
    exact isNearest_zero single_range (le_refl 0) (by simpa using two_zpow_pos _)
  case isFalse hdigits =>
  dsimp only
  split
  case isTrue hgreat =>
    exact ⟨fun v hv => (by cases hv), iff_of_true rfl (limit_le_abs_toRat hdigits hgreat)⟩
  case isFalse hgreat =>
  split
  case isTrue hsmall =>
    obtain ⟨hnearest, hlt⟩ := isNearest_zero_abs_toRat hdigits hsmall
    refine ⟨?_, iff_of_false (Option.some_ne_none _) (not_le.mpr hlt)⟩
    rintro v ⟨⟩
    rw [hzero]
    exact hnearest
  case isFalse hsmall =>
    obtain ⟨num, den, hden, habs, hread⟩ := exists_fraction d
    rw [hread, ← habs]
    exact ⟨fun v hv => isNearest_of_nearest? single_bits_pos single_range hden hv,
      nearest?_eq_none_iff single_bits_pos single_range hden⟩

end DecimalNumber

/-! ## Whole pixels -/

/-- The number that a style value spells, with or without its unit. -/
def lengthNumber? (value : Text) : Option DecimalNumber :=
  let v := Text.lower (Text.trim value)
  DecimalNumber.parse? (Text.trim ((Text.before? "px" v).getD v))

/-- The pixels of the floating point number that a length is read as. -/
def pixelsOf (y : ℚ) : ℕ := min maxPixels ⌊y + 1 / 2⌋₊

/-- A style value gives the pixels of the floating point number nearest to the number that it
spells. Below zero only what is read as zero gives pixels. -/
theorem pixels?_eq_some_iff {value : Text} {k : ℕ} :
    pixels? value = some k ↔
      ∃ d y, lengthNumber? value = some d ∧ |d.toRat| < single.limit ∧
        single.IsNearest |d.toRat| y ∧ (d.negative = true → y = 0) ∧ k = pixelsOf y := by
  have hpixels : pixels? value = (lengthNumber? value).bind fun d => d.magnitude?.bind fun m =>
      if d.negative && m.significand != 0 then none else some (min maxPixels m.rounded) := rfl
  rw [hpixels, Option.bind_eq_some_iff]
  refine exists_congr fun d => ?_
  obtain ⟨hnearest, hnone⟩ := d.magnitude?_spec
  constructor
  · rintro ⟨hd, hsome⟩
    obtain ⟨v, hv, hk⟩ := Option.bind_eq_some_iff.mp hsome
    simp only [Option.ite_none_left_eq_some, Bool.and_eq_true, bne_iff_ne, not_and, not_not,
      Option.some.injEq] at hk
    refine ⟨v.toRat, hd, ?_, hnearest v hv, fun hnegative => ?_, ?_⟩
    · rw [← not_le, ← hnone, hv]
      exact nofun
    · exact v.toRat_eq_zero_iff.mpr (hk.1 hnegative)
    · rw [pixelsOf, ← v.rounded_eq]
      exact hk.2.symm
  · rintro ⟨y, hd, hlimit, hy, hnegative, rfl⟩
    refine ⟨hd, ?_⟩
    obtain ⟨v, hv⟩ : ∃ v, d.magnitude? = some v := by
      rw [← Option.ne_none_iff_exists', Ne, hnone, not_le]
      exact hlimit
    obtain rfl : y = v.toRat := hy.unique (hnearest v hv)
    have hsign : (d.negative && v.significand != 0) = false := by
      by_contra hboth
      simp only [Bool.not_eq_false, Bool.and_eq_true, bne_iff_ne] at hboth
      exact hboth.2 (v.toRat_eq_zero_iff.mp (hnegative hboth.1))
    rw [hv, Option.bind_some, hsign, pixelsOf, v.rounded_eq]
    rfl

/-! ## Numbers written with digits -/

/-- Digits alone are read as a whole number. -/
theorem DecimalNumber.parse?_digits {t : Text} (ht : areDigits t = true) :
    parse? t = some ⟨false, withDigits 0 t, 0⟩ := by
  rw [areDigits, Bool.and_eq_true, Bool.not_eq_true'] at ht
  obtain ⟨hnonempty, hdigits⟩ := ht
  have hsign : sign t = (false, t) := by
    unfold sign
    split
    · simp at hdigits
    · simp at hdigits
    · rfl
  have hall : ∀ c ∈ t, c.isDigit = true := List.all_eq_true.mp hdigits
  have htake : t.takeWhile Char.isDigit = t := List.takeWhile_eq_self_iff.mpr hall
  have hdrop : t.dropWhile Char.isDigit = [] := List.dropWhile_eq_nil_iff.mpr hall
  simp [parse?, hsign, htake, hdrop, hnonempty, exponent?]

/-- A whole number is spelled by its digits. -/
theorem lengthNumber?_decimal (k : ℕ) :
    lengthNumber? (Text.decimal k) = some ⟨false, k, 0⟩ := by
  have hdigit : ∀ c ∈ Text.decimal k, c.isDigit = true :=
    fun _ => Nat.isDigit_of_mem_toDigits (by norm_num) (by norm_num)
  have htrim : Text.trim (Text.decimal k) = Text.decimal k :=
    Text.trim_eq_self fun c hc => (Text.digit_spec (hdigit c hc)).1
  have hlower : Text.lower (Text.decimal k) = Text.decimal k :=
    (List.map_congr_left fun c hc => (Text.digit_spec (hdigit c hc)).2).trans (List.map_id _)
  have hunit : Text.before? "px" (Text.decimal k) = none := by
    rw [Option.eq_none_iff_forall_ne_some]
    rintro rest hrest
    rw [Text.before?_eq_some_iff] at hrest
    have hx := hdigit 'x' (by rw [hrest]; simp)
    exact absurd hx (by decide)
  have hdigits : DecimalNumber.areDigits (Text.decimal k) = true := by
    rw [DecimalNumber.areDigits, Bool.and_eq_true, Bool.not_eq_true', List.isEmpty_eq_false_iff]
    exact ⟨Nat.toDigits_ne_nil, List.all_eq_true.mpr hdigit⟩
  have hvalue : DecimalNumber.withDigits 0 (Text.decimal k) = k := Nat.ofDigitChars_ten_toDigits
  simp only [lengthNumber?, htrim, hlower, hunit, Option.getD_none,
    DecimalNumber.parse?_digits hdigits, hvalue]

/-! ## Pixels that are written and read again -/

theorem floor_natCast_add_half (n : ℕ) : ⌊(n : ℚ) + 1 / 2⌋₊ = n :=
  (Nat.floor_eq_iff (by positivity)).mpr ⟨by linarith, by linarith⟩

/-- Rounding stays in the format: from `2 ^ 23` on it holds whole numbers only, and below it
holds all of them. -/
theorem holds_floor {y : ℚ} (hy : single.Holds y) : single.Holds ⌊y + 1 / 2⌋₊ := by
  rcases le_or_gt (2 ^ 23) y with hgreat | hsmall
  · have hgrid : (2 : ℚ) ^ (single.bits + (0 : ℤ) - 1) ≤ y := by
      simpa [single] using hgreat
    obtain ⟨n, rfl⟩ := hy.exists_eq_mul (.inr hgrid)
    rw [zpow_zero, mul_one] at *
    rwa [floor_natCast_add_half]
  · have hlt : ⌊y + 1 / 2⌋₊ < 2 ^ 24 := by
      rw [Nat.floor_lt' (by norm_num)]
      push_cast
      linarith
    exact ⟨⌊y + 1 / 2⌋₊, 0, hlt, by decide, by decide, by simp⟩

/-- Numbers of the format around `2 ^ 32` are 256 apart. -/
theorem le_abs_sub_of_holds {z : ℚ} (hz : single.Holds z) (hne : z ≠ 2 ^ 32) :
    256 ≤ |2 ^ 32 - z| := by
  by_cases hgreat : 2 ^ 31 ≤ z
  · have hgrid : (2 : ℚ) ^ (single.bits + (8 : ℤ) - 1) ≤ z := by
      simpa [single] using hgreat
    obtain ⟨m, rfl⟩ : ∃ m : ℤ, z = 2 ^ 32 - m * 256 := by
      obtain ⟨n, rfl⟩ := hz.exists_eq_mul (.inr hgrid)
      refine ⟨2 ^ 24 - n, ?_⟩
      push_cast
      ring
    have hm : m ≠ 0 := by
      rintro rfl
      exact hne (by norm_num)
    have hone : (1 : ℚ) ≤ |(m : ℚ)| := by exact_mod_cast Int.one_le_abs hm
    rw [sub_sub_cancel, abs_mul, abs_of_pos (by norm_num : (0 : ℚ) < 256)]
    linarith
  · rw [le_abs]
    left
    linarith

/-- The greatest number of pixels is one less than a power of two, and read as this. -/
theorem isNearest_maxPixels : single.IsNearest maxPixels (2 ^ 32) := by
  refine isNearest_of_lt ⟨1, 32, by decide, by decide, by decide, by norm_num⟩ ?_
  intro z hz hne
  have hmax : ((maxPixels : ℕ) : ℚ) = 2 ^ 32 - 1 := by norm_num [maxPixels]
  have hdist : |(2 ^ 32 - 1 : ℚ) - 2 ^ 32| = 1 := by norm_num
  have hfar := le_abs_sub_of_holds hz hne
  have htriangle := abs_sub_le (2 ^ 32 : ℚ) (2 ^ 32 - 1) z
  rw [abs_sub_comm _ (2 ^ 32 - 1 : ℚ), hdist] at htriangle
  rw [hmax, hdist]
  linarith

/-- The pixels of a length are nearest to a number that gives the same pixels. -/
theorem exists_isNearest_pixelsOf {y : ℚ} (hy : single.Holds y) :
    ∃ y', single.IsNearest (pixelsOf y) y' ∧ pixelsOf y' = pixelsOf y := by
  rcases le_total ⌊y + 1 / 2⌋₊ maxPixels with hle | hgreat
  · have hpixels : pixelsOf y = ⌊y + 1 / 2⌋₊ := min_eq_right hle
    refine ⟨⌊y + 1 / 2⌋₊, hpixels ▸ (holds_floor hy).isNearest, ?_⟩
    rw [hpixels, pixelsOf, floor_natCast_add_half, min_eq_right hle]
  · have hpixels : pixelsOf y = maxPixels := min_eq_left hgreat
    refine ⟨2 ^ 32, hpixels ▸ isNearest_maxPixels, ?_⟩
    rw [hpixels, ← Nat.cast_ofNat, ← Nat.cast_pow, pixelsOf, floor_natCast_add_half]
    decide

/-- A style value gives the pixels of the floating point number that is nearest to the number
that it spells, rounded half up and cut off. Written in decimal notation, pixels are read as the
same pixels. -/
theorem pixels?_decimal_of_eq_some {value : Text} {k : ℕ} (hpixels : pixels? value = some k) :
    (∃ d y, lengthNumber? value = some d ∧ single.IsNearest |d.toRat| y ∧
      (d.negative = true → y = 0) ∧ k = min maxPixels ⌊y + 1 / 2⌋₊) ∧
      pixels? (Text.decimal k) = some k := by
  obtain ⟨d, y, hd, -, hy, hnegative, rfl⟩ := pixels?_eq_some_iff.mp hpixels
  refine ⟨⟨d, y, hd, hy, hnegative, rfl⟩, ?_⟩
  obtain ⟨y', hy', hsame⟩ := exists_isNearest_pixelsOf hy.holds
  have habs : |DecimalNumber.toRat ⟨false, pixelsOf y, 0⟩| = pixelsOf y := by
    simp [DecimalNumber.abs_toRat]
  have hlimit : ((pixelsOf y : ℕ) : ℚ) < single.limit := by
    have hle : ((pixelsOf y : ℕ) : ℚ) ≤ maxPixels := by exact_mod_cast min_le_left _ _
    refine hle.trans_lt ?_
    rw [single_limit]
    norm_num [maxPixels]
  exact pixels?_eq_some_iff.mpr
    ⟨_, y', lengthNumber?_decimal _, habs.symm ▸ hlimit, habs.symm ▸ hy', nofun, hsame.symm⟩

/-- A length beyond all pixels gives the greatest number of them, which is not itself a number
of the format. -/
theorem pixels?_decimal_of_eq_some_greatest :
    pixels? "9e9px" = some 4294967295 ∧
      (∃ d y, lengthNumber? "9e9px" = some d ∧ single.IsNearest |d.toRat| y ∧
        (d.negative = true → y = 0) ∧ 4294967295 = min maxPixels ⌊y + 1 / 2⌋₊) ∧
      pixels? (Text.decimal 4294967295) = some 4294967295 :=
  have hpixels : pixels? "9e9px" = some 4294967295 := by decide
  ⟨hpixels, pixels?_decimal_of_eq_some hpixels⟩

end Letterpress
