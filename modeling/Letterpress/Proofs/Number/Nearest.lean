/-
# The nearest floating point number

What a format reads of a fraction, said over the rational numbers: of the numbers that the
format holds the nearest one, and of two equally near the even one
(`isNearest_of_nearest?`). A fraction is too large for the format exactly from the middle
between its greatest number and the one that would come next (`nearest?_eq_none_iff`).

The numbers of a format lie on grids that get coarser as numbers grow. The arithmetic picks the
grid of the fraction (`lastBit_spec`) and rounds on it; numbers of a finer grid lie on the other
side of a number of this grid, so none of them is nearer.
-/

import Letterpress.Number.Binary
import Mathlib.Algebra.Order.Archimedean.Basic
import Mathlib.Algebra.Order.Field.Power
import Mathlib.Algebra.Order.Floor.Semifield
import Mathlib.Data.Rat.Floor
import Mathlib.Tactic.Linarith
import Mathlib.Tactic.LinearCombination
import Mathlib.Tactic.FieldSimp
import Mathlib.Tactic.Ring
import Mathlib.Tactic.NormNum

namespace Letterpress.Binary

/-- The number as a rational one. -/
def Value.toRat (v : Value) : ℚ := v.significand * 2 ^ v.exponent

namespace Format

/-- The numbers that a format holds. -/
def Holds (f : Format) (x : ℚ) : Prop :=
  ∃ (m : ℕ) (e : ℤ), m < 2 ^ f.bits ∧ f.least ≤ e ∧ e ≤ f.greatest ∧ x = m * 2 ^ e

/-- Of the numbers of a format `y` is nearest to `x`. If another one is as near, `y` is an even
multiple of their distance. -/
structure IsNearest (f : Format) (x y : ℚ) : Prop where
  holds : f.Holds y
  abs_sub_le : ∀ z, f.Holds z → |x - y| ≤ |x - z|
  even_of_eq : ∀ z, f.Holds z → z ≠ y → |x - z| = |x - y| → ∃ j : ℤ, y = 2 * j * |y - z|

/-- The middle between the greatest number of a format and the number that would come next. -/
def limit (f : Format) : ℚ := (2 ^ f.bits - 1 / 2) * 2 ^ f.greatest

end Format

/-! ## Whole numbers -/

section Whole

variable {num den : ℕ}

/-- A fraction is its quotient, and the remainder as a fraction. -/
theorem natCast_div_eq_add (num : ℕ) (hden : 0 < den) :
    (num : ℚ) / den = (num / den : ℕ) + ((num % den : ℕ) : ℚ) / den := by
  have hpos : (0 : ℚ) < den := by exact_mod_cast hden
  have hsum : (num : ℚ) = den * (num / den : ℕ) + (num % den : ℕ) := by
    exact_mod_cast (Nat.div_add_mod num den).symm
  rw [div_eq_iff hpos.ne', add_mul, div_mul_cancel₀ _ hpos.ne', mul_comm _ (den : ℚ)]
  exact hsum

/-- The remainder decides whether the quotient or the next number is nearer. -/
theorem abs_sub_nearestNat (num : ℕ) (hden : 0 < den) :
    |(num : ℚ) / den - nearestNat num den| ≤ 1 / 2 ∧
      (|(num : ℚ) / den - nearestNat num den| = 1 / 2 → 2 ∣ nearestNat num den) := by
  have hpos : (0 : ℚ) < den := by exact_mod_cast hden
  obtain ⟨q, hq⟩ : ∃ q, q = num / den := ⟨_, rfl⟩
  obtain ⟨r, hr⟩ : ∃ r, r = num % den := ⟨_, rfl⟩
  have hsum : (num : ℚ) / den = q + r / den := by
    rw [hq, hr]
    exact natCast_div_eq_add num hden
  have hnonneg : (0 : ℚ) ≤ r / den := by positivity
  have hdouble : 2 * ((r : ℚ) / den) = ((2 * r : ℕ) : ℚ) / den := by
    push_cast
    ring
  simp only [nearestNat, ← hq, ← hr, hsum]
  split
  case isTrue hbelow =>
    have hhalf : 2 * ((r : ℚ) / den) < 1 := by
      rw [hdouble, div_lt_one hpos]
      exact_mod_cast hbelow
    rw [add_sub_cancel_left, abs_of_nonneg hnonneg]
    exact ⟨by linarith, fun h => by linarith⟩
  case isFalse hbelow =>
  split
  case isTrue habove =>
    have hlt : (r : ℚ) / den < 1 := by
      rw [div_lt_one hpos]
      exact_mod_cast hr ▸ Nat.mod_lt num hden
    have hhalf : 1 < 2 * ((r : ℚ) / den) := by
      rw [hdouble, one_lt_div hpos]
      exact_mod_cast habove
    have habs : |(q : ℚ) + r / den - ((q + 1 : ℕ) : ℚ)| = 1 - r / den := by
      push_cast
      rw [abs_of_nonpos (by linarith)]
      ring
    rw [habs]
    exact ⟨by linarith, fun h => by linarith⟩
  case isFalse habove =>
    have hhalf : (r : ℚ) / den = 1 / 2 := by
      rw [div_eq_div_iff hpos.ne' (by norm_num)]
      have hnat : r * 2 = 1 * den := by omega
      exact_mod_cast hnat
    split
    case isTrue heven =>
      rw [add_sub_cancel_left, hhalf, abs_of_pos (by norm_num)]
      exact ⟨le_refl _, fun _ => Nat.dvd_of_mod_eq_zero heven⟩
    case isFalse hodd =>
      have habs : |(q : ℚ) + r / den - ((q + 1 : ℕ) : ℚ)| = 1 / 2 := by
        push_cast
        rw [hhalf, abs_of_nonpos (by linarith)]
        ring
      rw [habs]
      exact ⟨le_refl _, fun _ => by omega⟩

/-- Whole numbers are one apart, so one that is half a unit away is nearest. -/
theorem abs_sub_le_of_int {t : ℚ} {m n : ℤ} (hm : |t - m| ≤ 1 / 2) (hne : n ≠ m) :
    1 / 2 ≤ |t - n| ∧ (|t - n| = 1 / 2 → |(m : ℚ) - n| = 1 ∧ |t - m| = 1 / 2) := by
  have hdist : (1 : ℚ) ≤ |(m : ℚ) - n| := by
    have hint : 1 ≤ |m - n| := Int.one_le_abs (sub_ne_zero.mpr (Ne.symm hne))
    exact_mod_cast hint
  have htriangle : |(m : ℚ) - n| ≤ |t - m| + |t - n| := by
    have := abs_sub_le (m : ℚ) t n
    rwa [abs_sub_comm (m : ℚ) t] at this
  exact ⟨by linarith, fun h => ⟨by linarith, by linarith⟩⟩

end Whole

/-! ## The grid of a fraction -/

section Grid

variable {num den : ℕ} {f : Format} {k : ℤ}

theorem two_zpow_pos (k : ℤ) : (0 : ℚ) < 2 ^ k := zpow_pos (by norm_num) k

theorem two_zpow_le_iff {m n : ℤ} : (2 : ℚ) ^ m ≤ 2 ^ n ↔ m ≤ n :=
  zpow_le_zpow_iff_right₀ (by norm_num)

theorem two_zpow_lt_iff {m n : ℤ} : (2 : ℚ) ^ m < 2 ^ n ↔ m < n :=
  zpow_lt_zpow_iff_right₀ (by norm_num)

theorem two_zpow_add (m n : ℤ) : (2 : ℚ) ^ (m + n) = 2 ^ m * 2 ^ n :=
  zpow_add₀ (by norm_num) m n

theorem two_zpow_add_one (k : ℤ) : (2 : ℚ) ^ (k + 1) = 2 * 2 ^ k := by
  rw [two_zpow_add, zpow_one, mul_comm]

theorem natCast_pow_toNat (b : ℕ) (hk : 0 ≤ k) :
    ((Nat.pow b k.toNat : ℕ) : ℚ) = (b : ℚ) ^ k := by
  obtain ⟨n, rfl⟩ := Int.eq_ofNat_of_zero_le hk
  rw [Int.toNat_natCast, Nat.pow_eq, Nat.cast_pow, zpow_natCast]

theorem natCast_pow_toNat_neg (b : ℕ) (hk : ¬ 0 ≤ k) :
    ((Nat.pow b (-k).toNat : ℕ) : ℚ) = ((b : ℚ) ^ k)⁻¹ := by
  rw [natCast_pow_toNat b (by omega), zpow_neg]

/-- A fraction of natural numbers is divided by a power of two. -/
theorem scaled_spec (num : ℕ) (hden : 0 < den) (k : ℤ) :
    0 < (scaled num den k).2 ∧
      ((scaled num den k).1 : ℚ) / (scaled num den k).2 = num / den / 2 ^ k := by
  rw [scaled]
  split
  case isTrue hk =>
    refine ⟨Nat.mul_pos hden (Nat.two_pow_pos _), ?_⟩
    rw [Nat.cast_mul, natCast_pow_toNat 2 hk, Nat.cast_ofNat, div_div]
  case isFalse hk =>
    refine ⟨hden, ?_⟩
    rw [Nat.cast_mul, natCast_pow_toNat_neg 2 hk, Nat.cast_ofNat]
    ring

/-- The value as a fraction of natural numbers. -/
theorem Value.fraction_spec (v : Value) :
    0 < v.fraction.2 ∧ (v.fraction.1 : ℚ) / v.fraction.2 = v.toRat := by
  rw [Value.fraction, Value.toRat]
  split
  case isTrue hexponent =>
    refine ⟨Nat.one_pos, ?_⟩
    rw [Nat.cast_mul, natCast_pow_toNat 2 hexponent, Nat.cast_ofNat, Nat.cast_one, div_one]
  case isFalse hexponent =>
    refine ⟨Nat.two_pow_pos _, ?_⟩
    rw [natCast_pow_toNat_neg 2 hexponent, Nat.cast_ofNat, div_inv_eq_mul]

theorem Value.toRat_eq_zero_iff (v : Value) : v.toRat = 0 ↔ v.significand = 0 := by
  rw [Value.toRat, mul_eq_zero, Nat.cast_eq_zero, or_iff_left (two_zpow_pos _).ne']

/-- Values are rounded half up. -/
theorem Value.rounded_eq (v : Value) : v.rounded = ⌊v.toRat + 1 / 2⌋₊ := by
  obtain ⟨hpos, hfraction⟩ := v.fraction_spec
  have hden : (0 : ℚ) < v.fraction.2 := by exact_mod_cast hpos
  have hsum : v.toRat + 1 / 2 =
      ((2 * v.fraction.1 + v.fraction.2 : ℕ) : ℚ) / ((2 * v.fraction.2 : ℕ) : ℚ) := by
    rw [← hfraction]
    push_cast
    field_simp
  rw [hsum, Nat.floor_div_eq_div]
  rfl

/-- The binary logarithms of its parts place a fraction up to a factor of two. -/
theorem between_log2 (hnum : 0 < num) (hden : 0 < den) :
    (2 : ℚ) ^ ((num.log2 : ℤ) - den.log2 - 1) < num / den ∧
      (num : ℚ) / den < 2 ^ ((num.log2 : ℤ) - den.log2 + 1) := by
  have hpos : (0 : ℚ) < den := by exact_mod_cast hden
  have hnumleast : (2 : ℚ) ^ (num.log2 : ℤ) ≤ num := by
    rw [zpow_natCast]
    exact_mod_cast Nat.log2_self_le hnum.ne'
  have hnumlt : (num : ℚ) < 2 ^ ((num.log2 : ℤ) + 1) := by
    rw [← Nat.cast_succ, zpow_natCast]
    exact_mod_cast Nat.lt_log2_self
  have hdenleast : (2 : ℚ) ^ (den.log2 : ℤ) ≤ den := by
    rw [zpow_natCast]
    exact_mod_cast Nat.log2_self_le hden.ne'
  have hdenlt : (den : ℚ) < 2 ^ ((den.log2 : ℤ) + 1) := by
    rw [← Nat.cast_succ, zpow_natCast]
    exact_mod_cast Nat.lt_log2_self
  constructor
  · rw [lt_div_iff₀ hpos]
    calc (2 : ℚ) ^ ((num.log2 : ℤ) - den.log2 - 1) * den
        < 2 ^ ((num.log2 : ℤ) - den.log2 - 1) * 2 ^ ((den.log2 : ℤ) + 1) :=
          mul_lt_mul_of_pos_left hdenlt (two_zpow_pos _)
      _ = 2 ^ (num.log2 : ℤ) := by
          rw [← two_zpow_add]
          congr 1
          ring
      _ ≤ num := hnumleast
  · rw [div_lt_iff₀ hpos]
    calc (num : ℚ) < 2 ^ ((num.log2 : ℤ) + 1) := hnumlt
      _ = 2 ^ ((num.log2 : ℤ) - den.log2 + 1) * 2 ^ (den.log2 : ℤ) := by
          rw [← two_zpow_add]
          congr 1
          ring
      _ ≤ 2 ^ ((num.log2 : ℤ) - den.log2 + 1) * den :=
          mul_le_mul_of_nonneg_left hdenleast (two_zpow_pos _).le

/-- On the grid of a fraction its significand has no more bits than the format; it has no fewer
unless the format has no finer grid. -/
theorem lastBit_spec (f : Format) (hnum : 0 < num) (hden : 0 < den) :
    f.least ≤ f.lastBit num den ∧
      (num : ℚ) / den < 2 ^ (f.bits + f.lastBit num den) ∧
      (f.lastBit num den = f.least ∨
        2 ^ (f.bits + f.lastBit num den - 1) ≤ (num : ℚ) / den) := by
  obtain ⟨hlow, hhigh⟩ := between_log2 hnum hden
  obtain ⟨hpos, hscaled⟩ := scaled_spec num hden ((num.log2 : ℤ) - den.log2)
  rw [Format.lastBit]
  obtain ⟨e, he⟩ : ∃ e, e = if (scaled num den (num.log2 - den.log2)).2 ≤
      (scaled num den (num.log2 - den.log2)).1 then (num.log2 : ℤ) - den.log2
      else (num.log2 : ℤ) - den.log2 - 1 := ⟨_, rfl⟩
  have hreached : (scaled num den (num.log2 - den.log2)).2 ≤
      (scaled num den (num.log2 - den.log2)).1 ↔
        (2 : ℚ) ^ ((num.log2 : ℤ) - den.log2) ≤ num / den := by
    have hposq : (0 : ℚ) < (scaled num den (num.log2 - den.log2)).2 := by exact_mod_cast hpos
    rw [← one_le_div (two_zpow_pos _), ← hscaled, one_le_div hposq, Nat.cast_le]
  have hfirst : (2 : ℚ) ^ e ≤ num / den ∧ (num : ℚ) / den < 2 ^ (e + 1) := by
    rw [he]
    split
    case isTrue h => exact ⟨hreached.mp h, hhigh⟩
    case isFalse h =>
      rw [hreached, not_le] at h
      rw [sub_add_cancel]
      exact ⟨hlow.le, h⟩
  simp only [← he]
  refine ⟨le_max_left _ _, hfirst.2.trans_le ?_, ?_⟩
  · rw [two_zpow_le_iff]
    have := le_max_right f.least (e - (f.bits - 1))
    omega
  · rcases max_cases f.least (e - (f.bits - 1)) with ⟨hmax, -⟩ | ⟨hmax, -⟩
    · exact .inl hmax
    · refine .inr ?_
      rw [hmax]
      have hexponent : (f.bits : ℤ) + (e - (f.bits - 1)) - 1 = e := by ring
      rw [hexponent]
      exact hfirst.1

end Grid

/-! ## Rounding on the grid -/

namespace Format

/-- The number `m * 2 ^ k` is nearest to `x` on the grid that the format has for `x`. -/
structure IsRounded (f : Format) (x : ℚ) (m : ℕ) (k : ℤ) : Prop where
  least_le : f.least ≤ k
  lt_coarser : x < 2 ^ (f.bits + k)
  finest_or : k = f.least ∨ 2 ^ (f.bits + k - 1) ≤ x
  abs_sub_le : |x / 2 ^ k - m| ≤ 1 / 2
  even_of_eq : |x / 2 ^ k - m| = 1 / 2 → 2 ∣ m

/-- The number is greater than all that the format holds. -/
def Exceeds (f : Format) (m : ℕ) (k : ℤ) : Prop :=
  f.greatest < k ∨ (k = f.greatest ∧ m = 2 ^ f.bits)

instance (f : Format) (m : ℕ) (k : ℤ) : Decidable (f.Exceeds m k) :=
  inferInstanceAs (Decidable (_ ∨ _))

section Rounded

variable {f : Format} {num den m : ℕ} {k : ℤ} {x y z : ℚ}

/-- What is read of a positive fraction is rounded on its grid. -/
theorem exists_isRounded (f : Format) (hnum : 0 < num) (hden : 0 < den) :
    ∃ m k, f.IsRounded (num / den) m k ∧
      f.nearest? num den = if f.Exceeds m k then none else some ⟨m, k⟩ := by
  obtain ⟨hleast, hlt, hfinest⟩ := lastBit_spec f hnum hden
  obtain ⟨hpos, hscaled⟩ := scaled_spec num hden (f.lastBit num den)
  obtain ⟨hclose, heven⟩ := abs_sub_nearestNat (scaled num den (f.lastBit num den)).1 hpos
  rw [hscaled] at hclose heven
  refine ⟨_, _, ⟨hleast, hlt, hfinest, hclose, heven⟩, ?_⟩
  simp only [nearest?, if_neg hnum.ne']
  exact if_congr (by simp [Exceeds]) rfl rfl

/-- A number on the grid is so far from `x` as its significand is from that of `x`. -/
theorem abs_sub_mul_zpow (x t : ℚ) (k : ℤ) : |x - t * 2 ^ k| = |x / 2 ^ k - t| * 2 ^ k := by
  have hpos := two_zpow_pos k
  rw [← abs_of_pos hpos, ← abs_mul, abs_of_pos hpos, sub_mul, div_mul_cancel₀ _ hpos.ne']

theorem IsRounded.le_two_pow (hrounded : f.IsRounded x m k) : m ≤ 2 ^ f.bits := by
  have hlt : x / 2 ^ k < 2 ^ f.bits := by
    rw [div_lt_iff₀ (two_zpow_pos k), ← zpow_natCast, ← two_zpow_add]
    exact hrounded.lt_coarser
  have hclose := (abs_le.mp hrounded.abs_sub_le).1
  have hsmall : (m : ℚ) < ((2 ^ f.bits + 1 : ℕ) : ℚ) := by
    push_cast
    linarith
  exact Nat.lt_succ_iff.mp (by exact_mod_cast hsmall)

/-- The rounded number is held, perhaps on the next grid, unless it exceeds the format. -/
theorem IsRounded.holds (hrounded : f.IsRounded x m k) (hbits : 0 < f.bits)
    (hfits : ¬ f.Exceeds m k) : f.Holds (m * 2 ^ k) := by
  simp only [Exceeds, not_or, not_and, not_lt] at hfits
  rcases hrounded.le_two_pow.lt_or_eq with hlt | heq
  · exact ⟨m, k, hlt, hrounded.least_le, hfits.1, rfl⟩
  · have hk : k < f.greatest := lt_of_le_of_ne hfits.1 fun h => hfits.2 h heq
    have hleast := hrounded.least_le
    refine ⟨2 ^ (f.bits - 1), k + 1, Nat.pow_lt_pow_right (by norm_num) (by omega), by omega,
      by omega, ?_⟩
    obtain ⟨n, hn⟩ : ∃ n, f.bits = n + 1 := Nat.exists_eq_add_one.mpr hbits
    rw [heq, hn, two_zpow_add_one, Nat.add_sub_cancel]
    push_cast
    ring

/-- Numbers of a format lie on its finest grid, and great ones on a coarser one. -/
theorem Holds.exists_eq_mul (hz : f.Holds z)
    (hk : k = f.least ∨ 2 ^ (f.bits + k - 1) ≤ z) : ∃ n : ℕ, z = n * 2 ^ k := by
  obtain ⟨m, e, hm, hleast, -, rfl⟩ := hz
  have hcoarser : k ≤ e := by
    rcases hk with rfl | hle
    · exact hleast
    · have hlt : (m : ℚ) * 2 ^ e < 2 ^ ((f.bits : ℤ) + e) := by
        rw [two_zpow_add, zpow_natCast]
        exact mul_lt_mul_of_pos_right (by exact_mod_cast hm) (two_zpow_pos e)
      have hexponents := two_zpow_lt_iff.mp (hle.trans_lt hlt)
      omega
  refine ⟨m * 2 ^ (e - k).toNat, ?_⟩
  have hpower : (2 : ℚ) ^ e = 2 ^ (e - k).toNat * 2 ^ k := by
    rw [← zpow_natCast, ← two_zpow_add, Int.toNat_of_nonneg (by omega), sub_add_cancel]
  push_cast
  rw [hpower, mul_assoc]

/-- Every number that the format holds lies on the grid of `x`, or below a number of the grid
that is not above `x`. -/
theorem IsRounded.cases_of_holds (hrounded : f.IsRounded x m k) (hbits : 0 < f.bits)
    (hz : f.Holds z) :
    (∃ n : ℤ, z = n * 2 ^ k) ∨ ∃ n : ℤ, z < n * 2 ^ k ∧ (n : ℚ) * 2 ^ k ≤ x := by
  by_cases hgrid : k = f.least ∨ 2 ^ (f.bits + k - 1) ≤ z
  · obtain ⟨n, rfl⟩ := hz.exists_eq_mul hgrid
    exact .inl ⟨n, by rw [Int.cast_natCast]⟩
  · simp only [not_or, not_le] at hgrid
    have hle := hrounded.finest_or.resolve_left hgrid.1
    have hpower : (2 : ℚ) ^ (f.bits + k - 1) = ((2 ^ (f.bits - 1) : ℤ) : ℚ) * 2 ^ k := by
      push_cast
      rw [← zpow_natCast, ← two_zpow_add]
      congr 1
      omega
    exact .inr ⟨2 ^ (f.bits - 1), hpower ▸ hgrid.2, hpower ▸ hle⟩

/-- On the grid no number is nearer than the rounded one. -/
theorem IsRounded.abs_sub_le_grid (hrounded : f.IsRounded x m k) (n : ℤ) :
    |x - m * 2 ^ k| ≤ |x - n * 2 ^ k| := by
  rw [abs_sub_mul_zpow, abs_sub_mul_zpow]
  refine mul_le_mul_of_nonneg_right ?_ (two_zpow_pos k).le
  by_cases hn : n = m
  · rw [hn, Int.cast_natCast]
  · have hclose := hrounded.abs_sub_le
    rw [← Int.cast_natCast m] at hclose
    exact hrounded.abs_sub_le.trans (abs_sub_le_of_int hclose hn).1

/-- No number that the format holds is nearer than the rounded one; below the grid all are
farther away. -/
theorem IsRounded.isNearest (hrounded : f.IsRounded x m k) (hbits : 0 < f.bits)
    (hfits : ¬ f.Exceeds m k) : f.IsNearest x (m * 2 ^ k) where
  holds := hrounded.holds hbits hfits
  abs_sub_le z hz := by
    rcases hrounded.cases_of_holds hbits hz with ⟨n, rfl⟩ | ⟨n, hlt, hle⟩
    · exact hrounded.abs_sub_le_grid n
    · refine (hrounded.abs_sub_le_grid n).trans ?_
      rw [abs_of_nonneg (by linarith), abs_of_nonneg (by linarith)]
      linarith
  even_of_eq z hz hne heq := by
    rcases hrounded.cases_of_holds hbits hz with ⟨n, rfl⟩ | ⟨n, hlt, hle⟩
    · have hn : n ≠ m := by
        rintro rfl
        exact hne (by rw [Int.cast_natCast])
      have hclose := hrounded.abs_sub_le
      rw [← Int.cast_natCast m] at hclose
      rw [abs_sub_mul_zpow, abs_sub_mul_zpow, ← Int.cast_natCast m] at heq
      have hsame := mul_right_cancel₀ (two_zpow_pos k).ne' heq
      have hhalf := (abs_sub_le_of_int hclose hn).1
      obtain ⟨hone, htie⟩ := (abs_sub_le_of_int hclose hn).2 (by linarith)
      rw [Int.cast_natCast] at htie
      obtain ⟨j, rfl⟩ := hrounded.even_of_eq htie
      refine ⟨j, ?_⟩
      rw [Int.cast_natCast] at hone
      rw [← sub_mul, abs_mul, hone, one_mul, abs_of_pos (two_zpow_pos k)]
      push_cast
      ring
    · have hnear := hrounded.abs_sub_le_grid n
      rw [← heq, abs_of_nonneg (by linarith), abs_of_nonneg (by linarith)] at hnear
      linarith

theorem limit_lt (f : Format) : f.limit < 2 ^ (f.bits + f.greatest) := by
  rw [limit, two_zpow_add, zpow_natCast]
  exact mul_lt_mul_of_pos_right (by linarith) (two_zpow_pos _)

/-- A coarser grid than the last one begins above the limit, a finer one ends below it. -/
theorem le_limit (hbits : 0 < f.bits) : 2 ^ (f.bits + f.greatest - 1) ≤ f.limit := by
  obtain ⟨n, hn⟩ : ∃ n, f.bits = n + 1 := Nat.exists_eq_add_one.mpr hbits
  have hpower : (2 : ℚ) ^ (f.bits + f.greatest - 1) = 2 ^ n * 2 ^ f.greatest := by
    rw [← zpow_natCast, ← two_zpow_add, hn]
    congr 1
    push_cast
    ring
  have hone : (1 : ℚ) ≤ 2 ^ n := one_le_pow₀ (by norm_num)
  rw [hpower, limit, hn, pow_succ]
  exact mul_le_mul_of_nonneg_right (by linarith) (two_zpow_pos _).le

/-- The rounded number exceeds the format from the limit on. At the limit itself it does so as
the greatest number is odd. -/
theorem IsRounded.limit_le_iff (hrounded : f.IsRounded x m k) (hbits : 0 < f.bits)
    (hrange : f.least ≤ f.greatest) : f.limit ≤ x ↔ f.Exceeds m k := by
  have hpos := two_zpow_pos k
  obtain ⟨hlow, hhigh⟩ := abs_le.mp hrounded.abs_sub_le
  constructor
  · intro hlimit
    rcases lt_trichotomy f.greatest k with hgt | heq | hlt
    · exact .inl hgt
    · refine .inr ⟨heq.symm, hrounded.le_two_pow.eq_of_not_lt fun hsmall => ?_⟩
      have hclose : 2 ^ f.bits - 1 / 2 ≤ x / 2 ^ k := by
        rw [le_div_iff₀ hpos, ← heq]
        exact hlimit
      have hle : (m : ℚ) + 1 ≤ 2 ^ f.bits := by exact_mod_cast hsmall
      have htie : |x / 2 ^ k - m| = 1 / 2 := by
        rw [abs_of_nonneg (by linarith)]
        linarith
      have hlast : m + 1 = 2 ^ f.bits := by
        have : (m : ℚ) + 1 = 2 ^ f.bits := by linarith
        exact_mod_cast this
      have heven : 2 ∣ m + 1 := hlast ▸ dvd_pow_self 2 hbits.ne'
      have := hrounded.even_of_eq htie
      omega
    · have hle : (2 : ℚ) ^ (f.bits + k) ≤ 2 ^ (f.bits + f.greatest - 1) :=
        two_zpow_le_iff.mpr (by omega)
      have := hrounded.lt_coarser
      have := le_limit hbits
      linarith
  · rintro (hgt | ⟨rfl, rfl⟩)
    · have hle := hrounded.finest_or.resolve_left (by omega)
      have hcoarser : (2 : ℚ) ^ (f.bits + f.greatest) ≤ 2 ^ (f.bits + k - 1) :=
        two_zpow_le_iff.mpr (by omega)
      exact ((limit_lt f).le.trans hcoarser).trans hle
    · rw [limit, ← le_div_iff₀ hpos]
      push_cast at hlow
      linarith

/-- A number that is nearer than all others is nearest. -/
theorem isNearest_of_lt (hy : f.Holds y) (hfar : ∀ z, f.Holds z → z ≠ y → |x - y| < |x - z|) :
    f.IsNearest x y where
  holds := hy
  abs_sub_le z hz := by
    by_cases heq : z = y
    · rw [heq]
    · exact (hfar z hz heq).le
  even_of_eq z hz hne heq := absurd heq (hfar z hz hne).ne'

/-- A number that the format holds is nearest to itself. -/
theorem Holds.isNearest (hx : f.Holds x) : f.IsNearest x x :=
  isNearest_of_lt hx fun z _ hne => by
    rw [sub_self, abs_zero, abs_pos, sub_ne_zero]
    exact hne.symm

/-- Below half of the least positive number zero is nearest. -/
theorem isNearest_zero (hrange : f.least ≤ f.greatest) (hnonneg : 0 ≤ x)
    (hlt : 2 * x < 2 ^ f.least) : f.IsNearest x 0 := by
  refine isNearest_of_lt ⟨0, f.least, Nat.two_pow_pos _, le_refl _, hrange, by simp⟩ ?_
  intro z hz hne
  obtain ⟨n, rfl⟩ := hz.exists_eq_mul (.inl rfl)
  have hone : (1 : ℚ) ≤ n := by
    exact_mod_cast Nat.one_le_iff_ne_zero.mpr fun h => hne (by rw [h, Nat.cast_zero, zero_mul])
  have hle := le_mul_of_one_le_left (two_zpow_pos f.least).le hone
  rw [sub_zero, abs_of_nonneg hnonneg, abs_of_neg (by linarith)]
  linarith

/-- What is read of a fraction is nearest to it. -/
theorem isNearest_of_nearest? (hbits : 0 < f.bits) (hrange : f.least ≤ f.greatest)
    (hden : 0 < den) {v : Value} (h : f.nearest? num den = some v) :
    f.IsNearest (num / den) v.toRat := by
  rcases Nat.eq_zero_or_pos num with rfl | hnum
  · obtain rfl : v = ⟨0, 0⟩ := by simpa [nearest?, eq_comm] using h
    have hzero : Value.toRat ⟨0, 0⟩ = 0 := by simp [Value.toRat]
    rw [hzero, Nat.cast_zero, zero_div]
    exact isNearest_zero hrange (le_refl 0) (by simpa using two_zpow_pos f.least)
  · obtain ⟨m, k, hrounded, hread⟩ := exists_isRounded f hnum hden
    rw [hread, Option.ite_none_left_eq_some] at h
    obtain ⟨hfits, hv⟩ := h
    rw [← Option.some.inj hv]
    exact hrounded.isNearest hbits hfits

/-- No number is read of a fraction from the limit on. -/
theorem nearest?_eq_none_iff (hbits : 0 < f.bits) (hrange : f.least ≤ f.greatest)
    (hden : 0 < den) : f.nearest? num den = none ↔ f.limit ≤ num / den := by
  rcases Nat.eq_zero_or_pos num with rfl | hnum
  · have hpos : 0 < f.limit := (two_zpow_pos _).trans_le (le_limit hbits)
    simpa [nearest?] using hpos
  · obtain ⟨m, k, hrounded, hread⟩ := exists_isRounded f hnum hden
    rw [hread, hrounded.limit_le_iff hbits hrange]
    simp

/-- Of two nearest numbers both would be even. -/
theorem IsNearest.unique (hy : f.IsNearest x y) (hz : f.IsNearest x z) : y = z := by
  by_contra hne
  have heq : |x - y| = |x - z| :=
    le_antisymm (hy.abs_sub_le z hz.holds) (hz.abs_sub_le y hy.holds)
  obtain ⟨i, hi⟩ := hy.even_of_eq z hz.holds (Ne.symm hne) heq.symm
  obtain ⟨j, hj⟩ := hz.even_of_eq y hy.holds hne heq
  rw [abs_sub_comm] at hj
  have hpos : 0 < |y - z| := abs_pos.mpr (sub_ne_zero.mpr hne)
  have hdist : y - z = 2 * (i - j) * |y - z| := by
    linear_combination hi - hj
  have hunit : (2 * (i - j) : ℚ) = 1 ∨ (2 * (i - j) : ℚ) = -1 := by
    rcases abs_choice (y - z) with habs | habs
    · left
      have : (2 * (i - j) - 1 : ℚ) * |y - z| = 0 := by linear_combination -habs - hdist
      rcases mul_eq_zero.mp this with h | h <;> linarith
    · right
      have : (2 * (i - j) + 1 : ℚ) * |y - z| = 0 := by linear_combination habs - hdist
      rcases mul_eq_zero.mp this with h | h <;> linarith
  have hint : 2 * (i - j) = 1 ∨ 2 * (i - j) = -1 := by exact_mod_cast hunit
  omega

end Rounded

/-! ## Numbers of 32 bits -/

theorem single_bits_pos : 0 < single.bits := by decide

theorem single_range : single.least ≤ single.greatest := by decide

theorem single_limit : single.limit = (2 ^ 24 - 1 / 2) * 2 ^ 104 := by
  simp [limit, single]

end Format

end Letterpress.Binary
