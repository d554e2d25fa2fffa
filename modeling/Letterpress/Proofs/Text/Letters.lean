/-
# Letter case

Making a text small changes ASCII capitals and no other character, so it neither
makes nor removes a character that has a meaning besides letters: blanks stay
blank and stay where they are.
-/

import Letterpress.Proofs.Text.Trimming

namespace Letterpress

namespace Text

/-- A capital becomes the small letter 32 places behind it. -/
theorem toNat_toLower {c : Char} (hcapital : c.val ≥ 'A'.val ∧ c.val ≤ 'Z'.val) :
    65 ≤ c.toNat ∧ c.toNat ≤ 90 ∧ c.toLower.toNat = c.toNat + 32 := by
  have hlow : 65 ≤ c.toNat := UInt32.le_iff_toNat_le.mp hcapital.1
  have hhigh : c.toNat ≤ 90 := UInt32.le_iff_toNat_le.mp hcapital.2
  refine ⟨hlow, hhigh, ?_⟩
  have hval : c.toLower.val = c.val + ('a'.val - 'A'.val) :=
    congrArg Char.val (dif_pos hcapital)
  have hmod : c.toLower.toNat = (c.toNat + 32) % 2 ^ 32 := by
    rw [Char.toNat, hval, UInt32.toNat_add]
    rfl
  omega

/-- Characters that are no letters come from themselves only. -/
theorem toLower_eq_iff {c d : Char} (hd : d.toNat < 65 ∨ 122 < d.toNat) :
    c.toLower = d ↔ c = d := by
  by_cases hcapital : c.val ≥ 'A'.val ∧ c.val ≤ 'Z'.val
  · obtain ⟨hlow, hhigh, hlower⟩ := toNat_toLower hcapital
    constructor
    · rintro rfl
      omega
    · rintro rfl
      omega
  · rw [toLower_eq_self hcapital]

@[simp]
theorem isBlank_toLower (c : Char) : isBlank c.toLower = isBlank c := by
  by_cases hcapital : c.val ≥ 'A'.val ∧ c.val ≤ 'Z'.val
  · obtain ⟨hlow, hhigh, hlower⟩ := toNat_toLower hcapital
    have hnot (n : Nat) (hletter : 65 ≤ n ∧ n ≤ 122) (d : Char) (hn : d.toNat = n) :
        isBlank d = false := by
      simp only [isBlank, hn]
      simp
      omega
    rw [hnot _ (by omega) _ hlower, hnot _ (by omega) c rfl]
  · rw [toLower_eq_self hcapital]

theorem trim_lower (t : Text) : trim (lower t) = lower (trim t) := by
  have hblank : isBlank ∘ Char.toLower = isBlank := funext isBlank_toLower
  simp only [trim, trimEnd, dropEndWhile, trimStart, lower]
  rw [List.dropWhile_map, hblank, ← List.map_reverse, List.dropWhile_map, hblank,
    ← List.map_reverse]

end Text

end Letterpress
