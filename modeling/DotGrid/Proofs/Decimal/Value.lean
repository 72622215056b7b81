import DotGrid.Decimal.Basic
import DotGrid.Proofs.Double.Exact

/-!
# The value of a decimal

`Decimal.value` is the number that a decimal denotes. The double of a decimal is this number, rounded once: exponents
that are far beyond the range of doubles are decided without a power, with the same result
(`Double.ofDecimal_eq_ofRatio`). So decimals of one value have one double (`Double.ofDecimal_congr`).
-/

namespace DotGrid

namespace Decimal

/-- The number that a decimal denotes. -/
def value (d : Decimal) : ℚ := d.digits * 10 ^ d.exponent

theorem ten_zpow_pos (e : ℤ) : (0 : ℚ) < 10 ^ e := zpow_pos (by norm_num) e

theorem ratio_pos (d : Decimal) : 0 < d.ratio.2 := by
  unfold ratio
  split
  · exact Nat.one_pos
  · exact Nat.pow_pos (by decide)

theorem ratio_div (d : Decimal) : (d.ratio.1 : ℚ) / d.ratio.2 = d.value := by
  obtain ⟨digits, exponent⟩ := d
  simp only [ratio, value]
  split
  · rename_i h
    obtain ⟨e, rfl⟩ := Int.eq_ofNat_of_zero_le h
    simp
  · rename_i h
    obtain ⟨e, he⟩ := Int.exists_eq_neg_ofNat (Int.le_of_lt (Int.not_le.mp h))
    simp [he, div_eq_mul_inv]

theorem ratio_of_digits_eq_zero {d : Decimal} (h : d.digits = 0) : d.ratio.1 = 0 := by
  unfold ratio
  split
  · simp only [h, Nat.zero_mul]
  · exact h

/-- Decimals of one value have one ratio. -/
theorem ratio_mul_eq {d d' : Decimal} (h : d.value = d'.value) : d.ratio.1 * d'.ratio.2 = d'.ratio.1 * d.ratio.2 := by
  have hd : (d.ratio.2 : ℚ) ≠ 0 := Nat.cast_ne_zero.mpr d.ratio_pos.ne'
  have hd' : (d'.ratio.2 : ℚ) ≠ 0 := Nat.cast_ne_zero.mpr d'.ratio_pos.ne'
  rw [← ratio_div, ← ratio_div, div_eq_div_iff hd hd'] at h
  exact_mod_cast h

/-- Powers of two and of ten are compared by powers of a smaller pair. -/
theorem two_pow_le_ten_pow {a b k m n : Nat} (hbase : 2 ^ a ≤ 10 ^ b) (hm : m ≤ a * k) (hn : b * k ≤ n) :
    2 ^ m ≤ 10 ^ n :=
  calc 2 ^ m ≤ 2 ^ (a * k) := Nat.pow_le_pow_right (by decide) hm
    _ = (2 ^ a) ^ k := Nat.pow_mul ..
    _ ≤ (10 ^ b) ^ k := Nat.pow_le_pow_left hbase k
    _ = 10 ^ (b * k) := (Nat.pow_mul ..).symm
    _ ≤ 10 ^ n := Nat.pow_le_pow_right (by decide) hn

theorem overflow_le_of_isHuge {d : Decimal} (h : d.isHuge = true) :
    Double.overflow * d.ratio.2 ≤ d.ratio.1 * Double.one := by
  have h : d.digits ≠ 0 ∧ 310 < d.exponent := by simpa [isHuge] using h
  have hbase : 2 ^ 205 ≤ 10 ^ 62 := by norm_num
  obtain ⟨b, hb, hb'⟩ : ∃ b, 1024 ≤ b ∧ b ≤ 205 * 5 := ⟨1024, by decide, by decide⟩
  have hpower : 2 ^ b ≤ 10 ^ d.exponent.toNat := two_pow_le_ten_pow hbase hb' (by omega)
  rw [ratio, if_pos (by omega), Nat.mul_one]
  calc Double.overflow ≤ 2 ^ b * Double.one := Double.overflow_le_mul_one hb
    _ ≤ 10 ^ d.exponent.toNat * Double.one := Nat.mul_le_mul_right _ hpower
    _ ≤ d.digits * 10 ^ d.exponent.toNat * Double.one :=
      Nat.mul_le_mul_right _ (Nat.le_mul_of_pos_left _ (by omega))

theorem digits_lt_ten_pow (n : Nat) : n < 10 ^ (n.log2 / 3 + 1) :=
  calc n < 2 ^ (n.log2 + 1) := Nat.lt_log2_self
    _ ≤ 10 ^ (n.log2 / 3 + 1) :=
      two_pow_le_ten_pow (show 2 ^ 3 ≤ 10 ^ 1 by decide) (show _ ≤ 3 * (n.log2 / 3 + 1) by omega) (by omega)

theorem lt_half_of_isTiny {d : Decimal} (h : d.isTiny = true) : 2 * (d.ratio.1 * Double.one) < d.ratio.2 := by
  have h : d.digits = 0 ∨ (d.digits.log2 : ℤ) / 3 + 1 + d.exponent < -330 := by simpa [isTiny] using h
  by_cases hzero : d.digits = 0
  · rw [ratio_of_digits_eq_zero hzero, Nat.zero_mul]
    exact d.ratio_pos
  · have hexponent := h.resolve_left hzero
    have hbase : 2 ^ 43 ≤ 10 ^ 13 := by norm_num
    have hsmall : ∀ i n, i + 1074 ≤ 43 * 25 → 13 * 25 ≤ n → 2 ^ i * Double.one ≤ 10 ^ n := by
      intro i n hi hn
      rw [Double.two_pow_mul_one]
      exact two_pow_le_ten_pow hbase hi hn
    rw [ratio, if_neg (by omega)]
    generalize hlength : d.digits.log2 / 3 + 1 = length
    have hdigits := hlength ▸ digits_lt_ten_pow d.digits
    calc 2 * (d.digits * Double.one) = d.digits * (2 ^ 1 * Double.one) := by rw [Nat.pow_one, Nat.mul_left_comm]
      _ < 10 ^ length * (2 ^ 1 * Double.one) :=
        Nat.mul_lt_mul_of_pos_right hdigits (Nat.mul_pos (by decide) Double.one_pos)
      _ ≤ 10 ^ length * 10 ^ ((-d.exponent).toNat - length) := Nat.mul_le_mul_left _ (hsmall 1 _ (by decide) (by omega))
      _ = 10 ^ (-d.exponent).toNat := by rw [← Nat.pow_add, Nat.add_sub_cancel' (by omega)]

end Decimal

namespace Double

/-- **The double of a decimal is its value, rounded once.** -/
theorem ofDecimal_eq_ofRatio (s : Bool) (d : Decimal) : ofDecimal s d = ofRatio s d.ratio.1 d.ratio.2 := by
  unfold ofDecimal ofRatio
  split
  · exact (ofUnits_of_overflow s d.ratio_pos (Decimal.overflow_le_of_isHuge ‹_›)).symm
  · split
    · exact (ofUnits_of_round (Format.round_eq_zero (Decimal.lt_half_of_isTiny ‹_›))).symm
    · rfl

theorem ofDecimal_congr (s : Bool) {d d' : Decimal} (h : d.value = d'.value) : ofDecimal s d = ofDecimal s d' := by
  rw [ofDecimal_eq_ofRatio, ofDecimal_eq_ofRatio, ofRatio, ofRatio]
  refine ofUnits_congr s d.ratio_pos d'.ratio_pos ?_
  rw [Nat.mul_right_comm, Decimal.ratio_mul_eq h, Nat.mul_right_comm]

end Double

end DotGrid
