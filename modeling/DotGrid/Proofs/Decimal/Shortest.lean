import DotGrid.Decimal.Shortest
import DotGrid.Proofs.Decimal.Value

/-!
# The shortest decimal reads back

The first power of ten that is looked at is not above the number (`Decimal.decade_le`), so the last one leaves it 17
digits. The nearest decimal with 17 digits is so near that it is rounded to the number (`Decimal.exists_neighbour?`), so
the search ends with a decimal that reads back (`Decimal.readsBack_shortest`), and the double of this decimal is the
double that it was searched for (`Double.ofDecimal_shortest`).
-/

namespace DotGrid

namespace Decimal

variable {units tries : Nat} {e : ℤ} {d : Decimal}

/-! ## The size of a number -/

theorem scaled_pos (units : Nat) (e : ℤ) : 0 < (scaled units e).2 := by
  have hone := Double.one_pos
  simp only [scaled]
  split
  · exact Nat.mul_pos hone (Nat.pow_pos (by decide))
  · simpa using hone

theorem scaled_div (units : Nat) (e : ℤ) :
    ((scaled units e).1 : ℚ) / (scaled units e).2 = units / Double.one / 10 ^ e := by
  simp only [scaled]
  generalize Double.one = one
  split
  · rename_i h
    obtain ⟨k, rfl⟩ := Int.eq_ofNat_of_zero_le h
    simp [div_div]
  · rename_i h
    obtain ⟨k, rfl⟩ := Int.exists_eq_neg_ofNat (Int.le_of_lt (Int.not_le.mp h))
    simp [div_eq_mul_inv, mul_right_comm]

theorem mul_le_scaled_iff (c : Nat) :
    c * (scaled units e).2 ≤ (scaled units e).1 ↔ (c : ℚ) * 10 ^ e ≤ units / Double.one := by
  have hpos : (0 : ℚ) < (scaled units e).2 := Nat.cast_pos.mpr (scaled_pos units e)
  rw [← le_div_iff₀ (ten_zpow_pos e), ← scaled_div, le_div_iff₀ hpos]
  exact_mod_cast Iff.rfl

/-- A power of ten is not above a power of two if its exponent is so by `30103 / 100000`, with one to spare. -/
theorem ten_zpow_le_two_zpow {g b : ℤ} (h : 100000 * (g + 1) ≤ 30103 * b) (hlow : -1074 ≤ b) (hhigh : b ≤ 1023) :
    (10 : ℚ) ^ g ≤ 2 ^ b := by
  have htwo : (1 : ℚ) < 2 := by norm_num
  rcases Int.le_total 0 g with hg | hg
  · have hbase : (10 : ℚ) ^ (59 : ℤ) ≤ 2 ^ (196 : ℤ) := by norm_num
    refine (pow_le_pow_iff_left₀ (ten_zpow_pos g).le (zpow_pos two_pos b).le (show 59 ≠ 0 by decide)).mp ?_
    calc ((10 : ℚ) ^ g) ^ 59 = (10 ^ (59 : ℤ)) ^ g := by rw [← zpow_natCast, zpow_comm]; rfl
      _ ≤ (2 ^ (196 : ℤ)) ^ g := zpow_le_zpow_left₀ hg (ten_zpow_pos _).le hbase
      _ = 2 ^ (196 * g) := (zpow_mul ..).symm
      _ ≤ 2 ^ (b * 59) := (zpow_le_zpow_iff_right₀ htwo).mpr (by omega)
      _ = (2 ^ b) ^ 59 := by rw [zpow_mul]; rfl
  · have hbase : (2 : ℚ) ^ (93 : ℤ) ≤ 10 ^ (28 : ℤ) := by norm_num
    refine (pow_le_pow_iff_left₀ (ten_zpow_pos g).le (zpow_pos two_pos b).le (show 28 ≠ 0 by decide)).mp ?_
    calc ((10 : ℚ) ^ g) ^ 28 = (10 ^ (28 : ℤ)) ^ g := by rw [← zpow_natCast, zpow_comm]; rfl
      _ ≤ (2 ^ (93 : ℤ)) ^ g := by
        obtain ⟨k, rfl⟩ := Int.exists_eq_neg_ofNat hg
        rw [zpow_neg, zpow_neg, zpow_natCast, zpow_natCast]
        exact inv_anti₀ (pow_pos (zpow_pos two_pos _) k) (pow_le_pow_left₀ (zpow_pos two_pos _).le hbase k)
      _ = 2 ^ (93 * g) := (zpow_mul ..).symm
      _ ≤ 2 ^ (b * 28) := (zpow_le_zpow_iff_right₀ htwo).mpr (by omega)
      _ = (2 ^ b) ^ 28 := by rw [zpow_mul]; rfl

theorem two_zpow_le (hpos : 0 < units) : (2 : ℚ) ^ ((units.log2 : ℤ) - 1074) ≤ units / Double.one := by
  have hlog : (2 : ℚ) ^ units.log2 ≤ units := by exact_mod_cast Nat.log2_self_le hpos.ne'
  have hone : (Double.one : ℚ) = 2 ^ (1074 : ℤ) := by
    simp only [Double.one, Nat.cast_pow, Nat.cast_ofNat, zpow_ofNat]
  rw [zpow_sub₀ two_ne_zero, zpow_natCast, hone]
  exact div_le_div_of_nonneg_right hlog (zpow_pos two_pos _).le

/-- The first power of ten that is looked at is not above the number. -/
theorem decade_le (hpos : 0 < units) (hlt : units < 2 ^ Format.binary64.top) :
    (10 : ℚ) ^ decade units ≤ units / Double.one := by
  unfold decade
  generalize hguess : ((units.log2 : ℤ) - 1074) * 30103 / 100000 = guess
  have hlow : (10 : ℚ) ^ (guess - 1) ≤ units / Double.one := by
    have hlog : units.log2 < Format.binary64.top := (Nat.log2_lt hpos.ne').mpr hlt
    have htop : Format.binary64.top = 2098 := rfl
    exact (ten_zpow_le_two_zpow (by omega) (by omega) (by omega)).trans (two_zpow_le hpos)
  dsimp only
  split
  · exact hlow
  · rename_i hbelow
    split
    · rename_i hten
      have := (mul_le_scaled_iff 10).mp hten
      rw [zpow_add_one₀ (by norm_num), mul_comm]
      exact_mod_cast this
    · have := (mul_le_scaled_iff 1).mp (by rw [Nat.one_mul]; exact Nat.le_of_not_lt hbelow)
      rwa [Nat.cast_one, one_mul] at this

/-! ## Decimals with 17 digits -/

/-- A decimal that is near to a number of the format reads back. -/
theorem readsBack_of_near (h : IsMagnitude units)
    (hnear : |d.value * Double.one - units| < units / 2 ^ 54) : d.readsBack units = true := by
  have hratio : (0 : ℚ) < d.ratio.2 := Nat.cast_pos.mpr d.ratio_pos
  have hvalue : d.value * d.ratio.2 = d.ratio.1 := by rw [← ratio_div, div_mul_cancel₀ _ hratio.ne']
  have hproduct : d.value * Double.one * d.ratio.2 = d.ratio.1 * Double.one := by rw [mul_right_comm, hvalue]
  obtain ⟨hlow, hhigh⟩ := abs_lt.mp hnear
  have hlow' := mul_lt_mul_of_pos_right hlow hratio
  have hhigh' := mul_lt_mul_of_pos_right hhigh hratio
  rw [sub_mul, hproduct] at hlow' hhigh'
  refine decide_eq_true (Format.round_eq_of_near h d.ratio_pos ?_ ?_)
  · have hcast : ((2 ^ 54 - 1 : ℕ) : ℚ) = 2 ^ 54 - 1 := by norm_num
    have : ((2 ^ 54 - 1 : ℕ) : ℚ) * (units * d.ratio.2) < 2 ^ 54 * (d.ratio.1 * Double.one) := by
      rw [hcast]
      linarith
    exact_mod_cast this
  · have : (2 ^ 54 * (d.ratio.1 * Double.one) : ℚ) < (2 ^ 54 + 1) * (units * d.ratio.2) := by linarith
    exact_mod_cast this

/-- A grid that leaves a number 17 digits has a neighbour of the number that reads back. -/
theorem exists_neighbour? (h : IsMagnitude units) (hpos : 0 < units)
    (he : (10 : ℚ) ^ (e + 16) ≤ units / Double.one) : ∃ d, neighbour? units e = some d := by
  suffices hnear : (⟨nearest (scaled units e).1 (scaled units e).2, e⟩ : Decimal).readsBack units = true by
    refine Option.isSome_iff_exists.mp ?_
    simp [neighbour?, hnear]
  refine readsBack_of_near h ?_
  have hone : (0 : ℚ) < Double.one := Double.one_pos_rat
  have hten := ten_zpow_pos e
  have hunits : (0 : ℚ) < units := Nat.cast_pos.mpr hpos
  have hq : (0 : ℚ) < (scaled units e).2 := Nat.cast_pos.mpr (scaled_pos units e)
  have hratio := scaled_div units e
  obtain ⟨hup, hdown⟩ := nearest_near (scaled units e).1 (scaled_pos units e)
  generalize (scaled units e).1 = p at *
  generalize (scaled units e).2 = q at *
  generalize nearest p q = n at *
  -- the nearest integer is one half away from the ratio at most
  have hup' : (2 * (n * q) : ℚ) ≤ 2 * p + q := by exact_mod_cast hup
  have hdown' : (2 * p : ℚ) ≤ 2 * (n * q) + q := by exact_mod_cast hdown
  have hhalf : |(n : ℚ) - p / q| ≤ 1 / 2 := by
    have hlow : (n : ℚ) - 1 / 2 ≤ p / q := by
      rw [le_div_iff₀ hq]
      linarith
    have hhigh : (p : ℚ) / q ≤ n + 1 / 2 := by
      rw [div_le_iff₀ hq]
      linarith
    exact abs_le.mpr ⟨by linarith, by linarith⟩
  have hgrid : (10 : ℚ) ^ e * Double.one * 10 ^ 16 ≤ units := by
    rw [zpow_add₀ (by norm_num), le_div_iff₀ hone] at he
    rw [mul_right_comm]
    exact_mod_cast he
  have hdistance : (n : ℚ) * 10 ^ e * Double.one - units = (n - p / q) * (10 ^ e * Double.one) := by
    rw [eq_div_iff hten.ne', eq_div_iff hone.ne'] at hratio
    rw [← hratio, mul_assoc, mul_assoc, ← sub_mul]
  rw [value, hdistance, abs_mul, abs_of_pos (mul_pos hten hone)]
  calc |(n : ℚ) - p / q| * (10 ^ e * Double.one) ≤ 1 / 2 * (10 ^ e * Double.one) :=
        mul_le_mul_of_nonneg_right hhalf (mul_pos hten hone).le
    _ < units / 2 ^ 54 := by
      rw [lt_div_iff₀ (by norm_num)]
      linarith

theorem readsBack_of_neighbour? (h : neighbour? units e = some d) : d.readsBack units = true := by
  obtain ⟨n, -, hn⟩ := List.exists_of_findSome?_eq_some h
  dsimp only at hn
  split at hn
  · cases hn
    assumption
  · cases hn

/-! ## The search -/

theorem readsBack_shortestFrom {i : Nat} (hi : i < tries) (h : ∃ d, neighbour? units (e - i) = some d) :
    (shortestFrom units tries e).readsBack units = true := by
  induction tries generalizing e i with
  | zero => cases hi
  | succ tries ih =>
    rw [shortestFrom]
    cases hneighbour : neighbour? units e with
    | some d => exact readsBack_of_neighbour? hneighbour
    | none =>
      cases i with
      | zero =>
        obtain ⟨d, hd⟩ := h
        rw [Nat.cast_zero, Int.sub_zero, hneighbour] at hd
        cases hd
      | succ i =>
        refine ih (Nat.lt_of_succ_lt_succ hi) ?_
        rwa [Int.sub_sub, Int.add_comm 1, ← Nat.cast_add_one]

/-- **The search for the shortest decimal ends with one that reads back.** -/
theorem readsBack_shortest (m : Magnitude) (hpos : 0 < m.units) : (shortest m.units).readsBack m.units = true := by
  refine readsBack_shortestFrom (show 16 < 17 by decide) (exists_neighbour? m.representable hpos ?_)
  have hlast : decade m.units - (16 : ℕ) + 16 = decade m.units := by omega
  rw [hlast]
  exact decade_le hpos m.units_lt

theorem digits_ne_zero_of_readsBack (h : d.readsBack units = true) (hpos : 0 < units) : d.digits ≠ 0 := by
  intro hzero
  have hround : Format.binary64.round (d.ratio.1 * Double.one) d.ratio.2 = units := of_decide_eq_true h
  rw [ratio_of_digits_eq_zero hzero, Nat.zero_mul, Format.round_eq_zero d.ratio_pos] at hround
  omega

end Decimal

/-- A positive double is the double of its shortest decimal. -/
theorem Double.ofDecimal_shortest (s : Bool) {m : Magnitude} (hpos : 0 < m.units) :
    ofDecimal s (Decimal.shortest m.units) = .finite s m := by
  rw [ofDecimal_eq_ofRatio]
  exact ofUnits_of_round (of_decide_eq_true (Decimal.readsBack_shortest m hpos))

end DotGrid
