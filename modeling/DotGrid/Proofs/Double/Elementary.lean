import DotGrid.Double.Elementary
import DotGrid.Proofs.Approximant.Bounds

/-!
# Bounds of elementary functions

A double that is taken from an approximant is as large as the approximant allows (`within_ofApproximant`), and is not
near zero if the approximant is not (`beyond_ofApproximant`). So the angle of a point is finite, and the logarithms of
positive doubles are small. The natural logarithm of a double other than one is away from zero (`beyond_log`), because a
double other than one is away from one (`Magnitude.one_lt`, `Magnitude.lt_one`).
-/

namespace DotGrid

/-! ## Magnitudes near one -/

theorem two_pow_succ (k : Nat) : 2 ^ (k + 1) = 2 * 2 ^ k :=
  Nat.pow_succ'

namespace Magnitude

/-- A magnitude is a multiple of a power of two unless it is less than `2^52` times as large. -/
theorem grid (m : Magnitude) (p : Nat) : (∃ k, m.units = k * 2 ^ (p + 1)) ∨ m.units < 2 ^ 53 * 2 ^ p := by
  obtain ⟨n, a, k, rfl, ha, hk⟩ := m
  by_cases hkp : k ≤ p
  · refine .inr ?_
    calc a * 2 ^ k ≤ a * 2 ^ p := Nat.mul_le_mul_left a (Nat.pow_le_pow_right (by decide) hkp)
      _ < 2 ^ 53 * 2 ^ p := Nat.mul_lt_mul_of_pos_right ha (Nat.two_pow_pos p)
  · refine .inl ⟨a * 2 ^ (k - (p + 1)), ?_⟩
    rw [Nat.mul_assoc, ← Nat.pow_add, Nat.sub_add_cancel (by omega)]

/-- A magnitude above one is greater by one part of `2^52` at least. -/
theorem one_lt {m : Magnitude} (h : Double.one < m.units) : Double.one * (2 ^ 52 + 1) ≤ m.units * 2 ^ 52 := by
  have hone := Double.one_eq_mul (i := 53) (j := 1021) rfl
  have hdouble := two_pow_succ 1021
  have hgrid := m.grid 1021
  rw [hdouble] at hgrid
  rw [hone] at h ⊢
  generalize 2 ^ 1021 = unit at *
  rcases hgrid with ⟨k, hk⟩ | hlt
  · rw [hk] at h ⊢
    have hbeyond : 2 ^ 52 < k := by
      refine Nat.lt_of_mul_lt_mul_right (a := 2 * unit) ?_
      omega
    calc 2 ^ 53 * unit * (2 ^ 52 + 1) = (2 ^ 52 + 1) * (2 * unit) * 2 ^ 52 := by omega
      _ ≤ k * (2 * unit) * 2 ^ 52 := Nat.mul_le_mul_right _ (Nat.mul_le_mul_right _ hbeyond)
  · omega

/-- A magnitude below one is less by one part of `2^53` at least. -/
theorem lt_one {m : Magnitude} (h : m.units < Double.one) : m.units * (2 ^ 53 + 1) ≤ Double.one * 2 ^ 53 := by
  have hone := Double.one_eq_mul (i := 53) (j := 1020 + 1) rfl
  have hdouble := two_pow_succ 1020
  have hgrid := m.grid 1020
  rw [hone] at h ⊢
  rw [hdouble] at h hgrid ⊢
  generalize 2 ^ 1020 = unit at *
  rcases hgrid with ⟨k, hk⟩ | hlt
  · rw [hk] at h ⊢
    have hbelow : k < 2 ^ 53 := Nat.lt_of_mul_lt_mul_right h
    calc k * (2 * unit) * (2 ^ 53 + 1) = k * (2 ^ 53 + 1) * (2 * unit) := Nat.mul_right_comm ..
      _ ≤ 2 ^ 53 * 2 ^ 53 * (2 * unit) := Nat.mul_le_mul_right _ (by omega)
      _ = 2 ^ 53 * (2 * unit) * 2 ^ 53 := Nat.mul_right_comm ..
  · omega

end Magnitude

namespace Double

/-! ## Doubles of approximants -/

section

variable {a : Approximant} {b c : Nat}

theorem within_ofApproximant (ha : a.Within b) (hb : b ≤ 1023) : (ofApproximant a).Within (b + 1074) := by
  rw [ofApproximant]
  generalize [80, 200, 480, 1000, 2200, 4500, 9000] = places
  induction places with
  | nil => exact ⟨rfl, Nat.zero_le _⟩
  | cons p places ih =>
    simp only [ofApproximantAt, settled?]
    split
    · rw [Option.getD_some, ofScaled]
      refine within_ofUnits _ (Nat.two_pow_pos p) (by omega) ?_
      have hle := ha p
      calc ((a p).natAbs - 1) * one ≤ 2 ^ (p + b) * one := Nat.mul_le_mul_right one (by omega)
        _ = 2 ^ (b + 1074) * 2 ^ p := by
          rw [two_pow_mul_one, ← Nat.pow_add]
          congr 1
          omega
    · exact ih

/-- What is taken from an approximant away from zero is away from zero, unless no number of places settles it. -/
theorem beyond_ofApproximant {k : Nat} (ha : a.Beyond c) (hc : c < 80) (hk : k + c = 1073)
    (hfinite : (ofApproximant a).isFinite = true) :
    ofApproximant a = zero false ∨ 2 ^ k ≤ (ofApproximant a).units := by
  have hplaces : ∀ p ∈ [80, 200, 480, 1000, 2200, 4500, 9000], 80 ≤ p := by decide
  rw [ofApproximant] at hfinite ⊢
  generalize [80, 200, 480, 1000, 2200, 4500, 9000] = places at *
  induction places with
  | nil => exact .inl rfl
  | cons p places ih =>
    simp only [ofApproximantAt, settled?] at hfinite ⊢
    obtain ⟨hp, hrest⟩ := List.forall_mem_cons.mp hplaces
    split
    · rename_i hsettled
      rw [if_pos hsettled, Option.getD_some, ofScaled] at hfinite
      rw [Option.getD_some, ofScaled]
      obtain ⟨q, rfl⟩ : ∃ q, p = q + 1 + c := ⟨p - c - 1, by omega⟩
      have hle := ha (q + 1)
      have hpos := Nat.two_pow_pos q
      rw [Nat.pow_succ] at hle
      have hexponent : k + (q + 1 + c) = q + 1074 := by omega
      have hunits : 2 ^ k * 2 ^ (q + 1 + c) ≤ ((a (q + 1 + c)).natAbs - 1) * one :=
        calc 2 ^ k * 2 ^ (q + 1 + c) = 2 ^ q * one := by
              rw [two_pow_mul_one, ← Nat.pow_add, hexponent]
          _ ≤ ((a (q + 1 + c)).natAbs - 1) * one := Nat.mul_le_mul_right one (by omega)
      exact .inr (two_pow_le_units (Nat.two_pow_pos _) hunits hfinite)
    · rename_i hunsettled
      rw [if_neg hunsettled] at hfinite
      exact ih hfinite hrest

end

/-! ## Angles -/

theorem isFinite_pi : pi.isFinite = true := by
  rw [pi]
  exact (within_ofApproximant Approximant.pi_within (by decide)).isFinite

theorem isFinite_halfPi : halfPi.isFinite = true := by
  rw [halfPi]
  exact (within_ofApproximant Approximant.halfPi_within (by decide)).isFinite

/-- The angle of a point is finite. -/
theorem isFinite_atan2 {x y : Double} (hy : y.isFinite = true) (hx : x.isFinite = true) :
    (y.atan2 x).isFinite = true := by
  obtain ⟨s, m, rfl⟩ := exists_of_isFinite hx
  obtain ⟨s', m', rfl⟩ := exists_of_isFinite hy
  have hangle : ∀ n d : Nat, (ofApproximant (Approximant.arctan n d)).isFinite = true := by
    intro n d
    exact (within_ofApproximant (Approximant.arctan_within n d) (by decide)).isFinite
  have hopposite : ∀ n d : Nat, (ofApproximant (Approximant.sub .pi (Approximant.arctan n d))).isFinite = true := by
    intro n d
    have hpi := Approximant.pi_within.mono (show 3 ≤ 4 by decide)
    exact (within_ofApproximant (hpi.sub (Approximant.arctan_within n d)) (by decide)).isFinite
  unfold atan2
  simp only [isNaN, Bool.or_self, Bool.false_eq_true, if_false]
  rw [isFinite_withSign]
  split
  · split
    · exact isFinite_pi
    · rfl
  · split
    · exact isFinite_halfPi
    · split
      · exact hopposite _ _
      · exact hangle _ _

/-! ## Logarithms -/

theorem log2_lt_of_lt {n k : Nat} (h : n < 2 ^ k) (hk : 0 < k) : n.log2 < k := by
  by_cases hn : n = 0
  · simpa [hn] using hk
  · exact (Nat.log2_lt hn).mpr h

section

variable {m : Magnitude}

theorem log_approximant_within (hpos : 0 < m.units) : (Approximant.log m.units one).Within 12 := by
  have hlarge : m.units / one < 2 ^ 1024 := by
    have hlt := (finite false m).units_lt_overflow
    have htop := overflow_le_mul_one (Nat.le_refl 1024)
    exact (Nat.div_lt_iff_lt_mul one_pos).mpr (Nat.lt_of_lt_of_le hlt htop)
  have hsmall := Nat.lt_of_le_of_lt (Nat.div_le_self one m.units) (one_lt_two_pow (Nat.lt_add_one 1074))
  have hlog := log2_lt_of_lt hlarge (by decide)
  have hlog' := log2_lt_of_lt hsmall (by decide)
  exact Approximant.log_within (b := 11) hpos one_pos (by omega) (by omega)

/-- The logarithm of a number from one half to one is below four in size. -/
theorem log_approximant_within_of_le_one (hpos : 0 < m.units) (hlow : 2 ^ 1073 ≤ m.units) (hhigh : m.units ≤ one) :
    (Approximant.log m.units one).Within 2 := by
  have hlarge : m.units / one < 2 ^ 2 := by
    have hpos := one_pos
    refine (Nat.div_lt_iff_lt_mul hpos).mpr ?_
    omega
  have hsmall : one / m.units < 2 ^ 2 := by
    have htwo := one_eq_mul (i := 1) (j := 1073) rfl
    generalize 2 ^ 1073 = half at hlow htwo
    refine (Nat.div_lt_iff_lt_mul hpos).mpr ?_
    omega
  have hlog := log2_lt_of_lt hlarge (by decide)
  have hlog' := log2_lt_of_lt hsmall (by decide)
  exact Approximant.log_within (b := 1) hpos one_pos (by omega) (by omega)

theorem logarithm_positive (f : Nat → Double) (hpos : 0 < m.units) : logarithm f (.finite false m) = f m.units := by
  rw [logarithm, if_neg (Nat.ne_of_gt hpos), if_neg Bool.false_ne_true]

/-- The logarithm of a positive double is as small as its approximant. -/
theorem within_log_of_approximant {b : Nat} (hpos : 0 < m.units) (h : (Approximant.log m.units one).Within b)
    (hb : b ≤ 1023) : (log (.finite false m)).Within (b + 1074) := by
  rw [log, logarithm_positive _ hpos]
  split
  · exact ⟨rfl, Nat.zero_le _⟩
  · exact within_ofApproximant h hb

theorem within_log (hpos : 0 < m.units) : (log (.finite false m)).Within (12 + 1074) :=
  within_log_of_approximant hpos (log_approximant_within hpos) (by decide)

theorem within_log_of_le_one (hpos : 0 < m.units) (hlow : 2 ^ 1073 ≤ m.units) (hhigh : m.units ≤ one) :
    (log (.finite false m)).Within (2 + 1074) :=
  within_log_of_approximant hpos (log_approximant_within_of_le_one hpos hlow hhigh) (by decide)

theorem within_log2 (hpos : 0 < m.units) : (log2 (.finite false m)).Within (13 + 1074) := by
  rw [log2, logarithm_positive _ hpos]
  split
  · have hlt := Nat.lt_of_lt_of_le (finite false m).units_lt_overflow (overflow_le_two_pow (Nat.le_refl 2098))
    rw [units] at hlt
    have hlog := log2_lt_of_lt hlt (by decide)
    exact within_ofInt (by omega) (by decide)
  · have hquotient := (log_approximant_within hpos).div Approximant.ln2_beyond (by decide)
    exact within_ofApproximant hquotient (by decide)

theorem within_log10 (hpos : 0 < m.units) : (log10 (.finite false m)).Within (14 + 1074) := by
  have hten : (Approximant.log 10 1).Beyond 2 :=
    Approximant.log_beyond (c := 0) (by decide) (by decide) (.inl (by decide))
  rw [log10, logarithm_positive _ hpos]
  split
  · rename_i k hk
    have hmem := List.mem_range.mp (List.mem_of_find?_eq_some hk)
    exact within_ofInt (by omega) (by decide)
  · have hquotient := (log_approximant_within hpos).div hten (by decide)
    exact within_ofApproximant hquotient (by decide)

/-- The natural logarithm of a double is zero or away from zero. -/
theorem beyond_log (hpos : 0 < m.units) :
    log (.finite false m) = zero false ∨ 2 ^ 1018 ≤ (log (.finite false m)).units := by
  have hfinite := (within_log hpos).isFinite
  rw [log, logarithm_positive _ hpos] at hfinite ⊢
  split
  · exact .inl rfl
  · rename_i hne
    rw [if_neg hne] at hfinite
    have hscale : ∀ a b : Nat, a * (2 ^ 52 + 1) ≤ b * 2 ^ 52 → a * (2 ^ 53 + 1) ≤ b * 2 ^ 53 := by omega
    have haway : one * (2 ^ 53 + 1) ≤ m.units * 2 ^ 53 ∨ m.units * (2 ^ 53 + 1) ≤ one * 2 ^ 53 := by
      rcases Nat.lt_or_gt_of_ne hne with hlt | hgt
      · exact .inr (Magnitude.lt_one hlt)
      · exact .inl (hscale _ _ (Magnitude.one_lt hgt))
    exact beyond_ofApproximant (k := 1018) (Approximant.log_beyond hpos one_pos haway) (by decide) rfl hfinite

end

end Double

end DotGrid
