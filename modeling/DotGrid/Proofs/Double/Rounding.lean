import DotGrid.Double.Basic
import Mathlib.Algebra.Order.Ring.Nat

/-!
# Bounds of rounded numbers

A ratio that is between two powers of two stays between them when it is rounded (`Format.round_le_two_pow`,
`Format.two_pow_le_round`). It is rounded up to the bound of a format just from the middle between the greatest number
of the format and that bound on (`Format.top_le_round_iff`), so this is where a double becomes infinite
(`Double.isInfinite_ofUnits`).
-/

namespace DotGrid

variable {p q n b : Nat}

theorem nearest_le (h : p ≤ n * q) : nearest p q ≤ n := by
  rcases Nat.eq_zero_or_pos q with rfl | hq
  · have hp : p = 0 := Nat.le_zero.mp h
    simp [hp, nearest]
  have hle := nearest_le_div_add_one p q
  have hdiv : p / q ≤ n := Nat.div_le_of_le_mul (by rwa [Nat.mul_comm])
  by_cases heq : p / q = n
  · -- the ratio is the integer itself
    have hsplit := Nat.div_add_mod p q
    rw [heq, Nat.mul_comm] at hsplit
    have hexcess : 2 * (p % q) < q := by omega
    simp only [nearest, if_pos hexcess, heq, Nat.le_refl]
  · omega

theorem le_nearest (hq : 0 < q) (h : n * q ≤ p) : n ≤ nearest p q :=
  Nat.le_trans ((Nat.le_div_iff_mul_le hq).mpr h) (div_le_nearest p q)

/-- An even integer is nearest from the middle between it and the integer before it on. -/
theorem le_nearest_iff (heven : n % 2 = 0) (hq : 0 < q) (hlt : p / (2 * q) < n) :
    n ≤ nearest p (2 * q) ↔ (2 * n - 1) * q ≤ p := by
  have hsplit := Nat.div_add_mod p (2 * q)
  have hmod := Nat.mod_lt p (show 0 < 2 * q by omega)
  by_cases hlast : p / (2 * q) + 1 = n
  · have hmiddle : (2 * n - 1) * q = 2 * q * (p / (2 * q)) + q := by
      have hn : 2 * n - 1 = 2 * (p / (2 * q)) + 1 := by omega
      rw [hn, Nat.succ_mul, Nat.mul_assoc, Nat.mul_assoc, Nat.mul_comm q]
    have hnearest : n ≤ nearest p (2 * q) ↔ 2 * q ≤ 2 * (p % (2 * q)) := by
      simp only [nearest]
      split
      · omega
      · split <;> omega
    omega
  · have hnearest := nearest_le_div_add_one p (2 * q)
    have hbelow : 2 * q * (p / (2 * q) + 1) ≤ 2 * q * (n - 1) := Nat.mul_le_mul_left _ (by omega)
    have hmiddle : (2 * n - 1) * q = 2 * q * (n - 1) + q := by
      have hn : 2 * n - 1 = 2 * (n - 1) + 1 := by omega
      rw [hn, Nat.succ_mul, Nat.mul_assoc, Nat.mul_assoc, Nat.mul_comm q]
    rw [Nat.mul_succ] at hbelow
    omega

theorem le_log2_of_two_pow_le (h : 2 ^ b ≤ n) : b ≤ n.log2 :=
  (Nat.le_log2 (Nat.ne_of_gt (Nat.lt_of_lt_of_le (Nat.two_pow_pos b) h))).mpr h

namespace Format

variable {f : Format}

/-- The grid around a ratio is not coarser than a power of two above it. -/
theorem spacing_le (hf : 0 < f.precision) (hb : f.finest ≤ b) (h : p ≤ 2 ^ b * q) : f.spacing p q ≤ b := by
  have hlog : (p / q).log2 ≤ b := by
    by_cases hzero : p / q = 0
    · simp [hzero]
    · have hle : p / q ≤ 2 ^ b := Nat.div_le_of_le_mul (by rwa [Nat.mul_comm])
      have hpow : 2 ^ (p / q).log2 ≤ 2 ^ b := Nat.le_trans (Nat.log2_self_le hzero) hle
      exact (Nat.pow_le_pow_iff_right (by omega)).mp hpow
  simp only [spacing]
  omega

theorem round_le_two_pow (hf : 0 < f.precision) (hb : f.finest ≤ b) (h : p ≤ 2 ^ b * q) : f.round p q ≤ 2 ^ b := by
  have hk := spacing_le hf hb h
  unfold round
  generalize f.spacing p q = k at hk
  have hsplit : 2 ^ b = 2 ^ (b - k) * 2 ^ k := by rw [← Nat.pow_add, Nat.sub_add_cancel hk]
  rw [hsplit]
  refine Nat.mul_le_mul_right _ (nearest_le ?_)
  rwa [Nat.mul_comm q, ← Nat.mul_assoc, ← hsplit]

theorem two_pow_le_round (hf : 0 < f.precision) (hb : f.finest ≤ b) (hq : 0 < q) (h : 2 ^ b * q ≤ p) :
    2 ^ b ≤ f.round p q := by
  have hfull := @le_div_spacing f p q hf
  unfold round
  generalize f.spacing p q = k at *
  by_cases hk : k ≤ b
  · have hsplit : 2 ^ b = 2 ^ (b - k) * 2 ^ k := by rw [← Nat.pow_add, Nat.sub_add_cancel hk]
    rw [hsplit]
    refine Nat.mul_le_mul_right _ (le_nearest (Nat.mul_pos hq (Nat.two_pow_pos k)) ?_)
    rwa [Nat.mul_comm q, ← Nat.mul_assoc, ← hsplit]
  · have hbits := Nat.le_trans (hfull (by omega)) (div_le_nearest p (q * 2 ^ k))
    calc 2 ^ b ≤ 2 ^ (f.precision - 1 + k) := Nat.pow_le_pow_right (by omega) (by omega)
      _ = 2 ^ (f.precision - 1) * 2 ^ k := Nat.pow_add ..
      _ ≤ nearest p (q * 2 ^ k) * 2 ^ k := Nat.mul_le_mul_right _ hbits

/-- The middle between the greatest number of a format and the format's bound. -/
def overflow (f : Format) : Nat := (2 ^ (f.precision + 1) - 1) * 2 ^ (f.top - f.precision - 1)

theorem overflow_le (f : Format) (h : f.precision < f.top) : f.overflow ≤ 2 ^ f.top := by
  have htop : 2 ^ f.top = 2 ^ (f.precision + 1) * 2 ^ (f.top - f.precision - 1) := by
    rw [← Nat.pow_add]
    congr 1
    omega
  rw [htop, overflow]
  exact Nat.mul_le_mul_right _ (Nat.sub_le _ 1)

theorem le_overflow (f : Format) (h : f.precision < f.top) : 2 ^ (f.top - 1) ≤ f.overflow := by
  have htop : 2 ^ (f.top - 1) = 2 ^ f.precision * 2 ^ (f.top - f.precision - 1) := by
    rw [← Nat.pow_add]
    congr 1
    omega
  have hpos := Nat.two_pow_pos f.precision
  rw [htop, overflow, Nat.pow_succ]
  exact Nat.mul_le_mul_right _ (by omega)

/-- **Overflow.** A ratio is rounded up to the bound of a format or beyond it just if it is not below the middle
between the greatest number of the format and the bound: there the bound is the even one of two equally near. -/
theorem top_le_round_iff (hf : 0 < f.precision) (ht : f.finest + f.precision < f.top) (hq : 0 < q) :
    2 ^ f.top ≤ f.round p q ↔ f.overflow * q ≤ p := by
  have hlt := f.div_spacing_lt p q
  have hfull := le_div_spacing (p := p) (q := q) hf
  unfold round
  generalize f.spacing p q = k at *
  have hD : 0 < q * 2 ^ k := Nat.mul_pos hq (Nat.two_pow_pos k)
  rcases Nat.lt_trichotomy (k + f.precision) f.top with hk | hk | hk
  · -- the grid of a smaller binade: neither side holds
    have hround : nearest p (q * 2 ^ k) * 2 ^ k < 2 ^ f.top :=
      calc nearest p (q * 2 ^ k) * 2 ^ k ≤ 2 ^ f.precision * 2 ^ k :=
            Nat.mul_le_mul_right _ (Nat.le_trans (nearest_le_div_add_one p _) hlt)
        _ = 2 ^ (f.precision + k) := (Nat.pow_add ..).symm
        _ < 2 ^ f.top := Nat.pow_lt_pow_right (by omega) (by omega)
    have hsmall : p < f.overflow * q :=
      calc p < 2 ^ f.precision * (q * 2 ^ k) := (Nat.div_lt_iff_lt_mul hD).mp hlt
        _ = 2 ^ (f.precision + k) * q := by rw [Nat.mul_comm q, ← Nat.mul_assoc, Nat.pow_add]
        _ ≤ 2 ^ (f.top - 1) * q := Nat.mul_le_mul_right q (Nat.pow_le_pow_right (by omega) (by omega))
        _ ≤ f.overflow * q := Nat.mul_le_mul_right q (f.le_overflow (by omega))
    omega
  · -- the grid of the greatest numbers, where the bound is an even multiple of the spacing
    have hhalf : q * 2 ^ k = 2 * (2 ^ (k - 1) * q) := by
      rw [← Nat.mul_assoc, Nat.mul_comm 2, ← Nat.pow_succ, Nat.mul_comm q]
      congr 2
      omega
    have heven : 2 ^ f.precision % 2 = 0 := by
      rw [← Nat.sub_add_cancel hf, Nat.pow_succ, Nat.mul_mod_left]
    have htop : 2 ^ f.top = 2 ^ f.precision * 2 ^ k := by rw [← Nat.pow_add, ← hk, Nat.add_comm]
    have hmiddle : f.overflow * q = (2 * 2 ^ f.precision - 1) * (2 ^ (k - 1) * q) := by
      have hexponent : f.top - f.precision - 1 = k - 1 := by omega
      rw [overflow, hexponent, Nat.pow_succ, Nat.mul_comm _ 2, Nat.mul_assoc]
    rw [htop, Nat.mul_le_mul_right_iff (Nat.two_pow_pos k), hmiddle, hhalf]
    rw [hhalf] at hlt
    exact le_nearest_iff heven (Nat.mul_pos (Nat.two_pow_pos _) hq) hlt
  · -- the grid of a greater binade: both sides hold
    have hbits := hfull (by omega)
    have hround : 2 ^ f.top ≤ nearest p (q * 2 ^ k) * 2 ^ k :=
      calc 2 ^ f.top ≤ 2 ^ (f.precision - 1 + k) := Nat.pow_le_pow_right (by omega) (by omega)
        _ = 2 ^ (f.precision - 1) * 2 ^ k := Nat.pow_add ..
        _ ≤ nearest p (q * 2 ^ k) * 2 ^ k := Nat.mul_le_mul_right _ (Nat.le_trans hbits (div_le_nearest p _))
    have hlarge : f.overflow * q ≤ p :=
      calc f.overflow * q ≤ 2 ^ f.top * q := Nat.mul_le_mul_right q (f.overflow_le (by omega))
        _ ≤ 2 ^ (f.precision - 1 + k) * q :=
          Nat.mul_le_mul_right q (Nat.pow_le_pow_right (by omega) (by omega))
        _ = 2 ^ (f.precision - 1) * (q * 2 ^ k) := by rw [Nat.mul_comm q, ← Nat.mul_assoc, Nat.pow_add]
        _ ≤ p := (Nat.le_div_iff_mul_le hD).mp hbits
    omega

end Format

/-! ## Doubles of a ratio of units -/

namespace Double

theorem isFinite_iff (d : Double) : d.isFinite = true ↔ d.isNaN = false ∧ d.isInfinite = false := by
  cases d <;> simp [isFinite, isNaN, isInfinite]

theorem isNaN_of_isFinite {d : Double} (h : d.isFinite = true) : d.isNaN = false :=
  ((isFinite_iff d).mp h).1

theorem isInfinite_of_isFinite {d : Double} (h : d.isFinite = true) : d.isInfinite = false :=
  ((isFinite_iff d).mp h).2

theorem exists_of_isInfinite {d : Double} (h : d.isInfinite = true) : ∃ s, d = .infinite s := by
  cases d with
  | nan => cases h
  | infinite s => exact ⟨s, rfl⟩
  | finite s m => cases h

theorem isFinite_of_isInfinite {d : Double} (h : d.isInfinite = true) : d.isFinite = false := by
  obtain ⟨s, rfl⟩ := exists_of_isInfinite h
  rfl

@[simp] theorem isNaN_ofUnits (s : Bool) (p q : Nat) : (ofUnits s p q).isNaN = false := by
  unfold ofUnits
  split <;> rfl

@[simp] theorem isNegative_ofUnits (s : Bool) (p q : Nat) : (ofUnits s p q).isNegative = s := by
  unfold ofUnits
  split <;> rfl

/-- The least number of units that is rounded to an infinity. -/
def overflow : Nat := Format.binary64.overflow

theorem isInfinite_ofUnits (s : Bool) (hq : 0 < q) : (ofUnits s p q).isInfinite = true ↔ overflow * q ≤ p := by
  rw [overflow, ← Format.top_le_round_iff (by decide) (by decide) hq]
  unfold ofUnits Magnitude.round?
  by_cases h : Format.binary64.round p q < 2 ^ Format.binary64.top
  · simp [h, isInfinite]
  · simp [h, isInfinite, Nat.le_of_not_lt h]

theorem isFinite_ofUnits (s : Bool) (hq : 0 < q) : (ofUnits s p q).isFinite = true ↔ p < overflow * q := by
  rw [isFinite_iff, isNaN_ofUnits, ← Nat.not_le, ← isInfinite_ofUnits s hq]
  simp

theorem units_ofUnits {s : Bool} (h : (ofUnits s p q).isFinite = true) :
    (ofUnits s p q).units = Format.binary64.round p q := by
  unfold ofUnits Magnitude.round? at *
  by_cases hlt : Format.binary64.round p q < 2 ^ Format.binary64.top
  · simp [hlt, units]
  · simp [hlt, isFinite] at h

/-- A finite double of at most `2^b` units. -/
structure Within (b : Nat) (d : Double) : Prop where
  isFinite : d.isFinite = true
  units_le : d.units ≤ 2 ^ b

theorem Within.mono {d : Double} {c : Nat} (h : d.Within b) (hbc : b ≤ c) : d.Within c :=
  ⟨h.isFinite, Nat.le_trans h.units_le (Nat.pow_le_pow_right (by omega) hbc)⟩

theorem within_ofUnits (s : Bool) (hq : 0 < q) (hb : b ≤ 2097) (h : p ≤ 2 ^ b * q) : (ofUnits s p q).Within b := by
  have hoverflow : 2 ^ b < overflow :=
    Nat.lt_of_le_of_lt (Nat.pow_le_pow_right (by omega) hb) (by decide +kernel)
  have hfinite : (ofUnits s p q).isFinite = true :=
    (isFinite_ofUnits s hq).mpr (Nat.lt_of_le_of_lt h (Nat.mul_lt_mul_of_pos_right hoverflow hq))
  refine ⟨hfinite, ?_⟩
  rw [units_ofUnits hfinite]
  exact Format.round_le_two_pow (by decide) (Nat.zero_le b) h

theorem two_pow_le_units {s : Bool} (hq : 0 < q) (h : 2 ^ b * q ≤ p) (hfinite : (ofUnits s p q).isFinite = true) :
    2 ^ b ≤ (ofUnits s p q).units := by
  rw [units_ofUnits hfinite]
  exact Format.two_pow_le_round (by decide) (Nat.zero_le b) hq h

end Double

end DotGrid
