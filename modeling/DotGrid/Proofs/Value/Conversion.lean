import DotGrid.Proofs.Double.Order
import DotGrid.Proofs.Value.Answers

/-!
# Doubles of numbers

The double of a number is at the place that rounding moves the number to (`measure_toDouble`). Only an integer has no
double, if it is beyond the range of doubles (`toDouble_fault`), and only NaN has the double NaN (`eq_nan_iff`). A zero
of any kind has a zero as its double (`exists_toDouble_zero`).
-/

namespace DotGrid

open DotGrid.Measure

variable {n z : Number} {x : Double} {fault : Fault}

/-! ## Places -/

/-- The place of the double of a number. -/
def Number.place (n : Number) : Measure := n.measure.rounded

theorem integerToDouble_eq_ok_iff {k : ℤ} :
    integerToDouble k = .ok x ↔ (Double.ofInt k).isInfinite = false ∧ Double.ofInt k = x := by
  rw [integerToDouble]
  cases h : (Double.ofInt k).isInfinite with
  | true => simp only [if_true, reduceCtorEq, Bool.true_eq_false, false_and]
  | false => simp only [Bool.false_eq_true, if_false, Except.ok.injEq, true_and]

/-- An integer and its opposite are beyond the range of doubles both or neither. -/
theorem isInfinite_ofInt_neg (k : ℤ) : (Double.ofInt (-k)).isInfinite = (Double.ofInt k).isInfinite := by
  have hover : ∀ u : ℤ, (Double.ofInt u).isInfinite = true ↔ Double.overflow * 1 ≤ u.natAbs * Double.one := by
    intro u
    rw [Double.ofInt, Double.ofRatio]
    exact Double.isInfinite_ofUnits _ Nat.one_pos
  rw [Bool.eq_iff_iff, hover, hover, Int.natAbs_neg]

theorem measure_toDouble (h : n.toDouble = .ok x) : x.measure = n.place := by
  cases n with
  | integer k =>
    have hfinite := (integerToDouble_answers k).of_eq_ok h
    rw [← (integerToDouble_eq_ok_iff.mp h).2] at hfinite ⊢
    exact Double.measure_ofInt hfinite
  | boolean b =>
    have hfinite : (Double.ofInt (if b then 1 else 0)).isFinite = true :=
      (Double.within_ofInt (b := 0) (by cases b <;> decide) (by decide)).isFinite
    rw [← Except.ok.inj h, Double.measure_ofInt hfinite, Number.place, Number.measure, ite_mul, one_mul, zero_mul]
    rfl
  | real d =>
    rw [← Except.ok.inj h]
    exact (Double.rounded_measure d).symm

theorem measure_eq_undefined_iff : n.measure = .undefined ↔ n = .real .nan := by
  cases n with
  | integer k => exact iff_of_false nofun nofun
  | boolean b => exact iff_of_false nofun nofun
  | real d => rw [Number.measure, Double.measure_eq_undefined_iff, Number.real.injEq]

theorem place_eq_undefined_iff : n.place = .undefined ↔ n = .real .nan :=
  rounded_eq_undefined_iff.trans measure_eq_undefined_iff

/-- The double of a number is NaN for NaN only. -/
theorem eq_nan_iff (h : n.toDouble = .ok x) : x = .nan ↔ n = .real .nan := by
  rw [← Double.measure_eq_undefined_iff, measure_toDouble h, place_eq_undefined_iff]

theorem isNaN_toDouble (h : n.toDouble = .ok x) : x.isNaN = decide (n = .real .nan) := by
  rw [Bool.eq_iff_iff, decide_eq_true_iff, ← eq_nan_iff h]
  cases x <;> simp [Double.isNaN]

/-! ## Faults -/

theorem toDouble_fault (h : n.toDouble = .error fault) : fault = .integerTooLarge := by
  cases n with
  | integer k =>
    rw [Number.toDouble, integerToDouble] at h
    split at h
    · exact (Except.error.inj h).symm
    · cases h
  | boolean b => cases h
  | real d => cases h

/-! ## Zeros -/

theorem measure_whole {k : ℤ} (h : z.whole? = some k) : z.measure = .units (k * Double.one) := by
  cases z with
  | integer m =>
    obtain rfl : m = k := Option.some.inj h
    rfl
  | boolean b =>
    obtain rfl : (if b then 1 else 0) = k := Option.some.inj h
    rw [Number.measure, ite_mul, one_mul, zero_mul]
  | real d => cases h

theorem whole_zero {k : ℤ} (hz : z.measure = .units 0) (h : z.whole? = some k) : k = 0 := by
  have hone : (Double.one : ℤ) ≠ 0 := by exact_mod_cast Nat.ne_of_gt Double.one_pos
  have hproduct : k * (Double.one : ℤ) = 0 := Measure.units.inj ((measure_whole h).symm.trans hz)
  exact (Int.mul_eq_zero.mp hproduct).resolve_right hone

theorem exists_toDouble_zero (hz : z.measure = .units 0) : ∃ d, z.toDouble = .ok d ∧ d.isZero = true := by
  cases z with
  | integer k =>
    obtain rfl : k = 0 := whole_zero hz rfl
    exact ⟨.ofInt 0, by decide +kernel, by decide +kernel⟩
  | boolean b =>
    have hb : (if b then 1 else 0) = (0 : ℤ) := whole_zero hz rfl
    exact ⟨.ofInt 0, by rw [Number.toDouble, hb], by decide +kernel⟩
  | real d =>
    refine ⟨d, rfl, ?_⟩
    cases d with
    | nan => cases hz
    | infinite s => cases s <;> cases hz
    | finite s m =>
      have hunits := Measure.units.inj hz
      have hzero : m.units = 0 := by
        cases s <;> simpa using hunits
      simp [Double.isZero, hzero]

end DotGrid
