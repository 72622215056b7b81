import DotGrid.Double.Arithmetic
import DotGrid.Proofs.Double.Rounding
import Mathlib.Algebra.GroupWithZero.Nat
import Mathlib.Data.Nat.Sqrt

/-!
# Results of arithmetic

Which operations on finite doubles can give an infinity or NaN, and where. A remainder, a root and an integer that is
not beyond a double are finite; sums, products and quotients are no NaN, so that an infinite one is the only thing to be
refused. The square root of a sum of squares is infinite just from the overflow bound on (`Double.isInfinite_hypot`),
which rests on the integer square root being exact (`squareRoot_eq`).
-/

namespace DotGrid

/-! ## Integer quotients and roots -/

theorem natAbs_ediv_le {x y : Int} {m : Nat} (h : x.natAbs ≤ m * y.natAbs) : (x / y).natAbs ≤ m := by
  by_cases hy : y = 0
  · simp [hy]
  · have hrest := Int.emod_lt x hy
    have hnonneg := Int.emod_nonneg x hy
    have hsplit : (x / y).natAbs * y.natAbs = (x - x % y).natAbs := by
      have hdiv := Int.mul_ediv_add_emod x y
      rw [← Int.natAbs_mul, Int.mul_comm]
      congr 1
      omega
    have hlt : (x / y).natAbs * y.natAbs < (m + 1) * y.natAbs := by
      rw [hsplit, Nat.succ_mul]
      omega
    exact Nat.lt_succ_iff.mp (Nat.lt_of_mul_lt_mul_right hlt)

theorem squareRootFrom_eq (n guess : Nat) : squareRootFrom n guess = Nat.sqrt.iter n guess := by
  fun_induction squareRootFrom n guess with
  | case1 guess next h ih =>
    rw [Nat.sqrt.iter]
    simp only [next] at h ih
    simp [h, ih, next]
  | case2 guess next h =>
    rw [Nat.sqrt.iter]
    simp only [next] at h
    simp [h]

/-- Newton's steps give the greatest natural number whose square is not above `n`. -/
theorem squareRoot_eq (n : Nat) : squareRoot n = Nat.sqrt n := by
  rw [squareRoot, Nat.sqrt, Nat.one_shiftLeft]
  split
  · rfl
  · exact squareRootFrom_eq n _

/-- Newton's steps for the cube root only go down. -/
theorem cubeRootFrom_le (n guess : Nat) : cubeRootFrom n guess ≤ guess := by
  fun_induction cubeRootFrom n guess with
  | case1 guess next h ih => exact Nat.le_trans ih (Nat.le_of_lt h)
  | case2 guess next h => exact Nat.le_refl guess

theorem cubeRoot_le {n b : Nat} (h : n < 2 ^ (3 * b)) : cubeRoot n ≤ 2 ^ b := by
  unfold cubeRoot
  split
  · exact Nat.le_trans ‹n ≤ 1› (Nat.one_le_two_pow)
  · have hlog : n.log2 < 3 * b := (Nat.log2_lt (by omega)).mpr h
    exact Nat.le_trans (cubeRootFrom_le n _) (Nat.pow_le_pow_right (by omega) (by omega))

/-! ## Magnitudes -/

theorem Double.one_pos : 0 < Double.one := by decide +kernel

theorem Double.two_pow_mul_one (k : Nat) : 2 ^ k * one = 2 ^ (k + 1074) := by
  rw [Nat.pow_add, ← one]

theorem Double.one_eq_mul {i j : Nat} (h : i + j = 1074) : one = 2 ^ i * 2 ^ j := by
  rw [← Nat.pow_add, h, one]

theorem Double.one_eq {j : Nat} (h : j = 1074) : one = 2 ^ j := by
  rw [one_eq_mul (Nat.zero_add j |>.trans h), Nat.pow_zero, Nat.one_mul]

theorem Double.one_lt_two_pow {b : Nat} (h : 1074 < b) : one < 2 ^ b := by
  calc one = 1 * one := (Nat.one_mul one).symm
    _ < 2 ^ (b - 1074) * one := Nat.mul_lt_mul_of_pos_right (Nat.one_lt_two_pow (by omega)) one_pos
    _ = 2 ^ b := by rw [two_pow_mul_one, Nat.sub_add_cancel (Nat.le_of_lt h)]

theorem Double.overflow_le_two_pow {b : Nat} (h : 2098 ≤ b) : overflow ≤ 2 ^ b :=
  Nat.le_trans (Format.binary64.overflow_le (by decide)) (Nat.pow_le_pow_right (by decide) h)

theorem Double.overflow_le_mul_one {b : Nat} (h : 1024 ≤ b) : overflow ≤ 2 ^ b * one := by
  rw [two_pow_mul_one]
  exact overflow_le_two_pow (by omega)

theorem Double.two_pow_mul_one_le_overflow {b : Nat} (h : b ≤ 1023) : 2 ^ b * one ≤ overflow := by
  have hexponent : b + 1074 ≤ Format.binary64.top - 1 := Nat.add_le_add_right h 1074
  rw [two_pow_mul_one]
  exact Nat.le_trans (Nat.pow_le_pow_right (by decide) hexponent) (Format.binary64.le_overflow (by decide))

theorem Magnitude.units_lt_overflow (m : Magnitude) : m.units + 2 * Double.one < Double.overflow := by
  obtain ⟨n, a, k, rfl, ha, hk⟩ := m
  have hle : ∀ top, k ≤ top → a * 2 ^ k ≤ (2 ^ 53 - 1) * 2 ^ top := by
    intro top htop
    exact Nat.mul_le_mul (Nat.le_pred_of_lt ha) (Nat.pow_le_pow_right (by omega) htop)
  exact Nat.lt_of_le_of_lt (Nat.add_le_add_right (hle 2045 hk) _) (by decide +kernel)

namespace Double

theorem units_lt_overflow (d : Double) : d.units < overflow := by
  have hpos : 0 < overflow := Nat.lt_of_le_of_lt (Nat.zero_le _) Magnitude.zero.units_lt_overflow
  cases d with
  | nan => exact hpos
  | infinite s => exact hpos
  | finite s m => exact Nat.lt_of_le_of_lt (Nat.le_add_right _ _) m.units_lt_overflow

theorem exists_of_isFinite {d : Double} (h : d.isFinite = true) : ∃ s m, d = .finite s m := by
  cases d with
  | nan => cases h
  | infinite s => cases h
  | finite s m => exact ⟨s, m, rfl⟩

/-! ## Signs -/

@[simp] theorem isFinite_neg (d : Double) : d.neg.isFinite = d.isFinite := by
  cases d <;> rfl

@[simp] theorem isFinite_abs (d : Double) : d.abs.isFinite = d.isFinite := by
  cases d <;> rfl

@[simp] theorem isFinite_withSign (s : Bool) (d : Double) : (d.withSign s).isFinite = d.isFinite := by
  cases d <;> rfl

/-! ## Operations that a check follows -/

section

variable {x y : Double}

theorem isNaN_add (hx : x.isFinite = true) (hy : y.isFinite = true) : (x.add y).isNaN = false := by
  obtain ⟨s, m, rfl⟩ := exists_of_isFinite hx
  obtain ⟨s', m', rfl⟩ := exists_of_isFinite hy
  simp only [add]
  split
  · rfl
  · simp

theorem isNaN_sub (hx : x.isFinite = true) (hy : y.isFinite = true) : (x.sub y).isNaN = false :=
  isNaN_add hx (by simpa using hy)

theorem isNaN_mul (hx : x.isFinite = true) (hy : y.isFinite = true) : (x.mul y).isNaN = false := by
  obtain ⟨s, m, rfl⟩ := exists_of_isFinite hx
  obtain ⟨s', m', rfl⟩ := exists_of_isFinite hy
  simp [mul]

theorem isNaN_div (hx : x.isFinite = true) (hy : y.isFinite = true) (hzero : y.isZero = false) :
    (x.div y).isNaN = false := by
  obtain ⟨s, m, rfl⟩ := exists_of_isFinite hx
  obtain ⟨s', m', rfl⟩ := exists_of_isFinite hy
  simp only [isZero, beq_eq_false_iff_ne] at hzero
  simp [div, hzero]

@[simp] theorem isNaN_ofInt (n : Int) : (ofInt n).isNaN = false := by
  simp [ofInt, ofRatio]

@[simp] theorem isNaN_divInts (m n : Int) : (divInts m n).isNaN = false := by
  simp [divInts, ofRatio]

/-- A remainder is not greater than its dividend, so it is finite if there is one. -/
theorem isFinite_remainder (hx : x.isFinite = true) (h : (x.remainder y).isNaN = false) :
    (x.remainder y).isFinite = true := by
  obtain ⟨s, m, rfl⟩ := exists_of_isFinite hx
  cases y with
  | nan => cases h
  | infinite s' => rfl
  | finite s' m' =>
    simp only [remainder] at h ⊢
    split
    · rename_i hzero
      rw [if_pos hzero] at h
      cases h
    · have hlt := (finite s m).units_lt_overflow
      have hle := Nat.mod_le m.units m'.units
      rw [isFinite_ofUnits s Nat.one_pos, Nat.mul_one]
      exact Nat.lt_of_le_of_lt hle hlt

end

/-! ## Bounds of sums, products and quotients -/

theorem natAbs_signedUnits (d : Double) : d.signedUnits.natAbs = d.units := by
  cases d with
  | nan => rfl
  | infinite s => rfl
  | finite s m => cases s <;> simp [signedUnits, units]

section

variable {x y : Double} {i j k : Nat}

theorem Within.add (hx : x.Within k) (hy : y.Within k) (hk : k ≤ 2096) : (x.add y).Within (k + 1) := by
  obtain ⟨s, m, rfl⟩ := exists_of_isFinite hx.isFinite
  obtain ⟨s', m', rfl⟩ := exists_of_isFinite hy.isFinite
  have hleft := natAbs_signedUnits (finite s m) ▸ hx.units_le
  have hright := natAbs_signedUnits (finite s' m') ▸ hy.units_le
  simp only [Double.add]
  split
  · exact ⟨rfl, Nat.zero_le _⟩
  · refine within_ofUnits _ Nat.one_pos (by omega) ?_
    rw [Nat.pow_succ]
    omega

theorem Within.mul (hx : x.Within i) (hy : y.Within j) (hij : i + j ≤ k + 1074) (hk : k ≤ 2097) :
    (x.mul y).Within k := by
  obtain ⟨s, m, rfl⟩ := exists_of_isFinite hx.isFinite
  obtain ⟨s', m', rfl⟩ := exists_of_isFinite hy.isFinite
  simp only [Double.mul]
  refine within_ofUnits _ one_pos hk ?_
  rw [two_pow_mul_one]
  calc m.units * m'.units ≤ 2 ^ i * 2 ^ j := Nat.mul_le_mul hx.units_le hy.units_le
    _ = 2 ^ (i + j) := (Nat.pow_add ..).symm
    _ ≤ 2 ^ (k + 1074) := Nat.pow_le_pow_right (by decide) hij

theorem Within.div (hx : x.Within i) (hy : y.isFinite = true) (hle : 2 ^ j ≤ y.units) (hij : i + 1074 ≤ k + j)
    (hk : k ≤ 2097) : (x.div y).Within k := by
  obtain ⟨s, m, rfl⟩ := exists_of_isFinite hx.isFinite
  obtain ⟨s', m', rfl⟩ := exists_of_isFinite hy
  have hpos : 0 < m'.units := Nat.lt_of_lt_of_le (Nat.two_pow_pos j) hle
  simp only [Double.div]
  rw [if_neg (Nat.ne_of_gt hpos)]
  refine within_ofUnits _ hpos hk ?_
  calc m.units * one ≤ 2 ^ i * one := Nat.mul_le_mul_right one hx.units_le
    _ = 2 ^ (i + 1074) := two_pow_mul_one i
    _ ≤ 2 ^ (k + j) := Nat.pow_le_pow_right (by decide) hij
    _ = 2 ^ k * 2 ^ j := Nat.pow_add ..
    _ ≤ 2 ^ k * m'.units := Nat.mul_le_mul_left _ hle

theorem two_pow_le_units_add (hx : x.isFinite = true) (hy : y.isFinite = true) (hle : 2 ^ k + x.units ≤ y.units)
    (hfinite : (x.add y).isFinite = true) : 2 ^ k ≤ (x.add y).units := by
  obtain ⟨s, m, rfl⟩ := exists_of_isFinite hx
  obtain ⟨s', m', rfl⟩ := exists_of_isFinite hy
  have hpos := Nat.two_pow_pos k
  have hleft := natAbs_signedUnits (finite s m)
  have hright := natAbs_signedUnits (finite s' m')
  simp only [Double.add] at hfinite ⊢
  split
  · omega
  · rename_i hsum
    rw [if_neg hsum] at hfinite
    refine two_pow_le_units Nat.one_pos ?_ hfinite
    omega

theorem two_pow_le_units_mul (hx : x.isFinite = true) (hy : y.isFinite = true) (hi : 2 ^ i ≤ x.units)
    (hj : 2 ^ j ≤ y.units) (hij : k + 1074 ≤ i + j) (hfinite : (x.mul y).isFinite = true) :
    2 ^ k ≤ (x.mul y).units := by
  obtain ⟨s, m, rfl⟩ := exists_of_isFinite hx
  obtain ⟨s', m', rfl⟩ := exists_of_isFinite hy
  simp only [Double.mul] at hfinite ⊢
  refine two_pow_le_units one_pos ?_ hfinite
  calc 2 ^ k * one = 2 ^ (k + 1074) := two_pow_mul_one k
    _ ≤ 2 ^ (i + j) := Nat.pow_le_pow_right (by decide) hij
    _ = 2 ^ i * 2 ^ j := Nat.pow_add ..
    _ ≤ m.units * m'.units := Nat.mul_le_mul hi hj

/-- A finite double becomes infinite in the 32-bit format from that format's overflow bound on. -/
theorem isFinite_toSingle (hx : x.isFinite = true) :
    x.toSingle.isFinite = true ↔ x.units < Format.binary32.overflow := by
  obtain ⟨s, m, rfl⟩ := exists_of_isFinite hx
  have htop := Format.top_le_round_iff (f := Format.binary32) (p := m.units) (by decide) (by decide) Nat.one_pos
  rw [Nat.mul_one] at htop
  rw [units, ← Nat.not_le, ← htop]
  simp only [toSingle]
  split
  · rename_i hlt
    have hle : Format.binary32.round m.units 1 ≤ 2 ^ Format.binary32.top * 1 := by
      rw [Nat.mul_one]
      exact Nat.le_of_lt hlt
    have hfinite := (within_ofUnits s Nat.one_pos (by decide) hle).isFinite
    simp [hfinite, Nat.not_le_of_lt hlt]
  · simp_all [isFinite]

end

/-! ## Integers -/

theorem isFinite_ofInt {n : Int} : (ofInt n).isFinite = true ↔ n.natAbs * one < overflow := by
  rw [ofInt, ofRatio, isFinite_ofUnits _ Nat.one_pos, Nat.mul_one]

/-- An integer that is beyond a finite double by two at most is finite as a double. -/
theorem isFinite_ofInt_of_natAbs_le {x : Double} {n : Int} (hx : x.isFinite = true)
    (h : n.natAbs ≤ x.units / one + 2) : (ofInt n).isFinite = true := by
  obtain ⟨s, m, rfl⟩ := exists_of_isFinite hx
  rw [units] at h
  rw [isFinite_ofInt]
  have hunits := Nat.div_mul_le_self m.units one
  have hmul : n.natAbs * one ≤ (m.units / one + 2) * one := Nat.mul_le_mul_right one h
  have hlt := m.units_lt_overflow
  rw [Nat.add_mul] at hmul
  omega

theorem within_ofInt {n : Int} {b : Nat} (h : n.natAbs ≤ 2 ^ b) (hb : b ≤ 1023) : (ofInt n).Within (b + 1074) := by
  rw [ofInt, ofRatio]
  refine within_ofUnits _ Nat.one_pos (by omega) ?_
  rw [Nat.mul_one, ← two_pow_mul_one]
  exact Nat.mul_le_mul_right one h

theorem two_pow_le_units_ofInt {n : Int} {b : Nat} (h : 2 ^ b ≤ n.natAbs) (hfinite : (ofInt n).isFinite = true) :
    2 ^ (b + 1074) ≤ (ofInt n).units := by
  rw [ofInt, ofRatio] at hfinite ⊢
  refine two_pow_le_units Nat.one_pos ?_ hfinite
  rw [Nat.mul_one, ← two_pow_mul_one]
  exact Nat.mul_le_mul_right one h

/-- A positive integer becomes a positive double. -/
theorem exists_ofInt_eq {n : Int} (hn : 0 < n) (hfinite : (ofInt n).isFinite = true) :
    ∃ m : Magnitude, ofInt n = .finite false m ∧ 0 < m.units := by
  have hunits := two_pow_le_units_ofInt (b := 0) (by omega) hfinite
  have hsign : (ofInt n).isNegative = false := by
    rw [ofInt, ofRatio, isNegative_ofUnits]
    simpa using Int.le_of_lt hn
  obtain ⟨s, m, hm⟩ := exists_of_isFinite hfinite
  rw [hm] at hunits hsign
  cases hsign
  exact ⟨m, hm, Nat.lt_of_lt_of_le (Nat.two_pow_pos _) hunits⟩

section

variable {x : Double} {n : Int}

theorem natAbs_truncate_le (h : x.truncate? = some n) : n.natAbs ≤ x.units / one := by
  cases x with
  | nan => cases h
  | infinite s => cases h
  | finite s m =>
    have hn := Option.some.inj h
    rw [units]
    generalize m.units / one = k at hn ⊢
    cases s <;> simp at hn <;> omega

theorem natAbs_floor_le (h : x.floor? = some n) : n.natAbs ≤ x.units / one + 1 := by
  cases x with
  | nan => cases h
  | infinite s => cases h
  | finite s m =>
    have hle : m.units ≤ (m.units / one + 1) * one := Nat.le_of_lt (Nat.lt_mul_of_div_lt (Nat.lt_succ_self _) one_pos)
    rw [← Option.some.inj h]
    refine natAbs_ediv_le ?_
    rw [Int.natAbs_natCast]
    cases s <;> simpa [units] using hle

theorem natAbs_ceiling_le (h : x.ceiling? = some n) : n.natAbs ≤ x.units / one + 1 := by
  obtain ⟨k, hk, rfl⟩ := Option.map_eq_some_iff.mp h
  have hunits : x.neg.units = x.units := by cases x <;> rfl
  have hle := natAbs_floor_le hk
  rwa [hunits, ← Int.natAbs_neg] at hle

end

/-! ## Roots -/

theorem isFinite_cbrt {x : Double} (hx : x.isFinite = true) : x.cbrt.isFinite = true := by
  obtain ⟨s, m, rfl⟩ := exists_of_isFinite hx
  simp only [cbrt]
  split
  · rfl
  · have hlt := (finite s m).units_lt_overflow
    have hcube : m.units * one * one < 2 ^ (3 * 1416) := by
      have hone : m.units * one * one < overflow * one * one :=
        Nat.mul_lt_mul_of_pos_right (Nat.mul_lt_mul_of_pos_right hlt one_pos) one_pos
      exact Nat.lt_trans hone (by decide +kernel)
    have hroot := cubeRoot_le hcube
    refine (within_ofUnits s (b := 1418) (by omega) (by omega) ?_).isFinite
    have hpow : 2 ^ 1418 = 4 * 2 ^ 1416 := by decide +kernel
    rw [hpow]
    split <;> omega

section

variable {xs : List Double}

theorem any_isInfinite_eq_false (h : ∀ x ∈ xs, x.isFinite = true) : xs.any isInfinite = false := by
  rw [List.any_eq_false]
  intro x hx
  simp [isInfinite_of_isFinite (h x hx)]

theorem any_isNaN_eq_false (h : ∀ x ∈ xs, x.isFinite = true) : xs.any isNaN = false := by
  rw [List.any_eq_false]
  intro x hx
  simp [isNaN_of_isFinite (h x hx)]

theorem isNaN_hypot (h : ∀ x ∈ xs, x.isFinite = true) : (hypot xs).isNaN = false := by
  simp [hypot, any_isInfinite_eq_false h, any_isNaN_eq_false h]

/-- **Overflow of a norm.** The square root of a sum of squares of finite doubles is infinite just if the sum is not
below the square of the overflow bound. -/
theorem isInfinite_hypot (h : ∀ x ∈ xs, x.isFinite = true) :
    (hypot xs).isInfinite = true ↔ overflow * overflow ≤ (xs.map fun x => x.units * x.units).sum := by
  have hsum : xs.foldr (fun d n => d.units * d.units + n) 0 = (xs.map fun x => x.units * x.units).sum := by
    rw [List.sum_eq_foldr, List.foldr_map]
  simp only [hypot, any_isInfinite_eq_false h, any_isNaN_eq_false h, hsum, squareRoot_eq]
  generalize (xs.map fun x => x.units * x.units).sum = total
  have hroot : overflow * 2 ^ 64 ≤ Nat.sqrt (total * 2 ^ 128) ↔ overflow * overflow ≤ total := by
    have hsquare : overflow * 2 ^ 64 * (overflow * 2 ^ 64) = overflow * overflow * 2 ^ 128 := by
      rw [Nat.mul_mul_mul_comm, ← Nat.pow_add]
    rw [Nat.le_sqrt, hsquare, Nat.mul_le_mul_right_iff (Nat.two_pow_pos 128)]
  -- the last bit says whether the root is exact, and is below the bit that counts here
  have hlast : ∀ bound root bit : Nat, bit ≤ 1 → (bound * 2 ^ 65 ≤ 2 * root + bit ↔ bound * 2 ^ 64 ≤ root) := by
    omega
  rw [← hroot, if_neg Bool.false_ne_true, if_neg Bool.false_ne_true, isInfinite_ofUnits _ (Nat.two_pow_pos 65)]
  generalize overflow = bound
  refine hlast _ _ _ ?_
  split
  · exact Nat.zero_le 1
  · exact Nat.le_refl 1

end

end Double

end DotGrid
