import DotGrid.Approximant.Circular
import DotGrid.Proofs.Double.Arithmetic

/-!
# Bounds of approximants

How large the number is that an approximant stands for (`Within`), and how far from zero it is (`Beyond`). The terms of
each series go down by half at least, so that a sum is within twice its first term, and a sum of terms of one sign is
not below that term. From this come the bounds of the constants, the arc tangent and the logarithm; a logarithm is away
from zero as far as its argument is away from one.
-/

namespace DotGrid.Approximant

/-- The approximated number is at most `2^b` in size. -/
def Within (b : Nat) (a : Approximant) : Prop := ∀ p, (a p).natAbs ≤ 2 ^ (p + b)

/-- The approximated number is at least `2^-c` in size. -/
def Beyond (c : Nat) (a : Approximant) : Prop := ∀ p, 2 ^ p ≤ (a (p + c)).natAbs

theorem Within.neg {b : Nat} {a : Approximant} (h : Within b a) : Within b a.neg :=
  fun p => Int.natAbs_neg (a p) ▸ h p

theorem Beyond.neg {c : Nat} {a : Approximant} (h : Beyond c a) : Beyond c a.neg :=
  fun p => Int.natAbs_neg (a (p + c)) ▸ h p

/-! ## Dropped bits -/

section

variable {n m : Int} {k : Nat}

theorem dropBits_le (h : n ≤ m * 2 ^ k) : dropBits n k ≤ m := by
  unfold dropBits
  split
  · subst k
    simpa using h
  · have hk : (2 : Int) ^ k = 2 ^ (k - 1) * 2 := by rw [← Int.pow_succ]; congr 1; omega
    have hpos : (0 : Int) < 2 ^ (k - 1) := Int.pow_pos (by decide)
    refine Int.lt_add_one_iff.mp (Int.ediv_lt_of_lt_mul (by omega) ?_)
    rw [Int.add_mul]
    omega

theorem le_dropBits (h : m * 2 ^ k ≤ n) : m ≤ dropBits n k := by
  unfold dropBits
  split
  · subst k
    simpa using h
  · have hpos : (0 : Int) < 2 ^ (k - 1) := Int.pow_pos (by decide)
    refine Int.le_ediv_of_mul_le (Int.pow_pos (by decide)) ?_
    omega

theorem natAbs_dropBits_le {m : Nat} (h : n.natAbs ≤ m * 2 ^ k) : (dropBits n k).natAbs ≤ m := by
  have hcast : (n.natAbs : Int) ≤ m * 2 ^ k := by exact_mod_cast h
  have hle : dropBits n k ≤ m := dropBits_le (by omega)
  have hge : -(m : Int) ≤ dropBits n k := le_dropBits (by rw [Int.neg_mul]; omega)
  omega

/-! The bound of a guarded computation is that of the places asked for. -/

variable {f : Nat → Int} {p : Nat}

theorem guarded_le (h : f (p + guardBits) ≤ m * 2 ^ guardBits) : guarded f p ≤ m :=
  dropBits_le h

theorem natAbs_guarded_le {m : Nat} (h : (f (p + guardBits)).natAbs ≤ m * 2 ^ guardBits) :
    (guarded f p).natAbs ≤ m :=
  natAbs_dropBits_le h

theorem le_guarded (h : m * 2 ^ guardBits ≤ f (p + guardBits)) : m ≤ guarded f p :=
  le_dropBits h

end

/-! ## Series -/

/-- The terms after the first one of a series of reciprocal powers do not add up to more than that. -/
theorem natAbs_oddSeries_sub_le {n : Nat} (hn : 2 ≤ n) (alternating : Bool) (fuel t k : Nat) (minus : Bool)
    (sum : Int) : (oddSeries alternating n fuel t k minus sum - sum).natAbs ≤ 2 * t := by
  induction fuel generalizing t k minus sum with
  | zero => simp [oddSeries]
  | succ fuel ih =>
    simp only [oddSeries]
    split
    · simp
    · have hsquare : 4 ≤ n * n := Nat.mul_le_mul hn hn
      have hnext : 4 * (t / (n * n)) ≤ t :=
        Nat.le_trans (Nat.mul_le_mul_right _ hsquare) (Nat.mul_div_le t (n * n))
      have hterm : t / k ≤ t := Nat.div_le_self t k
      have hrest := ih (t / (n * n)) (k + 2) (alternating && !minus)
        (if minus then sum - (t / k : Nat) else sum + (t / k : Nat))
      generalize oddSeries alternating n fuel _ _ _ _ = rest at hrest ⊢
      generalize t / k = term at hterm hrest
      split at hrest <;> omega

/-- The terms of a series without alternating signs add up. -/
theorem le_oddSeries (n fuel t k : Nat) (sum : Int) : sum ≤ oddSeries false n fuel t k false sum := by
  induction fuel generalizing t k sum with
  | zero => exact Int.le_refl sum
  | succ fuel ih =>
    simp only [oddSeries]
    split
    · exact Int.le_refl sum
    · have hrest := ih (t / (n * n)) (k + 2) (sum + (t / k : Nat))
      simp only [Bool.false_and, Bool.false_eq_true, if_false] at hrest ⊢
      exact Int.le_trans (Int.le_add_of_nonneg_right (Int.natCast_nonneg _)) hrest

theorem two_mul_mul_ediv_le {w : Nat} {t square : Int} (ht : 0 ≤ t) (h : 2 * square ≤ 2 ^ w) :
    2 * (t * square / 2 ^ w) ≤ t := by
  have hpos : (0 : Int) < 2 ^ w := Int.pow_pos (by decide)
  refine Int.le_of_mul_le_mul_right ?_ hpos
  calc 2 * (t * square / 2 ^ w) * 2 ^ w = 2 * (t * square / 2 ^ w * 2 ^ w) := Int.mul_assoc ..
    _ ≤ 2 * (t * square) := Int.mul_le_mul_of_nonneg_left (Int.ediv_mul_le _ (Int.ne_of_gt hpos)) (by decide)
    _ = t * (2 * square) := Int.mul_left_comm ..
    _ ≤ t * 2 ^ w := Int.mul_le_mul_of_nonneg_left h ht

theorem logSmall_sum_bounds {w : Nat} {square : Int} (hnonneg : 0 ≤ square) (hsquare : 2 * square ≤ 2 ^ w)
    (fuel : Nat) {t : Int} (ht : 0 ≤ t) (k : Nat) (s : Int) :
    s ≤ logSmall.sum w square fuel t k s ∧ logSmall.sum w square fuel t k s ≤ s + 2 * t := by
  induction fuel generalizing t k s with
  | zero =>
    simp only [logSmall.sum]
    omega
  | succ fuel ih =>
    simp only [logSmall.sum]
    split
    · omega
    · have hpos : (0 : Int) ≤ 2 ^ w := Int.le_of_lt (Int.pow_pos (by decide))
      have hnext : 0 ≤ t * square / 2 ^ w := Int.ediv_nonneg (Int.mul_nonneg ht hnonneg) hpos
      have hhalf : 2 * (t * square / 2 ^ w) ≤ t := two_mul_mul_ediv_le ht hsquare
      have hterm : 0 ≤ t / k := Int.ediv_nonneg ht (Int.natCast_nonneg k)
      have hself : t / k ≤ t := Int.ediv_le_self _ ht
      obtain ⟨hlow, hhigh⟩ := ih hnext (k + 2) (s + t / k)
      omega

theorem natAbs_arctanSmall_sum_sub_le {w : Nat} {square : Int} (hnonneg : 0 ≤ square) (hsquare : 2 * square ≤ 2 ^ w)
    (fuel : Nat) (u : Int) (k : Nat) (s : Int) :
    (arctanSmall.sum w square fuel u k s - s).natAbs ≤ 2 * u.natAbs := by
  induction fuel generalizing u k s with
  | zero => simp [arctanSmall.sum]
  | succ fuel ih =>
    simp only [arctanSmall.sum]
    split
    · simp
    · have hhalf : 2 * (u.natAbs * square / 2 ^ w) ≤ (u.natAbs : Int) :=
        two_mul_mul_ediv_le (Int.natCast_nonneg _) hsquare
      have hnext : ((-Int.tdiv (u * square) (2 ^ w)).natAbs : Int) = u.natAbs * square / 2 ^ w := by
        have habs : (square.natAbs : Int) = square := Int.natAbs_of_nonneg hnonneg
        have hdiv : (Int.tdiv (u * square) (2 ^ w)).natAbs = u.natAbs * square.natAbs / 2 ^ w := by
          rw [Int.natAbs_tdiv, Int.natAbs_mul, Int.natAbs_pow]
          rfl
        rw [Int.natAbs_neg, hdiv, Int.natCast_ediv, Int.natCast_mul, habs, Int.natCast_pow]
        rfl
      have hterm : (Int.tdiv u k).natAbs ≤ u.natAbs := by
        rw [Int.natAbs_tdiv]
        exact Nat.div_le_self _ _
      have hrest := ih (-Int.tdiv (u * square) (2 ^ w)) (k + 2) (s + Int.tdiv u k)
      omega

/-! ## Constants -/

theorem natAbs_arctanReciprocal_le {n : Nat} (hn : 2 ≤ n) (w : Nat) :
    (arctanReciprocal n w).natAbs ≤ 2 * (2 ^ w / n) := by
  have hsum := natAbs_oddSeries_sub_le hn true w (2 ^ w / n) 1 false 0
  rwa [Int.sub_zero] at hsum

theorem artanhReciprocal_le {n : Nat} (hn : 2 ≤ n) (w : Nat) : artanhReciprocal n w ≤ 2 * (2 ^ w / n : Nat) := by
  have hsum := natAbs_oddSeries_sub_le hn false w (2 ^ w / n) 1 false 0
  rw [Int.sub_zero] at hsum
  rw [artanhReciprocal]
  omega

theorem le_artanhReciprocal (n w : Nat) : (2 ^ (w + 1) / n : Nat) ≤ artanhReciprocal n (w + 1) := by
  simp only [artanhReciprocal, oddSeries]
  split
  · omega
  · have hrest := le_oddSeries n w (2 ^ (w + 1) / n / (n * n)) (1 + 2) (0 + (2 ^ (w + 1) / n / 1 : Nat))
    rw [Nat.div_one] at hrest
    simpa using hrest

/-- The natural logarithm of two is above one half. -/
theorem le_ln2 (p : Nat) : (2 : Int) ^ p ≤ ln2 (p + 1) := by
  have h26 := le_artanhReciprocal 26 (p + guardBits)
  have h4801 := artanhReciprocal_le (n := 4801) (by decide) (p + guardBits + 1)
  have h8749 := le_artanhReciprocal 8749 (p + guardBits)
  rw [ln2]
  refine le_guarded ?_
  have hscale : (2 : Int) ^ p * 2 ^ guardBits * 2 = (2 ^ (p + guardBits + 1) : Nat) := by
    push_cast
    rw [← Int.pow_add, ← Int.pow_succ]
  have hlarge : 2 ^ 10 ≤ 2 ^ (p + guardBits + 1) := Nat.pow_le_pow_right (by decide) (by rw [guardBits]; omega)
  rw [Nat.add_right_comm p 1 guardBits]
  generalize 2 ^ (p + guardBits + 1) = X at *
  generalize (2 : Int) ^ p * 2 ^ guardBits = Y at *
  omega

theorem two_pow_le_ln2 {p w : Nat} (h : p < w) : ((2 ^ p : Nat) : Int) ≤ ln2 w := by
  obtain ⟨k, rfl⟩ := Nat.exists_eq_add_of_le' h
  refine Int.le_trans ?_ (le_ln2 (k + p))
  exact_mod_cast Nat.pow_le_pow_right (by decide) (Nat.le_add_left p k)

theorem ln2_beyond : Beyond 1 ln2 := by
  intro p
  have hle := two_pow_le_ln2 (Nat.lt_add_one p)
  omega

/-- The natural logarithm of two is below two. -/
theorem ln2_le (p : Nat) : ln2 p ≤ 2 ^ (p + 1) := by
  have h26 := artanhReciprocal_le (n := 26) (by decide) (p + guardBits)
  have h8749 := artanhReciprocal_le (n := 8749) (by decide) (p + guardBits)
  have h4801 : 0 ≤ artanhReciprocal 4801 (p + guardBits) := le_oddSeries 4801 _ _ 1 0
  rw [ln2]
  refine guarded_le ?_
  have hscale : (2 : Int) ^ (p + 1) * 2 ^ guardBits = 2 * (2 ^ (p + guardBits) : Nat) := by
    push_cast
    rw [Int.pow_succ, Int.pow_add, Int.mul_comm _ 2, Int.mul_assoc]
  generalize 2 ^ (p + guardBits) = X at *
  generalize (2 : Int) ^ (p + 1) * 2 ^ guardBits = Y at *
  omega

/-- The ratio of the circumference to the diameter is below eight. -/
theorem pi_within : Within 3 pi := by
  intro p
  have h5 := natAbs_arctanReciprocal_le (n := 5) (by decide) (p + guardBits)
  have h239 := natAbs_arctanReciprocal_le (n := 239) (by decide) (p + guardBits)
  rw [pi]
  refine natAbs_guarded_le ?_
  have hscale : 2 ^ (p + 3) * 2 ^ guardBits = 8 * 2 ^ (p + guardBits) := by
    rw [Nat.pow_add 2 p 3, Nat.pow_add, Nat.mul_comm _ (2 ^ 3), Nat.mul_assoc]
  generalize 2 ^ (p + guardBits) = X at *
  generalize 2 ^ (p + 3) * 2 ^ guardBits = Y at *
  omega

theorem halfPi_within : Within 3 halfPi := by
  intro p
  rw [halfPi, shift]
  split
  · exact Nat.le_trans (pi_within _) (Nat.pow_le_pow_right (by decide) (by omega))
  · refine natAbs_dropBits_le (Nat.le_trans (pi_within 0) ?_)
    rw [← Nat.pow_add]
    exact Nat.pow_le_pow_right (by decide) (by omega)

/-! ## Arc tangents -/

/-- The tangent of half of an angle is at most half of the angle's tangent. -/
theorem halfAngle_le (w t : Nat) : 2 * halfAngle w t ≤ t := by
  have hroot : 2 ^ w ≤ squareRoot (4 ^ w + t * t) := by
    rw [squareRoot_eq, Nat.le_sqrt, ← Nat.mul_pow]
    exact Nat.le_add_right _ _
  have hpos : 0 < 2 ^ w := Nat.two_pow_pos w
  have hdiv : halfAngle w t ≤ t * 2 ^ w / (2 * 2 ^ w) := Nat.div_le_div_left (by omega) (by omega)
  rw [Nat.mul_div_mul_right t 2 hpos] at hdiv
  omega

theorem natAbs_arctanSmall_le {w t : Nat} (ht : t ≤ 2 ^ w) : (arctanSmall w t).natAbs ≤ 2 ^ (w + 1) := by
  have hfirst := halfAngle_le w t
  have hsecond := halfAngle_le w (halfAngle w t)
  have hthird := halfAngle_le w (halfAngle w (halfAngle w t))
  simp only [arctanSmall]
  generalize halfAngle w (halfAngle w (halfAngle w t)) = z at *
  have hz : 8 * (z : Int) ≤ 2 ^ w := by
    have hcast : (t : Int) ≤ 2 ^ w := by exact_mod_cast ht
    omega
  have hpos : (0 : Int) ≤ 2 ^ w := Int.le_of_lt (Int.pow_pos (by decide))
  have hnonneg : 0 ≤ (z : Int) * z / 2 ^ w := Int.ediv_nonneg (Int.mul_nonneg (by omega) (by omega)) hpos
  have hsquare : 2 * ((z : Int) * z / 2 ^ w) ≤ z := two_mul_mul_ediv_le (by omega) (by omega)
  have hsum := natAbs_arctanSmall_sum_sub_le (w := w) hnonneg (by omega) w z 1 0
  rw [Nat.pow_succ]
  omega

/-- The arc tangent of a ratio is below sixteen in size. -/
theorem arctan_within (n d : Nat) : Within 4 (arctan n d) := by
  intro p
  have hratio : ∀ {n d : Nat} (w : Nat), n ≤ d → n * 2 ^ w / d ≤ 2 ^ w := by
    intro n d w h
    exact Nat.div_le_of_le_mul (Nat.mul_le_mul_right _ h)
  rw [arctan]
  refine natAbs_guarded_le ?_
  rw [← Nat.pow_add, Nat.add_right_comm]
  generalize p + guardBits = w
  have hpow : 2 ^ (w + 3) = 8 * 2 ^ w ∧ 2 ^ (w + 4) = 16 * 2 ^ w := by
    simp only [Nat.pow_succ]
    omega
  split
  · rename_i h
    have hsmall := natAbs_arctanSmall_le (hratio w h)
    omega
  · have hsmall := natAbs_arctanSmall_le (hratio w (Nat.le_of_not_le ‹¬ n ≤ d›))
    have hright := halfPi_within w
    omega

/-! ## Logarithms -/

section

variable {w : Nat} {m : Int}

/-- The difference to one over the sum with one is at most a half, and at least a third of the difference. -/
theorem ratio_bounds (hlow : 2 ^ w ≤ m) (hhigh : m ≤ 2 * 2 ^ w) :
    0 ≤ (m - 2 ^ w) * 2 ^ w / (m + 2 ^ w) ∧ 2 * ((m - 2 ^ w) * 2 ^ w / (m + 2 ^ w)) ≤ 2 ^ w ∧
      (m - 2 ^ w) / 3 ≤ (m - 2 ^ w) * 2 ^ w / (m + 2 ^ w) := by
  have hX : (0 : Int) < 2 ^ w := Int.pow_pos (by decide)
  generalize (2 : Int) ^ w = X at *
  have hsum : 0 < m + X := by omega
  refine ⟨Int.ediv_nonneg (Int.mul_nonneg (by omega) (by omega)) (by omega), ?_, ?_⟩
  · refine Int.le_of_mul_le_mul_right ?_ hsum
    calc 2 * ((m - X) * X / (m + X)) * (m + X) = 2 * ((m - X) * X / (m + X) * (m + X)) := Int.mul_assoc ..
      _ ≤ 2 * ((m - X) * X) := Int.mul_le_mul_of_nonneg_left (Int.ediv_mul_le _ (Int.ne_of_gt hsum)) (by decide)
      _ = X * (2 * (m - X)) := by rw [← Int.mul_assoc, Int.mul_comm]
      _ ≤ X * (m + X) := Int.mul_le_mul_of_nonneg_left (by omega) (by omega)
  · refine Int.le_ediv_of_mul_le hsum ?_
    calc (m - X) / 3 * (m + X) ≤ (m - X) / 3 * (3 * X) := Int.mul_le_mul_of_nonneg_left (by omega) (by omega)
      _ = (m - X) / 3 * 3 * X := (Int.mul_assoc ..).symm
      _ ≤ (m - X) * X := Int.mul_le_mul_of_nonneg_right (Int.ediv_mul_le _ (by decide)) (by omega)

theorem logSmall_bounds (hlow : 2 ^ w ≤ m) (hhigh : m ≤ 2 * 2 ^ w) :
    0 ≤ logSmall w m ∧ logSmall w m ≤ 2 * 2 ^ w := by
  obtain ⟨hnonneg, hhalf, -⟩ := ratio_bounds hlow hhigh
  have hpos : (0 : Int) ≤ 2 ^ w := Int.le_of_lt (Int.pow_pos (by decide))
  simp only [logSmall]
  generalize (m - 2 ^ w) * 2 ^ w / (m + 2 ^ w) = z at *
  have hsquare : 2 * (z * z / 2 ^ w) ≤ z := two_mul_mul_ediv_le hnonneg hhalf
  have hsquare0 : 0 ≤ z * z / 2 ^ w := Int.ediv_nonneg (Int.mul_nonneg hnonneg hnonneg) hpos
  obtain ⟨hsumlow, hsumhigh⟩ := logSmall_sum_bounds (w := w) hsquare0 (by omega) w hnonneg 1 0
  omega

/-- The logarithm of a number from one to two is at least half of the number's distance from one. -/
theorem le_logSmall (hlow : 2 ^ (w + 1) ≤ m) (hhigh : m ≤ 2 * 2 ^ (w + 1)) :
    m - 2 ^ (w + 1) ≤ 2 * logSmall (w + 1) m + 9 := by
  obtain ⟨hnonneg, hhalf, hthird⟩ := ratio_bounds hlow hhigh
  have hpos : (0 : Int) ≤ 2 ^ (w + 1) := Int.le_of_lt (Int.pow_pos (by decide))
  simp only [logSmall]
  generalize (m - 2 ^ (w + 1)) * 2 ^ (w + 1) / (m + 2 ^ (w + 1)) = z at *
  have hsquare : 2 * (z * z / 2 ^ (w + 1)) ≤ z := two_mul_mul_ediv_le hnonneg hhalf
  have hsquare0 : 0 ≤ z * z / 2 ^ (w + 1) := Int.ediv_nonneg (Int.mul_nonneg hnonneg hnonneg) hpos
  simp only [logSmall.sum]
  split
  · omega
  · have hnext : 0 ≤ z * (z * z / 2 ^ (w + 1)) / 2 ^ (w + 1) :=
      Int.ediv_nonneg (Int.mul_nonneg hnonneg hsquare0) hpos
    have hrest := (logSmall_sum_bounds (w := w + 1) hsquare0 (by omega) w hnext (1 + 2) (0 + z / (1 : Nat))).1
    rw [Int.natCast_one, Int.ediv_one] at hrest
    simp only [Int.natCast_one, Int.ediv_one]
    omega

end

section

variable {n d : Nat}

/-- The ratio without its power of two is between one and two. -/
theorem reduced_bounds (hd : 0 < d) (h : d ≤ n) (w : Nat) :
    2 ^ w ≤ ((n * 2 ^ w / (d * 2 ^ (n / d).log2) : Nat) : Int) ∧
      ((n * 2 ^ w / (d * 2 ^ (n / d).log2) : Nat) : Int) ≤ 2 * 2 ^ w := by
  have hquotient : n / d ≠ 0 := Nat.pos_iff_ne_zero.mp (Nat.div_pos h hd)
  have hbelow : 2 ^ (n / d).log2 * d ≤ n := (Nat.le_div_iff_mul_le hd).mp (Nat.log2_self_le hquotient)
  have habove : n < 2 ^ ((n / d).log2 + 1) * d := (Nat.div_lt_iff_lt_mul hd).mp Nat.lt_log2_self
  have hpos : 0 < 2 ^ (n / d).log2 := Nat.two_pow_pos _
  rw [Nat.pow_succ] at habove
  generalize 2 ^ (n / d).log2 = K at *
  have hlow : 2 ^ w ≤ n * 2 ^ w / (d * K) := by
    rw [Nat.le_div_iff_mul_le (Nat.mul_pos hd hpos), Nat.mul_comm]
    exact Nat.mul_le_mul_right _ (by rwa [Nat.mul_comm])
  have hhigh : n * 2 ^ w / (d * K) ≤ 2 * 2 ^ w := by
    refine Nat.div_le_of_le_mul ?_
    calc n * 2 ^ w ≤ K * 2 * d * 2 ^ w := Nat.mul_le_mul_right _ (Nat.le_of_lt habove)
      _ = d * K * (2 * 2 ^ w) := by rw [← Nat.mul_assoc, Nat.mul_right_comm K, Nat.mul_comm K]
  exact ⟨by exact_mod_cast hlow, by exact_mod_cast hhigh⟩

/-- The logarithm of a ratio that is at least one is at most twice the number of its binary places. -/
theorem logAboveOne_bounds (hd : 0 < d) (h : d ≤ n) (p : Nat) :
    0 ≤ logAboveOne n d p ∧ logAboveOne n d p ≤ ((n / d).log2 + 1) * 2 ^ (p + 1) := by
  obtain ⟨hlow, hhigh⟩ := reduced_bounds hd h (p + guardBits)
  obtain ⟨hsmall0, hsmall⟩ := logSmall_bounds hlow hhigh
  have hln2 : 0 ≤ ln2 (p + guardBits) :=
    Int.le_trans (Int.natCast_nonneg _) (two_pow_le_ln2 (Nat.lt_add_of_pos_right (by decide)))
  have hln2' := ln2_le (p + guardBits)
  rw [logAboveOne]
  generalize (n / d).log2 = k at *
  have hprod0 : 0 ≤ (k : Int) * ln2 (p + guardBits) := Int.mul_nonneg (Int.natCast_nonneg k) hln2
  have hprod : (k : Int) * ln2 (p + guardBits) ≤ k * 2 ^ (p + guardBits + 1) :=
    Int.mul_le_mul_of_nonneg_left hln2' (Int.natCast_nonneg k)
  constructor
  · refine le_guarded ?_
    dsimp only
    omega
  · refine guarded_le ?_
    dsimp only
    rw [Int.mul_assoc, ← Int.pow_add, Nat.add_right_comm, Int.add_mul, Int.one_mul]
    omega

theorem le_ratio {c : Nat} (hd : 0 < d) (h : d * (2 ^ c + 1) ≤ n * 2 ^ c) (w : Nat) :
    2 ^ (w + c) + 2 ^ w ≤ n * 2 ^ (w + c) / d := by
  rw [Nat.le_div_iff_mul_le hd]
  calc (2 ^ (w + c) + 2 ^ w) * d = d * (2 ^ c + 1) * 2 ^ w := by
        rw [Nat.pow_add, Nat.mul_comm (2 ^ w), ← Nat.succ_mul, Nat.mul_comm _ d, Nat.mul_assoc]
    _ ≤ n * 2 ^ c * 2 ^ w := Nat.mul_le_mul_right _ h
    _ = n * 2 ^ (w + c) := by rw [Nat.mul_assoc, ← Nat.pow_add, Nat.add_comm c]

/-- Between one and two the series decides how far the logarithm of a ratio is from zero. -/
theorem le_logSmall_ratio {c : Nat} (hd : 0 < d) (h : d * (2 ^ c + 1) ≤ n * 2 ^ c) (hle : d ≤ n)
    (hlog : (n / d).log2 = 0) (q : Nat) (hq : 2 ≤ q) :
    (2 ^ q : Nat) ≤ logSmall (q + 2 + c) (n * 2 ^ (q + 2 + c) / d : Nat) := by
  obtain ⟨w, hw⟩ : ∃ w, q + 2 + c = w + 1 := ⟨q + 1 + c, by omega⟩
  have hratio := le_ratio hd h (q + 2)
  obtain ⟨hlow, hhigh⟩ := reduced_bounds hd hle (w + 1)
  have hlarge : 2 ^ 2 ≤ 2 ^ q := Nat.pow_le_pow_right (by decide) hq
  have hcast : (2 : Int) ^ (w + 1) = (2 ^ (w + 1) : Nat) := (Int.natCast_pow 2 _).symm
  rw [hlog, Nat.pow_zero, Nat.mul_one] at hlow hhigh
  rw [Nat.pow_add 2 q 2, hw] at hratio
  rw [hw]
  generalize n * 2 ^ (w + 1) / d = m at *
  have hsmall := le_logSmall hlow hhigh
  rw [hcast] at hsmall
  omega

/-- The logarithm of a ratio that is not near one is not near zero. -/
theorem logAboveOne_beyond {c : Nat} (hd : 0 < d) (h : d * (2 ^ c + 1) ≤ n * 2 ^ c) :
    Beyond (c + 2) (logAboveOne n d) := by
  intro p
  have hle : d ≤ n := by
    refine Nat.le_of_mul_le_mul_right ?_ (Nat.two_pow_pos c)
    exact Nat.le_trans (Nat.mul_le_mul_left d (Nat.le_succ _)) h
  have hwidth : p + (c + 2) + guardBits = p + 40 + 2 + c := by
    rw [guardBits]
    omega
  have hscale : (2 : Int) ^ p * 2 ^ guardBits = (2 ^ (p + 40) : Nat) := by
    rw [Int.natCast_pow, ← Int.pow_add]
    rfl
  suffices hle : (2 : Int) ^ p ≤ logAboveOne n d (p + (c + 2)) by
    have hcast : ((2 ^ p : Nat) : Int) ≤ logAboveOne n d (p + (c + 2)) := by exact_mod_cast hle
    omega
  rw [logAboveOne]
  refine le_guarded ?_
  rw [hwidth, hscale]
  dsimp only
  by_cases hlog : (n / d).log2 = 0
  · have hsmall := le_logSmall_ratio hd h hle hlog (p + 40) (by omega)
    rw [hlog, Nat.pow_zero, Nat.mul_one]
    omega
  · -- from two on the power of two decides
    obtain ⟨hlow, hhigh⟩ := reduced_bounds hd hle (p + 40 + 2 + c)
    have hsmall := (logSmall_bounds hlow hhigh).1
    have hln2 : ((2 ^ (p + 40) : Nat) : Int) ≤ ln2 (p + 40 + 2 + c) := two_pow_le_ln2 (by omega)
    have hfactor : (1 : Int) * ln2 (p + 40 + 2 + c) ≤ (n / d).log2 * ln2 (p + 40 + 2 + c) :=
      Int.mul_le_mul_of_nonneg_right (by omega) (Int.le_trans (Int.natCast_nonneg _) hln2)
    omega

theorem logAboveOne_within {b : Nat} (hd : 0 < d) (h : d ≤ n) (hlog : (n / d).log2 < 2 ^ b) :
    Within (b + 1) (logAboveOne n d) := by
  intro p
  obtain ⟨hlow, hhigh⟩ := logAboveOne_bounds hd h p
  have hsplit : 2 ^ (p + (b + 1)) = 2 ^ b * 2 ^ (p + 1) := by
    rw [← Nat.pow_add]
    congr 1
    omega
  have hle : ((n / d).log2 + 1 : Int) * 2 ^ (p + 1) ≤ (2 ^ (p + (b + 1)) : Nat) := by
    rw [hsplit]
    exact_mod_cast Nat.mul_le_mul_right _ hlog
  omega

/-- The logarithm of a ratio with fewer than `2^b` binary places before and after the point is below `2^(b+1)`. -/
theorem log_within {b : Nat} (hn : 0 < n) (hd : 0 < d) (hlarge : (n / d).log2 < 2 ^ b) (hsmall : (d / n).log2 < 2 ^ b) :
    Within (b + 1) (log n d) := by
  rw [log]
  split
  · exact logAboveOne_within hd ‹d ≤ n› hlarge
  · exact (logAboveOne_within hn (Nat.le_of_not_le ‹¬ d ≤ n›) hsmall).neg

theorem log_beyond {c : Nat} (hn : 0 < n) (hd : 0 < d)
    (h : d * (2 ^ c + 1) ≤ n * 2 ^ c ∨ n * (2 ^ c + 1) ≤ d * 2 ^ c) : Beyond (c + 2) (log n d) := by
  have hless : ∀ {m k : Nat}, 0 < m → m * (2 ^ c + 1) ≤ k * 2 ^ c → m < k := by
    intro m k hm hmk
    refine Nat.lt_of_mul_lt_mul_right (a := 2 ^ c) (Nat.lt_of_lt_of_le ?_ hmk)
    exact Nat.mul_lt_mul_of_pos_left (Nat.lt_succ_self _) hm
  rw [log]
  rcases h with h | h
  · rw [if_pos (Nat.le_of_lt (hless hd h))]
    exact logAboveOne_beyond hd h
  · rw [if_neg (Nat.not_le_of_lt (hless hn h))]
    exact (logAboveOne_beyond hn h).neg

end

/-! ## Combinations -/

section

variable {a b : Approximant} {i j : Nat}

theorem Within.mono (h : Within i a) (hij : i ≤ j) : Within j a :=
  fun p => Nat.le_trans (h p) (Nat.pow_le_pow_right (by decide) (by omega))

theorem Within.sub (ha : Within i a) (hb : Within i b) : Within (i + 1) (a.sub b) := by
  intro p
  have hpow : 2 ^ (p + (i + 1)) * 2 ^ 2 = 2 * 2 ^ (p + 2 + i) := by
    rw [← Nat.pow_add, ← Nat.pow_succ']
    congr 1
    omega
  have hleft := ha (p + 2)
  have hright := hb (p + 2)
  rw [Approximant.sub, Approximant.add]
  refine natAbs_dropBits_le ?_
  rw [hpow, Approximant.neg]
  omega

/-- The quotient by a number that is not near zero. -/
theorem Within.div (ha : Within i a) (hb : Beyond j b) (hj : j ≤ guardBits) : Within (i + j) (a.div b) := by
  intro p
  rw [Approximant.div]
  refine natAbs_dropBits_le (natAbs_ediv_le ?_)
  generalize (a 0).natAbs.log2 = size
  obtain ⟨w, hw⟩ : ∃ w, p + (guardBits + size) = w + j := ⟨p + (guardBits + size) - j, by omega⟩
  have hnum := ha (w + j)
  have hden := hb w
  have hwidth : p + (i + j) + (guardBits + size) = w + j + i + j := by omega
  rw [hw, Int.natAbs_mul, Int.natAbs_pow, ← Nat.pow_add, hwidth]
  calc (a (w + j)).natAbs * 2 ^ (w + j) ≤ 2 ^ (w + j + i) * 2 ^ (w + j) := Nat.mul_le_mul_right _ hnum
    _ = 2 ^ (w + j + i + j) * 2 ^ w := by
      rw [← Nat.pow_add, ← Nat.pow_add]
      congr 1
      omega
    _ ≤ 2 ^ (w + j + i + j) * (b (w + j)).natAbs := Nat.mul_le_mul_left _ hden

end

end DotGrid.Approximant
