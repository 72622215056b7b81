import DotGrid.Proofs.Double.Elementary
import DotGrid.Proofs.Value.Answers
import DotGrid.Value.Functions

/-!
# Answers of logarithms

The logarithm of a finite number is small, and the natural one is zero or away from zero. So a quotient of two natural
logarithms is finite although it is not checked (`logarithmOf_answers`). An integer beyond the doubles is split into a
fraction from one half to one and a power of two, whose exponent is below `2^63`, and its logarithm is put together from
those of the two parts.
-/

namespace DotGrid

section

variable {given : Prop} {x : Double}

/-! ## Functions of one double -/

/-- A new NaN and a new infinity are refused, so what is left of a finite double is finite. -/
theorem guarded_answers (overflows : Bool) (f : Double → Double) (hx : given → x.isFinite = true) :
    Answers (fun d => given → d = f x ∧ d.isFinite = true) (guarded overflows f x) := by
  unfold guarded
  refine .refused (by simp) fun hnan => .refused ?_ fun hinf => .ok fun hg => ⟨rfl, ?_⟩
  · cases overflows <;> simp
  · have hfinite := (Double.isFinite_iff x).mp (hx hg)
    rw [Double.isFinite_iff]
    exact ⟨by simpa [hfinite.1] using hnan, by simpa [hx hg] using hinf⟩

/-- A logarithm is answered for positive doubles only. -/
theorem guarded_logarithm_answers {g : Nat → Double} {P : Double → Prop}
    (h : ∀ m : Magnitude, 0 < m.units → P (Double.logarithm g (.finite false m))) (hx : given → x.isFinite = true) :
    Answers (fun d => given → P d) (guarded false (Double.logarithm g) x) := by
  refine (guarded_answers false _ hx).imp fun d hd hg => ?_
  obtain ⟨heq, hfinite⟩ := hd hg
  obtain ⟨s, m, rfl⟩ := Double.exists_of_isFinite (hx hg)
  rw [heq] at hfinite ⊢
  by_cases hzero : m.units = 0
  · simp [Double.logarithm, hzero, Double.isFinite] at hfinite
  · cases s with
    | false => exact h m (Nat.pos_of_ne_zero hzero)
    | true => simp [Double.logarithm, hzero, Double.isFinite] at hfinite

end

/-! ## Integers beyond the doubles -/

/-- A ratio from one half to one becomes a double in the same range. -/
theorem exists_ofRatio_eq {p q : Nat} (hp : 0 < p) (hlow : q ≤ 2 * p) (hhigh : p ≤ q) :
    ∃ m : Magnitude, Double.ofRatio false p q = .finite false m ∧ 0 < m.units ∧ 2 ^ 1073 ≤ m.units ∧
      m.units ≤ Double.one := by
  have hq : 0 < q := Nat.lt_of_lt_of_le hp hhigh
  have hone := Double.one_eq_mul (i := 1) (j := 1073) rfl
  have htop : p * Double.one ≤ 2 ^ 1074 * q := by
    rw [← Double.one_eq rfl, Nat.mul_comm]
    exact Nat.mul_le_mul_left _ hhigh
  have hhalf : 2 ^ 1073 * q ≤ p * Double.one := by
    generalize 2 ^ 1073 = half at hone ⊢
    rw [hone, pow_one, Nat.mul_left_comm p 2, ← Nat.mul_assoc 2 p, Nat.mul_comm (2 * p)]
    exact Nat.mul_le_mul_left _ hlow
  have hwithin := Double.within_ofUnits false hq (by decide) htop
  have hbelow := Double.two_pow_le_units hq hhalf hwithin.isFinite
  have hsign := Double.isNegative_ofUnits false (p * Double.one) q
  have habove := hwithin.units_le
  rw [← Double.one_eq rfl] at habove
  rw [Double.ofRatio]
  obtain ⟨s, m, hm⟩ := Double.exists_of_isFinite hwithin.isFinite
  rw [hm] at hsign hbelow habove ⊢
  cases hsign
  exact ⟨m, rfl, Nat.lt_of_lt_of_le (Nat.two_pow_pos _) hbelow, hbelow, habove⟩

/-- The fraction of a positive integer is a double from one half to one. -/
theorem fraction_spec {n : Nat} (hn : 0 < n) :
    n.log2 + 1 ≤ (fraction n).2 ∧ ∃ m : Magnitude, (fraction n).1 = .finite false m ∧ 0 < m.units ∧
      2 ^ 1073 ≤ m.units ∧ m.units ≤ Double.one := by
  have hlow : 2 ^ (n.log2 + 1) ≤ 2 * n := by
    have hself := Nat.log2_self_le (Nat.ne_of_gt hn)
    rw [Nat.pow_succ]
    omega
  have hhigh : n ≤ 2 ^ (n.log2 + 1) := Nat.le_of_lt Nat.lt_log2_self
  have hhalf := exists_ofRatio_eq (p := 1) (q := 2) (by decide) (by decide) (by decide)
  have hratio := exists_ofRatio_eq hn hlow hhigh
  simp only [fraction]
  split
  · dsimp only
    exact ⟨Nat.le_succ _, hhalf⟩
  · dsimp only
    exact ⟨Nat.le_refl _, hratio⟩

/-- An integer that is no finite double has at least 1024 bits. -/
theorem le_log2_of_not_isFinite {n : Int} (h : (Double.ofInt n).isFinite = false) : 1023 ≤ n.natAbs.log2 := by
  have hle : Double.overflow ≤ n.natAbs * Double.one := by
    rw [← Nat.not_lt, ← Double.isFinite_ofInt, h]
    exact Bool.false_ne_true
  have hbound := Double.two_pow_mul_one_le_overflow (Nat.le_refl 1023)
  have hlarge := Nat.le_of_mul_le_mul_right (Nat.le_trans hbound hle) Double.one_pos
  exact le_log2_of_two_pow_le hlarge

section

variable {f : Double → Double} {m : Magnitude} {bits : Nat}

theorem exists_two_eq : ∃ m : Magnitude, Double.ofInt 2 = .finite false m ∧ 0 < m.units :=
  Double.exists_ofInt_eq (by decide) (Double.within_ofInt (b := 1) (by decide) (by decide)).isFinite

theorem within_ofInt_bits (h : bits < widthBound) : (Double.ofInt bits).Within (63 + 1074) :=
  Double.within_ofInt (by rw [Int.natAbs_natCast]; exact Nat.le_of_lt h) (by decide)

/-- The logarithm that is put together from those of two parts is small. -/
theorem within_joined {b : Nat} (hf : ∀ m : Magnitude, 0 < m.units → (f (.finite false m)).Within (b + 1074))
    (hb : b ≤ 14) (hpos : 0 < m.units) (hbits : bits < widthBound) :
    ((f (.finite false m)).add ((f (.ofInt 2)).mul (.ofInt bits))).Within (78 + 1074) := by
  obtain ⟨two, htwo, htwopos⟩ := exists_two_eq
  have hproduct : ((f (.ofInt 2)).mul (.ofInt bits)).Within (77 + 1074) := by
    rw [htwo]
    exact (hf two htwopos).mul (within_ofInt_bits hbits) (by omega) (by decide)
  exact ((hf m hpos).mono (by omega)).add hproduct (by decide)

/-- The natural logarithm of two is at least one half. -/
theorem two_pow_le_units_log_two : 2 ^ 1073 ≤ (Double.log (.ofInt 2)).units := by decide +kernel

/-- The natural logarithm that is put together from those of two parts is away from zero. -/
theorem beyond_joined (hpos : 0 < m.units) (hlow : 2 ^ 1073 ≤ m.units) (hhigh : m.units ≤ Double.one)
    (hbits : bits < widthBound) (hlarge : 2 ^ 10 ≤ bits) :
    2 ^ 1018 ≤ ((Double.log (.finite false m)).add ((Double.log (.ofInt 2)).mul (.ofInt bits))).units := by
  obtain ⟨two, htwo, htwopos⟩ := exists_two_eq
  have hone := Double.within_log_of_le_one hpos hlow hhigh
  have hbits' := within_ofInt_bits hbits
  have hwithin := within_joined (fun m => Double.within_log) (by decide) hpos hbits
  have hlog2 : (Double.log (.ofInt 2)).Within (12 + 1074) := htwo ▸ Double.within_log htwopos
  have hproduct := hlog2.mul (k := 75 + 1074) hbits' (by decide) (by decide)
  have hfactor := Double.two_pow_le_units_ofInt (n := bits) (b := 10) hlarge hbits'.isFinite
  have hle := Double.two_pow_le_units_mul (k := 1083) hlog2.isFinite hbits'.isFinite two_pow_le_units_log_two hfactor
    (by decide) hproduct.isFinite
  have hsum : 2 ^ 1018 + 2 ^ (2 + 1074) ≤ 2 ^ 1083 := by decide +kernel
  have hdifference := Nat.add_le_add_left hone.units_le (2 ^ 1018)
  have hbelow := Nat.le_trans hdifference (Nat.le_trans hsum hle)
  exact Double.two_pow_le_units_add (k := 1018) hone.isFinite hproduct.isFinite hbelow hwithin.isFinite

end

/-! ## Logarithms of numbers -/

section

variable {given : Prop} {v : Value}

/-- A property of logarithms holds of the logarithm of a number if it holds of those of positive doubles and of those
that are put together for integers beyond the doubles. -/
theorem logOf_answers {f : Double → Double} {P : Double → Prop}
    (hreal : ∀ x : Double, (given → x.isFinite = true) → Answers (fun d => given → P d) (guarded false f x))
    (hjoined : ∀ (m : Magnitude) (bits : Nat), 0 < m.units → 2 ^ 1073 ≤ m.units → m.units ≤ Double.one →
      bits < widthBound → 2 ^ 10 ≤ bits → P ((f (.finite false m)).add ((f (.ofInt 2)).mul (.ofInt bits))))
    (hv : FiniteIf given v) : Answers (fun d => given → P d) (logOf f v) := by
  cases v with
  | function g => exact .error (by simp)
  | number n =>
    rw [logOf]
    split
    · rename_i k hk
      refine Answers.ite (fun _ => .error (by simp)) fun hpos => Answers.ite (fun hfinite => hreal _ fun _ => hfinite)
        fun hfinite => ?_
      have hbits := le_log2_of_not_isFinite (Bool.eq_false_iff.mpr hfinite)
      have hfraction := fraction_spec (n := k.natAbs) (by omega)
      generalize fraction k.natAbs = parts at hfraction ⊢
      obtain ⟨d, bits⟩ := parts
      obtain ⟨hsize, m, rfl, hm0, hlow, hhigh⟩ := hfraction
      exact Answers.ite (fun _ => .error (by simp)) fun hwide => .ok fun _ =>
        hjoined m bits hm0 hlow hhigh (Nat.lt_of_not_le hwide) (by simp only at hsize; omega)
    · exact (toDouble_answers hv).bind fun x hx => hreal x hx

/-- A logarithm that is small at positive doubles is finite at numbers. -/
theorem logarithm_answers {g : Nat → Double} {b : Nat}
    (hf : ∀ m : Magnitude, 0 < m.units → (Double.logarithm g (.finite false m)).Within (b + 1074)) (hb : b ≤ 14)
    (hv : FiniteIf given v) : Answers (fun d => given → d.isFinite = true) (logOf (Double.logarithm g) v) := by
  refine logOf_answers ?_ ?_ hv
  · intro x hx
    exact guarded_logarithm_answers (fun m hm => (hf m hm).isFinite) hx
  · intro m bits hm _ _ hbits _
    exact (within_joined hf hb hm hbits).isFinite

/-- The natural logarithm of a finite number is small, and zero or away from zero. -/
theorem log_answers (hv : FiniteIf given v) :
    Answers (fun d => given → d.Within (78 + 1074) ∧ (d.isZero = true ∨ 2 ^ 1018 ≤ d.units)) (logOf .log v) := by
  refine logOf_answers ?_ ?_ hv
  · intro x hx
    refine guarded_logarithm_answers (fun m hm => ⟨(Double.within_log hm).mono (by decide), ?_⟩) hx
    rcases Double.beyond_log hm with hzero | hbeyond
    · exact .inl (congrArg Double.isZero hzero)
    · exact .inr hbeyond
  · intro m bits hm hlow hhigh hbits hlarge
    exact ⟨within_joined (fun m => Double.within_log) (by decide) hm hbits,
      .inr (beyond_joined hm hlow hhigh hbits hlarge)⟩

/-- **The logarithm to a base.** The quotient of two natural logarithms of finite numbers is finite. -/
theorem logarithmOf_answers {vs : List Value} (hvs : ∀ v ∈ vs, FiniteIf given v) :
    Answers (NumberIf given) (logarithmOf vs) := by
  unfold logarithmOf
  split
  · exact (log_answers (hvs _ (by simp))).map fun d hd => .real fun hg => (hd hg).1.isFinite
  · refine (log_answers (hvs _ (by simp))).bind fun a ha => (log_answers (hvs _ (by simp))).bind fun b hb => ?_
    refine .refused (by simp) fun hzero => .ok (.real fun hg => ?_)
    have hbelow : 2 ^ 1018 ≤ b.units := (hb hg).2.resolve_left (by simp [hzero])
    exact ((ha hg).1.div (k := 1300) (hb hg).1.isFinite hbelow (by decide) (by decide)).isFinite
  · exact .error (by simp)

end

end DotGrid
