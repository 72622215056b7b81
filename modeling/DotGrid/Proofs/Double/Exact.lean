import DotGrid.Proofs.Double.Arithmetic
import Mathlib.Data.Rat.Floor

/-!
# Exact values

`Double.toRat` is the exact value of a finite double. A number of the format is its own rounding
(`Format.round_eq_self`), so an integer that has a double becomes that double (`Double.toRat_ofInt`). Such are all
integers of 53 bits and all that are less than one away from some double (`Double.holds_of_near`). An integer that has
no double is rounded to another integer near to it (`Double.exists_toRat_ofInt`).

The integers below, above and toward zero of a double are those of its exact value (`Double.floor?_eq`,
`Double.ceiling?_eq`, `Double.truncate?_eq`).
-/

namespace DotGrid

/-- A rational number rounded toward zero. -/
def towardZero (q : ℚ) : ℤ := if 0 ≤ q then ⌊q⌋ else ⌈q⌉

theorem towardZero_intCast (n : ℤ) : towardZero n = n := by
  rw [towardZero, Int.floor_intCast, Int.ceil_intCast, ite_self]

theorem towardZero_near (q : ℚ) : (towardZero q : ℚ) - 1 < q ∧ q < towardZero q + 1 := by
  have hfloor := Int.floor_le q
  have hfloor' := Int.lt_floor_add_one q
  have hceil := Int.le_ceil q
  have hceil' := Int.ceil_lt_add_one q
  unfold towardZero
  split <;> constructor <;> linarith

variable {p q n k j : Nat}

/-! ## Numbers of the format -/

theorem nearest_mul (hq : 0 < q) : nearest (n * q) q = n :=
  Nat.le_antisymm (nearest_le (Nat.le_refl _)) (le_nearest hq (Nat.le_refl _))

theorem nearest_eq (hlow : 2 * (n * q) < 2 * p + q) (hhigh : 2 * p < 2 * (n * q) + q) : nearest p q = n := by
  have hsplit := Nat.div_add_mod' p q
  have hmod := Nat.mod_lt p (show 0 < q by omega)
  by_cases hp : n * q ≤ p
  · have hdiv : p / q = n := by
      refine Nat.div_eq_of_lt_le hp ?_
      rw [Nat.succ_mul]
      omega
    have hexcess : 2 * (p % q) < q := by
      rw [hdiv] at hsplit
      omega
    simp only [nearest, if_pos hexcess, hdiv]
  · have hpos : n ≠ 0 := by
      rintro rfl
      omega
    obtain ⟨m, rfl⟩ := Nat.exists_eq_add_one_of_ne_zero hpos
    rw [Nat.add_one_mul m q] at hlow hhigh hp
    have hdiv : p / q = m := by
      refine Nat.div_eq_of_lt_le (by omega) ?_
      rw [Nat.succ_mul]
      omega
    have hexcess : q < 2 * (p % q) := by
      rw [hdiv] at hsplit
      omega
    simp only [nearest, if_neg (Nat.not_lt_of_gt hexcess), if_pos hexcess, hdiv]

/-- The nearest integer is not further away than one half. -/
theorem nearest_near (p : Nat) (hq : 0 < q) :
    2 * (nearest p q * q) ≤ 2 * p + q ∧ 2 * p ≤ 2 * (nearest p q * q) + q := by
  have hsplit := Nat.div_add_mod' p q
  have hmod := Nat.mod_lt p hq
  simp only [nearest]
  split
  · omega
  · split
    · rw [Nat.add_one_mul (p / q) q]
      omega
    · rcases Nat.mod_two_eq_zero_or_one (p / q) with heven | hodd
      · rw [heven, Nat.add_zero]
        omega
      · rw [hodd, Nat.add_one_mul (p / q) q]
        omega

/-- A common factor does not change what a ratio is rounded to. -/
theorem nearest_mul_right {c : Nat} (hc : 0 < c) : nearest (p * c) (q * c) = nearest p q := by
  have hdouble : 2 * (p % q * c) = 2 * (p % q) * c := (Nat.mul_assoc ..).symm
  simp only [nearest, Nat.mul_div_mul_right p q hc, Nat.mul_mod_mul_right, hdouble, Nat.mul_lt_mul_right hc]

/-- A multiple of a power of two is a number of the format if it has not more than 53 bits before that power. -/
theorem isMagnitude_of_dvd (hd : 2 ^ k ∣ n) (hlt : n < 2 ^ (53 + k)) (hk : k ≤ 2045) : IsMagnitude n := by
  obtain ⟨m, rfl⟩ := hd
  rw [Nat.pow_add, Nat.mul_comm] at hlt
  exact ⟨m, k, Nat.mul_comm _ _, Nat.lt_of_mul_lt_mul_right hlt, hk⟩

/-- A number of the format that is not below a power of two is a multiple of the spacing there. -/
theorem IsMagnitude.two_pow_dvd (h : IsMagnitude n) (hle : 2 ^ (52 + j) ≤ n) : 2 ^ j ∣ n := by
  obtain ⟨m, k, rfl, hm, -⟩ := h
  have hlt : m * 2 ^ k < 2 ^ (53 + k) := by
    rw [Nat.pow_add]
    exact Nat.mul_lt_mul_of_pos_right hm (Nat.two_pow_pos k)
  have hjk : 52 + j < 53 + k := (Nat.pow_lt_pow_iff_right (by decide)).mp (Nat.lt_of_le_of_lt hle hlt)
  exact Dvd.dvd.mul_left (Nat.pow_dvd_pow 2 (by omega)) m

/-- Below a power of two, the numbers of the format end one step before it. -/
theorem IsMagnitude.le_of_lt (h : IsMagnitude n) (hlt : n < 2 ^ (53 + j)) : n ≤ (2 ^ 53 - 1) * 2 ^ j := by
  obtain ⟨m, k, rfl, hm, -⟩ := h
  rcases Nat.le_total k j with hkj | hjk
  · exact Nat.mul_le_mul (Nat.le_pred_of_lt hm) (Nat.pow_le_pow_right (by decide) hkj)
  · obtain ⟨i, rfl⟩ := Nat.exists_eq_add_of_le hjk
    have hsplit : m * 2 ^ (j + i) = m * 2 ^ i * 2 ^ j := by rw [Nat.mul_assoc, ← Nat.pow_add, Nat.add_comm]
    rw [hsplit] at hlt ⊢
    rw [Nat.pow_add] at hlt
    exact Nat.mul_le_mul_right _ (Nat.le_pred_of_lt (Nat.lt_of_mul_lt_mul_right hlt))

theorem Magnitude.units_lt (m : Magnitude) : m.units < 2 ^ Format.binary64.top := by
  obtain ⟨_, a, k, rfl, ha, hk⟩ := m
  have htop : Format.binary64.top = 2098 := rfl
  calc a * 2 ^ k < 2 ^ 53 * 2 ^ k := Nat.mul_lt_mul_of_pos_right ha (Nat.two_pow_pos k)
    _ = 2 ^ (53 + k) := (Nat.pow_add ..).symm
    _ ≤ 2 ^ Format.binary64.top := Nat.pow_le_pow_right (by decide) (by omega)

theorem Magnitude.eq_of_units_eq {m m' : Magnitude} (h : m.units = m'.units) : m = m' := by
  cases m
  cases m'
  cases h
  rfl

namespace Format

/-- **Exactness.** A number of the format is its own rounding. -/
theorem round_eq_self (h : IsMagnitude n) : binary64.round n 1 = n := by
  obtain ⟨m, k, rfl, hm, -⟩ := h
  -- the grid around the number is not coarser than the scale it is written with
  have hspacing : binary64.spacing (m * 2 ^ k) 1 ≤ k := by
    by_cases hzero : m * 2 ^ k = 0
    · simp [hzero, spacing, binary64]
    · have hlt : m * 2 ^ k < 2 ^ (53 + k) := by
        rw [Nat.pow_add]
        exact Nat.mul_lt_mul_of_pos_right hm (Nat.two_pow_pos k)
      have hlog := (Nat.log2_lt hzero).mpr hlt
      simp only [spacing, binary64, Nat.div_one]
      omega
  unfold round
  generalize binary64.spacing (m * 2 ^ k) 1 = s at hspacing
  have hsplit : m * 2 ^ k = m * 2 ^ (k - s) * 2 ^ s := by
    rw [Nat.mul_assoc, ← Nat.pow_add, Nat.sub_add_cancel hspacing]
  rw [hsplit, Nat.one_mul, nearest_mul (Nat.two_pow_pos s)]

theorem round_mul_right (f : Format) {c : Nat} (hc : 0 < c) : f.round (p * c) (q * c) = f.round p q := by
  have hspacing : f.spacing (p * c) (q * c) = f.spacing p q := by rw [spacing, spacing, Nat.mul_div_mul_right p q hc]
  rw [round, round, hspacing, Nat.mul_right_comm, nearest_mul_right hc]

/-- What is below one half of a unit is rounded to zero. -/
theorem round_eq_zero (h : 2 * p < q) : binary64.round p q = 0 := by
  have hdiv : p / q = 0 := Nat.div_eq_of_lt (by omega)
  have hspacing : binary64.spacing p q = 0 := by simp [spacing, binary64, hdiv]
  have hnearest : nearest p q = 0 := nearest_eq (by omega) (by omega)
  rw [round, hspacing, Nat.pow_zero, Nat.mul_one, Nat.mul_one, hnearest]

/-! ### Ratios near a number of the format -/

section

variable (h : IsMagnitude n) (hq : 0 < q)
include h hq

/-- The grid around a ratio that is not far above a number of the format has this number. -/
theorem dvd_of_near (hhigh : 2 ^ 54 * p < (2 ^ 54 + 1) * (n * q)) : 2 ^ binary64.spacing p q ∣ n := by
  have hfull := le_div_spacing (f := binary64) (p := p) (q := q) (by decide)
  have hprecision : binary64.precision = 53 := rfl
  have hfinest : binary64.finest = 0 := rfl
  rw [hprecision, hfinest] at hfull
  generalize binary64.spacing p q = s at *
  cases s with
  | zero => exact Nat.one_dvd n
  | succ j =>
    -- otherwise the number ends one step before the binade of the ratio
    refine h.two_pow_dvd (Nat.le_of_not_lt fun hsmall => ?_)
    have hn : n ≤ (2 ^ 53 - 1) * 2 ^ j := h.le_of_lt (by rwa [← Nat.add_assoc, Nat.add_right_comm] at hsmall)
    have hratio : 2 ^ 52 * (q * 2 ^ (j + 1)) ≤ p :=
      (Nat.le_div_iff_mul_le (Nat.mul_pos hq (Nat.two_pow_pos _))).mp (hfull (Nat.succ_ne_zero j))
    have hnq := Nat.mul_le_mul_right q hn
    have hlow : (2 ^ 53 - 1) * 2 ^ j * q = (2 ^ 53 - 1) * (2 ^ j * q) := Nat.mul_assoc ..
    have hstep : q * 2 ^ (j + 1) = 2 * (2 ^ j * q) := by rw [Nat.pow_succ]; ring
    have hpos := Nat.mul_pos (Nat.two_pow_pos j) hq
    omega

/-- A number of the format is not above the binade of a ratio that is not far below it. -/
theorem le_of_near (hlow : (2 ^ 54 - 1) * (n * q) < 2 ^ 54 * p) : n ≤ 2 ^ 53 * 2 ^ binary64.spacing p q := by
  have hlt := binary64.div_spacing_lt p q
  have hprecision : binary64.precision = 53 := rfl
  rw [hprecision] at hlt
  generalize binary64.spacing p q = s at *
  have hratio : p < 2 ^ 53 * (q * 2 ^ s) := (Nat.div_lt_iff_lt_mul (Nat.mul_pos hq (Nat.two_pow_pos s))).mp hlt
  refine Nat.le_of_not_lt fun hlarge => ?_
  -- otherwise the number is one step behind the end of the binade
  have hend : 2 ^ 53 * 2 ^ s = 2 ^ (52 + (s + 1)) := by rw [← Nat.pow_add]; congr 1; omega
  obtain ⟨k, rfl⟩ := h.two_pow_dvd (hend ▸ hlarge.le)
  rw [hend, Nat.pow_add, Nat.mul_comm (2 ^ 52)] at hlarge
  have hk : 2 ^ 52 + 1 ≤ k := Nat.lt_of_mul_lt_mul_left hlarge
  have hkq := Nat.mul_le_mul_left (2 ^ (s + 1) * q) hk
  have hnumber : 2 ^ (s + 1) * k * q = 2 ^ (s + 1) * q * k := Nat.mul_right_comm ..
  have hstep : 2 ^ (s + 1) * q = 2 * (q * 2 ^ s) := by rw [Nat.pow_succ]; ring
  have hpos := Nat.mul_pos hq (Nat.two_pow_pos s)
  omega

/-- **Nearness.** A ratio that is near to a number of the format is rounded to it: so it is if the distance is less
than the number over `2^54`. -/
theorem round_eq_of_near (hlow : (2 ^ 54 - 1) * (n * q) < 2 ^ 54 * p)
    (hhigh : 2 ^ 54 * p < (2 ^ 54 + 1) * (n * q)) : binary64.round p q = n := by
  have hdvd := dvd_of_near h hq hhigh
  have hsize := le_of_near h hq hlow
  unfold round
  generalize binary64.spacing p q = s at hdvd hsize
  obtain ⟨k, rfl⟩ := hdvd
  have hk : k ≤ 2 ^ 53 := by
    rw [Nat.mul_comm] at hsize
    exact Nat.le_of_mul_le_mul_right hsize (Nat.two_pow_pos s)
  -- so the distance is less than one half of the spacing
  have hgap := Nat.mul_le_mul_left (2 ^ s * q) hk
  have hnumber : 2 ^ s * k * q = 2 ^ s * q * k := Nat.mul_right_comm ..
  have hgrid : k * (q * 2 ^ s) = 2 ^ s * q * k := by rw [Nat.mul_comm q, Nat.mul_comm]
  have hnearest : nearest p (q * 2 ^ s) = k := by
    refine nearest_eq ?_ ?_
    · rw [hgrid, Nat.mul_comm q]
      omega
    · rw [hgrid, Nat.mul_comm q]
      omega
  rw [hnearest, Nat.mul_comm]

end

/-! ### Distances -/

/-- A rounded number is not further away than the distance of the numbers of the format around it. -/
theorem round_near (f : Format) (p : Nat) :
    f.round p 1 ≤ p + 2 ^ f.spacing p 1 ∧ p ≤ f.round p 1 + 2 ^ f.spacing p 1 := by
  have hd := Nat.two_pow_pos (f.spacing p 1)
  unfold round
  rw [Nat.one_mul]
  generalize 2 ^ f.spacing p 1 = d at hd
  have hsplit := Nat.div_add_mod' p d
  have hmod := Nat.mod_lt p hd
  have hlow := Nat.mul_le_mul_right d (div_le_nearest p d)
  have hhigh := Nat.mul_le_mul_right d (nearest_le_div_add_one p d)
  rw [Nat.succ_mul] at hhigh
  omega

end Format

theorem Magnitude.round?_units (m : Magnitude) : round? m.units 1 = some m := by
  have hround := Format.round_eq_self m.representable
  have hlt : Format.binary64.round m.units 1 < 2 ^ Format.binary64.top := by
    rw [hround]
    exact m.units_lt
  unfold round?
  simp only [hlt, ↓reduceDIte]
  exact congrArg some (eq_of_units_eq hround)

namespace Double

theorem ofUnits_eq (s : Bool) (m : Magnitude) : ofUnits s m.units 1 = .finite s m := by
  unfold ofUnits
  rw [m.round?_units]

theorem ofUnits_mul_right (s : Bool) {c : Nat} (hc : 0 < c) : ofUnits s (p * c) (q * c) = ofUnits s p q := by
  unfold ofUnits Magnitude.round?
  simp only [Format.binary64.round_mul_right hc]

theorem ofUnits_congr (s : Bool) {p' q' : Nat} (hq : 0 < q) (hq' : 0 < q') (h : p * q' = p' * q) :
    ofUnits s p q = ofUnits s p' q' := by
  rw [← ofUnits_mul_right s hq', h, Nat.mul_comm q, ofUnits_mul_right s hq]

theorem ofUnits_of_round {s : Bool} {m : Magnitude} (h : Format.binary64.round p q = m.units) :
    ofUnits s p q = .finite s m := by
  have hunits : ofUnits s p q = ofUnits s m.units 1 := by
    unfold ofUnits Magnitude.round?
    simp only [h, Format.round_eq_self m.representable]
  rw [hunits, ofUnits_eq]

theorem ofUnits_of_overflow (s : Bool) (hq : 0 < q) (h : overflow * q ≤ p) : ofUnits s p q = .infinite s := by
  obtain ⟨s', hs⟩ := exists_of_isInfinite ((isInfinite_ofUnits s hq).mpr h)
  have hsign := isNegative_ofUnits s p q
  rw [hs] at hsign
  rw [hs, ← hsign]
  rfl

/-- A sum of finite doubles is the exact sum, rounded once. -/
theorem units_add {x y : Double} (hx : x.isFinite = true) (hy : y.isFinite = true)
    (h : (x.signedUnits + y.signedUnits).natAbs < overflow) :
    (x.add y).units = Format.binary64.round (x.signedUnits + y.signedUnits).natAbs 1 := by
  obtain ⟨s, m, rfl⟩ := exists_of_isFinite hx
  obtain ⟨s', m', rfl⟩ := exists_of_isFinite hy
  simp only [add]
  split
  · rename_i hsum
    rw [hsum, Int.natAbs_zero, Format.round_eq_self isMagnitude_zero]
    rfl
  · exact units_ofUnits ((isFinite_ofUnits _ Nat.one_pos).mpr (by rwa [Nat.mul_one]))

/-! ## The exact value -/

/-- The exact value of a finite double; zero for the others. -/
def toRat (d : Double) : ℚ := d.signedUnits / one

theorem two_pow_dvd_one (hk : k ≤ 1074) : 2 ^ k ∣ one := by
  rw [one_eq_mul (Nat.add_sub_cancel' hk)]
  exact Nat.dvd_mul_right _ _

theorem one_pos_rat : (0 : ℚ) < one := by exact_mod_cast one_pos

theorem toRat_of_not_isFinite {d : Double} (h : d.isFinite = false) : d.toRat = 0 := by
  have hunits : d.signedUnits = 0 := by
    cases d with
    | finite s m => cases h
    | _ => rfl
  rw [toRat, hunits, Int.cast_zero, zero_div]

@[simp] theorem signedUnits_neg (d : Double) : d.neg.signedUnits = -d.signedUnits := by
  cases d with
  | finite s m => cases s <;> simp [neg, signedUnits]
  | _ => rfl

@[simp] theorem toRat_neg (d : Double) : d.neg.toRat = -d.toRat := by
  rw [toRat, toRat, signedUnits_neg, Int.cast_neg, neg_div]

theorem toRat_eq_intCast_iff {d : Double} {n : ℤ} : d.toRat = n ↔ d.signedUnits = n * one := by
  rw [toRat, div_eq_iff one_pos_rat.ne']
  exact_mod_cast Iff.rfl

/-! ## Integers -/

/-- An integer that some double is. -/
def Holds (n : ℤ) : Prop := IsMagnitude (n.natAbs * one)

theorem holds_of_natAbs_le {n : ℤ} (h : n.natAbs ≤ 2 ^ 53) : Holds n := by
  rcases Nat.lt_or_eq_of_le h with hlt | heq
  · exact ⟨n.natAbs, 1074, by rw [one], hlt, by decide⟩
  · have hsplit : 2 ^ 53 * one = 2 ^ 52 * 2 ^ (1 + 1074) := by
      rw [← two_pow_mul_one 1]
      omega
    exact ⟨2 ^ 52, 1 + 1074, by rw [heq, hsplit], by decide, by decide⟩

theorem ofInt_eq {n : ℤ} (h : Holds n) : ofInt n = .finite (n < 0) ⟨_, h⟩ := by
  rw [ofInt, ofRatio]
  exact ofUnits_eq _ ⟨_, h⟩

theorem isFinite_ofInt_of_holds {n : ℤ} (h : Holds n) : (ofInt n).isFinite = true := by
  rw [ofInt_eq h]
  rfl

theorem signedUnits_ofInt {n : ℤ} (h : Holds n) : (ofInt n).signedUnits = n * one := by
  have hunits : (ofInt n).signedUnits = if n < 0 then -((n.natAbs * one : Nat) : ℤ) else (n.natAbs * one : Nat) := by
    rw [ofInt_eq h, signedUnits]
    simp only [decide_eq_true_eq]
  rw [hunits, Int.natCast_mul]
  split
  · rw [Int.ofNat_natAbs_of_nonpos (by omega), Int.neg_mul, Int.neg_neg]
  · rw [Int.natAbs_of_nonneg (by omega)]

/-- An integer that has a double becomes that double. -/
theorem toRat_ofInt {n : ℤ} (h : Holds n) : (ofInt n).toRat = n :=
  toRat_eq_intCast_iff.mpr (signedUnits_ofInt h)

theorem signedUnits_eq_mul {s : Bool} {m : Magnitude} {j : Nat} (h : m.units = j * one) :
    (finite s m).signedUnits = (if s then -(j : ℤ) else j) * one := by
  rw [signedUnits, h, Int.natCast_mul]
  cases s with
  | false => simp only [Bool.false_eq_true, if_false]
  | true => simp only [if_true, Int.neg_mul]

/-- A finite double is an integer, or it is less than `2^53`. -/
theorem integer_or_small {x : Double} (hx : x.isFinite = true) :
    (∃ n, Holds n ∧ x.signedUnits = n * one) ∨ x.units < 2 ^ 53 * one := by
  obtain ⟨s, m, rfl⟩ := exists_of_isFinite hx
  obtain ⟨a, k, hm, ha, hk⟩ := m.representable
  rcases Nat.lt_or_ge k 1074 with hlt | hge
  · refine .inr ?_
    have hscale : 2 ^ k ≤ one := Nat.le_of_dvd one_pos (two_pow_dvd_one (Nat.le_of_lt hlt))
    rw [units, hm]
    exact Nat.mul_lt_mul_of_lt_of_le ha hscale one_pos
  · refine .inl ?_
    have hunits : m.units = a * 2 ^ (k - 1074) * one := by
      rw [hm, Nat.mul_assoc, two_pow_mul_one, Nat.sub_add_cancel hge]
    generalize a * 2 ^ (k - 1074) = j at hunits
    refine ⟨if s then -(j : ℤ) else j, ?_, signedUnits_eq_mul hunits⟩
    have habs : (if s then -(j : ℤ) else j).natAbs = j := by cases s <;> simp
    rw [Holds, habs, ← hunits]
    exact m.representable

/-- An integer that is less than one away from a double has a double itself. -/
theorem holds_of_near {x : Double} {n : ℤ} (hx : x.isFinite = true) (hlow : (n : ℚ) - 1 < x.toRat)
    (hhigh : x.toRat < n + 1) : Holds n := by
  have hone : (0 : ℤ) < one := by exact_mod_cast one_pos
  have hlow' : (n - 1) * one < x.signedUnits := by
    rw [toRat, lt_div_iff₀ one_pos_rat] at hlow
    exact_mod_cast hlow
  have hhigh' : x.signedUnits < (n + 1) * one := by
    rw [toRat, div_lt_iff₀ one_pos_rat] at hhigh
    exact_mod_cast hhigh
  rcases integer_or_small hx with ⟨k, hk, heq⟩ | hsmall
  · rw [heq] at hlow' hhigh'
    have hle := Int.lt_of_mul_lt_mul_right hlow' hone.le
    have hge := Int.lt_of_mul_lt_mul_right hhigh' hone.le
    have hkn : k = n := by omega
    exact hkn ▸ hk
  · rw [← natAbs_signedUnits] at hsmall
    have hle : (n - 1) * one < 2 ^ 53 * (one : ℤ) := by omega
    have hge : -(2 ^ 53) * (one : ℤ) < (n + 1) * one := by omega
    have hle' := Int.lt_of_mul_lt_mul_right hle hone.le
    have hge' := Int.lt_of_mul_lt_mul_right hge hone.le
    exact holds_of_natAbs_le (by omega)

/-- Beyond 53 bits the distance of the doubles around an integer is a multiple of one. -/
theorem spacing_mul_one {i b : Nat} (hlow : 2 ^ 53 ≤ i) (hhigh : i ≤ 2 ^ b) :
    ∃ c, Format.binary64.spacing (i * one) 1 = c + 1074 ∧ c ≤ b - 52 := by
  have hpos : i * one ≠ 0 := Nat.mul_ne_zero (by omega) one_pos.ne'
  have hbits : 53 + 1074 ≤ (i * one).log2 := by
    have hle := Nat.mul_le_mul_right one hlow
    rw [two_pow_mul_one] at hle
    exact le_log2_of_two_pow_le hle
  have hlog : (i * one).log2 ≤ b + 1074 := by
    have hle : 2 ^ (i * one).log2 ≤ 2 ^ (b + 1074) := by
      rw [← two_pow_mul_one b]
      exact Nat.le_trans (Nat.log2_self_le hpos) (Nat.mul_le_mul_right one hhigh)
    exact (Nat.pow_le_pow_iff_right (by decide)).mp hle
  refine ⟨(i * one).log2 - 1126, ?_, by omega⟩
  simp only [Format.spacing, Format.binary64, Nat.div_one]
  omega

/-- An integer beyond 53 bits is rounded to an integer that is not further away than the doubles around it. -/
theorem round_mul_one {i b : Nat} (hlow : 2 ^ 53 ≤ i) (hhigh : i ≤ 2 ^ b) :
    ∃ j, Format.binary64.round (i * one) 1 = j * one ∧ j ≤ i + 2 ^ (b - 52) ∧ i ≤ j + 2 ^ (b - 52) := by
  obtain ⟨c, hc, hcb⟩ := spacing_mul_one hlow hhigh
  obtain ⟨hup, hdown⟩ := Format.binary64.round_near (i * one)
  have hround : Format.binary64.round (i * one) 1 = nearest (i * one) (2 ^ c * one) * 2 ^ c * one := by
    rw [Format.round, hc, Nat.one_mul, Nat.mul_assoc, two_pow_mul_one]
  have hdistance : 2 ^ (c + 1074) ≤ 2 ^ (b - 52) * one := by
    rw [← two_pow_mul_one]
    exact Nat.mul_le_mul_right one (Nat.pow_le_pow_right (by decide) hcb)
  rw [hround, hc] at hup hdown
  refine ⟨_, hround, ?_, ?_⟩
  · refine Nat.le_of_mul_le_mul_right ?_ one_pos
    rw [Nat.add_mul]
    omega
  · refine Nat.le_of_mul_le_mul_right ?_ one_pos
    rw [Nat.add_mul]
    omega

/-- An integer becomes an integer, which is near to it. -/
theorem exists_toRat_ofInt {n : ℤ} {b : Nat} (hn : n.natAbs ≤ 2 ^ b) (hb : b ≤ 1023) :
    ∃ r : ℤ, (ofInt n).toRat = r ∧ (r - n).natAbs ≤ 2 ^ (b - 52) := by
  by_cases hsmall : n.natAbs ≤ 2 ^ 53
  · refine ⟨n, toRat_ofInt (holds_of_natAbs_le hsmall), ?_⟩
    rw [Int.sub_self]
    exact Nat.zero_le _
  · have hfinite := (within_ofInt hn hb).isFinite
    have hsign : (ofInt n).isNegative = decide (n < 0) := by rw [ofInt, ofRatio, isNegative_ofUnits]
    have hunits : (ofInt n).units = Format.binary64.round (n.natAbs * one) 1 := by
      rw [ofInt, ofRatio] at hfinite ⊢
      exact units_ofUnits hfinite
    obtain ⟨j, hj, hup, hdown⟩ := round_mul_one (Nat.le_of_not_le hsmall) hn
    obtain ⟨s, m, hm⟩ := exists_of_isFinite hfinite
    rw [hm, isNegative] at hsign
    rw [hm, units, hj] at hunits
    rw [hm]
    refine ⟨if s then -(j : ℤ) else j, toRat_eq_intCast_iff.mpr (signedUnits_eq_mul hunits), ?_⟩
    cases s with
    | false =>
      have hnonneg : 0 ≤ n := by simpa using hsign
      simp only [Bool.false_eq_true, if_false]
      omega
    | true =>
      have hneg : n < 0 := by simpa using hsign
      simp only [if_true]
      omega

/-! ## Rounding to integers -/

section

variable {x : Double}

theorem floor?_eq_none (hx : x.isFinite = false) : x.floor? = none := by
  cases x with
  | finite s m => cases hx
  | _ => rfl

theorem ceiling?_eq_none (hx : x.isFinite = false) : x.ceiling? = none := by
  rw [ceiling?, floor?_eq_none (by simpa using hx)]
  rfl

theorem truncate?_eq_none (hx : x.isFinite = false) : x.truncate? = none := by
  cases x with
  | finite s m => cases hx
  | _ => rfl

theorem floor?_eq (hx : x.isFinite = true) : x.floor? = some ⌊x.toRat⌋ := by
  obtain ⟨s, m, rfl⟩ := exists_of_isFinite hx
  rw [toRat, Rat.floor_intCast_div_natCast]
  rfl

theorem ceiling?_eq (hx : x.isFinite = true) : x.ceiling? = some ⌈x.toRat⌉ := by
  rw [ceiling?, floor?_eq (by simpa using hx), toRat_neg, Int.floor_neg, Option.map_some, neg_neg]

theorem truncate?_eq (hx : x.isFinite = true) : x.truncate? = some (towardZero x.toRat) := by
  obtain ⟨s, m, rfl⟩ := exists_of_isFinite hx
  have hunits : (0 : ℚ) ≤ (m.units : ℤ) / one := div_nonneg (Int.cast_nonneg (Int.natCast_nonneg _)) one_pos_rat.le
  have hfloor : ((m.units / one : Nat) : ℤ) = ⌊((m.units : ℤ) : ℚ) / one⌋ := by
    rw [Rat.floor_intCast_div_natCast, Int.natCast_ediv]
  cases s with
  | false =>
    have htoRat : (finite false m).toRat = (m.units : ℤ) / one := rfl
    rw [htoRat, towardZero, if_pos hunits, ← hfloor]
    rfl
  | true =>
    have htoRat : (finite true m).toRat = -((m.units : ℤ) / one) := toRat_neg (finite false m)
    have hceil : towardZero (finite true m).toRat = ⌈(finite true m).toRat⌉ := by
      rw [towardZero]
      split
      · -- only a zero is not below zero
        have hzero : (finite true m).toRat = 0 := by linarith
        rw [hzero, Int.ceil_zero, Int.floor_zero]
      · rfl
    rw [hceil, htoRat, Int.ceil_neg, ← hfloor]
    rfl

end

end Double

end DotGrid
