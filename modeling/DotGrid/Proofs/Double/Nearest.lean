import DotGrid.Proofs.Double.Exact

/-!
# Rounding to nearest, ties to even

`Double.NearestTo x d` says that no finite double is nearer to `x` than `d`, and that `d` has an even significand if
another one is as near. At most one number is so (`Double.NearestTo.toRat_unique`). The double of a ratio is nearest to
it (`Double.nearestTo_ofRatio`): on the grid around the ratio `nearest` decides (`nearest_distance`), and the numbers of
the format that are not on this grid are below its binade (`Format.round_distance`).
-/

namespace DotGrid

variable {p q m n s : Nat}

/-! ## Distances from a ratio -/

/-- How far an integer is from the ratio `p / q`, counted in parts of `1 / q`. -/
def distance (p q : Nat) (x : ℤ) : Nat := (x * q - p).natAbs

theorem distance_mul (p q c : Nat) (x : ℤ) : distance p q (x * c) = distance p (q * c) x := by
  rw [distance, distance, Nat.cast_mul, Int.mul_assoc, Int.mul_comm (c : ℤ)]

/-- Multiples of `q` are not closer together than `q`. -/
theorem mul_add_le_of_ne {x y : ℤ} (hne : x ≠ y) (q : Nat) : x * q + q ≤ y * q ∨ y * q + q ≤ x * q := by
  have hq : (0 : ℤ) ≤ q := Int.natCast_nonneg q
  rcases Int.lt_or_gt_of_ne hne with hlt | hgt
  · have hle := Int.mul_le_mul_of_nonneg_right (Int.add_one_le_of_lt hlt) hq
    rw [Int.add_mul, Int.one_mul] at hle
    exact .inl hle
  · have hle := Int.mul_le_mul_of_nonneg_right (Int.add_one_le_of_lt hgt) hq
    rw [Int.add_mul, Int.one_mul] at hle
    exact .inr hle

/-- An integer other than the nearest one is farther from a ratio, or as far and the nearest one is even. -/
theorem nearest_distance {x : ℤ} (hq : 0 < q) (hne : x ≠ nearest p q) :
    distance p q (nearest p q) < distance p q x ∨
      distance p q (nearest p q) = distance p q x ∧ nearest p q % 2 = 0 := by
  have hgap := mul_add_le_of_ne hne q
  have hsplit : ((p / q : Nat) : ℤ) * q + (p % q : Nat) = p := by exact_mod_cast Nat.div_add_mod' p q
  have hmod := Nat.mod_lt p hq
  have hstep : ((p / q + 1 : Nat) : ℤ) * q = (p / q : Nat) * q + q := by rw [Nat.cast_succ, Int.add_mul, Int.one_mul]
  simp only [distance]
  simp only [nearest] at hgap ⊢
  split at hgap
  · rename_i hbelow
    simp only [hbelow, ↓reduceIte]
    omega
  · split at hgap
    · rename_i hbelow habove
      simp only [hbelow, habove, ↓reduceIte]
      rw [hstep] at hgap ⊢
      omega
    · rename_i hbelow habove
      simp only [hbelow, habove, ↓reduceIte]
      rcases Nat.mod_two_eq_zero_or_one (p / q) with heven | hodd
      · rw [heven, Nat.add_zero] at hgap ⊢
        omega
      · rw [hodd, hstep] at hgap
        rw [hodd, hstep]
        omega

theorem nearest_distance_le (hq : 0 < q) (x : ℤ) : distance p q (nearest p q) ≤ distance p q x := by
  by_cases hx : x = nearest p q
  · rw [hx]
  · rcases nearest_distance hq hx with hlt | ⟨heq, -⟩
    · exact hlt.le
    · exact heq.le

/-! ## Significands -/

/-- The significant bits of a number of units, as an integer: the number counted in the distance of the doubles that
follow it. -/
def significand (n : Nat) : Nat := n / 2 ^ Format.binary64.spacing n 1

theorem significand_lt (n : Nat) : significand n < 2 ^ 53 := by
  have hlt := Format.binary64.div_spacing_lt n 1
  rwa [Nat.one_mul] at hlt

/-- Beyond the finest scale, the first one of the 53 bits is set. -/
theorem le_significand (h : Format.binary64.spacing n 1 ≠ 0) : 2 ^ 52 ≤ significand n := by
  have hle := Format.le_div_spacing (f := Format.binary64) (by decide) h
  rwa [Nat.one_mul] at hle

theorem IsMagnitude.significand_mul (h : IsMagnitude n) : significand n * 2 ^ Format.binary64.spacing n 1 = n := by
  refine Nat.div_mul_cancel ?_
  by_cases hs : Format.binary64.spacing n 1 = 0
  · rw [hs]
    exact Nat.one_dvd n
  · have hle := Nat.mul_le_of_le_div _ _ _ (le_significand hs)
    rw [← Nat.pow_add] at hle
    exact h.two_pow_dvd hle

theorem spacing_mul_two_pow (hn : n < 2 ^ 53) (hfull : s = 0 ∨ 2 ^ 52 ≤ n) :
    Format.binary64.spacing (n * 2 ^ s) 1 = s := by
  simp only [Format.spacing, Format.binary64, Nat.div_one]
  rcases hfull with rfl | hfull
  · rw [Nat.pow_zero, Nat.mul_one]
    by_cases hzero : n = 0
    · rw [hzero, Nat.log2_zero]
      rfl
    · have hlog := (Nat.log2_lt hzero).mpr hn
      omega
  · have hlog : (n * 2 ^ s).log2 = 52 + s := by
      refine (Nat.log2_eq_iff (Nat.mul_ne_zero (by omega) (Nat.two_pow_pos s).ne')).mpr ⟨?_, ?_⟩
      · rw [Nat.pow_add]
        exact Nat.mul_le_mul_right _ hfull
      · rw [Nat.add_right_comm, Nat.pow_add]
        exact Nat.mul_lt_mul_of_pos_right hn (Nat.two_pow_pos s)
    omega

theorem significand_mul_two_pow (hn : n < 2 ^ 53) (hfull : s = 0 ∨ 2 ^ 52 ≤ n) : significand (n * 2 ^ s) = n := by
  rw [significand, spacing_mul_two_pow hn hfull, Nat.mul_div_cancel _ (Nat.two_pow_pos s)]

/-- A significand that rounding has carried to the next power of two is even as well. -/
theorem significand_even (heven : n % 2 = 0) (hn : n ≤ 2 ^ 53) (hfull : s = 0 ∨ 2 ^ 52 ≤ n) :
    significand (n * 2 ^ s) % 2 = 0 := by
  rcases Nat.lt_or_eq_of_le hn with hlt | rfl
  · rwa [significand_mul_two_pow hlt hfull]
  · have hcarry : 2 ^ 53 * 2 ^ s = 2 ^ 52 * 2 ^ (s + 1) := by rw [← Nat.pow_add, ← Nat.pow_add]; congr 1; omega
    rw [hcarry, significand_mul_two_pow (by decide) (.inr (Nat.le_refl _))]
    decide

/-- A number of the format other than the rounded one is farther from a ratio, or as far and the significand of the
rounded one is even. -/
theorem Format.round_distance {x : ℤ} (hq : 0 < q) (hx : IsMagnitude x.natAbs) (hne : x ≠ binary64.round p q) :
    distance p q (binary64.round p q) < distance p q x ∨
      distance p q (binary64.round p q) = distance p q x ∧ significand (binary64.round p q) % 2 = 0 := by
  have hlt := binary64.div_spacing_lt p q
  have hfull := le_div_spacing (f := binary64) (p := p) (q := q) (by decide)
  unfold round at *
  have hprecision : binary64.precision = 53 := rfl
  have hfinest : binary64.finest = 0 := rfl
  rw [hprecision] at hlt
  rw [hprecision, hfinest] at hfull
  generalize binary64.spacing p q = s at *
  have hD : 0 < q * 2 ^ s := Nat.mul_pos hq (Nat.two_pow_pos s)
  rw [Nat.cast_mul, distance_mul]
  by_cases hgrid : 2 ^ s ∣ x.natAbs
  · obtain ⟨y, rfl⟩ : ∃ y, x = y * (2 ^ s : Nat) := exists_eq_mul_left_of_dvd (Int.natCast_dvd.mpr hgrid)
    have hy : y ≠ nearest p (q * 2 ^ s) := by
      rintro rfl
      exact hne (Nat.cast_mul _ _).symm
    rw [distance_mul]
    refine (nearest_distance hD hy).imp_right fun ⟨heq, heven⟩ => ⟨heq, significand_even heven ?_ ?_⟩
    · exact Nat.le_trans (nearest_le_div_add_one p _) hlt
    · exact or_iff_not_imp_left.mpr fun hs => Nat.le_trans (hfull hs) (div_le_nearest p _)
  · -- a number off the grid is below the binade of the ratio, the start of which is on the grid
    have hs : s ≠ 0 := by
      rintro rfl
      exact hgrid (Nat.one_dvd _)
    have hbelow : x.natAbs < 2 ^ (52 + s) := Nat.lt_of_not_le fun hle => hgrid (hx.two_pow_dvd hle)
    have hstart : 2 ^ 52 * (q * 2 ^ s) ≤ p := (Nat.le_div_iff_mul_le hD).mp (hfull hs)
    have hxq : x.natAbs * q < 2 ^ 52 * (q * 2 ^ s) :=
      calc x.natAbs * q < 2 ^ (52 + s) * q := Nat.mul_lt_mul_of_pos_right hbelow hq
        _ = 2 ^ 52 * (q * 2 ^ s) := by rw [Nat.pow_add, Nat.mul_assoc, Nat.mul_comm q]
    refine .inl (Nat.lt_of_le_of_lt (nearest_distance_le hD (2 ^ 52 : Nat)) ?_)
    have hle : x * q ≤ (x.natAbs * q : Nat) := by
      rw [Nat.cast_mul]
      exact Int.mul_le_mul_of_nonneg_right Int.le_natAbs (Int.natCast_nonneg q)
    rw [distance, distance, ← Nat.cast_mul]
    omega

theorem two_pow_succ_dvd (heven : m % 2 = 0) (s : Nat) : 2 ^ (s + 1) ∣ m * 2 ^ s := by
  rw [Nat.pow_succ, Nat.mul_comm]
  exact Nat.mul_dvd_mul_right (Nat.dvd_of_mod_eq_zero heven) _

/-- Between two numbers of the format with even significands there is another one. -/
theorem IsMagnitude.exists_between (hm : IsMagnitude m) (hn : IsMagnitude n) (heven : significand m % 2 = 0)
    (heven' : significand n % 2 = 0) (hlt : m < n) : ∃ k, IsMagnitude k ∧ m < k ∧ k < n := by
  have htop : n < 2 ^ Format.binary64.top := Magnitude.units_lt ⟨n, hn⟩
  have htop' : Format.binary64.top = 2098 := rfl
  have hmsplit := hm.significand_mul
  have hnsplit := hn.significand_mul
  have hmbits := significand_lt m
  have hnbits := significand_lt n
  have hfull := @le_significand m
  generalize significand m = a at *
  generalize significand n = b at *
  generalize Format.binary64.spacing m 1 = s at *
  generalize Format.binary64.spacing n 1 = t at *
  have hscale : s ≤ t ∧ s ≤ 2045 := by
    by_cases hs : s = 0
    · omega
    · have hlow : 2 ^ (52 + s) ≤ m := by
        rw [← hmsplit, Nat.pow_add]
        exact Nat.mul_le_mul_right _ (hfull hs)
      have hhigh : n < 2 ^ (53 + t) := by
        rw [← hnsplit, Nat.pow_add]
        exact Nat.mul_lt_mul_of_pos_right hnbits (Nat.two_pow_pos t)
      have hst := (Nat.pow_lt_pow_iff_right (by decide)).mp (hlow.trans_lt (hlt.trans hhigh))
      have hs' := (Nat.pow_lt_pow_iff_right (by decide)).mp (hlow.trans_lt (hlt.trans htop))
      omega
  -- both are even multiples of the finer spacing, so they are not next to each other on its grid
  have hdvd : 2 ^ (s + 1) ∣ m := hmsplit ▸ two_pow_succ_dvd heven s
  have hdvd' : 2 ^ (s + 1) ∣ n :=
    (Nat.pow_dvd_pow 2 (Nat.succ_le_succ hscale.1)).trans (hnsplit ▸ two_pow_succ_dvd heven' t)
  have hgap := Nat.le_of_dvd (Nat.sub_pos_of_lt hlt) (Nat.dvd_sub hdvd' hdvd)
  have hpos := Nat.two_pow_pos s
  have hnext : (a + 1) * 2 ^ s = m + 2 ^ s := by rw [Nat.succ_mul, hmsplit]
  refine ⟨(a + 1) * 2 ^ s, ⟨a + 1, s, rfl, by omega, hscale.2⟩, by omega, by omega⟩

/-! ## Doubles nearest to a number -/

namespace Double

theorem isMagnitude_units (d : Double) : IsMagnitude d.units := by
  cases d with
  | finite s m => exact m.representable
  | _ => exact isMagnitude_zero

/-- A finite double that a number is rounded to: none is nearer, and its significand is even if another one is as
near. -/
structure NearestTo (x : ℚ) (d : Double) : Prop where
  isFinite : d.isFinite = true
  distance_le : ∀ e : Double, e.isFinite = true → |d.toRat - x| ≤ |e.toRat - x|
  even_of_tie : ∀ e : Double, e.isFinite = true → e.toRat ≠ d.toRat → |d.toRat - x| = |e.toRat - x| →
    significand d.units % 2 = 0

theorem abs_toRat_sub (hq : 0 < q) (d : Double) :
    |d.toRat - p / q| = (distance (p * one) q d.signedUnits : ℚ) / (one * q) := by
  have hq' : (q : ℚ) ≠ 0 := Nat.cast_ne_zero.mpr hq.ne'
  have hpos : (0 : ℚ) ≤ one * q := mul_nonneg one_pos_rat.le (Nat.cast_nonneg q)
  rw [toRat, div_sub_div _ _ one_pos_rat.ne' hq', abs_div, abs_of_nonneg hpos, distance, Nat.cast_natAbs]
  push_cast
  rw [mul_comm (p : ℚ)]

theorem toRat_lt_toRat {d e : Double} : d.toRat < e.toRat ↔ d.signedUnits < e.signedUnits := by
  rw [toRat, toRat, div_lt_div_iff_of_pos_right one_pos_rat, Int.cast_lt]

theorem signedUnits_of_nonneg {d : Double} (hd : d.isNegative = false) : d.signedUnits = d.units := by
  cases d with
  | finite s m =>
    cases hd
    rfl
  | _ => rfl

/-- **Correct rounding.** The double of a ratio that does not overflow is nearest to it. -/
theorem nearestTo_ofRatio (hq : 0 < q) (h : p * one < overflow * q) : (ofRatio false p q).NearestTo (p / q) := by
  have hfinite : (ofRatio false p q).isFinite = true := (isFinite_ofUnits false hq).mpr h
  have hunits : (ofRatio false p q).units = Format.binary64.round (p * one) q := units_ofUnits hfinite
  have hsigned : (ofRatio false p q).signedUnits = Format.binary64.round (p * one) q := by
    rw [← hunits]
    exact signedUnits_of_nonneg (isNegative_ofUnits ..)
  have hscale : (0 : ℚ) < one * q := mul_pos one_pos_rat (Nat.cast_pos.mpr hq)
  generalize ofRatio false p q = d at *
  have hbest : ∀ e : Double, e.toRat ≠ d.toRat →
      |d.toRat - p / q| < |e.toRat - p / q| ∨
        |d.toRat - p / q| = |e.toRat - p / q| ∧ significand d.units % 2 = 0 := by
    intro e hne
    have hround := Format.round_distance (p := p * one) (x := e.signedUnits) hq
      (natAbs_signedUnits e ▸ e.isMagnitude_units) fun heq => hne (by rw [toRat, heq, ← hsigned, toRat])
    rwa [abs_toRat_sub hq, abs_toRat_sub hq, div_lt_div_iff_of_pos_right hscale, div_left_inj' hscale.ne', Nat.cast_lt,
      Nat.cast_inj, hsigned, hunits]
  refine ⟨hfinite, fun e _ => ?_, fun e _ hne htie => ?_⟩
  · by_cases heq : e.toRat = d.toRat
    · rw [heq]
    · rcases hbest e heq with hlt | ⟨htie, -⟩
      · exact hlt.le
      · exact htie.le
  · rcases hbest e hne with hlt | ⟨-, heven⟩
    · exact absurd htie hlt.ne
    · exact heven

/-- Between two doubles with even significands there is another one. -/
theorem exists_between {d e : Double} (hd : significand d.units % 2 = 0) (he : significand e.units % 2 = 0)
    (hlt : d.toRat < e.toRat) : ∃ f : Double, f.isFinite = true ∧ d.toRat < f.toRat ∧ f.toRat < e.toRat := by
  simp only [toRat_lt_toRat] at hlt ⊢
  have habs := natAbs_signedUnits d
  have habs' := natAbs_signedUnits e
  by_cases hlow : 0 ≤ d.signedUnits
  · obtain ⟨k, hk, hdk, hke⟩ := d.isMagnitude_units.exists_between e.isMagnitude_units hd he (by omega)
    have hsigned : (finite false ⟨k, hk⟩).signedUnits = k := rfl
    exact ⟨finite false ⟨k, hk⟩, rfl, by omega, by omega⟩
  · by_cases hhigh : e.signedUnits ≤ 0
    · obtain ⟨k, hk, hek, hkd⟩ := e.isMagnitude_units.exists_between d.isMagnitude_units he hd (by omega)
      have hsigned : (finite true ⟨k, hk⟩).signedUnits = -k := rfl
      exact ⟨finite true ⟨k, hk⟩, rfl, by omega, by omega⟩
    · have hsigned : (zero false).signedUnits = 0 := rfl
      exact ⟨zero false, rfl, by omega, by omega⟩

/-- A number is rounded to one number only. -/
theorem NearestTo.toRat_unique {x : ℚ} {d e : Double} (hd : d.NearestTo x) (he : e.NearestTo x) :
    d.toRat = e.toRat := by
  wlog hle : d.toRat ≤ e.toRat generalizing d e
  · exact (this he hd (le_of_not_ge hle)).symm
  by_contra hne
  have htie : |d.toRat - x| = |e.toRat - x| :=
    le_antisymm (hd.distance_le e he.isFinite) (he.distance_le d hd.isFinite)
  have heven := hd.even_of_tie e he.isFinite (Ne.symm hne) htie
  have heven' := he.even_of_tie d hd.isFinite hne htie.symm
  obtain ⟨f, hf, hdf, hfe⟩ := exists_between heven heven' (lt_of_le_of_ne hle hne)
  -- a double between two that are as near is nearer than both
  have hmiddle : d.toRat + e.toRat = 2 * x := by
    rcases abs_eq_abs.mp htie with heq | heq <;> linarith
  have hdistance := hd.distance_le f hf
  rw [abs_of_nonpos (by linarith), le_abs'] at hdistance
  rcases hdistance with hleft | hright <;> linarith

/-! ## Natural numbers -/

theorem two_pow_sub_mul (i j c : Nat) : (2 ^ (i + j) - 2 ^ j) * c = (2 ^ i - 1) * (2 ^ j * c) := by
  rw [Nat.pow_add, ← Nat.mul_assoc, Nat.sub_mul (2 ^ i), Nat.one_mul]

theorem two_pow_le_sub {i j : Nat} (h : i < j) : 2 ^ i ≤ 2 ^ j - 2 ^ i := by
  have hdouble := Nat.pow_le_pow_right Nat.two_pos h
  rw [Nat.pow_succ] at hdouble
  omega

/-- The least integer that is rounded to an infinity is in the middle between the greatest double and `2^1024`. -/
theorem overflow_eq : overflow = (2 ^ 1024 - 2 ^ 970) * one := by
  have hscale : Format.binary64.top - Format.binary64.precision - 1 = 970 + 1074 := rfl
  have hprecision : Format.binary64.precision + 1 = 54 := rfl
  have htop : 1024 = 54 + 970 := rfl
  rw [htop, two_pow_sub_mul 54 970 one, two_pow_mul_one 970, overflow, Format.overflow, hscale, hprecision]

theorem overflow_mul_one_le_iff : overflow * 1 ≤ n * one ↔ 2 ^ 1024 - 2 ^ 970 ≤ n := by
  have hbound := overflow_eq
  generalize 2 ^ 1024 - 2 ^ 970 = bound at *
  rw [Nat.mul_one, hbound, Nat.mul_le_mul_right_iff one_pos]

theorem ofInt_natCast (n : Nat) : ofInt n = ofRatio false n 1 := by
  have hsign : decide ((n : ℤ) < 0) = false := by simp
  rw [ofInt, hsign, Int.natAbs_natCast]

theorem nearestTo_ofInt (h : n < 2 ^ 1024 - 2 ^ 970) : (ofInt n).NearestTo n := by
  have hlt : n * one < overflow * 1 := Nat.lt_of_not_le fun hle => Nat.not_le_of_gt h (overflow_mul_one_le_iff.mp hle)
  have hnearest := nearestTo_ofRatio Nat.one_pos hlt
  rwa [Nat.cast_one, div_one, ← ofInt_natCast] at hnearest

theorem ofInt_eq_infinite_iff : ofInt n = .infinite false ↔ 2 ^ 1024 - 2 ^ 970 ≤ n := by
  rw [← overflow_mul_one_le_iff, ofInt_natCast, ofRatio]
  refine ⟨fun h => (isInfinite_ofUnits false Nat.one_pos).mp ?_, ofUnits_of_overflow false Nat.one_pos⟩
  rw [h]
  rfl

end Double

end DotGrid
