import DotGrid.Proofs.Double.Exact
import DotGrid.Value.Functions
import Mathlib.Tactic.Linarith

/-!
# Rounding functions are exact

A rounding function gives the double that is exactly the integer its rule gives for the exact value of its argument, and
it changes neither NaN nor an infinity (`Builtin.RoundsBy`). For this the integer has to have a double, which it has
because it is less than one away from the argument (`Double.holds_of_near`).

Rounding to the nearest integer compares the rounded difference to the floor with one half. The difference is rounded
only where it is above one half: a double that is less than one half away from the integer below it leaves a difference
that has a double (`Double.isMagnitude_emod`). So the comparison decides as that of the exact difference would
(`roundHalfUp?_eq`).
-/

namespace DotGrid

namespace Double

variable {x : Double}

/-! ## The difference to the floor -/

theorem floor_toRat (x : Double) : ⌊x.toRat⌋ = x.signedUnits / one := by
  rw [toRat, Rat.floor_intCast_div_natCast]

theorem fract_toRat (x : Double) : Int.fract x.toRat = (x.signedUnits % one).natAbs / one := by
  have hnonneg : 0 ≤ x.signedUnits % one := Int.emod_nonneg _ (by exact_mod_cast one_pos.ne')
  rw [toRat, Int.fract_div_intCast_eq_div_intCast_mod, Nat.cast_natAbs, abs_of_nonneg hnonneg]

theorem signedUnits_emod_lt (x : Double) : (x.signedUnits % one).natAbs < one := by
  have hone : (0 : ℤ) < one := by exact_mod_cast one_pos
  have hnonneg := Int.emod_nonneg x.signedUnits hone.ne'
  have hlt := Int.emod_lt_of_pos x.signedUnits hone
  omega

theorem two_halves : 2 ^ 1073 * 2 = one := by
  rw [one_eq_mul (i := 1073) (j := 1) rfl, Nat.pow_one]

/-- A finite double is less than one half, or it is a multiple of the units of a double of 53 bits below one half. -/
theorem small_or_dvd (hx : x.isFinite = true) :
    IsMagnitude x.signedUnits.natAbs ∧ x.signedUnits.natAbs * 2 < one ∨ ((2 ^ 1020 : Nat) : ℤ) ∣ x.signedUnits := by
  obtain ⟨s, m, rfl⟩ := exists_of_isFinite hx
  obtain ⟨a, k, hm, ha, -⟩ := m.representable
  have habs : (finite s m).signedUnits.natAbs = m.units := natAbs_signedUnits _
  rw [← Int.natAbs_dvd_natAbs, Int.natAbs_natCast, habs]
  rcases Nat.lt_or_ge k 1020 with hlt | hge
  · refine .inl ⟨m.representable, ?_⟩
    have hpow : 2 ^ (53 + k) ≤ 2 ^ 1073 := pow_le_pow_right₀ one_le_two (by omega)
    calc m.units * 2 < 2 ^ 53 * 2 ^ k * 2 := by
          rw [hm]
          exact Nat.mul_lt_mul_of_pos_right (Nat.mul_lt_mul_of_pos_right ha (Nat.two_pow_pos k)) Nat.two_pos
      _ = 2 ^ (53 + k) * 2 := by rw [Nat.pow_add]
      _ ≤ 2 ^ 1073 * 2 := Nat.mul_le_mul_right 2 hpow
      _ = one := two_halves
  · exact .inr (hm ▸ Nat.dvd_mul_left_of_dvd (pow_dvd_pow 2 hge) a)

/-- The part of a double behind its floor has a double if it is less than one half. -/
theorem isMagnitude_emod (hx : x.isFinite = true) (h : (x.signedUnits % one).natAbs * 2 < one) :
    IsMagnitude (x.signedUnits % one).natAbs := by
  have hone : (0 : ℤ) < one := by exact_mod_cast one_pos
  rcases small_or_dvd hx with ⟨hsame, hsmall⟩ | hdvd
  · -- a negative double of this size leaves a part of more than one half
    have hsign : 0 ≤ x.signedUnits := by
      by_contra hneg
      have hadd : x.signedUnits % one = x.signedUnits + one := by
        rw [← Int.add_emod_right]
        exact Int.emod_eq_of_lt (by omega) (by omega)
      omega
    rwa [Int.emod_eq_of_lt hsign (by omega)]
  · have hdvdOne : ((2 ^ 1020 : Nat) : ℤ) ∣ one := Int.natCast_dvd_natCast.mpr (two_pow_dvd_one (k := 1020) (by decide))
    have hdvdPart : 2 ^ 1020 ∣ (x.signedUnits % one).natAbs := by
      rw [← Int.natCast_dvd, Int.emod_def]
      exact dvd_sub hdvd (hdvdOne.mul_right _)
    refine isMagnitude_of_dvd hdvdPart ?_ (by decide)
    have hhalf := two_halves
    have hexponent : 53 + 1020 = 1073 := rfl
    rw [hexponent]
    omega

theorem units_sub_floor (hx : x.isFinite = true) :
    (x.sub (ofInt ⌊x.toRat⌋)).units = Format.binary64.round (x.signedUnits % one).natAbs 1 := by
  have hfloor : Holds ⌊x.toRat⌋ := by
    refine holds_of_near hx ?_ (Int.lt_floor_add_one _)
    linarith [Int.floor_le x.toRat]
  have hsum : x.signedUnits + (ofInt ⌊x.toRat⌋).neg.signedUnits = x.signedUnits % one := by
    rw [signedUnits_neg, signedUnits_ofInt hfloor, floor_toRat, Int.emod_def, Int.mul_comm, Int.sub_eq_add_neg]
  have hlt : (x.signedUnits % one).natAbs < overflow := by
    have hpart := x.signedUnits_emod_lt
    have hone := Magnitude.zero.units_lt_overflow
    omega
  rw [sub, units_add hx (by simpa using isFinite_ofInt_of_holds hfloor) (by rwa [hsum]), hsum]

/-- **The rounded difference to the floor is on the same side of one half as the exact one.** -/
theorem units_sub_floor_lt_iff (hx : x.isFinite = true) :
    (x.sub (ofInt ⌊x.toRat⌋)).units * 2 < one ↔ Int.fract x.toRat < 1 / 2 := by
  rw [units_sub_floor hx, fract_toRat, div_lt_div_iff₀ one_pos_rat two_pos]
  norm_cast
  rw [Nat.one_mul]
  constructor
  · intro h
    by_contra hlarge
    have hhalf := two_halves
    have hround : 2 ^ 1073 ≤ Format.binary64.round (x.signedUnits % one).natAbs 1 :=
      Format.two_pow_le_round (b := 1073) (by decide) (by decide) Nat.one_pos (by omega)
    omega
  · intro h
    rwa [Format.round_eq_self (isMagnitude_emod hx h)]

end Double

/-! ## Rules -/

theorem floor_add_half (q : ℚ) : ⌊q + 1 / 2⌋ = if Int.fract q < 1 / 2 then ⌊q⌋ else ⌊q⌋ + 1 := by
  have hsplit := Int.floor_add_fract q
  have hnonneg := Int.fract_nonneg q
  have hlt := Int.fract_lt_one q
  split
  · rw [Int.floor_eq_iff]
    constructor <;> linarith
  · rw [Int.floor_eq_iff]
    push_cast
    constructor <;> linarith

theorem roundHalfUp?_eq_none {x : Double} (hx : x.isFinite = false) : roundHalfUp? x = none := by
  rw [roundHalfUp?, Double.floor?_eq_none hx]
  rfl

theorem roundHalfUp?_eq {x : Double} (hx : x.isFinite = true) : roundHalfUp? x = some ⌊x.toRat + 1 / 2⌋ := by
  simp only [roundHalfUp?, Double.floor?_eq hx, Option.map_some, Double.units_sub_floor_lt_iff hx, floor_add_half]

/-- The function rounds by a rule: it gives the double that is exactly the integer of the rule, if its argument is
finite, and else its argument. What it gives stays as it is. -/
def Builtin.RoundsBy (b : Builtin) (rule : ℚ → ℤ) : Prop :=
  ∀ x : Double, ∃ d : Double, b.apply [.real x] = .ok (.real d) ∧ b.apply [.real d] = .ok (.real d) ∧
    (x.isFinite = true → d.isFinite = true ∧ d.toRat = rule x.toRat) ∧ (x.isFinite = false → d = x)

section

variable {f : Double → Option Int} {x : Double}

theorem converted_real (x : Double) : Value.converted (.real x) = .ok x :=
  rfl

theorem rounding_of_eq_some {n : Int} (h : f x = some n) : rounding f (.real x) = .ok (.real (.ofInt n)) := by
  simp only [rounding, converted_real, bind, Except.bind, h, whole]

theorem rounding_of_eq_none (h : f x = none) : rounding f (.real x) = .ok (.real x) := by
  simp only [rounding, converted_real, bind, Except.bind, h]

end

/-- A function that takes its integer from a rule rounds by that rule if the integer is less than one away. -/
theorem Builtin.roundsBy_of_near {b : Builtin} {f : Double → Option Int} {rule : ℚ → ℤ}
    (hb : ∀ v, b.apply [v] = rounding f v) (hf : ∀ x : Double, x.isFinite = true → f x = some (rule x.toRat))
    (hnone : ∀ x : Double, x.isFinite = false → f x = none)
    (hnear : ∀ q : ℚ, (rule q : ℚ) - 1 < q ∧ q < rule q + 1) : b.RoundsBy rule := by
  intro x
  cases hx : x.isFinite with
  | false =>
    have hsame : b.apply [.real x] = .ok (.real x) := (hb _).trans (rounding_of_eq_none (hnone x hx))
    exact ⟨x, hsame, hsame, nofun, fun _ => rfl⟩
  | true =>
    have hholds : Double.Holds (rule x.toRat) := Double.holds_of_near hx (hnear _).1 (hnear _).2
    have hfinite := Double.isFinite_ofInt_of_holds hholds
    have hvalue := Double.toRat_ofInt hholds
    -- an integer is its own integer, as no other one is less than one away
    have hself : rule (rule x.toRat : ℚ) = rule x.toRat := by
      obtain ⟨hlow, hhigh⟩ := hnear (rule x.toRat)
      have hbelow : rule (rule x.toRat : ℚ) - 1 < rule x.toRat := by exact_mod_cast hlow
      have habove : rule x.toRat < rule (rule x.toRat : ℚ) + 1 := by exact_mod_cast hhigh
      omega
    have hagain : f (.ofInt (rule x.toRat)) = some (rule x.toRat) := by
      rw [hf _ hfinite, hvalue, hself]
    exact ⟨.ofInt (rule x.toRat), (hb _).trans (rounding_of_eq_some (hf x hx)),
      (hb _).trans (rounding_of_eq_some hagain), fun _ => ⟨hfinite, hvalue⟩, nofun⟩

/-- **The rounding functions are exact.** Each of them gives, for a finite double, the double that is exactly an
integer: the greatest one that is not above the argument, the least one that is not below it, the one toward zero, and
the greatest one that is not above the argument and one half, where these are taken of the exact value. NaN and the
infinities stay as they are, and so does what a function gives. -/
theorem rounding_exact :
    Builtin.floor.RoundsBy (fun q => ⌊q⌋) ∧ Builtin.ceil.RoundsBy (fun q => ⌈q⌉) ∧
      Builtin.trunc.RoundsBy (fun q => if 0 ≤ q then ⌊q⌋ else ⌈q⌉) ∧ Builtin.round.RoundsBy fun q => ⌊q + 1 / 2⌋ := by
  refine ⟨?_, ?_, ?_, ?_⟩
  · refine Builtin.roundsBy_of_near (fun _ => rfl) (fun x => Double.floor?_eq) (fun x => Double.floor?_eq_none)
      fun q => ?_
    have hlow := Int.floor_le q
    have hhigh := Int.lt_floor_add_one q
    constructor <;> linarith
  · refine Builtin.roundsBy_of_near (fun _ => rfl) (fun x => Double.ceiling?_eq) (fun x => Double.ceiling?_eq_none)
      fun q => ?_
    have hlow := Int.le_ceil q
    have hhigh := Int.ceil_lt_add_one q
    constructor <;> linarith
  · exact Builtin.roundsBy_of_near (fun _ => rfl) (fun x => Double.truncate?_eq) (fun x => Double.truncate?_eq_none)
      towardZero_near
  · refine Builtin.roundsBy_of_near (fun _ => rfl) (fun x => roundHalfUp?_eq) (fun x => roundHalfUp?_eq_none)
      fun q => ?_
    have hlow := Int.floor_le (q + 1 / 2)
    have hhigh := Int.lt_floor_add_one (q + 1 / 2)
    constructor <;> linarith

end DotGrid
