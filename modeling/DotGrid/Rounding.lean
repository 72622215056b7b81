/-!
# Rounding to the nearest point of a binary grid

`nearest p q` is the integer nearest to `p / q`, the even one of two. A `Format` describes a binary floating-point
format over the common unit `2^-1074`, and `Format.round` takes any ratio of units to the format's nearest value.
A rounded binary64 value below the format's bound has at most 53 significant bits (`isMagnitude_round`).
-/

namespace DotGrid

-- powers are those of the core library, whatever else is in scope
attribute [local instance (20000)] instPowNat

/-- The integer nearest to `p / q`, the even one of two equally near. -/
def nearest (p q : Nat) : Nat :=
  let below := p / q
  let excess := 2 * (p % q)
  if excess < q then below
  else if q < excess then below + 1
  else below + below % 2

theorem div_le_nearest (p q : Nat) : p / q ≤ nearest p q := by
  simp only [nearest]
  split
  · exact Nat.le_refl _
  · split <;> omega

theorem nearest_le_div_add_one (p q : Nat) : nearest p q ≤ p / q + 1 := by
  simp only [nearest]
  split
  · omega
  · split <;> omega

/-- A binary floating-point format: its values have at most `precision` significant bits, are multiples of
`2^finest` units and lie below `2^top` units, a unit being `2^-1074`. -/
structure Format where
  precision : Nat
  finest : Nat
  top : Nat
deriving DecidableEq

namespace Format

/-- The 64-bit format, whose least positive value is the unit. -/
def binary64 : Format := ⟨53, 0, 2098⟩

/-- The 32-bit format. -/
def binary32 : Format := ⟨24, 925, 1202⟩

/-- The exponent, over the unit, of the distance between the format's values around `p / q` units. -/
def spacing (f : Format) (p q : Nat) : Nat :=
  max f.finest ((p / q).log2 + 1 - f.precision)

/-- The format's value nearest to `p / q` units, in units, with no bound on its size. -/
def round (f : Format) (p q : Nat) : Nat :=
  nearest p (q * 2 ^ f.spacing p q) * 2 ^ f.spacing p q

/-- The integer part of a ratio, on the grid of its own spacing, fits the precision. -/
theorem div_spacing_lt (f : Format) (p q : Nat) : p / (q * 2 ^ f.spacing p q) < 2 ^ f.precision := by
  rw [← Nat.div_div_eq_div_mul, Nat.div_lt_iff_lt_mul (Nat.two_pow_pos _), ← Nat.pow_add]
  refine Nat.lt_of_lt_of_le (Nat.lt_log2_self (n := p / q)) (Nat.pow_le_pow_right (by omega) ?_)
  simp only [spacing]
  omega

/-- Off the finest grid, the integer part fills the precision. -/
theorem le_div_spacing {f : Format} {p q : Nat} (hf : 0 < f.precision) (h : f.spacing p q ≠ f.finest) :
    2 ^ (f.precision - 1) ≤ p / (q * 2 ^ f.spacing p q) := by
  have hk : (p / q).log2 = f.precision - 1 + f.spacing p q := by
    simp only [spacing] at h ⊢
    omega
  have hpos : p / q ≠ 0 := by
    intro h0
    rw [h0] at hk
    have hlog : (0 : Nat).log2 = 0 := by simp
    have hspacing : f.spacing p q = max f.finest (0 + 1 - f.precision) := by rw [spacing, h0, hlog]
    omega
  rw [← Nat.div_div_eq_div_mul, Nat.le_div_iff_mul_le (Nat.two_pow_pos _), ← Nat.pow_add, ← hk]
  exact Nat.log2_self_le hpos

end Format

/-- A number of units that a finite double can have: 53 significant bits on one of 2046 scales. -/
def IsMagnitude (n : Nat) : Prop :=
  ∃ m k : Nat, n = m * 2 ^ k ∧ m < 2 ^ (53 : Nat) ∧ k ≤ 2045

theorem isMagnitude_zero : IsMagnitude 0 :=
  ⟨0, 0, rfl, Nat.two_pow_pos 53, Nat.zero_le _⟩

/-- **Rounding yields doubles**: below the bound of the format the rounded ratio is a double's magnitude. -/
theorem isMagnitude_round {p q : Nat} (h : Format.binary64.round p q < 2 ^ Format.binary64.top) :
    IsMagnitude (Format.binary64.round p q) := by
  have hlt : p / (q * 2 ^ Format.binary64.spacing p q) < 2 ^ (53 : Nat) := Format.binary64.div_spacing_lt p q
  have hlo := div_le_nearest p (q * 2 ^ Format.binary64.spacing p q)
  have hhi := nearest_le_div_add_one p (q * 2 ^ Format.binary64.spacing p q)
  have hfull : Format.binary64.spacing p q ≠ 0 → 2 ^ (52 : Nat) ≤ p / (q * 2 ^ Format.binary64.spacing p q) :=
    Format.le_div_spacing (by decide)
  have htop : Format.binary64.top = 2098 := rfl
  rw [htop] at h
  unfold Format.round at h ⊢
  generalize Format.binary64.spacing p q = k at *
  generalize nearest p (q * 2 ^ k) = n at *
  by_cases hn : n = 2 ^ (53 : Nat)
  · subst hn
    rw [← Nat.pow_add] at h
    have hk := (Nat.pow_lt_pow_iff_right (by omega)).mp h
    exact ⟨2 ^ (52 : Nat), k + 1, by rw [← Nat.pow_add, ← Nat.pow_add]; congr 1; omega,
      Nat.pow_lt_pow_right (by omega) (by omega), by omega⟩
  · refine ⟨n, k, rfl, by omega, ?_⟩
    by_cases hk : k = 0
    · omega
    · have h52 : 2 ^ (52 : Nat) ≤ n := Nat.le_trans (hfull hk) hlo
      have : 2 ^ (52 + k) < 2 ^ (2098 : Nat) := by
        rw [Nat.pow_add]
        exact Nat.lt_of_le_of_lt (Nat.mul_le_mul_right _ h52) h
      have := (Nat.pow_lt_pow_iff_right (by omega)).mp this
      omega

end DotGrid
