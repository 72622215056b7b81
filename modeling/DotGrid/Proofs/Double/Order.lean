import DotGrid.Proofs.Double.Exact
import Mathlib.Data.Nat.Log

/-!
# The order of numbers

Numbers are compared by their places on the line of units. `Measure.Behind` is this order in one of the two directions
of the line, and `Measure.Furthest` says which place some places reach in a direction. There is only one
(`Furthest.unique`), whatever the order of the places is, and two lists of places reach what their two furthest places
reach (`Furthest.append`).

A greater number is not rounded to a smaller one (`Format.round_mono`). So the places of the doubles that numbers are
rounded to are in the order of the numbers (`Measure.Behind.rounded`).
-/

namespace DotGrid

variable {p p' : Nat}

/-! ## Rounding keeps the order -/

theorem nearest_mono (h : p ≤ p') (q : Nat) : nearest p q ≤ nearest p' q := by
  rcases Nat.lt_or_eq_of_le (Nat.div_le_div_right h : p / q ≤ p' / q) with hlt | heq
  · calc nearest p q ≤ p / q + 1 := nearest_le_div_add_one p q
      _ ≤ p' / q := hlt
      _ ≤ nearest p' q := div_le_nearest p' q
  · have hsplit := Nat.div_add_mod p q
    have hsplit' := Nat.div_add_mod p' q
    rw [heq] at hsplit
    have hmod : p % q ≤ p' % q := by omega
    simp only [nearest, heq]
    split_ifs <;> omega

namespace Format

theorem spacing_mono (f : Format) (h : p ≤ p') : f.spacing p 1 ≤ f.spacing p' 1 := by
  have hlog : p.log2 ≤ p'.log2 := by
    rw [Nat.log2_eq_log_two, Nat.log2_eq_log_two]
    exact Nat.log_mono_right h
  simp only [spacing, Nat.div_one]
  omega

/-- A greater number is not rounded to a smaller one. -/
theorem round_mono {f : Format} (hf : 0 < f.precision) (h : p ≤ p') : f.round p 1 ≤ f.round p' 1 := by
  rcases Nat.lt_or_eq_of_le (f.spacing_mono h) with hlt | heq
  · -- a power of two is between two numbers that have different grids around them
    have hfinest : f.finest ≤ f.spacing p 1 := Nat.le_max_left _ _
    have hend := f.div_spacing_lt p 1
    have hstart := le_div_spacing (f := f) (p := p') (q := 1) hf (by omega)
    rw [Nat.one_mul] at hend hstart
    have hp : p ≤ 2 ^ (f.precision + f.spacing p 1) * 1 := by
      rw [Nat.mul_one, Nat.pow_add]
      exact Nat.le_of_lt ((Nat.div_lt_iff_lt_mul (Nat.two_pow_pos _)).mp hend)
    have hp' : 2 ^ (f.precision - 1 + f.spacing p' 1) * 1 ≤ p' := by
      rw [Nat.mul_one, Nat.pow_add]
      exact (Nat.le_div_iff_mul_le (Nat.two_pow_pos _)).mp hstart
    calc f.round p 1 ≤ 2 ^ (f.precision + f.spacing p 1) := round_le_two_pow hf (by omega) hp
      _ ≤ 2 ^ (f.precision - 1 + f.spacing p' 1) := Nat.pow_le_pow_right (by decide) (by omega)
      _ ≤ f.round p' 1 := two_pow_le_round hf (by omega) Nat.one_pos hp'
  · rw [round, round, heq]
    exact Nat.mul_le_mul_right _ (nearest_mono h _)

end Format

namespace Measure

variable {ahead : Ordering} {a b c m m' : Measure} {S T : List Measure}

/-! ## Directions -/

theorem compare?_swap (a b : Measure) : compare? b a = (compare? a b).map Ordering.swap := by
  cases a <;> cases b <;> simp [compare?, Int.compare_swap]

theorem exists_compare? (ha : a ≠ .undefined) (hb : b ≠ .undefined) : ∃ o, compare? a b = some o := by
  cases a <;> cases b <;> simp_all [compare?]

/-- Both places are defined, and the first one is not ahead of the second one in a direction: `.gt` is the direction
to the greater numbers and `.lt` that to the smaller ones. -/
def Behind (ahead : Ordering) (a b : Measure) : Prop := ∃ o, compare? a b = some o ∧ o ≠ ahead

theorem behind_or_ahead (ahead : Ordering) (ha : a ≠ .undefined) (hb : b ≠ .undefined) :
    Behind ahead a b ∨ compare? a b = some ahead := by
  obtain ⟨o, ho⟩ := exists_compare? ha hb
  by_cases h : o = ahead
  · exact .inr (h ▸ ho)
  · exact .inl ⟨o, ho, h⟩

theorem behind_swap : Behind ahead.swap a b ↔ Behind ahead b a := by
  unfold Behind
  rw [compare?_swap b a]
  constructor
  · rintro ⟨o, ho, hne⟩
    obtain ⟨o', ho', rfl⟩ := Option.map_eq_some_iff.mp ho
    exact ⟨o', ho', fun h => hne (h ▸ rfl)⟩
  · rintro ⟨o, ho, hne⟩
    exact ⟨o.swap, by rw [ho]; rfl, by simpa using hne⟩

theorem behind_of_ahead (hne : ahead ≠ .eq) (h : compare? a b = some ahead) : Behind ahead b a := by
  refine ⟨ahead.swap, by rw [compare?_swap, h]; rfl, fun hswap => hne ?_⟩
  cases ahead <;> simp_all

theorem Behind.defined (h : Behind ahead a b) : a ≠ .undefined ∧ b ≠ .undefined := by
  obtain ⟨o, ho, -⟩ := h
  cases a <;> cases b <;> simp_all [compare?]

theorem Behind.refl (hne : ahead ≠ .eq) (ha : a ≠ .undefined) : Behind ahead a a := by
  refine ⟨.eq, ?_, Ne.symm hne⟩
  cases a <;> simp_all [compare?]

section

variable {n n' : ℤ}

@[simp] theorem units_behind_units : Behind .gt (.units n) (.units n') ↔ n ≤ n' := by
  simp [Behind, compare?, compare_gt_iff_gt]

@[simp] theorem behind_below : Behind .gt a .below ↔ a = .below := by
  cases a <;> simp [Behind, compare?]

@[simp] theorem behind_above : Behind .gt a .above ↔ a ≠ .undefined := by
  cases a <;> simp [Behind, compare?]

@[simp] theorem below_behind : Behind .gt .below a ↔ a ≠ .undefined := by
  cases a <;> simp [Behind, compare?]

@[simp] theorem above_behind : Behind .gt .above a ↔ a = .above := by
  cases a <;> simp [Behind, compare?]

end

theorem Behind.trans (hne : ahead ≠ .eq) (hab : Behind ahead a b) (hbc : Behind ahead b c) : Behind ahead a c := by
  have greater : ∀ {a b c : Measure}, Behind .gt a b → Behind .gt b c → Behind .gt a c := by
    intro a b c hab hbc
    cases b with
    | undefined => exact absurd rfl hab.defined.2
    | below => exact (behind_below.mp hab).symm ▸ hbc
    | above => exact (above_behind.mp hbc).symm ▸ hab
    | units n =>
      have ha := hab.defined.1
      have hc := hbc.defined.2
      cases a <;> cases c <;> simp_all
      omega
  cases ahead with
  | eq => exact absurd rfl hne
  | gt => exact greater hab hbc
  | lt => exact behind_swap.mpr (greater (behind_swap.mp hbc) (behind_swap.mp hab))

/-- Two places that are not ahead of each other are the same. -/
theorem Behind.antisymm (hne : ahead ≠ .eq) (hab : Behind ahead a b) (hba : Behind ahead b a) : a = b := by
  obtain ⟨o, ho, hoa⟩ := hab
  obtain ⟨o', ho', hoa'⟩ := hba
  rw [compare?_swap, ho] at ho'
  cases ho'
  have heq : o = .eq := by cases o <;> cases ahead <;> simp_all
  rw [heq] at ho
  cases a <;> cases b <;> simp_all [compare?]

/-! ## Opposite places -/

/-- The opposite place. -/
def neg : Measure → Measure
  | .undefined => .undefined
  | .below => .above
  | .units n => .units (-n)
  | .above => .below

@[simp] theorem neg_neg (a : Measure) : a.neg.neg = a := by
  cases a <;> simp [neg]

@[simp] theorem neg_eq_undefined_iff : a.neg = .undefined ↔ a = .undefined := by
  cases a <;> simp [neg]

theorem compare?_neg (a b : Measure) : compare? a.neg b.neg = compare? b a := by
  cases a <;> cases b <;> simp [compare?, neg, compare, compareOfLessAndEq, eq_comm]

/-- Negation turns the line round. -/
theorem behind_neg : Behind ahead a.neg b.neg ↔ Behind ahead b a := by
  rw [Behind, compare?_neg, Behind]

/-! ## The furthest place -/

/-- The end of the line that all places are ahead of. -/
def origin : Ordering → Measure
  | .gt => .below
  | _ => .above

theorem origin_behind (hne : ahead ≠ .eq) (ha : a ≠ .undefined) : Behind ahead (origin ahead) a := by
  cases ahead <;> cases a <;> simp_all [origin, Behind, compare?]

theorem origin_ne_undefined : origin ahead ≠ .undefined := by
  cases ahead <;> simp [origin]

/-- The place that some places reach in a direction, from the origin on: it is undefined if one of them is, and else
none of them is ahead of it. -/
structure Furthest (ahead : Ordering) (S : List Measure) (m : Measure) : Prop where
  undefined_iff : m = .undefined ↔ .undefined ∈ S
  attained : m ≠ .undefined → m = origin ahead ∨ m ∈ S
  bound : m ≠ .undefined → ∀ a ∈ S, Behind ahead a m

namespace Furthest

/-- What is not behind any of the places is not behind the furthest one. -/
theorem least (hne : ahead ≠ .eq) (h : Furthest ahead S m) (hm : m ≠ .undefined) (hc : c ≠ .undefined)
    (hall : ∀ a ∈ S, Behind ahead a c) : Behind ahead m c := by
  rcases h.attained hm with rfl | hmem
  · exact origin_behind hne hc
  · exact hall m hmem

theorem unique (hne : ahead ≠ .eq) (h : Furthest ahead S m) (h' : Furthest ahead T m') (hmem : ∀ a, a ∈ S ↔ a ∈ T) :
    m = m' := by
  by_cases hm : m = .undefined
  · rw [hm, h'.undefined_iff.mpr ((hmem _).mp (h.undefined_iff.mp hm))]
  · have hm' : m' ≠ .undefined := fun hu => hm (h.undefined_iff.mpr ((hmem _).mpr (h'.undefined_iff.mp hu)))
    refine Behind.antisymm hne ?_ ?_
    · exact h.least hne hm hm' fun a ha => h'.bound hm' a ((hmem a).mp ha)
    · exact h'.least hne hm' hm fun a ha => h.bound hm a ((hmem a).mpr ha)

/-- Two lists reach what their furthest places reach. -/
theorem append (hne : ahead ≠ .eq) (hS : Furthest ahead S a) (hT : Furthest ahead T b)
    (h : Furthest ahead [a, b] m) : Furthest ahead (S ++ T) m := by
  have hundefined : m = .undefined ↔ a = .undefined ∨ b = .undefined := by
    rw [h.undefined_iff]
    simp [eq_comm]
  refine ⟨?_, fun hm => ?_, fun hm c hc => ?_⟩
  · rw [hundefined, hS.undefined_iff, hT.undefined_iff, List.mem_append]
  · have hab := mt hundefined.mpr hm
    rw [not_or] at hab
    rw [List.mem_append]
    rcases h.attained hm with horigin | hmem
    · exact .inl horigin
    · rcases List.mem_pair.mp hmem with rfl | rfl
      · exact (hS.attained hm).imp_right .inl
      · exact (hT.attained hm).imp_right .inr
  · have ha := h.bound hm a (by simp)
    have hb := h.bound hm b (by simp)
    rcases List.mem_append.mp hc with hc | hc
    · exact (hS.bound ha.defined.1 c hc).trans hne ha
    · exact (hT.bound hb.defined.1 c hc).trans hne hb

/-- The furthest place in one direction is opposite to the furthest one of the opposite places in the other
direction. -/
theorem neg (hne : ahead ≠ .eq) (h : Furthest ahead S m) : Furthest ahead.swap (S.map Measure.neg) m.neg := by
  refine ⟨?_, fun hm => ?_, fun hm c hc => ?_⟩
  · rw [neg_eq_undefined_iff, h.undefined_iff, List.mem_map]
    simp
  · rw [Ne, neg_eq_undefined_iff] at hm
    refine (h.attained hm).imp (fun horigin => ?_) (List.mem_map_of_mem (f := Measure.neg))
    rw [horigin]
    cases ahead <;> simp_all [origin, Measure.neg]
  · rw [Ne, neg_eq_undefined_iff] at hm
    obtain ⟨a, ha, rfl⟩ := List.mem_map.mp hc
    exact behind_swap.mpr (behind_neg.mpr (h.bound hm a ha))

end Furthest

/-! ## Places of doubles -/

/-- An integer of units, rounded to that of a double. -/
def roundedUnits (n : ℤ) : ℤ :=
  if n < 0 then -(Format.binary64.round n.natAbs 1 : ℤ) else Format.binary64.round n.natAbs 1

theorem roundedUnits_mono {m n : ℤ} (h : m ≤ n) : roundedUnits m ≤ roundedUnits n := by
  have hpos : 0 < Format.binary64.precision := by decide
  unfold roundedUnits
  split
  · split
    · have hround := Format.round_mono hpos (show n.natAbs ≤ m.natAbs by omega)
      omega
    · omega
  · have hround := Format.round_mono hpos (show m.natAbs ≤ n.natAbs by omega)
    split <;> omega

/-- The place of the double that a number is rounded to, if there is a finite one. -/
def rounded : Measure → Measure
  | .units n => .units (roundedUnits n)
  | m => m

@[simp] theorem rounded_eq_undefined_iff : a.rounded = .undefined ↔ a = .undefined := by
  cases a <;> simp [rounded]

theorem Behind.rounded (h : Behind ahead a b) (hne : ahead ≠ .eq) : Behind ahead a.rounded b.rounded := by
  have greater : ∀ {a b : Measure}, Behind .gt a b → Behind .gt a.rounded b.rounded := by
    intro a b h
    have hdefined := h.defined
    cases a <;> cases b <;> simp_all [Measure.rounded, roundedUnits_mono]
  cases ahead with
  | eq => exact absurd rfl hne
  | gt => exact greater h
  | lt => exact behind_swap.mpr (greater (behind_swap.mp h))

/-- Rounding does not depend on the sign. -/
theorem roundedUnits_neg (u : ℤ) : roundedUnits (-u) = -roundedUnits u := by
  rw [roundedUnits, roundedUnits, Int.natAbs_neg]
  rcases lt_trichotomy u 0 with h | rfl | h
  · rw [if_neg (by omega), if_pos h, Int.neg_neg]
  · simp [Format.round_eq_zero (p := 0) (q := 1) (by decide)]
  · rw [if_pos (by omega), if_neg (by omega)]

theorem rounded_neg (a : Measure) : a.neg.rounded = a.rounded.neg := by
  cases a with
  | units n => rw [neg, Measure.rounded, Measure.rounded, neg, roundedUnits_neg]
  | _ => rfl

end Measure

namespace Double

open DotGrid.Measure

theorem measure_eq_undefined_iff {d : Double} : d.measure = .undefined ↔ d = .nan := by
  cases d with
  | infinite s => cases s <;> simp [measure]
  | _ => simp [measure]

theorem measure_neg (d : Double) : d.neg.measure = d.measure.neg := by
  cases d with
  | nan => rfl
  | infinite s => cases s <;> rfl
  | finite s k => cases s <;> simp [neg, measure, Measure.neg]

theorem measure_ofInt {n : ℤ} (h : (ofInt n).isFinite = true) :
    (ofInt n).measure = .units (roundedUnits (n * one)) := by
  have hsign : (ofInt n).isNegative = decide (n < 0) := by rw [ofInt, ofRatio, isNegative_ofUnits]
  have hunits : (ofInt n).units = Format.binary64.round (n.natAbs * one) 1 := by
    rw [ofInt, ofRatio] at h ⊢
    exact units_ofUnits h
  have hpos : (0 : ℤ) < one := by exact_mod_cast one_pos
  have hneg : n * (one : ℤ) < 0 ↔ n < 0 := by
    rw [← Int.mul_lt_mul_right hpos (b := n), Int.zero_mul]
  obtain ⟨s, k, hk⟩ := exists_of_isFinite h
  rw [hk, isNegative] at hsign
  rw [hk, units] at hunits
  rw [hk, measure, hsign, hunits, roundedUnits, Int.natAbs_mul, Int.natAbs_natCast]
  simp only [hneg, decide_eq_true_eq]

/-- The place of a double is that of a double. -/
theorem rounded_measure (d : Double) : d.measure.rounded = d.measure := by
  cases d with
  | nan => rfl
  | infinite s => cases s <;> rfl
  | finite s k =>
    have hround : Format.binary64.round k.units 1 = k.units := Format.round_eq_self k.representable
    have hunits : ∀ u : ℤ, u.natAbs = k.units → roundedUnits u = u := by
      intro u hu
      rw [roundedUnits, hu, hround]
      omega
    rw [measure, Measure.rounded, hunits]
    cases s <;> simp

end Double

end DotGrid
