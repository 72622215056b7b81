import DotGrid.Frame.Drawing
import DotGrid.Proofs.Double.Exact

/-!
# Clamped frames look the same

A value is clamped in two steps: it is made finite, so that the infinities become the greatest numbers, and then it is
clipped to the range from minus one to one (`Double.clamped_eq_clip`). The drawing treats NaN, the infinities and
numbers of a size above one in its own way, and it has the same character for a value and for the clamped value
(`Double.glyph_clamped`). So a frame and its clamped frame have the same text (`text_clamped`).
-/

namespace DotGrid

theorem Measure.compare?_lt_iff {a b : Int} : compare? (.units a) (.units b) = some .lt ↔ a < b := by
  rw [compare?, Option.some_inj, Int.compare_eq_lt]

theorem Measure.compare?_gt_iff {a b : Int} : compare? (.units a) (.units b) = some .gt ↔ b < a := by
  rw [compare?, Option.some_inj, Int.compare_eq_gt]

theorem isMagnitude_mul_two_pow {m k : Nat} (hm : m < 2 ^ 53) (hk : k ≤ 2045) : IsMagnitude (m * 2 ^ k) :=
  ⟨m, k, rfl, hm, hk⟩

/-- The size of the greatest finite doubles. -/
def Magnitude.greatest : Magnitude :=
  ⟨(2 ^ 53 - 1) * 2 ^ 2045, isMagnitude_mul_two_pow (by decide) (Nat.le_refl 2045)⟩

namespace Double

open DotGrid.Measure (compare?_lt_iff compare?_gt_iff)

/-- A double as a finite number: zero for NaN, and the greatest doubles for the infinities. -/
def toFinite : Double → Double
  | .nan => zero false
  | .infinite s => .finite s .greatest
  | .finite s m => .finite s m

/-- The lower bound for what is below it, and the upper bound for what is above it. -/
def clip (d low high : Double) : Double :=
  let raised := if Measure.compare? d.measure low.measure = some .lt then low else d
  if Measure.compare? raised.measure high.measure = some .gt then high else raised

/-! ## Two steps of clamping -/

theorem one_lt_greatest : one < Magnitude.greatest.units := by decide +kernel

/-- The double of one and that of minus one have the same size. -/
theorem exists_ofInt_one :
    ∃ m : Magnitude, m.units = one ∧ ofInt 1 = .finite false m ∧ ofInt (-1) = .finite true m := by
  have hholds : Holds 1 := holds_of_natAbs_le (by decide)
  have hholds' : Holds (-1) := holds_of_natAbs_le (by decide)
  refine ⟨⟨_, hholds⟩, ?_, ofInt_eq hholds, (ofInt_eq hholds').trans (congrArg _ (Magnitude.eq_of_units_eq ?_))⟩
  · simp only [Int.natAbs_one, Nat.one_mul]
  · simp only [Int.natAbs_neg]

theorem measure_ofInt_one : (ofInt 1).measure = .units one := by
  obtain ⟨m, hm, hone, -⟩ := exists_ofInt_one
  rw [hone, ← hm]
  rfl

theorem measure_ofInt_neg_one : (ofInt (-1)).measure = .units (-one) := by
  obtain ⟨m, hm, -, hone⟩ := exists_ofInt_one
  rw [hone, ← hm]
  rfl

theorem withSign_ofInt_one (s : Bool) : (ofInt 1).withSign s = ofInt (if s then -1 else 1) := by
  obtain ⟨m, -, hone, hneg⟩ := exists_ofInt_one
  cases s with
  | false =>
    rw [if_neg Bool.false_ne_true, hone]
    rfl
  | true =>
    rw [if_pos rfl, hone, hneg]
    rfl

/-- A number of units is clipped by its place: the lower bound is not above the upper one. -/
theorem clip_eq {d : Double} {n : Int} (h : d.measure = .units n) :
    d.clip (ofInt (-1)) (ofInt 1) = if n < -one then ofInt (-1) else if one < n then ofInt 1 else d := by
  have hbounds : ¬(one : Int) < -one := by omega
  by_cases hlow : n < -one
  · simp only [clip, h, measure_ofInt_one, measure_ofInt_neg_one, compare?_lt_iff, compare?_gt_iff, if_pos hlow,
      if_neg hbounds]
  · simp only [clip, h, measure_ofInt_one, measure_ofInt_neg_one, compare?_lt_iff, compare?_gt_iff, if_neg hlow]

/-- A finite number is clipped if its size is above one. -/
theorem clip_finite (s : Bool) (m : Magnitude) :
    (finite s m).clip (ofInt (-1)) (ofInt 1) = if one < m.units then (ofInt 1).withSign s else finite s m := by
  cases s with
  | false =>
    have hmeasure : (finite false m).measure = .units m.units := rfl
    have hlow : ¬(m.units : Int) < -one := by omega
    rw [clip_eq hmeasure, if_neg hlow, withSign_ofInt_one, if_neg Bool.false_ne_true]
    simp only [Int.ofNat_lt]
  | true =>
    have hmeasure : (finite true m).measure = .units (-m.units) := rfl
    have hhigh : ¬(one : Int) < -m.units := by omega
    rw [clip_eq hmeasure, if_neg hhigh, withSign_ofInt_one, if_pos rfl]
    simp only [Int.neg_lt_neg_iff, Int.ofNat_lt]

theorem clamped_eq_clip (d : Double) : d.clamped = d.toFinite.clip (ofInt (-1)) (ofInt 1) := by
  cases d with
  | nan =>
    have hzero : ¬one < Magnitude.zero.units := Nat.not_lt_zero _
    rw [toFinite, zero, clip_finite, if_neg hzero, clamped, zero]
  | infinite s => rw [toFinite, clip_finite, if_pos one_lt_greatest, clamped]
  | finite s m => rw [toFinite, clip_finite, clamped]

/-! ## Characters of clamped values -/

theorem quarters_of_one_le {s : Bool} {m : Magnitude} (h : one ≤ m.units) : (finite s m).quarters = 4 := by
  have hpart : (one - 1) / one = 0 := Nat.div_eq_of_lt (Nat.sub_lt one_pos Nat.one_pos)
  rw [quarters, Nat.min_eq_right h, Nat.mul_comm, Nat.mul_add_div one_pos, hpart]

/-- A number whose size is at least one has the character of an infinity. -/
theorem glyph_of_one_le {s : Bool} {m : Magnitude} (h : one ≤ m.units) : (finite s m).glyph = (infinite s).glyph := by
  have hzero : m.units ≠ 0 := Nat.ne_of_gt (Nat.lt_of_lt_of_le one_pos h)
  simp only [glyph, quarters_of_one_le h, isBelowZero, bne_iff_ne.mpr hzero, Bool.and_true]
  rfl

theorem glyph_withSign (s : Bool) : ((ofInt 1).withSign s).glyph = (infinite s).glyph := by
  obtain ⟨m, hm, hone, -⟩ := exists_ofInt_one
  rw [hone, withSign]
  exact glyph_of_one_le (Nat.le_of_eq hm.symm)

theorem glyph_zero : (zero false).glyph = nan.glyph := by
  have hquarters : (zero false).quarters = 0 := by
    rw [zero, quarters, Magnitude.zero, Nat.zero_min, Nat.mul_zero, Nat.zero_add]
    exact Nat.div_eq_of_lt (Nat.sub_lt one_pos Nat.one_pos)
  rw [glyph, hquarters]
  rfl

/-- A value and the clamped value have the same character. -/
theorem glyph_clamped (d : Double) : d.clamped.glyph = d.glyph := by
  cases d with
  | nan => exact glyph_zero
  | infinite s => exact glyph_withSign s
  | finite s m =>
    rw [clamped]
    split
    · rename_i h
      rw [glyph_withSign, glyph_of_one_le (Nat.le_of_lt h)]
    · rfl

end Double

/-! ## Clamped frames -/

theorem glyph_sampled (clamp : Bool) (r : Except Fault Double) : (sampled clamp r).glyph = (sampled false r).glyph := by
  cases r with
  | error fault => rfl
  | ok d =>
    cases clamp with
    | true => exact d.glyph_clamped
    | false => rfl

theorem text_frame (f : DotFunction) (t : Number) (size : Nat) (clamp : Bool) :
    (f.frame t size clamp).text = (f.frame t size false).text := by
  have hrow : ∀ row : List (Except Fault Double),
      drawnRow (row.map (sampled clamp)) = drawnRow (row.map (sampled false)) := by
    intro row
    simp only [drawnRow, List.map_map, Function.comp_def, glyph_sampled clamp]
  simp only [Frame.text, drawing, DotFunction.frame, List.map_map, Function.comp_def, hrow]

/-- **Clamping never changes the picture.** Of whatever size a frame is, it has the same text, the same number of failed
dots and the same faults with clamping and without, and where there is no frame of that size, the fault is the same.
Clamping makes a value finite and clips it to the range from minus one to one, and the drawing does not tell the clamped
value from the value. -/
theorem text_clamped (f : DotFunction) (t : Number) :
    (∀ size : Nat, (f.frame t size true).text = (f.frame t size false).text ∧
      (f.frame t size true).failed = (f.frame t size false).failed ∧
      (f.frame t size true).errors = (f.frame t size false).errors) ∧
    (∀ size : Int, (f.render t size true).map (fun r => (r.text, r.failed, r.errors)) =
      (f.render t size false).map fun r => (r.text, r.failed, r.errors)) ∧
    ∀ d : Double, d.clamped = d.toFinite.clip (.ofInt (-1)) (.ofInt 1) ∧ d.clamped.glyph = d.glyph := by
  refine ⟨fun size => ⟨text_frame f t size true, rfl, rfl⟩, fun size => ?_,
    fun d => ⟨d.clamped_eq_clip, d.glyph_clamped⟩⟩
  unfold DotFunction.render
  cases gridFault? size with
  | some fault => rfl
  | none =>
    simp only [Except.map, text_frame f t size.toNat true]
    rfl

end DotGrid
