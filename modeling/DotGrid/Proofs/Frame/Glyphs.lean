import DotGrid.Frame.Drawing
import DotGrid.Proofs.Command.Output
import DotGrid.Proofs.Frame.Clamping

/-!
# The characters of a drawing

`Double.radius` is the size of a value, at most one. The step of a value is the least number of quarters that is not
below its radius (`Double.quarters_eq_ceil`), which is the ceiling of a product of doubles, as that product is exact
(`Double.ceiling?_mul_four`). So the step is at most four, and on `glyphScale` the characters stand in the order of
the values (`Double.idxOf_glyph_le`). A drawing has one line for each row and one character for each value
(`drawing_exact`).
-/

namespace DotGrid

/-- The characters of values from minus one to one. -/
def glyphScale : List Char := ['%', 'X', 'x', ',', ' ', '.', 'o', 'O', '@']

namespace Double

variable {d e : Double} {o : Ordering}

/-- The size of a value, at most one; zero for NaN and one for the infinities. -/
def radius : Double → ℚ
  | .nan => 0
  | .infinite _ => 1
  | .finite s m => min |(finite s m).toRat| 1

/-- A value as a finite double: zero for NaN, and one with its sign for the infinities. -/
def drawable : Double → Double
  | .nan => zero false
  | .infinite s => (ofInt 1).withSign s
  | .finite s m => .finite s m

/-- The size of a value, at most one, as a double. -/
def reach (d : Double) : Double :=
  if Measure.compare? d.drawable.abs.measure (ofInt 1).measure = some .gt then ofInt 1 else d.drawable.abs

/-- The step of a value with its sign. -/
def signedStep (d : Double) : ℤ := if d.isBelowZero then -(d.quarters : ℤ) else d.quarters

/-! ## Steps -/

theorem abs_toRat_finite (s : Bool) (m : Magnitude) : |(finite s m).toRat| = m.units / one := by
  have hpos : (0 : ℚ) ≤ m.units / one := div_nonneg (Nat.cast_nonneg _) (Nat.cast_nonneg _)
  cases s with
  | false => exact abs_of_nonneg hpos
  | true =>
    have hneg : (finite true m).toRat = -(m.units / one) := toRat_neg (finite false m)
    rw [hneg, abs_neg, abs_of_nonneg hpos]

theorem radius_finite (s : Bool) (m : Magnitude) : (finite s m).radius = (min m.units one : ℕ) / one := by
  have hone : (1 : ℚ) = one / one := (div_self one_pos_rat.ne').symm
  rw [radius, abs_toRat_finite, hone, min_div_div_right one_pos_rat.le, Nat.cast_min]

/-- The step of a value is the least number of quarters that is not below its radius. -/
theorem quarters_eq_ceil (d : Double) : (d.quarters : ℤ) = ⌈4 * d.radius⌉ := by
  cases d with
  | nan => simp [quarters, radius]
  | infinite s =>
    rw [quarters, radius]
    norm_num
  | finite s m =>
    rw [radius_finite, quarters]
    generalize min m.units one = n
    have hone := one_pos
    have hsplit := Nat.div_add_mod' (4 * n + (one - 1)) one
    have hmod := Nat.mod_lt (4 * n + (one - 1)) hone
    generalize (4 * n + (one - 1)) / one = q at *
    symm
    rw [Int.ceil_eq_iff, ← mul_div_assoc, lt_div_iff₀ one_pos_rat, div_le_iff₀ one_pos_rat, sub_mul, one_mul,
      sub_lt_iff_lt_add]
    exact ⟨by exact_mod_cast show q * one < 4 * n + one by omega, by exact_mod_cast show 4 * n ≤ q * one by omega⟩

theorem quarters_le_four (d : Double) : d.quarters ≤ 4 := by
  have hradius : d.radius ≤ 1 := by
    cases d with
    | nan => exact zero_le_one
    | infinite s => exact le_refl 1
    | finite s m => exact min_le_right _ _
  have hceil : ⌈4 * d.radius⌉ ≤ (4 : ℕ) := Int.ceil_le.mpr (by push_cast; linarith)
  rw [← quarters_eq_ceil] at hceil
  exact_mod_cast hceil

/-- The bounds of a step fit one integer only. -/
theorem quarters_eq_iff (d : Double) (k : ℤ) : ((k : ℚ) - 1) / 4 < d.radius ∧ d.radius ≤ k / 4 ↔ k = d.quarters := by
  rw [quarters_eq_ceil, eq_comm, Int.ceil_eq_iff, div_lt_iff₀ four_pos, le_div_iff₀ four_pos, mul_comm d.radius]

/-! ## The product of doubles -/

theorem isMagnitude_four_mul {n : ℕ} (h : IsMagnitude n) (hle : n ≤ one) : IsMagnitude (4 * n) := by
  obtain ⟨a, k, rfl, ha, hk⟩ := h
  rcases Nat.eq_zero_or_pos a with rfl | hpos
  · simpa using isMagnitude_zero
  · have hpower : 2 ^ k ≤ one := Nat.le_trans (Nat.le_mul_of_pos_left _ hpos) hle
    have hk' : k ≤ 1074 := Nat.le_of_not_lt fun hlt => Nat.not_lt_of_le hpower (one_lt_two_pow hlt)
    have hscale : 4 * (a * 2 ^ k) = a * 2 ^ (k + 2) := by rw [Nat.pow_add]; ring
    exact ⟨a, k + 2, hscale, ha, by omega⟩

theorem exists_ofInt_four : ∃ m : Magnitude, m.units = 4 * one ∧ ofInt 4 = .finite false m := by
  have hholds : Holds 4 := holds_of_natAbs_le (by decide)
  refine ⟨⟨_, hholds⟩, ?_, ofInt_eq hholds⟩
  simp only [Int.reduceAbs]

theorem reach_of_drawable {s : Bool} {m : Magnitude} (h : d.drawable = .finite s m) :
    ∃ m' : Magnitude, d.reach = .finite false m' ∧ m'.units = min m.units one := by
  obtain ⟨i, hi, hone, -⟩ := exists_ofInt_one
  have hmeasure : (finite s m).abs.measure = .units m.units := rfl
  simp only [reach, h, measure_ofInt_one, hmeasure, Measure.compare?_gt_iff, Int.ofNat_lt]
  split
  · exact ⟨i, hone, by omega⟩
  · exact ⟨m, rfl, by omega⟩

/-- The size of a value as a double is exact. -/
theorem reach_eq (d : Double) :
    ∃ m : Magnitude, d.reach = .finite false m ∧ m.units ≤ one ∧ d.radius = m.units / one := by
  cases d with
  | nan =>
    obtain ⟨m, hm, hunits⟩ := reach_of_drawable (d := .nan) rfl
    have hzero : m.units = 0 := hunits.trans (Nat.zero_min _)
    exact ⟨m, hm, by omega, by rw [hzero, radius, Nat.cast_zero, zero_div]⟩
  | infinite s =>
    obtain ⟨i, hi, hone, -⟩ := exists_ofInt_one
    have hdrawable : (infinite s).drawable = finite s i := by rw [drawable, hone, withSign]
    obtain ⟨m, hm, hunits⟩ := reach_of_drawable hdrawable
    have hm1 : m.units = one := by omega
    exact ⟨m, hm, Nat.le_of_eq hm1, by rw [hm1, radius, div_self one_pos_rat.ne']⟩
  | finite s m =>
    obtain ⟨m', hm, hunits⟩ := reach_of_drawable (d := .finite s m) rfl
    exact ⟨m', hm, by omega, by rw [radius_finite, hunits]⟩

/-- The product of the size of a value and four is exact, and its ceiling is the step. -/
theorem ceiling?_mul_four (d : Double) : (d.reach.mul (ofInt 4)).ceiling? = some (d.quarters : ℤ) := by
  obtain ⟨m, hm, hle, hradius⟩ := d.reach_eq
  obtain ⟨f, hf, hfour⟩ := exists_ofInt_four
  have hproduct : d.reach.mul (ofInt 4) = .finite false ⟨4 * m.units, isMagnitude_four_mul m.representable hle⟩ := by
    have hunits : m.units * f.units = 4 * m.units * one := by rw [hf]; ring
    rw [hm, hfour, mul, hunits]
    have hscale := ofUnits_mul_right false (p := 4 * m.units) (q := 1) one_pos
    rw [Nat.one_mul] at hscale
    exact hscale.trans (ofUnits_eq false ⟨_, isMagnitude_four_mul m.representable hle⟩)
  have hvalue : (d.reach.mul (ofInt 4)).toRat = 4 * d.radius := by
    have hunits : (d.reach.mul (ofInt 4)).signedUnits = (4 * m.units : ℕ) := by
      rw [hproduct]
      rfl
    rw [toRat, hunits, hradius, ← mul_div_assoc, Int.cast_natCast, Nat.cast_mul, Nat.cast_ofNat]
  rw [ceiling?_eq (by rw [hproduct]; rfl), hvalue, quarters_eq_ceil]

/-! ## Characters -/

theorem isBelowZero_iff (d : Double) :
    d.isBelowZero = true ↔ Measure.compare? d.measure (zero false).measure = some .lt := by
  have hzero : (zero false).measure = .units 0 := rfl
  rw [hzero]
  cases d with
  | nan => exact ⟨nofun, nofun⟩
  | infinite s => cases s <;> simp [isBelowZero, measure, Measure.compare?]
  | finite s m =>
    rw [measure, Measure.compare?_lt_iff]
    cases s with
    | false => simp [isBelowZero]
    | true => simp [isBelowZero, Nat.pos_iff_ne_zero]

theorem glyph_eq (d : Double) :
    (if d.isBelowZero then negativeGlyphs else positiveGlyphs)[d.quarters]? = some d.glyph := by
  have hentry : ∀ glyphs : List Char, glyphs.length = 5 → glyphs[d.quarters]? = some (glyphs.getD d.quarters ' ') := by
    intro glyphs hlength
    have hlt : d.quarters < glyphs.length := by
      have := d.quarters_le_four
      omega
    rw [List.getD_eq_getElem?_getD, List.getElem?_eq_getElem hlt, Option.getD_some]
  rw [glyph]
  split
  · exact hentry _ rfl
  · exact hentry _ rfl

/-- The place of a character on the scale is the step, to the left of the middle for values below zero. -/
theorem idxOf_glyph (d : Double) : (glyphScale.idxOf d.glyph : ℤ) = 4 + d.signedStep := by
  have hscale : ∀ k : ℕ, k ≤ 4 → (glyphScale.idxOf (negativeGlyphs.getD k ' ') : ℤ) = 4 + -(k : ℤ) ∧
      (glyphScale.idxOf (positiveGlyphs.getD k ' ') : ℤ) = 4 + (k : ℤ) := by decide
  obtain ⟨hnegative, hpositive⟩ := hscale d.quarters d.quarters_le_four
  rw [glyph, signedStep]
  split
  · exact hnegative
  · exact hpositive

/-! ## The order of the characters -/

theorem natAbs_signedStep_le (d : Double) : d.signedStep.natAbs ≤ 4 := by
  have := d.quarters_le_four
  unfold signedStep
  split <;> omega

theorem quarters_le_quarters {s s' : Bool} {m m' : Magnitude} (h : m.units ≤ m'.units) :
    (finite s m).quarters ≤ (finite s' m').quarters :=
  Nat.div_le_div_right (by omega)

/-- A finite value is below zero with all of its units, or with none. -/
theorem signedUnits_of_isBelowZero (s : Bool) (m : Magnitude) :
    ((finite s m).isBelowZero = true ∧ (finite s m).signedUnits = -m.units ∧ m.units ≠ 0) ∨
      ((finite s m).isBelowZero = false ∧ (finite s m).signedUnits = m.units) := by
  cases s with
  | false => exact .inr ⟨rfl, rfl⟩
  | true =>
    by_cases hzero : m.units = 0
    · exact .inr (by simp [signedUnits, isBelowZero, hzero])
    · exact .inl (by simp [signedUnits, isBelowZero, hzero])

theorem signedStep_le_of_signedUnits_le {s s' : Bool} {m m' : Magnitude}
    (h : (finite s m).signedUnits ≤ (finite s' m').signedUnits) :
    (finite s m).signedStep ≤ (finite s' m').signedStep := by
  unfold signedStep
  rcases signedUnits_of_isBelowZero s m with ⟨hd, hunits, hne⟩ | ⟨hd, hunits⟩
  · rcases signedUnits_of_isBelowZero s' m' with ⟨he, hunits', hne'⟩ | ⟨he, hunits'⟩
    · have : (finite s' m').quarters ≤ (finite s m).quarters := quarters_le_quarters (by omega)
      rw [if_pos hd, if_pos he]
      omega
    · rw [if_pos hd, if_neg (by simp [he])]
      omega
  · rcases signedUnits_of_isBelowZero s' m' with ⟨he, hunits', hne'⟩ | ⟨he, hunits'⟩
    · -- what is below zero is not above what is not
      omega
    · have : (finite s m).quarters ≤ (finite s' m').quarters := quarters_le_quarters (by omega)
      rw [if_neg (by simp [hd]), if_neg (by simp [he])]
      omega

theorem signedStep_le (h : Measure.compare? d.measure e.measure = some o) (ho : o ≠ .gt) :
    d.signedStep ≤ e.signedStep := by
  have hd := d.natAbs_signedStep_le
  have he := e.natAbs_signedStep_le
  have hlow : (infinite true).signedStep = -4 := rfl
  have hhigh : (infinite false).signedStep = 4 := rfl
  match d, e, h with
  | .infinite true, e, _ => omega
  | d, .infinite false, _ => omega
  | .infinite false, .infinite true, h =>
    cases h
    exact absurd rfl ho
  | .infinite false, .finite s m, h =>
    cases h
    exact absurd rfl ho
  | .finite s m, .infinite true, h =>
    cases h
    exact absurd rfl ho
  | .finite s m, .finite s' m', h =>
    refine signedStep_le_of_signedUnits_le (Int.not_lt.mp fun hlt => ho ?_)
    rw [← Measure.compare?_gt_iff] at hlt
    exact Option.some_inj.mp (h.symm.trans hlt)

/-- On the scale, the characters stand in the order of the values. -/
theorem idxOf_glyph_le (h : Measure.compare? d.measure e.measure = some o) (ho : o ≠ .gt) :
    glyphScale.idxOf d.glyph ≤ glyphScale.idxOf e.glyph := by
  have hle := signedStep_le h ho
  have hd := d.idxOf_glyph
  have he := e.idxOf_glyph
  omega

/-! ## Blanks -/

theorem quarters_eq_zero_iff (d : Double) : d.quarters = 0 ↔ d.isZero ∨ d.isNaN := by
  cases d with
  | nan => simp [quarters, isNaN]
  | infinite s => simp [quarters, isNaN, isZero]
  | finite s m =>
    have hone := one_pos
    rw [quarters, Nat.div_eq_zero_iff]
    simp only [isZero, isNaN, beq_iff_eq, Bool.false_eq_true, or_false]
    omega

/-- Only zeros and NaN are drawn as a blank. -/
theorem glyph_eq_blank_iff (d : Double) : d.glyph = ' ' ↔ d.isZero ∨ d.isNaN := by
  have hpalette : ∀ k : ℕ, k ≤ 4 → (negativeGlyphs.getD k ' ' = ' ' ↔ k = 0) ∧
      (positiveGlyphs.getD k ' ' = ' ' ↔ k = 0) := by decide
  obtain ⟨hnegative, hpositive⟩ := hpalette d.quarters d.quarters_le_four
  rw [← quarters_eq_zero_iff, glyph]
  split
  · exact hnegative
  · exact hpositive

end Double

/-- **Every value has the character of its size and sign.** Rows that are drawn are the lines of the text, with one
character for each value. The character of a value is the entry of its palette whose number is the least count of
quarters that is not below the size of the value, at most four; the ceiling of the product of doubles is this number.
Only zeros and NaN are blank, and on the scale of all characters those of greater values do not stand before those of
smaller ones. -/
theorem drawing_exact {rows : List (List Double)} (h : rows ≠ []) :
    (drawing rows).toList.splitOn '\n' = rows.map (·.map Double.glyph) ∧
    (∀ d : Double, ∃ k : ℕ, k ≤ 4 ∧
      (∀ j : ℤ, ((j : ℚ) - 1) / 4 < d.radius ∧ d.radius ≤ j / 4 ↔ j = k) ∧
      (d.reach.mul (.ofInt 4)).ceiling? = some (k : ℤ) ∧
      (if Measure.compare? d.measure (Double.zero false).measure = some .lt then negativeGlyphs
        else positiveGlyphs)[k]? = some d.glyph) ∧
    (∀ d : Double, d.glyph = ' ' ↔ d.isZero ∨ d.isNaN) ∧
    ∀ (d e : Double) (o : Ordering), Measure.compare? d.measure e.measure = some o → o ≠ .gt →
      glyphScale.idxOf d.glyph ≤ glyphScale.idxOf e.glyph := by
  refine ⟨?_, fun d => ⟨d.quarters, d.quarters_le_four, d.quarters_eq_iff, d.ceiling?_mul_four, ?_⟩,
    Double.glyph_eq_blank_iff, fun d e o => Double.idxOf_glyph_le⟩
  · have hlines : (rows.map drawnRow).map String.toList = rows.map (·.map Double.glyph) := by
      simp only [List.map_map, Function.comp_def, drawnRow, String.toList_ofList]
    have hbreak : ("\n" : String).toList = ['\n'] := rfl
    rw [drawing, String.toList_intercalate, hlines, hbreak, List.splitOn_intercalate]
    · intro line hline hmem
      obtain ⟨row, -, rfl⟩ := List.mem_map.mp hline
      obtain ⟨d, -, hd⟩ := List.mem_map.mp hmem
      exact Command.glyph_ne_lineFeed d hd
    · simpa using h
  · simp only [← Double.isBelowZero_iff]
    exact d.glyph_eq

/-- The least positive number and one quarter have one step, the number next to one quarter has two, and a row of one
infinity. -/
theorem drawing_exact_thresholds :
    let quarter : Double := .ofRatio false 1 4
    let rows : List (List Double) :=
      [[.ofUnits false 1 1, quarter, .ofUnits false (2 ^ 1072 + 2 ^ 1020) 1], [.infinite true]]
    rows ≠ [] ∧ (drawing rows).toList.splitOn '\n' = [['.', '.', 'o'], ['%']] := by
  intro quarter rows
  have hglyphs : rows.map (·.map Double.glyph) = [['.', '.', 'o'], ['%']] := by decide +kernel
  exact ⟨List.cons_ne_nil _ _, (drawing_exact (List.cons_ne_nil _ _)).1.trans hglyphs⟩

end DotGrid
