import DotGrid.Proofs.Command.Output
import DotGrid.Proofs.Distinct
import DotGrid.Proofs.Frame.Glyphs
import DotGrid.Proofs.Frame.Grid
import DotGrid.Proofs.Value.Reports

/-!
# Dots of a frame, one after the other

`Canvas.painted` visits the dots of a grid row by row, in two loops. After some dots (`Canvas.Covers`) the values of
the dots that were visited are in the grid and the others are zero, each different fault is kept once, and the failed
dots are counted. One more dot keeps this (`Canvas.Covers.visit`), so it holds at the end of both loops
(`Canvas.covers_painted`), and a frame is the canvas at the end, with all of its values clamped if this is asked for
(`DotFunction.frame_eq_framed`).
-/

namespace DotGrid

variable {α : Type} {size y x n : Nat} {f : DotFunction} {t : Number}

/-! ## Numbers from minus one to one -/

namespace Double

/-- A finite number whose size is not above one. -/
structure AtMostOne (d : Double) : Prop where
  isFinite : d.isFinite = true
  abs_le : |d.toRat| ≤ 1

/-- The number of a size of at most one that is nearest to a double: zero for NaN, the ends for the infinities, and the
double itself where its size is not above one. -/
structure IsNearest (d c : Double) : Prop where
  atMostOne : c.AtMostOne
  of_nan : d = .nan → c = zero false
  of_infinite : ∀ s, d = .infinite s → c = ofInt (if s then -1 else 1)
  of_atMostOne : d.AtMostOne → c = d
  distance_le : d.isFinite = true → ∀ q : ℚ, |q| ≤ 1 → |d.toRat - c.toRat| ≤ |d.toRat - q|

variable {d : Double} {s : Bool} {m : Magnitude}

theorem atMostOne_finite : (finite s m).AtMostOne ↔ m.units ≤ one := by
  have habs : |(finite s m).toRat| ≤ 1 ↔ m.units ≤ one := by
    rw [abs_toRat_finite, div_le_one one_pos_rat]
    exact_mod_cast Iff.rfl
  exact ⟨fun h => habs.mp h.abs_le, fun h => ⟨rfl, habs.mpr h⟩⟩

theorem atMostOne_end (s : Bool) : ((ofInt 1).withSign s).AtMostOne := by
  obtain ⟨i, hi, hone, -⟩ := exists_ofInt_one
  rw [hone, withSign]
  exact atMostOne_finite.mpr (Nat.le_of_eq hi)

/-- A number beyond an end is further away from zero by its distance to the end. -/
theorem distance_end (h : one < m.units) :
    |(finite s m).toRat - ((ofInt 1).withSign s).toRat| = |(finite s m).toRat| - 1 := by
  have hsize : 1 < (m.units / one : ℚ) := by
    rw [one_lt_div one_pos_rat]
    exact_mod_cast h
  rw [abs_toRat_finite, withSign_ofInt_one, toRat_ofInt (holds_of_natAbs_le (by cases s <;> decide))]
  cases s with
  | false =>
    have hpos : (finite false m).toRat = m.units / one := rfl
    rw [hpos, if_neg Bool.false_ne_true, Int.cast_one, abs_of_pos (sub_pos.mpr hsize)]
  | true =>
    have hneg : (finite true m).toRat = -(m.units / one) := toRat_neg (finite false m)
    rw [hneg, if_pos rfl, Int.cast_neg, Int.cast_one, sub_neg_eq_add, neg_add_eq_sub, abs_sub_comm,
      abs_of_pos (sub_pos.mpr hsize)]

theorem isNearest_clamped (d : Double) : d.IsNearest d.clamped := by
  cases d with
  | nan =>
    refine ⟨atMostOne_finite.mpr (Nat.zero_le _), fun _ => rfl, ?_, fun h => ?_, fun h => ?_⟩
    · rintro s ⟨⟩
    · cases h.isFinite
    · cases h
  | infinite s =>
    refine ⟨atMostOne_end s, fun h => ?_, ?_, fun h => ?_, fun h => ?_⟩
    · cases h
    · rintro s' ⟨⟩
      exact withSign_ofInt_one s
    · cases h.isFinite
    · cases h
  | finite s m =>
    have hnan : finite s m ≠ .nan := Double.noConfusion
    have hinfinite : ∀ s', finite s m ≠ .infinite s' := fun _ => Double.noConfusion
    by_cases hlarge : one < m.units
    · have hclamped : (finite s m).clamped = (ofInt 1).withSign s := by rw [clamped, if_pos hlarge]
      rw [hclamped]
      refine ⟨atMostOne_end s, fun h => absurd h hnan, fun s' h => absurd h (hinfinite s'), fun h => ?_,
        fun _ q hq => ?_⟩
      · exact absurd hlarge (Nat.not_lt_of_le (atMostOne_finite.mp h))
      · calc |(finite s m).toRat - ((ofInt 1).withSign s).toRat| = |(finite s m).toRat| - 1 := distance_end hlarge
          _ ≤ |(finite s m).toRat| - |q| := sub_le_sub_left hq _
          _ ≤ |(finite s m).toRat - q| := abs_sub_abs_le_abs_sub _ _
    · have hclamped : (finite s m).clamped = finite s m := by rw [clamped, if_neg hlarge]
      rw [hclamped]
      refine ⟨atMostOne_finite.mpr (Nat.le_of_not_lt hlarge), fun h => absurd h hnan,
        fun s' h => absurd h (hinfinite s'), fun _ => rfl, fun _ q _ => ?_⟩
      rw [sub_self, abs_zero]
      exact abs_nonneg _

end Double

/-! ## Row by row -/

/-- The dot that is called after `i` other ones. -/
def dotNumber (t : Number) (size i : Nat) : Dot := ⟨t, .integer i, .integer (i % size : Nat), .integer (i / size : Nat)⟩

/-- The dots of a grid in the order of their calls. -/
def dotsOf (t : Number) (size : Nat) : List Dot := (List.range (size * size)).map (dotNumber t size)

theorem dotNumber_eq (t : Number) (size i : Nat) : dotNumber t size i = dotAt t size (i / size) (i % size) := by
  rw [dotNumber, dotAt, Nat.div_add_mod']

theorem dotNumber_place (t : Number) (y : Nat) (hx : x < size) :
    dotNumber t size (y * size + x) = dotAt t size y x := by
  rw [dotNumber_eq, place_div y hx, place_mod y hx]

/-- A loop over the numbers below a bound, by what one pass keeps. -/
theorem foldl_range {P : Nat → α → Prop} {step : α → Nat → α} {a : α} (hstart : P 0 a)
    (hstep : ∀ i < n, ∀ a, P i a → P (i + 1) (step a i)) : P n ((List.range n).foldl step a) := by
  induction n with
  | zero => exact hstart
  | succ n ih =>
    rw [List.range_succ, List.foldl_append]
    exact hstep n n.lt_succ_self _ (ih fun i hi => hstep i (Nat.lt_succ_of_lt hi))

/-! ## Two loops -/

/-- What a rendering has so far: the dots that were called, the values, which are zero at first, the different faults
and the number of the dots that failed. -/
structure Canvas where
  called : List Dot
  values : List (List Double)
  errors : List Fault
  failed : Nat

namespace Canvas

variable {c : Canvas}

/-- Before the first dot. -/
def blank (size : Nat) : Canvas := ⟨[], List.replicate size (List.replicate size (.zero false)), [], 0⟩

/-- The dot at column `x` and row `y` is called. A failed dot leaves its value as it is. -/
def visit (f : DotFunction) (t : Number) (size : Nat) (c : Canvas) (y x : Nat) : Canvas :=
  let c := { c with called := c.called ++ [dotAt t size y x] }
  match f.call (dotAt t size y x) with
  | .ok d => { c with values := c.values.modify y (·.set x d) }
  | .error e =>
    { c with errors := if e ∈ c.errors then c.errors else c.errors ++ [e], failed := c.failed + 1 }

/-- All dots are visited, row by row. -/
def painted (f : DotFunction) (t : Number) (size : Nat) : Canvas :=
  (List.range size).foldl (fun c y => (List.range size).foldl (fun c x => visit f t size c y x) c) (blank size)

/-- The frame of a canvas, whose values are clamped at the end. -/
def framed (c : Canvas) (t : Number) (size : Nat) (clamp : Bool) : Frame :=
  ⟨t, size, if clamp then c.values.map (·.map Double.clamped) else c.values, c.errors, c.failed⟩

/-- The first `n` dots have been visited. -/
structure Covers (f : DotFunction) (t : Number) (size n : Nat) (c : Canvas) : Prop where
  called : c.called = (List.range n).map (dotNumber t size)
  values : c.values = gridOf size fun y x =>
    if y * size + x < n then sampled false (f.call (dotAt t size y x)) else .zero false
  errors : c.errors = firstOccurrences (c.called.filterMap fun d => faultOf (f.call d))
  failed : c.failed = c.called.countP fun d => (faultOf (f.call d)).isSome

theorem covers_blank (f : DotFunction) (t : Number) (size : Nat) : Covers f t size 0 (blank size) := by
  refine ⟨rfl, ?_, rfl, rfl⟩
  simp [blank, gridOf, List.map_const']

/-- One more dot is visited. -/
theorem Covers.visit (h : Covers f t size (y * size + x) c) (hx : x < size) :
    Covers f t size (y * size + x + 1) (c.visit f t size y x) := by
  have hcalled : c.called ++ [dotAt t size y x] = (List.range (y * size + x + 1)).map (dotNumber t size) := by
    rw [List.range_succ, List.map_append, h.called, List.map_singleton, dotNumber_place t y hx]
  cases hcall : f.call (dotAt t size y x) with
  | ok d =>
    simp only [Canvas.visit, hcall]
    refine ⟨hcalled, ?_, ?_, ?_⟩
    · rw [h.values, gridOf_modify]
      refine gridOf_congr fun v hv u hu => ?_
      simp only [place_lt_succ_iff hx hu]
      grind [sampled]
    · simp [h.errors, hcall, faultOf]
    · simp [h.failed, hcall, faultOf]
  | error e =>
    simp only [Canvas.visit, hcall]
    refine ⟨hcalled, ?_, ?_, ?_⟩
    · -- the value of the dot is zero, as it was
      rw [h.values]
      refine gridOf_congr fun v hv u hu => ?_
      simp only [place_lt_succ_iff hx hu]
      grind [sampled]
    · simp [h.errors, hcall, faultOf, firstOccurrences_snoc]
    · simp [h.failed, hcall, faultOf]

theorem covers_painted (f : DotFunction) (t : Number) (size : Nat) :
    Covers f t size (size * size) (painted f t size) := by
  refine foldl_range (P := fun y c => Covers f t size (y * size) c) ?_ fun y _ c hrow => ?_
  · rw [Nat.zero_mul]
    exact covers_blank f t size
  · rw [Nat.succ_mul]
    exact foldl_range (P := fun x c => Covers f t size (y * size + x) c) hrow fun x hx c hc => hc.visit hx

end Canvas

/-! ## Frames -/

theorem clamped_zero (s : Bool) : (Double.zero s).clamped = .zero s := by
  have hzero : ¬Double.one < Magnitude.zero.units := Nat.not_lt_zero _
  rw [Double.zero, Double.clamped, if_neg hzero]

theorem clamped_sampled (r : Except Fault Double) : (sampled false r).clamped = sampled true r := by
  cases r with
  | ok d => rfl
  | error e => exact clamped_zero false

namespace DotFunction

/-- A frame is what both loops leave, with all values clamped if this is asked for. -/
theorem frame_eq_framed (f : DotFunction) (t : Number) (size : Nat) (clamp : Bool) :
    f.frame t size clamp = (Canvas.painted f t size).framed t size clamp := by
  obtain ⟨hcalled, hvalues, herrors, hfailed⟩ := Canvas.covers_painted f t size
  have hfaults : (gridOf size fun y x => f.call (dotAt t size y x)).flatten.filterMap faultOf =
      (Canvas.painted f t size).called.filterMap fun d => faultOf (f.call d) := by
    rw [flatten_gridOf, hcalled, List.filterMap_map, List.filterMap_map]
    simp only [Function.comp_def, dotNumber_eq]
  have hgrid : (Canvas.painted f t size).values = gridOf size fun y x => sampled false (f.call (dotAt t size y x)) := by
    rw [hvalues]
    exact gridOf_congr fun y hy x hx => if_pos (place_lt hy hx)
  have hclamped : (if clamp then (Canvas.painted f t size).values.map (·.map Double.clamped)
      else (Canvas.painted f t size).values) = gridOf size fun y x => sampled clamp (f.call (dotAt t size y x)) := by
    cases clamp with
    | false => exact hgrid
    | true =>
      rw [if_pos rfl, hgrid, map_gridOf]
      simp only [clamped_sampled]
  simp only [frame, hfaults, map_gridOf, Canvas.framed, hclamped, herrors, hfailed, List.length_filterMap_eq_countP]

end DotFunction

namespace Frame

/-- The value in a column of a row. -/
def value? (r : Frame) (y x : Nat) : Option Double := r.values[y]?.bind (·[x]?)

/-- What a frame shows of the dots of a grid: a square of values, zero where the call of a dot failed and otherwise its
number or the number nearest to it, how many calls failed, and each different fault in the order in which the dots were
called. The same holds of the reports on the faults, wherever the derived functions are in memory. -/
structure Samples (r : Frame) (f : DotFunction) (t : Number) (size : Nat) (clamp : Bool) : Prop where
  time_eq : r.time = t
  size_eq : r.size = size
  dots_eq : r.dots = size ^ 2
  length_values : r.values.length = size
  length_row : ∀ row ∈ r.values, row.length = size
  value_of_error : ∀ y < size, ∀ x < size, ∀ e, f.call (dotAt t size y x) = .error e → r.value? y x = some (.zero false)
  value_of_ok : ∀ y < size, ∀ x < size, ∀ d, f.call (dotAt t size y x) = .ok d →
    ∃ c, r.value? y x = some c ∧ if clamp then d.IsNearest c else c = d
  atMostOne : clamp = true → ∀ row ∈ r.values, ∀ d ∈ row, d.AtMostOne
  failed_eq : r.failed = (dotsOf t size).countP fun d => (faultOf (f.call d)).isSome
  errors_inFirstOrder : InFirstOrder r.errors ((dotsOf t size).filterMap fun d => faultOf (f.call d))
  errors_nodup : r.errors.Nodup
  reports_inFirstOrder : ∀ address : Builtin → Nat, Function.Injective address →
    InFirstOrder (r.errors.map (Fault.report address))
      ((dotsOf t size).filterMap fun d => (faultOf (f.call d)).map (Fault.report address))
  reports_nodup : ∀ address : Builtin → Nat, Function.Injective address → (r.errors.map (Fault.report address)).Nodup
  called_eq : ∃ c : Canvas, c = .painted f t size ∧ r = c.framed t size clamp ∧ c.called = dotsOf t size

end Frame

theorem value?_frame {f : DotFunction} {t : Number} {clamp : Bool} (hy : y < size) (hx : x < size) :
    (f.frame t size clamp).value? y x = some (sampled clamp (f.call (dotAt t size y x))) := by
  obtain ⟨row, hrow, hvalue⟩ := gridOf_getElem? hy hx fun y x => sampled clamp (f.call (dotAt t size y x))
  rw [Frame.value?, DotFunction.frame, map_gridOf, hrow, Option.bind_some, hvalue]

theorem atMostOne_sampled (r : Except Fault Double) : (sampled true r).AtMostOne := by
  rw [← clamped_sampled]
  exact (Double.isNearest_clamped _).atMostOne

theorem samples_frame (f : DotFunction) (t : Number) (size : Nat) (clamp : Bool) :
    (f.frame t size clamp).Samples f t size clamp := by
  have hframe := f.frame_eq_framed t size clamp
  have hcovers := Canvas.covers_painted f t size
  have herrors :
      InFirstOrder (f.frame t size clamp).errors ((dotsOf t size).filterMap fun d => faultOf (f.call d)) := by
    rw [hframe, Canvas.framed, hcovers.errors, hcovers.called]
    exact inFirstOrder_firstOccurrences _
  have hreports : ∀ address : Builtin → Nat, Function.Injective address →
      InFirstOrder ((f.frame t size clamp).errors.map (Fault.report address))
        ((dotsOf t size).filterMap fun d => (faultOf (f.call d)).map (Fault.report address)) := by
    intro address haddress
    rw [← List.map_filterMap]
    exact herrors.map (Fault.report_injective haddress)
  refine
    { time_eq := rfl
      size_eq := rfl
      dots_eq := (sq size).symm
      length_values := (Command.frame_square f t size clamp).1
      length_row := (Command.frame_square f t size clamp).2
      value_of_error := ?value_of_error
      value_of_ok := ?value_of_ok
      atMostOne := ?atMostOne
      failed_eq := ?failed_eq
      errors_inFirstOrder := herrors
      errors_nodup := herrors.nodup
      reports_inFirstOrder := hreports
      reports_nodup := fun address haddress => (hreports address haddress).nodup
      called_eq := ⟨_, rfl, hframe, hcovers.called⟩ }
  case value_of_error =>
    intro y hy x hx e hcall
    rw [value?_frame hy hx, hcall]
    rfl
  case value_of_ok =>
    intro y hy x hx d hcall
    refine ⟨sampled clamp (.ok d), by rw [value?_frame hy hx, hcall], ?_⟩
    cases clamp with
    | false => rfl
    | true => exact d.isNearest_clamped
  case atMostOne =>
    rintro rfl row hrow d hd
    rw [DotFunction.frame, map_gridOf] at hrow
    obtain ⟨y, x, rfl⟩ := exists_of_mem_gridOf hrow hd
    exact atMostOne_sampled _
  case failed_eq => rw [hframe, Canvas.framed, hcovers.failed, hcovers.called, dotsOf]

/-- **A frame samples its grid.** A grid whose values fit into memory has a frame, which shows the results of all of
its dots, each of them called once, row by row. A larger grid has no frame. -/
theorem render_samples (f : DotFunction) (t : Number) (size : Nat) (clamp : Bool) :
    (8 * (size : Int) * size < memoryLimit → ∃ r, f.render t size clamp = .ok r ∧ r.Samples f t size clamp) ∧
    (memoryLimit ≤ 8 * (size : Int) * size →
      ∃ fault ∈ [Fault.sizeTooLarge, .gridTooLarge], f.render t size clamp = .error fault) := by
  refine ⟨fun hfits => ?_, fun hlarge => ?_⟩
  · have hnone : gridFault? size = none := by
      rcases Nat.eq_zero_or_pos size with rfl | hpos
      · decide
      · exact Command.gridFault?_eq_none (by omega) hfits
    refine ⟨f.frame t size clamp, ?_, samples_frame f t size clamp⟩
    rw [DotFunction.render, hnone, Int.toNat_natCast]
  · have hpos : size ≠ 0 := by
      rintro rfl
      exact absurd hlarge (by decide)
    obtain ⟨fault, hmem, hfault⟩ := Command.gridFault?_eq_some (by omega) hlarge
    exact ⟨fault, hmem, by rw [DotFunction.render, hfault]⟩

/-- The quotient of the index and the column fails in the first column of each row, twice with one fault. The value
three of the last dot becomes one. -/
theorem render_samples_quotient :
    let f : DotFunction := ⟨.binary .div (.name "i") (.name "x")⟩
    8 * ((2 : Nat) : Int) * (2 : Nat) < memoryLimit ∧
      ∃ r, f.render (.integer 0) (2 : Nat) true = .ok r ∧ r.Samples f (.integer 0) 2 true ∧
        r.failed = 2 ∧ r.errors = [.divisionByZero false] ∧
        r.values = [[.zero false, .ofInt 1], [.zero false, .ofInt 1]] := by
  intro f
  have hfits : 8 * ((2 : Nat) : Int) * (2 : Nat) < memoryLimit := by decide
  obtain ⟨r, hr, hsamples⟩ := (render_samples f (.integer 0) 2 true).1 hfits
  have hshown : (f.render (.integer 0) (2 : Nat) true).toOption.map (fun r => (r.failed, r.errors, r.values)) =
      some (2, [.divisionByZero false], [[.zero false, .ofInt 1], [.zero false, .ofInt 1]]) := by decide +kernel
  rw [hr] at hshown
  obtain ⟨hfailed, hrest⟩ := Prod.mk.inj (Option.some.inj hshown)
  obtain ⟨herrors, hvalues⟩ := Prod.mk.inj hrest
  exact ⟨hfits, r, hr, hsamples, hfailed, herrors, hvalues⟩

/-- A grid may be too large to have a frame. -/
theorem grid_without_frame :
    ¬∀ (f : DotFunction) (t : Number) (size : Nat) (clamp : Bool),
      ∃ r, f.render t size clamp = .ok r ∧ r.Samples f t size clamp := by
  intro h
  obtain ⟨r, hr, -⟩ := h ⟨.name "x"⟩ (.integer 0) 10000000000 true
  have hfault : gridFault? ((10000000000 : Nat) : Int) = some .gridTooLarge := by decide
  rw [DotFunction.render, hfault] at hr
  cases hr

end DotGrid
