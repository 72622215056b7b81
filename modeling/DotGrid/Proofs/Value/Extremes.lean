import DotGrid.Proofs.Value.Conversion
import DotGrid.Proofs.Value.Functions

/-!
# The greatest and the least argument

`max` and `min` choose the argument that is the furthest in one direction and give its double. The choice is among the
exact numbers, and rounding keeps their order (`measure_toDouble`), so the double is at the furthest of the places of
all doubles (`extremeOf_spec`). Hence neither the order of the arguments nor a choice among parts of them first changes
the number that is chosen (`extremes_fold`).
-/

namespace DotGrid

open DotGrid.Measure

variable {ahead : Ordering} {n best : Number} {ns : List Number} {x empty m : Double}

/-! ## Opposite numbers -/

/-- The number that negation gives. -/
def Number.opposite : Number → Number
  | .integer k => .integer (-k)
  | .boolean b => .integer (if b then -1 else 0)
  | .real d => .real d.neg

theorem negated_number (n : Number) : negated (.number n) = .ok (.number n.opposite) := by
  cases n <;> rfl

theorem measure_opposite (n : Number) : n.opposite.measure = n.measure.neg := by
  cases n with
  | integer k => exact congrArg Measure.units (Int.neg_mul k _)
  | boolean b =>
    cases b with
    | true => exact congrArg Measure.units (neg_one_mul _)
    | false => exact congrArg Measure.units ((zero_mul _).trans neg_zero.symm)
  | real d => exact d.measure_neg

theorem place_opposite (n : Number) : n.opposite.place = n.place.neg := by
  rw [Number.place, Number.place, measure_opposite, rounded_neg]

/-- Negation loses no double. -/
theorem exists_toDouble_opposite (h : ∃ x, n.toDouble = .ok x) : ∃ x, n.opposite.toDouble = .ok x := by
  cases n with
  | integer k =>
    obtain ⟨x, hx⟩ := h
    have hfinite := (integerToDouble_eq_ok_iff.mp hx).1
    exact ⟨_, integerToDouble_eq_ok_iff.mpr ⟨(isInfinite_ofInt_neg k).trans hfinite, rfl⟩⟩
  | boolean b =>
    have hsmall : (Double.ofInt (if b then -1 else 0)).isFinite = true :=
      (Double.within_ofInt (b := 0) (by cases b <;> decide) (by decide)).isFinite
    exact ⟨_, integerToDouble_eq_ok_iff.mpr ⟨Double.isInfinite_of_isFinite hsmall, rfl⟩⟩
  | real d => exact ⟨d.neg, rfl⟩

/-! ## The choice -/

/-- No argument is ahead of the one that is chosen. -/
theorem extreme_bound (hne : ahead ≠ .eq) (h : .real .nan ∉ best :: ns) :
    ∀ k ∈ best :: ns, Behind ahead k.measure (extreme ahead best ns).measure := by
  have defined : ∀ k : Number, k ≠ .real .nan → k.measure ≠ .undefined := fun k => mt measure_eq_undefined_iff.mp
  induction ns generalizing best with
  | nil =>
    intro k hk
    rw [List.mem_singleton] at h hk
    rw [hk]
    exact .refl hne (defined best (Ne.symm h))
  | cons n ns ih =>
    simp only [List.mem_cons, not_or] at h
    obtain ⟨hbest, hn, hns⟩ := h
    rw [extreme]
    generalize hb : (if Measure.compare? n.measure best.measure = some ahead then n else best) = better
    have hbetter : Behind ahead best.measure better.measure ∧ Behind ahead n.measure better.measure ∧
        .real .nan ≠ better := by
      have hbest' := defined best (Ne.symm hbest)
      have hn' := defined n (Ne.symm hn)
      rw [← hb]
      split
      · rename_i hahead
        exact ⟨behind_of_ahead hne hahead, .refl hne hn', hn⟩
      · rename_i hahead
        exact ⟨.refl hne hbest', (behind_or_ahead ahead hn' hbest').resolve_right hahead, hbest⟩
    have hnan : .real .nan ∉ better :: ns := by simp [hbetter.2.2, hns]
    have hrest := ih hnan
    have hfinal := hrest better List.mem_cons_self
    intro k hk
    rcases List.mem_cons.mp hk with rfl | hk
    · exact hbetter.1.trans hne hfinal
    · rcases List.mem_cons.mp hk with rfl | hk
      · exact hbetter.2.1.trans hne hfinal
      · exact hrest k (List.mem_cons_of_mem _ hk)

theorem anyNaN_eq (h : ∀ n ∈ ns, ∃ x, n.toDouble = .ok x) :
    anyNaN (ns.map .number) = .ok (decide (.real .nan ∈ ns)) := by
  induction ns with
  | nil => rfl
  | cons n ns ih =>
    obtain ⟨⟨x, hx⟩, hns⟩ := List.forall_mem_cons.mp h
    have happly : anyNaN ((n :: ns).map .number) = if x.isNaN then .ok true else anyNaN (ns.map .number) := by
      rw [List.map_cons, anyNaN, Value.realNumber, hx]
      rfl
    rw [happly, ih hns, isNaN_toDouble hx]
    by_cases hn : n = .real .nan
    · simp [hn]
    · simp [hn, Ne.symm hn]

theorem numbers_map_number (ns : List Number) : numbers (ns.map .number) = ns := by
  rw [numbers, List.filterMap_map]
  exact List.filterMap_some

/-- The double of the number that is chosen is at the furthest of the places. -/
theorem furthest_extreme (hne : ahead ≠ .eq) (hnan : .real .nan ∉ n :: ns)
    (hm : (extreme ahead n ns).toDouble = .ok m) : Furthest ahead ((n :: ns).map Number.place) m.measure := by
  have hchosen := extreme_mem ahead n ns
  have hplace : m.measure = (extreme ahead n ns).place := measure_toDouble hm
  have hdefined : ∀ k ∈ n :: ns, k.place ≠ .undefined := fun k hk hu => hnan (place_eq_undefined_iff.mp hu ▸ hk)
  refine ⟨?_, fun _ => .inr (hplace ▸ List.mem_map_of_mem hchosen), ?_⟩
  · rw [hplace]
    refine iff_of_false (hdefined _ hchosen) fun hu => ?_
    obtain ⟨k, hk, hu⟩ := List.mem_map.mp hu
    exact hdefined k hk hu
  · intro _ a ha
    obtain ⟨k, hk, rfl⟩ := List.mem_map.mp ha
    exact hplace ▸ (extreme_bound hne hnan k hk).rounded hne

/-- The result of a choice: it is at the furthest place, and without NaN it is the double of an argument. -/
structure Chosen (ahead : Ordering) (empty : Double) (ns : List Number) (m : Double) : Prop where
  furthest : Furthest ahead (ns.map Number.place) m.measure
  attained : .real .nan ∉ ns → ns ≠ [] → ∃ n ∈ ns, n.toDouble = .ok m

theorem extremeOf_spec (hne : ahead ≠ .eq) (hempty : empty.measure = origin ahead)
    (h : ∀ n ∈ ns, ∃ x, n.toDouble = .ok x) :
    ∃ m, extremeOf ahead empty (ns.map .number) = .ok (.real m) ∧ Chosen ahead empty ns m := by
  by_cases hnan : .real .nan ∈ ns
  · have hundefined : Measure.undefined ∈ ns.map Number.place :=
      List.mem_map.mpr ⟨.real .nan, hnan, place_eq_undefined_iff.mpr rfl⟩
    refine ⟨.nan, by rw [extremeOf, anyNaN_eq h, decide_eq_true hnan]; rfl, ⟨⟨?_, ?_, ?_⟩, ?_⟩⟩
    · exact iff_of_true rfl hundefined
    · exact fun hm => absurd rfl hm
    · exact fun hm => absurd rfl hm
    · exact fun hno => absurd hnan hno
  · cases ns with
    | nil =>
      refine ⟨empty, rfl, ⟨⟨?_, ?_, ?_⟩, ?_⟩⟩
      · simp [hempty, origin_ne_undefined]
      · exact fun _ => .inl hempty
      · simp
      · exact fun _ hnil => absurd rfl hnil
    | cons n ns =>
      have hchosen := extreme_mem ahead n ns
      obtain ⟨m, hm⟩ := h _ hchosen
      refine ⟨m, ?_, furthest_extreme hne hnan hm, fun _ _ => ⟨_, hchosen, hm⟩⟩
      rw [extremeOf, anyNaN_eq h, decide_eq_false hnan, numbers_map_number]
      show (extreme ahead n ns).toDouble.map Value.real = _
      rw [hm]
      rfl

/-! ## Laws of the choice -/

/-- The function gives a double for numbers. -/
def Builtin.Gives (f : Builtin) (ns : List Number) (m : Double) : Prop := f.apply (ns.map .number) = .ok (.real m)

/-- The laws of a function that gives the furthest of numbers in a direction, for the numbers of two lists: it gives
`empty` without numbers, NaN if and only if there is one, the same number if each list is reduced to its own result
first, the same number in every order, and else the double of one of the numbers that none of their doubles is ahead
of. -/
structure Folds (f : Builtin) (ahead : Ordering) (empty : Double) (xs ys : List Number) (m : Double) : Prop where
  gives : f.Gives (xs ++ ys) m
  of_nil : f.Gives [] empty
  nan_iff : m = .nan ↔ .real .nan ∈ xs ++ ys
  parts : ∃ a b m', f.Gives xs a ∧ f.Gives ys b ∧ f.Gives [.real a, .real b] m' ∧ m'.measure = m.measure
  permuted : ∀ zs, zs.Perm (xs ++ ys) → ∃ m', f.Gives zs m' ∧ m'.measure = m.measure
  attained : .real .nan ∉ xs ++ ys → xs ++ ys ≠ [] → ∃ n ∈ xs ++ ys, n.toDouble = .ok m
  bound : .real .nan ∉ xs ++ ys → ∀ n ∈ xs ++ ys, ∀ x, n.toDouble = .ok x → Behind ahead x.measure m.measure

variable {f : Builtin} {xs ys : List Number}

theorem exists_folds (hne : ahead ≠ .eq) (hempty : empty.measure = origin ahead)
    (happly : f.apply = extremeOf ahead empty) (h : ∀ n ∈ xs ++ ys, ∃ x, n.toDouble = .ok x) :
    ∃ m, Folds f ahead empty xs ys m ∧ Chosen ahead empty (xs ++ ys) m := by
  have hspec : ∀ {ns : List Number}, (∀ n ∈ ns, ∃ x, n.toDouble = .ok x) →
      ∃ m, f.Gives ns m ∧ Chosen ahead empty ns m := by
    intro ns hns
    obtain ⟨m, hm, hchosen⟩ := extremeOf_spec hne hempty hns
    exact ⟨m, by rw [Builtin.Gives, happly, hm], hchosen⟩
  obtain ⟨m, hm, hchosen⟩ := hspec h
  obtain ⟨a, ha, hchosenA⟩ := hspec fun n hn => h n (List.mem_append_left ys hn)
  obtain ⟨b, hb, hchosenB⟩ := hspec fun n hn => h n (List.mem_append_right xs hn)
  have hundefined := hchosen.furthest.undefined_iff
  simp only [Double.measure_eq_undefined_iff, List.mem_map, place_eq_undefined_iff, exists_eq_right] at hundefined
  refine ⟨m, ⟨hm, ?_, hundefined, ?_, ?_, hchosen.attained, ?_⟩, hchosen⟩
  · rw [Builtin.Gives, happly]
    rfl
  · have hreals : ∀ n ∈ [Number.real a, .real b], ∃ x, n.toDouble = .ok x := by simp [Number.toDouble]
    obtain ⟨m', hm', hchosen'⟩ := hspec hreals
    refine ⟨a, b, m', ha, hb, hm', ?_⟩
    have hpair : [Number.real a, .real b].map Number.place = [a.measure, b.measure] := by
      simp [Number.place, Number.measure, Double.rounded_measure]
    have hfurthest := hchosenA.furthest.append hne hchosenB.furthest (hpair ▸ hchosen'.furthest)
    rw [← List.map_append] at hfurthest
    exact hfurthest.unique hne hchosen.furthest fun _ => Iff.rfl
  · intro zs hperm
    obtain ⟨m', hm', hchosen'⟩ := hspec fun n hn => h n (hperm.mem_iff.mp hn)
    exact ⟨m', hm', hchosen'.furthest.unique hne hchosen.furthest fun _ => (hperm.map Number.place).mem_iff⟩
  · intro hnan n hn x hx
    rw [measure_toDouble hx]
    exact hchosen.furthest.bound (by rwa [Ne, Double.measure_eq_undefined_iff, hundefined]) _ (List.mem_map_of_mem hn)

/-- **The greatest and the least of numbers.** Of numbers that have doubles, `max` gives the greatest and `min` the
least one, in the sense of `Folds`, and the least one is the opposite of the greatest of the opposite numbers. -/
theorem extremes_fold (xs ys : List Number) (h : ∀ n ∈ xs ++ ys, ∃ x, n.toDouble = .ok x) :
    ∃ greatest least : Double, Folds .max .gt (.infinite true) xs ys greatest ∧
      Folds .min .lt (.infinite false) xs ys least ∧
      ∃ vs d e, ((xs ++ ys).map Value.number).mapM negated = .ok vs ∧ Builtin.max.apply vs = .ok (.real d) ∧
        negated (.real d) = .ok (.real e) ∧ e.measure = least.measure := by
  have hgt : Ordering.gt ≠ .eq := by decide
  have hlt : Ordering.lt ≠ .eq := by decide
  have hbelow : (Double.infinite true).measure = origin .gt := rfl
  have habove : (Double.infinite false).measure = origin .lt := rfl
  have hmax : Builtin.max.apply = extremeOf .gt (.infinite true) := rfl
  have hmin : Builtin.min.apply = extremeOf .lt (.infinite false) := rfl
  obtain ⟨greatest, hgreatest, -⟩ := exists_folds hgt hbelow hmax h
  obtain ⟨least, hleast, hchosen⟩ := exists_folds hlt habove hmin h
  refine ⟨greatest, least, hgreatest, hleast, ((xs ++ ys).map Number.opposite).map .number, ?_⟩
  have hopposite : ∀ n ∈ (xs ++ ys).map Number.opposite, ∃ x, n.toDouble = .ok x := by
    intro n hn
    obtain ⟨k, hk, rfl⟩ := List.mem_map.mp hn
    exact exists_toDouble_opposite (h k hk)
  obtain ⟨d, hd, hchosenD⟩ := extremeOf_spec hgt hbelow hopposite
  have hnegated : ((xs ++ ys).map Value.number).mapM negated =
      .ok (((xs ++ ys).map Number.opposite).map .number) := by
    rw [List.mapM_map, List.map_map]
    exact (congrArg (List.mapM · (xs ++ ys)) (funext negated_number)).trans List.mapM_pure
  refine ⟨d, d.neg, hnegated, hd, rfl, ?_⟩
  have hfurthest := hchosenD.furthest.neg hgt
  have hplaces : (((xs ++ ys).map Number.opposite).map Number.place).map Measure.neg = (xs ++ ys).map Number.place := by
    simp [List.map_map, Function.comp_def, place_opposite]
  rw [hplaces, ← Double.measure_neg] at hfurthest
  exact hfurthest.unique hlt hchosen.furthest fun _ => Iff.rfl

/-- A truth value, the negative zero, an integer that is no double and an infinity. -/
theorem extremes_fold_kinds :
    let xs : List Number := [.boolean true, .real (.zero true)]
    let ys : List Number := [.integer (2 ^ 53 + 1), .real (.infinite true)]
    (∀ n ∈ xs ++ ys, ∃ x, n.toDouble = .ok x) ∧
      ∃ greatest least : Double, Folds .max .gt (.infinite true) xs ys greatest ∧
        Folds .min .lt (.infinite false) xs ys least ∧ greatest = .ofInt (2 ^ 53) ∧ least = .infinite true := by
  intro xs ys
  have h : ∀ n ∈ xs ++ ys, ∃ x, n.toDouble = .ok x := by
    have hwide : ∃ x, (Number.integer (2 ^ 53 + 1)).toDouble = .ok x :=
      ⟨_, integerToDouble_eq_ok_iff.mpr ⟨by decide +kernel, rfl⟩⟩
    simp only [xs, ys, List.cons_append, List.nil_append, List.forall_mem_cons]
    exact ⟨⟨_, rfl⟩, ⟨_, rfl⟩, hwide, ⟨_, rfl⟩, by simp⟩
  have hmax : Builtin.max.Gives (xs ++ ys) (.ofInt (2 ^ 53)) := by
    unfold Builtin.Gives
    decide +kernel
  have hmin : Builtin.min.Gives (xs ++ ys) (.infinite true) := by
    unfold Builtin.Gives
    decide +kernel
  obtain ⟨greatest, least, hgreatest, hleast, -⟩ := extremes_fold xs ys h
  refine ⟨h, greatest, least, hgreatest, hleast, ?_, ?_⟩
  · exact Number.real.inj (Value.number.inj (Except.ok.inj (hgreatest.gives.symm.trans hmax)))
  · exact Number.real.inj (Value.number.inj (Except.ok.inj (hleast.gives.symm.trans hmin)))

end DotGrid
