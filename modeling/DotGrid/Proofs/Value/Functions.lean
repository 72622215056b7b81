import DotGrid.Proofs.Value.Logarithm

/-!
# Answers of functions

A function of the namespace answers with a number. For finite arguments, at least one, the number is finite but for two
functions whose infinite results nothing refuses: the rounding to the 32-bit format and the square root of a sum of
squares. `Overflowing` says where they are infinite, so it tells which calls of the namespace turn finite arguments into
an infinity (`Builtin.apply_infinite_iff`).
-/

namespace DotGrid

variable {given : Prop} {v w : Value} {vs : List Value}

/-! ## Rounding functions -/

section

variable {x : Double} {n : Int}

theorem natAbs_roundHalfUp_le (h : roundHalfUp? x = some n) : n.natAbs ≤ x.units / Double.one + 2 := by
  obtain ⟨k, hk, rfl⟩ := Option.map_eq_some_iff.mp h
  have hfloor := Double.natAbs_floor_le hk
  split <;> omega

theorem rounding_answers {f : Double → Option Int}
    (hf : ∀ x n, f x = some n → n.natAbs ≤ x.units / Double.one + 2) (hv : FiniteIf given v) :
    Answers (NumberIf given) (rounding f v) := by
  refine (converted_answers hv).bind fun x hx => ?_
  cases hn : f x with
  | none => exact .ok (.real hx)
  | some n => exact .ok (.real fun hg => Double.isFinite_ofInt_of_natAbs_le (hx hg) (hf x n hn))

end

/-! ## Extremes -/

/-- Finite arguments are numbers and none of them is NaN. -/
theorem anyNaN_answers (hvs : ∀ v ∈ vs, FiniteIf given v) :
    Answers (fun found => (given → found = false) ∧ (found = false → vs ≠ [] → numbers vs ≠ [])) (anyNaN vs) := by
  induction vs with
  | nil => exact .ok ⟨fun _ => rfl, fun _ h => absurd rfl h⟩
  | cons v vs ih =>
    obtain ⟨hv, hrest⟩ := List.forall_mem_cons.mp hvs
    cases v with
    | function f => exact .error (by simp)
    | number n =>
      have hnumbers : numbers (.number n :: vs) ≠ [] := by simp [numbers]
      refine (realNumber_answers hv).bind fun x hx => ?_
      refine Answers.ite (fun hnan => .ok ⟨fun hg => ?_, fun _ _ => hnumbers⟩) fun _ => ?_
      · simp [Double.isNaN_of_isFinite (hx hg)] at hnan
      · exact (ih hrest).imp fun found h => ⟨h.1, fun _ _ => hnumbers⟩

theorem extreme_mem (ahead : Ordering) (best : Number) (ns : List Number) : extreme ahead best ns ∈ best :: ns := by
  induction ns generalizing best with
  | nil => exact List.mem_singleton.mpr rfl
  | cons n ns ih =>
    rw [extreme]
    rcases List.mem_cons.mp (ih (if Measure.compare? n.measure best.measure = some ahead then n else best)) with h | h
    · rw [h]
      split
      · exact List.mem_cons_of_mem _ List.mem_cons_self
      · exact List.mem_cons_self
    · exact List.mem_cons_of_mem _ (List.mem_cons_of_mem _ h)

theorem extremeOf_answers (ahead : Ordering) (empty : Double) (hvs : ∀ v ∈ vs, FiniteIf given v) :
    Answers (NumberIf (given ∧ vs ≠ [])) (extremeOf ahead empty vs) := by
  refine (anyNaN_answers hvs).bind fun found hfound => ?_
  refine Answers.ite (fun hnan => .ok (.real fun hg => ?_)) fun hnan => ?_
  · simp [hfound.1 hg.1] at hnan
  · cases hns : numbers vs with
    | nil => exact .ok (.real fun hg => absurd hns (hfound.2 (by simpa using hnan) hg.2))
    | cons n ns =>
      have hmem := extreme_mem ahead n ns
      rw [← hns, numbers, List.mem_filterMap] at hmem
      obtain ⟨v, hv, heq⟩ := hmem
      cases v with
      | function f => cases heq
      | number k =>
        cases heq
        exact (toDouble_answers fun hg => hvs _ hv hg.1).map fun x hx => .real hx

/-! ## Other functions -/

theorem absoluteOf_answers (hv : FiniteIf given v) : Answers (NumberIf given) (absoluteOf v) := by
  cases v with
  | function f => exact .error (by simp)
  | number n =>
    cases n with
    | integer m => exact .ok ⟨_, rfl, fun _ => rfl⟩
    | boolean b => exact .ok ⟨_, rfl, fun _ => rfl⟩
    | real d => exact .ok (.real fun hg => (Double.isFinite_abs d).trans (hv hg))

theorem cubeRootOf_answers (hv : FiniteIf given v) : Answers (NumberIf given) (cubeRootOf v) := by
  have hroot : ∀ n : Number, (given → n.isFinite = true) →
      Answers (NumberIf given) (n.toDouble.map fun x => .real x.cbrt) := by
    intro n hn
    exact (toDouble_answers hn).map fun x hx => .real fun hg => Double.isFinite_cbrt (hx hg)
  cases v with
  | function f => exact .error (by simp)
  | number n =>
    cases n with
    | integer m =>
      refine Answers.ite (fun hdomain => .ok (.real fun _ => Double.isFinite_cbrt ?_)) fun _ => .error (by simp)
      have hbounds : -(2 ^ 63) ≤ m ∧ m < 2 ^ 64 := by simpa [cubeRootDomain] using hdomain
      exact (Double.within_ofInt (b := 64) (by omega) (by decide)).isFinite
    | boolean b => exact hroot (.boolean b) hv
    | real d => exact hroot (.real d) hv

theorem natAbs_leadingZeros_le (w : BitVec 32) : (leadingZeros w).natAbs ≤ 2 ^ 5 := by
  rw [leadingZeros]
  split
  · decide
  · rename_i hzero
    have hlog := (Nat.log2_lt hzero).mpr w.isLt
    omega

theorem natAbs_wordProduct_le (a b : BitVec 32) : (wordProduct a b).natAbs ≤ 2 ^ 31 := by
  have hlow := (Double.ofInt (a.toInt * b.toInt)).word.le_toInt
  have hhigh := (Double.ofInt (a.toInt * b.toInt)).word.toInt_lt
  rw [wordProduct]
  omega

theorem isFinite_signOf {x : Double} (hx : x.isFinite = true) : (signOf x).isFinite = true := by
  have hone : ∀ n : Int, n.natAbs ≤ 2 ^ 0 → (Double.ofInt n).isFinite = true :=
    fun n hn => (Double.within_ofInt hn (by decide)).isFinite
  rw [signOf, if_neg (by simp [Double.isNaN_of_isFinite hx])]
  split
  · rfl
  · split
    · exact hone _ (by decide)
    · exact hone _ (by decide)

/-! ## Calls -/

/-- Calls with finite arguments whose result is infinite. The rounding to the 32-bit format is infinite from the
overflow bound of that format on, and the square root of a sum of squares if the sum is not below the square of the
overflow bound of doubles. -/
inductive Overflowing : Builtin → List Value → Prop
  | single {v : Value} {x : Double} : v.converted = .ok x → Format.binary32.overflow ≤ x.units → Overflowing .fround [v]
  | norm {vs : List Value} {xs : List Double} : vs.mapM Value.realNumber = .ok xs →
      Double.overflow * Double.overflow ≤ (xs.map fun x => x.units * x.units).sum → Overflowing .hypot vs

section

variable {P : Value → Prop} {f : Builtin}

theorem ofOne_answers {g : Value → Except Fault Value} (hg : ∀ v ∈ vs, vs = [v] → Answers P (g v)) :
    Answers P (f.ofOne g vs) := by
  unfold Builtin.ofOne
  split
  · exact hg _ (List.mem_singleton.mpr rfl) rfl
  · exact .error (by simp)

theorem ofTwo_answers {g : Value → Value → Except Fault Value} (hg : ∀ v ∈ vs, ∀ w ∈ vs, Answers P (g v w)) :
    Answers P (f.ofTwo g vs) := by
  unfold Builtin.ofTwo
  split
  · exact hg _ (by simp) _ (by simp)
  · exact .error (by simp)

theorem ofTwoReals_answers {g : Double → Double → Except Fault Value} (hvs : ∀ v ∈ vs, FiniteIf given v)
    (hg : ∀ x y : Double, (given → x.isFinite = true) → (given → y.isFinite = true) → Answers P (g x y)) :
    Answers P (f.ofTwoReals g vs) := by
  refine ofTwo_answers fun v hv w hw => ?_
  exact (realNumber_answers (hvs v hv)).bind fun x hx => (realNumber_answers (hvs w hw)).bind fun y hy => hg x y hx hy

end

theorem fround_answers (hvs : ∀ v ∈ vs, FiniteIf given v) :
    Answers (NumberIf (given ∧ ¬Overflowing .fround vs)) (Builtin.apply .fround vs) := by
  refine ofOne_answers fun v hv hsingle => ?_
  refine (converted_answers (hvs v hv)).eq_ok.map fun x hx => .real fun hg => ?_
  refine (Double.isFinite_toSingle (hx.2 hg.1)).mpr (Nat.lt_of_not_le fun hover => hg.2 ?_)
  exact hsingle ▸ .single hx.1 hover

theorem hypot_answers (hvs : ∀ v ∈ vs, FiniteIf given v) :
    Answers (NumberIf (given ∧ ¬Overflowing .hypot vs)) (Builtin.apply .hypot vs) := by
  have hreals := Answers.mapM (f := Value.realNumber) fun v hv => realNumber_answers (hvs v hv)
  refine hreals.eq_ok.bind fun xs hxs => .ok (.real fun hg => ?_)
  have hfinite : ∀ x ∈ xs, x.isFinite = true := fun x hx => hxs.2 x hx hg.1
  rw [Double.isFinite_iff]
  refine ⟨Double.isNaN_hypot hfinite, ?_⟩
  rw [Bool.eq_false_iff, Ne, Double.isInfinite_hypot hfinite]
  exact fun hover => hg.2 (.norm hxs.1 hover)

/-- **Functions of the namespace.** The answer is a number. It is finite if the arguments are, if there is one at least
and if the call is not one of those that overflow. -/
theorem Builtin.apply_answers (f : Builtin) (hvs : ∀ v ∈ vs, FiniteIf given v) :
    Answers (NumberIf (given ∧ vs ≠ [] ∧ ¬Overflowing f vs)) (f.apply vs) := by
  have hall : ∀ {r : Except Fault Value}, Answers (NumberIf given) r →
      Answers (NumberIf (given ∧ vs ≠ [] ∧ ¬Overflowing f vs)) r :=
    fun h => h.imp fun v hv => hv.imp And.left
  unfold Builtin.apply
  split
  · refine hall (ofOne_answers fun v hv _ => (realNumber_answers (hvs v hv)).bind fun x hx => ?_)
    exact (guarded_answers _ _ hx).bind fun d hd => .ok (.real fun hg => (hd hg).2)
  · rename_i hreal
    cases f with
    | abs => exact hall (ofOne_answers fun v hv _ => absoluteOf_answers (hvs v hv))
    | atan2 =>
      refine hall (ofTwoReals_answers hvs fun y x hy hx => .ok (.real fun hg => ?_))
      exact Double.isFinite_atan2 (hy hg) (hx hg)
    | cbrt => exact hall (ofOne_answers fun v hv _ => cubeRootOf_answers (hvs v hv))
    | ceil =>
      refine hall (ofOne_answers fun v hv _ => rounding_answers (fun x n h => ?_) (hvs v hv))
      exact Nat.le_succ_of_le (Double.natAbs_ceiling_le h)
    | clz32 =>
      refine hall (ofOne_answers fun v hv _ => (word_answers v).map fun w _ => .real fun _ => ?_)
      exact (Double.within_ofInt (natAbs_leadingZeros_le w) (by decide)).isFinite
    | floor =>
      refine hall (ofOne_answers fun v hv _ => rounding_answers (fun x n h => ?_) (hvs v hv))
      exact Nat.le_succ_of_le (Double.natAbs_floor_le h)
    | fround => exact (fround_answers hvs).imp fun v hv => hv.imp fun hg => ⟨hg.1, hg.2.2⟩
    | hypot => exact (hypot_answers hvs).imp fun v hv => hv.imp fun hg => ⟨hg.1, hg.2.2⟩
    | imul =>
      refine hall (ofTwo_answers fun v hv w hw => ?_)
      refine (word_answers v).bind fun a _ => (word_answers w).bind fun b _ => .ok (.real fun _ => ?_)
      exact (Double.within_ofInt (natAbs_wordProduct_le a b) (by decide)).isFinite
    | log => exact hall (logarithmOf_answers hvs)
    | log10 =>
      refine hall (ofOne_answers fun v hv _ => ?_)
      exact (logarithm_answers (fun m => Double.within_log10) (by decide) (hvs v hv)).map fun d hd => .real hd
    | log2 =>
      refine hall (ofOne_answers fun v hv _ => ?_)
      exact (logarithm_answers (fun m => Double.within_log2) (by decide) (hvs v hv)).map fun d hd => .real hd
    | max => exact (extremeOf_answers _ _ hvs).imp fun v hv => hv.imp fun hg => ⟨hg.1, hg.2.1⟩
    | min => exact (extremeOf_answers _ _ hvs).imp fun v hv => hv.imp fun hg => ⟨hg.1, hg.2.1⟩
    | pow => exact hall (ofTwoReals_answers hvs fun x y hx hy => powerOf_answers hx hy)
    | round =>
      refine hall (ofOne_answers fun v hv _ => rounding_answers (fun x n h => ?_) (hvs v hv))
      exact natAbs_roundHalfUp_le h
    | sign =>
      refine hall (ofOne_answers fun v hv _ => ?_)
      exact (realNumber_answers (hvs v hv)).map fun x hx => .real fun hg => isFinite_signOf (hx hg)
    | trunc =>
      refine hall (ofOne_answers fun v hv _ => rounding_answers (fun x n h => ?_) (hvs v hv))
      exact Nat.le_add_right_of_le (Double.natAbs_truncate_le h)
    | _ => cases hreal

/-! ## Overflows -/

/-- A call that overflows has an infinite result. -/
theorem Overflowing.infinite {f : Builtin} (h : Overflowing f vs) (hvs : ∀ v ∈ vs, v.isFinite = true) :
    ∃ d : Double, f.apply vs = .ok (.real d) ∧ d.isFinite = false := by
  cases h with
  | @single v x hx hover =>
    have hfinite : x.isFinite = true :=
      (converted_answers fun _ : True => hvs v (by simp)).of_eq_ok hx trivial
    have happly : Builtin.fround.apply [v] = v.converted.map fun x => .real x.toSingle := rfl
    refine ⟨x.toSingle, ?_, ?_⟩
    · rw [happly, hx]
      rfl
    · rw [Bool.eq_false_iff, Ne, Double.isFinite_toSingle hfinite]
      exact Nat.not_lt_of_le hover
  | @norm _ xs hxs hover =>
    have hreals := Answers.mapM (f := Value.realNumber) fun v hv =>
      realNumber_answers fun _ : True => hvs v hv
    have hfinite : ∀ x ∈ xs, x.isFinite = true := fun x hx => hreals.of_eq_ok hxs x hx trivial
    have happly : Builtin.hypot.apply vs = vs.mapM Value.realNumber >>= fun xs => .ok (.real (.hypot xs)) := rfl
    refine ⟨.hypot xs, ?_, ?_⟩
    · rw [happly, hxs]
      rfl
    · exact Double.isFinite_of_isInfinite ((Double.isInfinite_hypot hfinite).mpr hover)

end DotGrid
