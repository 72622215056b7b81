import DotGrid.Proofs.Nesting
import DotGrid.Proofs.Value.Conversion

/-!
# Division by zero

A zero is an integer, a truth value or a double of either sign (`Number.measure`). No number has a quotient by a zero
(`divide_zero`). A remainder is refused if it is NaN although its operands are not, so NaN is the only number that has a
remainder by a zero (`remainderOf_zero`, `remainderOf_nan`). Hence a quotient by a zero fails within every limit of
nesting, and a remainder by a zero fails unless its dividend is NaN (`division_by_zero`).
-/

namespace DotGrid

variable {scope : Scope} {a b : Expr} {x z : Number} {v w : Value} {n : Nat}

/-! ## Operators on numbers -/

/-- No number has a quotient by a zero. -/
theorem divide_zero (hz : z.measure = .units 0) (x : Number) :
    ∃ fault, divide (.number x) (.number z) = .error fault ∧ fault.kind ∈ ["ZeroDivisionError", "OverflowError"] := by
  simp only [divide]
  split
  · rename_i m k hm hk
    refine ⟨.divisionByZero false, ?_, by simp [Fault.kind]⟩
    rw [whole_zero hz hk, divideIntegers, if_pos rfl]
  · obtain ⟨d, hd, hzero⟩ := exists_toDouble_zero hz
    cases hx : x.toDouble with
    | error fault =>
      obtain rfl := toDouble_fault hx
      exact ⟨.integerTooLarge, rfl, by simp [Fault.kind]⟩
    | ok y =>
      refine ⟨.divisionByZero true, ?_, by simp [Fault.kind]⟩
      simp [hd, hzero, bind, Except.bind]

theorem Double.isNaN_remainder_zero (y : Double) {d : Double} (hd : d.isZero = true) :
    d.isNaN = false ∧ (y.remainder d).isNaN = true := by
  cases d with
  | nan => cases hd
  | infinite s => cases hd
  | finite s m =>
    have hm : m.units = 0 := beq_iff_eq.mp hd
    refine ⟨rfl, ?_⟩
    cases y with
    | nan => rfl
    | infinite s' => rfl
    | finite s' m' => simp [remainder, hm, isNaN]

/-- No number but NaN has a remainder by a zero. -/
theorem remainderOf_zero (hz : z.measure = .units 0) (hx : x ≠ .real .nan) :
    ∃ fault, remainderOf (.number x) (.number z) = .error fault ∧ fault.kind ∈ ["ValueError", "OverflowError"] := by
  obtain ⟨d, hd, hzero⟩ := exists_toDouble_zero hz
  simp only [remainderOf, Value.realNumber, hd]
  cases hy : x.toDouble with
  | error fault =>
    obtain rfl := toDouble_fault hy
    exact ⟨.integerTooLarge, rfl, by simp [Fault.kind]⟩
  | ok y =>
    have hyn : y.isNaN = false := by rw [isNaN_toDouble hy, decide_eq_false hx]
    obtain ⟨hdn, hrn⟩ := Double.isNaN_remainder_zero y hzero
    refine ⟨.domain, ?_, by simp [Fault.kind]⟩
    simp [hyn, hdn, hrn, bind, Except.bind]

/-- A remainder of NaN is NaN. -/
theorem remainderOf_nan (hz : z.measure = .units 0) : remainderOf (.real .nan) (.number z) = .ok (.real .nan) := by
  obtain ⟨d, hd, -⟩ := exists_toDouble_zero hz
  show (do
    let y ← z.toDouble
    let r := Double.nan.remainder y
    if r.isNaN && !Double.nan.isNaN && !y.isNaN then .error .domain else .ok (.real r)) = Except.ok (Value.real .nan)
  rw [hd]
  rfl

/-! ## Trees -/

/-- Within every limit of nesting the tree fails with a fault of one of some kinds. -/
def FailsWith (scope : Scope) (e : Expr) (kinds : List String) : Prop :=
  ∀ limit, ∃ fault, e.evalWithin scope limit = .error fault ∧ fault.kind ∈ kinds

theorem value_eq_ok (h : a.evalWithin scope n = .ok v) : a.value scope = .ok v :=
  ((evalWithin_cut a n).eq (by rw [h]; nofun)).symm.trans h

theorem failsWith_binary {op : BinaryOp} {kinds : List String} (ha : a.evalWithin scope n = .ok v)
    (hb : b.evalWithin scope n = .ok w) (h : ∃ fault, op.apply v w = .error fault ∧ fault.kind ∈ kinds) :
    FailsWith scope (.binary op a b) ("RecursionError" :: kinds) := by
  intro limit
  obtain ⟨fault, hfault, hkind⟩ := h
  have hvalue : (Expr.binary op a b).value scope = .error fault := by
    show (do op.apply (← a.value scope) (← b.value scope)) = Except.error fault
    rw [value_eq_ok ha, value_eq_ok hb]
    exact hfault
  have hcut : CutOff ((Expr.binary op a b).value scope) ((Expr.binary op a b).evalWithin scope limit) :=
    evalWithin_cut _ limit
  rcases hcut with hdeep | hmeant
  · exact ⟨.tooDeep, hdeep, List.mem_cons_self⟩
  · exact ⟨fault, hmeant.trans hvalue, List.mem_cons_of_mem _ hkind⟩

/-- A dot function of a tree that fails gives no double. -/
theorem FailsWith.call {d : Dot} {e : Expr} {kinds : List String} (h : FailsWith d.scope e kinds) :
    ∃ fault, (DotFunction.mk e).call d = .error fault ∧ fault.kind ∈ kinds := by
  obtain ⟨fault, hfault, hkind⟩ := h nestingLimit
  refine ⟨fault, ?_, hkind⟩
  rw [DotFunction.call, Expr.eval, hfault]
  rfl

/-- **Division by zero.** Let one operand be a number and the other one a zero. The quotient fails within every limit of
nesting, and so does the remainder unless the number is NaN. The remainder of NaN by a zero is NaN, within every limit
that is above that of the operands. -/
theorem division_by_zero (ha : a.evalWithin scope n = .ok (.number x)) (hb : b.evalWithin scope n = .ok (.number z))
    (hz : z.measure = .units 0) :
    FailsWith scope (.binary .div a b) ["RecursionError", "ZeroDivisionError", "OverflowError"] ∧
    (x ≠ .real .nan →
      FailsWith scope (.binary .remainder a b) ["RecursionError", "ValueError", "OverflowError"]) ∧
    (x = .real .nan → ∀ limit, n < limit →
      (Expr.binary .remainder a b).evalWithin scope limit = .ok (.real .nan)) ∧
    ∀ d : Dot, d.scope = scope →
      (∃ fault, (DotFunction.mk (.binary .div a b)).call d = .error fault) ∧
      (x ≠ .real .nan → ∃ fault, (DotFunction.mk (.binary .remainder a b)).call d = .error fault) := by
  have hdiv : FailsWith scope (.binary .div a b) ["RecursionError", "ZeroDivisionError", "OverflowError"] :=
    failsWith_binary ha hb (divide_zero hz x)
  have hrem : x ≠ .real .nan →
      FailsWith scope (.binary .remainder a b) ["RecursionError", "ValueError", "OverflowError"] :=
    fun hx => failsWith_binary ha hb (remainderOf_zero hz hx)
  refine ⟨hdiv, hrem, ?_, ?_⟩
  · rintro rfl limit hlimit
    have hnext : (Expr.binary .remainder a b).evalWithin scope (n + 1) = .ok (.real .nan) := by
      show (do remainderOf (← a.evalWithin scope n) (← b.evalWithin scope n)) = Except.ok (Value.real .nan)
      rw [ha, hb]
      exact remainderOf_nan hz
    rw [evalWithin_eq_of_le hlimit (by rw [hnext]; nofun), hnext]
  · rintro d rfl
    refine ⟨?_, fun hx => ?_⟩
    · obtain ⟨fault, hfault, -⟩ := hdiv.call
      exact ⟨fault, hfault⟩
    · obtain ⟨fault, hfault, -⟩ := (hrem hx).call
      exact ⟨fault, hfault⟩

/-- Infinity and a zero that is a truth value. -/
theorem division_by_zero_infinity :
    let d : Dot := ⟨.integer 0, .integer 0, .real (.infinite false), .boolean false⟩
    (Expr.name "x").eval d.scope = .ok (.real (.infinite false)) ∧
      (Expr.name "y").eval d.scope = .ok (.number (.boolean false)) ∧ (Number.boolean false).measure = .units 0 ∧
      (∃ fault, (DotFunction.mk (.binary .div (.name "x") (.name "y"))).call d = .error fault) ∧
      ∃ fault, (DotFunction.mk (.binary .remainder (.name "x") (.name "y"))).call d = .error fault := by
  intro d
  have hx : (Expr.name "x").eval d.scope = .ok (.real (.infinite false)) := rfl
  have hy : (Expr.name "y").eval d.scope = .ok (.number (.boolean false)) := rfl
  have hz : (Number.boolean false).measure = .units 0 := rfl
  obtain ⟨-, -, -, hcalls⟩ := division_by_zero hx hy hz
  obtain ⟨hdiv, hrem⟩ := hcalls d rfl
  exact ⟨hx, hy, hz, hdiv, hrem (by decide)⟩

/-- The remainder of NaN by zero is not refused, although the quotient is. -/
theorem remainder_of_nan :
    let d : Dot := ⟨.integer 0, .integer 0, .real .nan, .integer 0⟩
    let f : DotFunction := ⟨.binary .remainder (.name "x") (.name "y")⟩
    (Expr.name "x").eval d.scope = .ok (.real .nan) ∧ (Expr.name "y").eval d.scope = .ok (.number (.integer 0)) ∧
      DotFunction.compile? "x%y" = some f ∧ f.call d = .ok .nan ∧
      (DotFunction.mk (.binary .div (.name "x") (.name "y"))).call d = .error (.divisionByZero true) := by
  intro d f
  have hscan : scan "x%y" = .ok [⟨.name "x", 0⟩, ⟨.symbol .percent, 1⟩, ⟨.name "y", 2⟩] := by
    have htext : "x%y".toList = ['x', '%', 'y'] := rfl
    rw [scan, htext]
    repeat refine scanFrom_cons _ (by decide) rfl ?_
    rw [List.drop_nil, scanFrom]
  have hparse : Expr.parse "x%y" = .ok f.tree := by
    rw [Expr.parse, hscan]
    rfl
  refine ⟨rfl, rfl, by rw [DotFunction.compile?, hparse], by decide +kernel, by decide +kernel⟩

end DotGrid
