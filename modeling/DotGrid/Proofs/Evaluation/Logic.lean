import DotGrid.Proofs.Nesting

/-!
# Laws of the logical operators

`&&` and `||` give one of their operands, or the fault of one of them, and they differ in the truth that makes them go
on to the second operand. So their laws are laws of one operator on results: it is associative
(`LogicalOp.join_assoc`), it distributes over both operators (`LogicalOp.join_distrib`), and negated operands turn it
into the other one (`denied_join`). Trees that have one result without a limit of nesting have it within all limits
that they do not reach (`SameResult.of_value`).
-/

namespace DotGrid

variable {scope : Scope} {e e' : Expr}

/-! ## Operators on results -/

namespace LogicalOp

/-- The operator that goes on where this one stops. -/
def dual : LogicalOp → LogicalOp
  | .both => .either
  | .either => .both

/-- The result of a logical operator whose operands have given results. -/
def join (op : LogicalOp) (r s : Except Fault Value) : Except Fault Value := do
  let a ← r
  if op.goesOn a then s else .ok a

@[simp] theorem join_error (op : LogicalOp) (fault : Fault) (s : Except Fault Value) :
    op.join (.error fault) s = .error fault := rfl

@[simp] theorem join_ok (op : LogicalOp) (v : Value) (s : Except Fault Value) :
    op.join (.ok v) s = if op.goesOn v then s else .ok v := rfl

theorem join_assoc (op : LogicalOp) (r s u : Except Fault Value) :
    op.join (op.join r s) u = op.join r (op.join s u) := by
  cases r with
  | error fault => rfl
  | ok v =>
    cases hv : op.goesOn v with
    | true => simp [hv]
    | false => simp [hv]

/-- An operator distributes over each operator. If it stops at its first operand, the other one is given this value
twice, and it comes to this value whether it goes on or not. -/
theorem join_distrib (op op' : LogicalOp) (r s u : Except Fault Value) :
    op.join r (op'.join s u) = op'.join (op.join r s) (op.join r u) := by
  cases r with
  | error fault => rfl
  | ok v =>
    cases hv : op.goesOn v with
    | true => simp [hv]
    | false => simp [hv]

end LogicalOp

/-- The result of a conditional whose parts have given results. -/
def chosen (r s u : Except Fault Value) : Except Fault Value := do
  let v ← r
  if v.truthy then s else u

theorem join_both_eq_chosen (r s : Except Fault Value) : LogicalOp.both.join r s = chosen r s r := by
  cases r with
  | error fault => rfl
  | ok v => simp [chosen, bind, Except.bind, LogicalOp.goesOn]

theorem join_either_eq_chosen (r s : Except Fault Value) : LogicalOp.either.join r s = chosen r r s := by
  cases r with
  | error fault => rfl
  | ok v => cases hv : v.truthy <;> simp [chosen, bind, Except.bind, LogicalOp.goesOn, hv]

/-- The result of a negation whose operand has a given result. -/
def denied (r : Except Fault Value) : Except Fault Value := do UnaryOp.not.apply (← r)

/-- The negation of the operands turns an operator into its dual. -/
theorem denied_join (op : LogicalOp) (r s : Except Fault Value) :
    denied (op.join r s) = op.dual.join (denied r) (denied s) := by
  cases r with
  | error fault => rfl
  | ok v =>
    have hdenied : denied (.ok v) = .ok (.number (.boolean !v.truthy)) := rfl
    have hdual : op.dual.goesOn (.number (.boolean !v.truthy)) = op.goesOn v := by
      show ((!v.truthy) == (op.dual == .both)) = (v.truthy == (op == .both))
      cases op <;> cases v.truthy <;> rfl
    rw [hdenied, LogicalOp.join_ok, LogicalOp.join_ok, hdual]
    split
    · rfl
    · exact hdenied

/-! ## Trees -/

/-- Two trees have one result, value or fault: without a limit of nesting, and within any limits that they do not
reach. -/
structure SameResult (scope : Scope) (e e' : Expr) : Prop where
  value_eq : e.value scope = e'.value scope
  eval_eq : ∀ m n, e.evalWithin scope m ≠ .error .tooDeep → e'.evalWithin scope n ≠ .error .tooDeep →
    e.evalWithin scope m = e'.evalWithin scope n

theorem SameResult.of_value (h : e.value scope = e'.value scope) : SameResult scope e e' where
  value_eq := h
  eval_eq m n hm hn := by
    rw [(evalWithin_cut e m).eq hm, (evalWithin_cut e' n).eq hn, h]

theorem value_logical (op : LogicalOp) (a b : Expr) :
    (Expr.logical op a b).value scope = op.join (a.value scope) (b.value scope) := rfl

theorem value_conditional (a b c : Expr) :
    (Expr.conditional a b c).value scope = chosen (a.value scope) (b.value scope) (c.value scope) := rfl

theorem value_not (a : Expr) : (Expr.unary .not a).value scope = denied (a.value scope) := rfl

/-- **The algebra of `&&` and `||`.** In each scope these trees have one result, value or fault: a logical operator and
the conditional that it is short for; three operands of one operator, whatever their grouping is; the negation of an
operator and the dual operator of the negations; an operator that is distributed over one of the two operators. -/
theorem logical_laws (scope : Scope) (a b c : Expr) :
    SameResult scope (.logical .both a b) (.conditional a b a) ∧
    SameResult scope (.logical .either a b) (.conditional a a b) ∧
    ∀ op : LogicalOp,
      SameResult scope (.logical op (.logical op a b) c) (.logical op a (.logical op b c)) ∧
      SameResult scope (.unary .not (.logical op a b)) (.logical op.dual (.unary .not a) (.unary .not b)) ∧
      ∀ op' : LogicalOp, SameResult scope (.logical op a (.logical op' b c))
        (.logical op' (.logical op a b) (.logical op a c)) := by
  refine ⟨.of_value ?_, .of_value ?_, fun op => ⟨.of_value ?_, .of_value ?_, fun op' => .of_value ?_⟩⟩
  · rw [value_logical, value_conditional]
    exact join_both_eq_chosen _ _
  · rw [value_logical, value_conditional]
    exact join_either_eq_chosen _ _
  · simp only [value_logical]
    exact op.join_assoc _ _ _
  · simp only [value_not, value_logical]
    exact denied_join op _ _
  · simp only [value_logical]
    exact op.join_distrib op' _ _ _

end DotGrid
