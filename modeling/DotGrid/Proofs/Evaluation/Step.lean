import DotGrid.Evaluation.Eval
import DotGrid.Proofs.Value.Faults

/-!
# One step of an evaluation

`Expr.step` is the value of a tree for given values of its parts, and an evaluation takes such a step at each node
(`Expr.evalWithin_succ`). A step depends on its parts and on the name at the node (`Expr.step_congr`). Its faults are
those of the parts, those of a name, and others that are about neither names nor depth (`Expr.step_faults`).
-/

namespace DotGrid

variable {s s' : Scope} {e : Expr} {eval eval' : Expr → Except Fault Value}

theorem mapM_congr {α β : Type} {g h : α → Except Fault β} {as : List α} (heq : ∀ a ∈ as, g a = h a) :
    as.mapM g = as.mapM h := by
  induction as with
  | nil => rfl
  | cons a as ih =>
    obtain ⟨ha, has⟩ := List.forall_mem_cons.mp heq
    simp only [List.mapM_cons, ha, ih has]

namespace Expr

/-- The value of a tree whose parts have given values. -/
def step (scope : Scope) (eval : Expr → Except Fault Value) : Expr → Except Fault Value
  | .number value => .ok (.number value)
  | .name ident => scope.lookup ident
  | .unary op operand => do op.apply (← eval operand)
  | .binary op left right => do
    let a ← eval left
    let b ← eval right
    op.apply a b
  | .logical op left right => do
    let a ← eval left
    if op.goesOn a then eval right else .ok a
  | .conditional test thenBranch elseBranch => do
    let v ← eval test
    if v.truthy then eval thenBranch else eval elseBranch
  | .call function args => do
    match ← eval function with
    | .number v => .error (callOfNumber v)
    | .function f => f.apply (← args.mapM eval)
  | .unsupported op _ => .error (.unknownOperator op)
  | .foreign kind => .error (.unknownNode kind)

theorem evalWithin_succ (n : Nat) (e : Expr) : e.evalWithin s (n + 1) = e.step s (evalWithin s n) := by
  cases e <;> rfl

theorem step_congr (hname : ∀ ident, e = .name ident → s.lookup ident = s'.lookup ident)
    (h : ∀ part ∈ e.children, eval part = eval' part) : e.step s eval = e.step s' eval' := by
  cases e with
  | number value => rfl
  | name ident => exact hname ident rfl
  | unary op a => simp only [step, h a (by simp [children])]
  | binary op a b => simp only [step, h a (by simp [children]), h b (by simp [children])]
  | logical op a b => simp only [step, h a (by simp [children]), h b (by simp [children])]
  | conditional a b c =>
    simp only [step, h a (by simp [children]), h b (by simp [children]), h c (by simp [children])]
  | call f args =>
    have hargs : args.mapM eval = args.mapM eval' := mapM_congr fun a ha => h a (by simp [children, ha])
    simp only [step, h f (by simp [children]), hargs]
  | unsupported op operands => rfl
  | foreign kind => rfl

end Expr

/-- The fault is neither about a name that stands for nothing nor about the depth of a tree. -/
structure Fault.IsOfStep (fault : Fault) : Prop where
  ne_tooDeep : fault ≠ .tooDeep
  ne_unresolvedName (name : String) : fault ≠ .unresolvedName name

theorem Fault.IsOfStep.of_operation {fault : Fault} (h : fault.isOfOperation = true) : fault.IsOfStep where
  ne_tooDeep := by
    rintro rfl
    cases h
  ne_unresolvedName name := by
    rintro rfl
    cases h

theorem callOfNumber_isOfStep (n : Number) : (callOfNumber n).IsOfStep := by
  unfold callOfNumber
  split <;> exact ⟨by simp, by simp⟩

theorem Expr.step_faults {F : Fault → Prop} (hstep : ∀ fault : Fault, fault.IsOfStep → F fault)
    (hname : ∀ ident, e = .name ident → FaultsOnly F (s.lookup ident))
    (h : ∀ part ∈ e.children, FaultsOnly F (eval part)) : FaultsOnly F (e.step s eval) := by
  have hoperation : ∀ {r : Except Fault Value}, Operational r → FaultsOnly F r :=
    fun hr => hr.mono fun fault hfault => hstep fault (.of_operation hfault)
  cases e with
  | number value => exact .ok _
  | name ident => exact hname ident rfl
  | unary op a => exact (h a (by simp [children])).bind fun v => hoperation (op.apply_faults v)
  | binary op a b =>
    refine (h a (by simp [children])).bind fun v => (h b (by simp [children])).bind fun w => ?_
    exact hoperation (op.apply_faults v w)
  | logical op a b => exact (h a (by simp [children])).bind fun v => .ite (h b (by simp [children])) (.ok v)
  | conditional a b c =>
    refine (h a (by simp [children])).bind fun v => ?_
    exact .ite (h b (by simp [children])) (h c (by simp [children]))
  | call f args =>
    refine (h f (by simp [children])).bind fun v => ?_
    cases v with
    | number k => exact .error (hstep _ (callOfNumber_isOfStep k))
    | function g =>
      refine (FaultsOnly.mapM fun a ha => h a (by simp [children, ha])).bind fun vs => ?_
      exact hoperation (g.apply_faults vs)
  | unsupported op operands => exact .error (hstep _ ⟨by simp, by simp⟩)
  | foreign kind => exact .error (hstep _ ⟨by simp, by simp⟩)

end DotGrid
