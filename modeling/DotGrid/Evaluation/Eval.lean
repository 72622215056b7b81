import DotGrid.Syntax.Expr
import DotGrid.Value.Functions

/-!
# Evaluation of a tree

A `Scope` gives numbers to parameters; a name that is no parameter stands for an entry of the namespace. Operands are
evaluated from left to right, `&&`, `||` and conditionals leave out what they do not need, and a call evaluates its
function before its arguments. `Expr.evalWithin` takes a budget of nested nodes.
-/

namespace DotGrid

/-- The numbers of the parameters. -/
abbrev Scope := String → Option Number

/-- What a name stands for: a parameter first, then an entry of the namespace. -/
def Scope.lookup (scope : Scope) (name : String) : Except Fault Value :=
  match scope name with
  | some n => .ok (.number n)
  | none =>
    match namespaceValue? name with
    | some v => .ok v
    | none => .error (.unresolvedName name)

/-- The fault of calling a number, whose text is part of the report. -/
def callOfNumber (n : Number) : Fault :=
  if longestInteger < n.digitCount then .integerTooLong else .notCallable n

/-- Whether the second operand of a logical operator is evaluated. -/
def LogicalOp.goesOn (op : LogicalOp) (left : Value) : Bool := left.truthy == (op == .both)

/-- The value of a tree, within a budget of nested nodes. -/
def Expr.evalWithin (scope : Scope) : Nat → Expr → Except Fault Value
  | 0, _ => .error .tooDeep
  | _ + 1, .number value => .ok (.number value)
  | _ + 1, .name ident => scope.lookup ident
  | n + 1, .unary op operand => do op.apply (← evalWithin scope n operand)
  | n + 1, .binary op left right => do
    let a ← evalWithin scope n left
    let b ← evalWithin scope n right
    op.apply a b
  | n + 1, .logical op left right => do
    let a ← evalWithin scope n left
    if op.goesOn a then evalWithin scope n right else .ok a
  | n + 1, .conditional test thenBranch elseBranch => do
    let v ← evalWithin scope n test
    if v.truthy then evalWithin scope n thenBranch else evalWithin scope n elseBranch
  | n + 1, .call function args => do
    match ← evalWithin scope n function with
    | .number v => .error (callOfNumber v)
    | .function f => f.apply (← args.mapM (evalWithin scope n))
  | _ + 1, .unsupported op _ => .error (.unknownOperator op)
  | _ + 1, .foreign kind => .error (.unknownNode kind)

/-- The value of a tree. -/
def Expr.eval (scope : Scope) (e : Expr) : Except Fault Value := e.evalWithin scope nestingLimit

end DotGrid
