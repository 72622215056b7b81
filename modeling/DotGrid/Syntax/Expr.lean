import DotGrid.Syntax.Operator
import DotGrid.Value.Number

/-!
# Expression trees

`Expr` is the tree of an expression. Trees that are not read from a text may also hold a node with an operator outside
the language (`unsupported`) and things that are no node at all (`foreign`). `Expr.names` lists the names of a tree in
source order with an explicit worklist, so that no depth of nesting stops it.
-/

namespace DotGrid

/-- The greatest depth of nested phrases of a parser, and of nested nodes of an evaluation. -/
def nestingLimit : Nat := 970

/-- An expression tree. -/
inductive Expr where
  | number (value : Number)
  | name (ident : String)
  | unary (op : UnaryOp) (operand : Expr)
  | binary (op : BinaryOp) (left right : Expr)
  | logical (op : LogicalOp) (left right : Expr)
  | conditional (test thenBranch elseBranch : Expr)
  | call (function : Expr) (args : List Expr)
  | unsupported (op : String) (operands : List Expr)
  | foreign (kind : String)
deriving Inhabited

namespace Expr

/-- The parts of a tree, in source order. -/
def children : Expr → List Expr
  | .number _ | .name _ | .foreign _ => []
  | .unary _ a => [a]
  | .binary _ a b | .logical _ a b => [a, b]
  | .conditional a b c => [a, b, c]
  | .call f args => f :: args
  | .unsupported _ operands => operands

/-- The name that a tree consists of. -/
def ident? : Expr → Option String
  | .name ident => some ident
  | _ => none

mutual

/-- The number of nodes of a tree. -/
def size : Expr → Nat
  | .number _ | .name _ | .foreign _ => 1
  | .unary _ a => size a + 1
  | .binary _ a b | .logical _ a b => size a + size b + 1
  | .conditional a b c => size a + size b + size c + 1
  | .call f args => size f + sizeAll args + 1
  | .unsupported _ operands => sizeAll operands + 1

/-- The number of nodes of a list of trees. -/
def sizeAll : List Expr → Nat
  | [] => 0
  | e :: es => size e + sizeAll es

end

theorem sizeAll_append (es fs : List Expr) : sizeAll (es ++ fs) = sizeAll es + sizeAll fs := by
  induction es with
  | nil => simp [sizeAll]
  | cons e es ih => simp [sizeAll, ih, Nat.add_assoc]

theorem size_eq (e : Expr) : size e = sizeAll e.children + 1 := by
  cases e <;> simp [size, children, sizeAll, Nat.add_assoc]

/-- The names met on a worklist of trees: the first tree is replaced by its parts. -/
def namesOf : List Expr → List String
  | [] => []
  | e :: rest => e.ident?.toList ++ namesOf (e.children ++ rest)
termination_by es => sizeAll es
decreasing_by simp only [sizeAll_append, sizeAll, size_eq]; omega

/-- The names of a tree, in source order with all repeats. -/
def names (e : Expr) : List String := namesOf [e]

end Expr

end DotGrid
