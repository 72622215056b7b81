import DotGrid.Distinct
import DotGrid.Evaluation.Eval
import DotGrid.Syntax.Source

/-!
# Dot functions

A dot function is a compiled expression: it gives a double to the time `t`, the index `i` and the place `x`, `y` of a
dot, or a fault. Names are looked up when it is called, so an unknown name compiles and fails on every call;
`unresolvedNames` lists such names beforehand.
-/

namespace DotGrid

/-- The arguments of a dot function. -/
structure Dot where
  t : Number
  i : Number
  x : Number
  y : Number
deriving DecidableEq

/-- The names of the parameters. -/
def parameterNames : List String := ["t", "i", "x", "y"]

/-- The parameters of one dot. -/
def Dot.scope (d : Dot) : Scope := fun name =>
  match name with
  | "t" => some d.t
  | "i" => some d.i
  | "x" => some d.x
  | "y" => some d.y
  | _ => none

/-- A compiled expression. -/
structure DotFunction where
  tree : Expr

namespace DotFunction

/-- The dot function of a source text, if it is an expression. -/
def compile? (source : String) : Option DotFunction :=
  match Expr.parse source with
  | .ok tree => some ⟨tree⟩
  | .error _ => none

/-- The double of a dot. -/
def call (f : DotFunction) (d : Dot) : Except Fault Double := do
  match ← f.tree.eval d.scope with
  | .number n => n.toDouble
  | .function g => .error (.functionAsResult g)

/-- The names that are neither a parameter nor in the namespace, in the order of their first occurrence. -/
def unresolvedNames (f : DotFunction) : List String :=
  firstOccurrences (f.tree.names.filter fun n => !(parameterNames.contains n) && (namespaceValue? n).isNone)

end DotFunction

end DotGrid
