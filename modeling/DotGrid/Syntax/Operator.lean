/-!
# Operators of the expression tree

The operators that a tree can be built with, apart from how they are written: several symbols may build one operator.
-/

namespace DotGrid

/-- An operator with one operand. -/
inductive UnaryOp where
  | negate
  | toReal
  | not
  | complement
deriving DecidableEq

/-- An operator with two operands that are both evaluated. -/
inductive BinaryOp where
  | add
  | sub
  | mul
  | div
  | remainder
  | power
  | equal
  | notEqual
  | less
  | atMost
  | greater
  | atLeast
  | bitAnd
  | bitOr
  | bitXor
  | shiftLeft
  | shiftRight
  | unsignedRight
deriving DecidableEq

/-- An operator that may leave its second operand unevaluated. -/
inductive LogicalOp where
  | both
  | either
deriving DecidableEq

namespace UnaryOp

/-- All operators with one operand. -/
def all : List UnaryOp := [.negate, .toReal, .not, .complement]

theorem mem_all (o : UnaryOp) : o ∈ all := by
  cases o <;> decide

/-- The text of an operator. -/
def text : UnaryOp → String
  | .negate => "-"
  | .toReal => "+"
  | .not => "!"
  | .complement => "~"

/-- The operator with a given text. -/
def ofText? (s : String) : Option UnaryOp := all.find? (·.text = s)

end UnaryOp

namespace BinaryOp

/-- All operators with two operands that are both evaluated. -/
def all : List BinaryOp :=
  [.add, .sub, .mul, .div, .remainder, .power, .equal, .notEqual, .less, .atMost, .greater, .atLeast, .bitAnd,
    .bitOr, .bitXor, .shiftLeft, .shiftRight, .unsignedRight]

theorem mem_all (o : BinaryOp) : o ∈ all := by
  cases o <;> decide

/-- The text of an operator. -/
def text : BinaryOp → String
  | .add => "+"
  | .sub => "-"
  | .mul => "*"
  | .div => "/"
  | .remainder => "%"
  | .power => "**"
  | .equal => "=="
  | .notEqual => "!="
  | .less => "<"
  | .atMost => "<="
  | .greater => ">"
  | .atLeast => ">="
  | .bitAnd => "&"
  | .bitOr => "|"
  | .bitXor => "^"
  | .shiftLeft => "<<"
  | .shiftRight => ">>"
  | .unsignedRight => ">>>"

/-- The operator with a given text. -/
def ofText? (s : String) : Option BinaryOp := all.find? (·.text = s)

end BinaryOp

/-- The text of an operator. -/
def LogicalOp.text : LogicalOp → String
  | .both => "&&"
  | .either => "||"

/-- The operator with a given text; every text but that of `both` stands for `either`. -/
def LogicalOp.ofText (s : String) : LogicalOp :=
  if s = LogicalOp.both.text then .both else .either

end DotGrid
