import DotGrid.Double.Elementary
import DotGrid.Value.Conversion

/-!
# Operators on values

Sums, differences and products of integers and truth values are exact integers; with a double among the operands they
are doubles. A result that is infinite although both operands are finite is a fault, and so are a division by zero and
an argument outside the domain of a function. Comparisons are exact across kinds. The bit operators work on words of 32
bits, read as integers; a shift to the left goes beyond the word, and its result becomes a word by way of its double.
-/

namespace DotGrid

/-- The result of an operation on two finite doubles has to be finite. -/
def checked (a b result : Double) : Except Fault Value :=
  if result.isInfinite && a.isFinite && b.isFinite then .error .outOfRange else .ok (.real result)

/-- An operation that is exact on integers and rounded on doubles. -/
def exactOrRounded (op : BinaryOp) (onInts : Int → Int → Int) (onDoubles : Double → Double → Double) :
    Value → Value → Except Fault Value
  | .number a, .number b =>
    match a.whole?, b.whole? with
    | some m, some n => .ok (.number (.integer (onInts m n)))
    | _, _ => do
      let x ← a.toDouble
      let y ← b.toDouble
      checked x y (onDoubles x y)
  | a, b => .error (.mismatch (.operands op a.kind b.kind))

/-- The quotient of two integers as a double. -/
def divideIntegers (m n : Int) : Except Fault Value :=
  if n = 0 then .error (.divisionByZero false)
  else if (Double.divInts m n).isInfinite then .error .quotientTooLarge
  else .ok (.real (.divInts m n))

/-- The quotient. -/
def divide : Value → Value → Except Fault Value
  | .number a, .number b =>
    match a.whole?, b.whole? with
    | some m, some n => divideIntegers m n
    | _, _ => do
      let x ← a.toDouble
      let y ← b.toDouble
      if y.isZero then .error (.divisionByZero true) else checked x y (x.div y)
  | a, b => .error (.mismatch (.operands .div a.kind b.kind))

/-- The remainder of a division toward zero; a fault if there is none although neither operand is NaN. -/
def remainderOf (a b : Value) : Except Fault Value := do
  let x ← a.realNumber
  let y ← b.realNumber
  let r := x.remainder y
  if r.isNaN && !x.isNaN && !y.isNaN then .error .domain else .ok (.real r)

/-- The power of doubles. Of finite operands, a power that is no real number or that divides by zero is outside the
domain, and a greater one than every double is out of range. -/
def powerOf (x y : Double) : Except Fault Value :=
  let r := x.pow y
  if !x.isFinite || !y.isFinite || r.isFinite then .ok (.real r)
  else if r.isNaN || x.isZero then .error .domain
  else .error .range

/-- Whether two values are equal: numbers as numbers, and a function to itself only. -/
def sameValue : Value → Value → Bool
  | .number a, .number b => Measure.compare? a.measure b.measure = some .eq
  | .function f, .function g => f = g
  | _, _ => false

/-- The truth of an order between two numbers; a NaN is in no order. -/
def ordered (op : BinaryOp) (holds : Ordering → Bool) : Value → Value → Except Fault Value
  | .number a, .number b => .ok (.number (.boolean ((Measure.compare? a.measure b.measure).any holds)))
  | a, b => .error (.mismatch (.operands op a.kind b.kind))

/-- The integer with the binary digits that `f` gives for the digits of two natural numbers, which are zeros beyond the
greatest one. -/
def naturalDigitwise (f : Bool → Bool → Bool) (m n : Nat) : Int :=
  if f false false then .negSucc (Nat.bitwise (fun a b => !f a b) m n) else .ofNat (Nat.bitwise f m n)

/-- The integer with the binary digits that `f` gives for the digits of two integers. The digits of a negative integer
are those of its complement, inverted. -/
def digitwise (f : Bool → Bool → Bool) : Int → Int → Int
  | .ofNat m, .ofNat n => naturalDigitwise f m n
  | .ofNat m, .negSucc n => naturalDigitwise (fun a b => f a !b) m n
  | .negSucc m, .ofNat n => naturalDigitwise (fun a b => f (!a) b) m n
  | .negSucc m, .negSucc n => naturalDigitwise (fun a b => f (!a) !b) m n

/-- An operation on the words of two values, the left one being converted first. -/
def onWords (f : BitVec 32 → BitVec 32 → Int) (a b : Value) : Except Fault Value := do
  let v ← a.word
  let w ← b.word
  .ok (.number (.integer (f v w)))

/-- The number of places of a shift: the word modulo 32. -/
def shiftCount (w : BitVec 32) : Nat := w.toNat % 32

/-- The result of an operator on two values. -/
def BinaryOp.apply : BinaryOp → Value → Value → Except Fault Value
  | .add => exactOrRounded .add (· + ·) Double.add
  | .sub => exactOrRounded .sub (· - ·) Double.sub
  | .mul => exactOrRounded .mul (· * ·) Double.mul
  | .div => divide
  | .remainder => remainderOf
  | .power => fun a b => do
    let x ← a.realNumber
    let y ← b.realNumber
    powerOf x y
  | .equal => fun a b => .ok (.number (.boolean (sameValue a b)))
  | .notEqual => fun a b => .ok (.number (.boolean (!sameValue a b)))
  | .less => ordered .less (· = .lt)
  | .atMost => ordered .atMost (· ≠ .gt)
  | .greater => ordered .greater (· = .gt)
  | .atLeast => ordered .atLeast (· ≠ .lt)
  | .bitAnd => onWords fun v w => digitwise and v.toInt w.toInt
  | .bitOr => onWords fun v w => digitwise or v.toInt w.toInt
  | .bitXor => onWords fun v w => digitwise xor v.toInt w.toInt
  | .shiftLeft => onWords fun v w => (Double.ofInt (v.toInt <<< shiftCount w)).word.toInt
  | .shiftRight => onWords fun v w => v.toInt >>> shiftCount w
  | .unsignedRight => onWords fun v w => (v.toNat >>> shiftCount w : Nat)

/-- The opposite number; an integer's is an integer. -/
def negated : Value → Except Fault Value
  | .number (.real d) => .ok (.real d.neg)
  | .number (.integer n) => .ok (.number (.integer (-n)))
  | .number (.boolean b) => .ok (.number (.integer (if b then -1 else 0)))
  | .function f => .error (.mismatch (.negation (Value.kind (.function f))))

/-- The result of an operator on one value. -/
def UnaryOp.apply : UnaryOp → Value → Except Fault Value
  | .negate, v => negated v
  | .toReal, .number n => n.toDouble.map .real
  | .toReal, .function _ => .error .functionAsNumber
  | .not, v => .ok (.number (.boolean !v.truthy))
  | .complement, v => v.word.map fun w => .number (.integer (~~~w.toInt))

end DotGrid
