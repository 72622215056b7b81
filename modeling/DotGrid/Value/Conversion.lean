import DotGrid.Value.Fault

/-!
# Conversions between kinds of values

An integer becomes the nearest double, which fails beyond the range of doubles. A number becomes a word of 32 bits by
way of its double: the truncated double modulo `2^32`, or zero for NaN and the infinities.
-/

namespace DotGrid

/-- The double nearest to an integer; a fault beyond the range of doubles. -/
def integerToDouble (n : Int) : Except Fault Double :=
  if (Double.ofInt n).isInfinite then .error .integerTooLarge else .ok (.ofInt n)

/-- The double of a number. -/
def Number.toDouble : Number → Except Fault Double
  | .integer n => integerToDouble n
  | .boolean b => .ok (.ofInt (if b then 1 else 0))
  | .real d => .ok d

namespace Value

/-- The double of a value, as an operand or argument that has to be a real number. -/
def realNumber : Value → Except Fault Double
  | .number n => n.toDouble
  | .function f => .error (.mismatch (.realNumber (kind (.function f))))

/-- The double of a value that is converted. -/
def converted : Value → Except Fault Double
  | .number n => n.toDouble
  | .function f => .error (.mismatch (.conversion (kind (.function f))))

end Value

/-- The 32-bit word of a double: its truncation modulo `2^32`, and zero for NaN and the infinities. -/
def Double.word (d : Double) : BitVec 32 :=
  match d.truncate? with
  | some n => BitVec.ofInt 32 n
  | none => 0

/-- The 32-bit word of a value. -/
def Value.word (v : Value) : Except Fault (BitVec 32) := v.converted.map Double.word

end DotGrid
