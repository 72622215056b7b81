import DotGrid.Decimal.Numeral
import DotGrid.Decimal.Shortest

/-!
# Numbers

A number is an unbounded integer, a truth value or a double. Truth values count as the integers zero and one. Numbers
of all kinds are compared exactly, by their places on the line of units (`Number.measure`).
-/

namespace DotGrid

/-- A number of one of three kinds. -/
inductive Number where
  | integer (n : Int)
  | boolean (b : Bool)
  | real (d : Double)
deriving DecidableEq

namespace Number

/-- The integer that an integer or a truth value is. -/
def whole? : Number → Option Int
  | .integer n => some n
  | .boolean b => some (if b then 1 else 0)
  | .real _ => none

/-- The exact place of a number on the extended line. -/
def measure : Number → Measure
  | .integer n => .units (n * Double.one)
  | .boolean b => .units (if b then Double.one else 0)
  | .real d => d.measure

/-- Zeros and NaN are false and all else is true. -/
def truthy : Number → Bool
  | .integer n => n != 0
  | .boolean b => b
  | .real d => !d.isZero && !d.isNaN

/-- The text of a number. -/
def text : Number → String
  | .integer n => String.ofList (if n < 0 then '-' :: Nat.toDigits 10 n.natAbs else Nat.toDigits 10 n.natAbs)
  | .boolean b => if b then "True" else "False"
  | .real d => d.text

/-- The number of decimal digits of an integer, its sign apart; zero for a number of another kind. -/
def digitCount : Number → Nat
  | .integer n => (Nat.toDigits 10 n.natAbs).length
  | _ => 0

/-- The integer of a text of digits with an optional minus in front. -/
def plainInteger? (cs : List Char) : Option Int :=
  match cs with
  | '-' :: ds => if !ds.isEmpty && ds.all Text.isDigit then some (-(Text.numeral 10 ds : Int)) else none
  | ds => if !ds.isEmpty && ds.all Text.isDigit then some (Text.numeral 10 ds : Int) else none

/-- The number of a text: an integer, a truth value, or else a double. -/
def parse? (s : String) : Option Number :=
  if s = "True" then some (.boolean true)
  else if s = "False" then some (.boolean false)
  else match plainInteger? s.toList with
    | some n => some (.integer n)
    | none => (Double.parse? s).map .real

end Number

end DotGrid
