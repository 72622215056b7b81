import DotGrid.Decimal.Basic

/-!
# The shortest decimal that reads back, and its text

`Decimal.shortest` looks at the decimals with one digit, two digits and so on around a magnitude, and takes the first
that the magnitude is nearest to: of two such neighbours the nearer, and of two equally near the even one.
`Double.text` writes it: positionally when its first digit stands between the places of `10^-4` and `10^15`, always
with a point and a digit after it, and otherwise with an exponent of a sign and at least two digits.
-/

namespace DotGrid

-- powers are those of the core library, whatever else is in scope
attribute [local instance (20000)] instPowNat

namespace Decimal

/-- The ratio of a number of units to a power of ten. -/
def scaled (units : Nat) (exponent : Int) : Nat × Nat :=
  if 0 ≤ exponent then (units, Double.one * 10 ^ exponent.toNat)
  else (units * 10 ^ (-exponent).toNat, Double.one)

/-- The exponent of the greatest power of ten that is not above a positive number of units. -/
def decade (units : Nat) : Int :=
  let guess : Int := ((units.log2 : Int) - 1074) * 30103 / 100000
  let (p, q) := scaled units guess
  if p < q then guess - 1
  else if 10 * q ≤ p then guess + 1
  else guess

/-- Whether a decimal is nearest to a magnitude of that many units. -/
def readsBack (d : Decimal) (units : Nat) : Bool :=
  Format.binary64.round (d.ratio.1 * Double.one) d.ratio.2 = units

/-- The neighbour of a magnitude on the grid of a power of ten that reads back: the nearer one of two, or the even one
if both are equally near. -/
def neighbour? (units : Nat) (exponent : Int) : Option Decimal :=
  let (p, q) := scaled units exponent
  [nearest p q, p / q, p / q + 1].findSome? fun n =>
    let d : Decimal := ⟨n, exponent⟩
    if d.readsBack units then some d else none

/-- The first grid with a neighbour that reads back, from a given power of ten to ever finer ones. -/
def shortestFrom (units : Nat) : Nat → Int → Decimal
  | 0, exponent => ⟨(scaled units exponent).1 / (scaled units exponent).2, exponent⟩
  | tries + 1, exponent => (neighbour? units exponent).getD (shortestFrom units tries (exponent - 1))

/-- The decimal with the fewest digits that reads back as a positive magnitude, the nearest one of those. -/
def shortest (units : Nat) : Decimal := shortestFrom units 17 (decade units)

end Decimal

/-- How a number is written: from which to below which power of ten positionally, and how many digits the exponent
has at least. -/
structure NumberLayout where
  positionalFrom : Int
  positionalBelow : Int
  exponentDigits : Nat

namespace NumberLayout

/-- Numbers from `10^-4` to below `10^16` are written positionally, and exponents have at least two digits. -/
def standard : NumberLayout := ⟨-4, 16, 2⟩

/-- Zeros in front of digits, up to a length. -/
def padded (length : Nat) (digits : List Char) : List Char :=
  List.replicate (length - digits.length) '0' ++ digits

/-- Digits whose first one stands at the place of `10^place`, written without an exponent. -/
def positional (digits : List Char) (place : Int) : List Char :=
  if place < 0 then '0' :: '.' :: (List.replicate (-place - 1).toNat '0' ++ digits)
  else
    let whole := place.toNat + 1
    let fraction := digits.drop whole
    digits.take whole ++ List.replicate (whole - digits.length) '0' ++
      '.' :: (if fraction.isEmpty then ['0'] else fraction)

/-- Digits whose first one stands at the place of `10^place`, written with one digit before the point. -/
def scientific (layout : NumberLayout) (digits : List Char) (place : Int) : List Char :=
  let mantissa := digits.take 1 ++ if digits.length ≤ 1 then [] else '.' :: digits.drop 1
  mantissa ++ 'e' :: (if place < 0 then '-' else '+') ::
    padded layout.exponentDigits (Nat.toDigits 10 place.natAbs)

/-- The text of a positive decimal. -/
def write (layout : NumberLayout) (d : Decimal) : List Char :=
  let all := Nat.toDigits 10 d.digits
  let place := d.exponent + (all.length : Int) - 1
  let significant := (all.reverse.dropWhile (· = '0')).reverse
  if layout.positionalFrom ≤ place ∧ place < layout.positionalBelow then positional significant place
  else layout.scientific significant place

end NumberLayout

/-- The text of a double: the fewest digits that read back, `inf` or `nan`. -/
def Double.text : Double → String
  | .nan => "nan"
  | .infinite s => if s then "-inf" else "inf"
  | .finite s m =>
    let body := if m.units = 0 then ['0', '.', '0'] else NumberLayout.standard.write (Decimal.shortest m.units)
    String.ofList (if s then '-' :: body else body)

end DotGrid
