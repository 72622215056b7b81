import DotGrid.Double.Basic

/-!
# Decimal numbers and the doubles they denote

A `Decimal` is a natural number of digits scaled by a power of ten. `Double.ofDecimal` is the double nearest to it;
exponents far beyond the range of doubles are decided without computing the power.
-/

namespace DotGrid

-- powers are those of the core library, whatever else is in scope
attribute [local instance (20000)] instPowNat

/-- The number `digits · 10^exponent`. -/
structure Decimal where
  digits : Nat
  exponent : Int
deriving DecidableEq

namespace Decimal

/-- The numerator and the denominator of a decimal. -/
def ratio (d : Decimal) : Nat × Nat :=
  if 0 ≤ d.exponent then (d.digits * 10 ^ d.exponent.toNat, 1) else (d.digits, 10 ^ (-d.exponent).toNat)

/-- Tells a decimal that is above every finite double, whatever its digits. -/
def isHuge (d : Decimal) : Bool :=
  d.digits != 0 && 310 < d.exponent

/-- Tells a decimal that is below half of the least positive double, by the length of its digits. -/
def isTiny (d : Decimal) : Bool :=
  d.digits == 0 || (d.digits.log2 : Int) / 3 + 1 + d.exponent < -330

end Decimal

/-- The double nearest to a decimal, with a given sign. -/
def Double.ofDecimal (negative : Bool) (d : Decimal) : Double :=
  if d.isHuge then .infinite negative
  else if d.isTiny then zero negative
  else ofRatio negative d.ratio.1 d.ratio.2

end DotGrid
