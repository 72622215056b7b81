import DotGrid.Double.Basic

/-!
# Arithmetic of doubles

Each operation computes its exact result over the integers of units and rounds it once. Infinities and NaN follow
the usual rules of the format: an operation without a value gives NaN, an overflow gives an infinity, and a zero has
a sign. `Double.remainder` is exact and keeps the sign of its first operand.
-/

namespace DotGrid

-- powers are those of the core library, whatever else is in scope
attribute [local instance (20000)] instPowNat

/-- Newton's steps for the square root of `n`, from a guess that is not below it, as long as they go down. -/
def squareRootFrom (n guess : Nat) : Nat :=
  let next := (guess + n / guess) / 2
  if next < guess then squareRootFrom n next else guess
termination_by guess

/-- The greatest natural number whose square is not above `n`. -/
def squareRoot (n : Nat) : Nat :=
  if n ≤ 1 then n else squareRootFrom n (2 ^ (n.log2 / 2 + 1))

/-- Newton's steps for the cube root of `n`, from a guess that is not below it, as long as they go down. -/
def cubeRootFrom (n guess : Nat) : Nat :=
  let next := (2 * guess + n / (guess * guess)) / 3
  if next < guess then cubeRootFrom n next else guess
termination_by guess

/-- The greatest natural number whose cube is not above `n`. -/
def cubeRoot (n : Nat) : Nat :=
  if n ≤ 1 then n else cubeRootFrom n (2 ^ (n.log2 / 3 + 1))

namespace Double

/-- The sum. -/
def add : Double → Double → Double
  | .nan, _ => .nan
  | _, .nan => .nan
  | .infinite s, .infinite s' => if s = s' then .infinite s else .nan
  | .infinite s, .finite _ _ => .infinite s
  | .finite _ _, .infinite s => .infinite s
  | .finite s m, .finite s' m' =>
    let sum := (finite s m).signedUnits + (finite s' m').signedUnits
    if sum = 0 then zero (s && s') else ofUnits (sum < 0) sum.natAbs 1

/-- The difference. -/
def sub (a b : Double) : Double := add a b.neg

/-- The product. -/
def mul : Double → Double → Double
  | .nan, _ => .nan
  | _, .nan => .nan
  | .infinite s, .infinite s' => .infinite (s != s')
  | .infinite s, .finite s' m => if m.units = 0 then .nan else .infinite (s != s')
  | .finite s m, .infinite s' => if m.units = 0 then .nan else .infinite (s != s')
  | .finite s m, .finite s' m' => ofUnits (s != s') (m.units * m'.units) one

/-- The quotient; a finite number divided by a zero is infinite, or NaN if it is a zero itself. -/
def div : Double → Double → Double
  | .nan, _ => .nan
  | _, .nan => .nan
  | .infinite _, .infinite _ => .nan
  | .infinite s, .finite s' _ => .infinite (s != s')
  | .finite s _, .infinite s' => zero (s != s')
  | .finite s m, .finite s' m' =>
    if m'.units = 0 then (if m.units = 0 then .nan else .infinite (s != s'))
    else ofUnits (s != s') (m.units * one) m'.units

/-- The remainder of the quotient that is rounded toward zero; it has the sign of the first operand. -/
def remainder : Double → Double → Double
  | .nan, _ => .nan
  | _, .nan => .nan
  | .infinite _, _ => .nan
  | .finite s m, .infinite _ => .finite s m
  | .finite s m, .finite _ m' =>
    if m'.units = 0 then .nan else ofUnits s (m.units % m'.units) 1

/-- The quotient of two integers, rounded once; the divisor is not zero. A zero takes the sign of the divisor. -/
def divInts (a b : Int) : Double :=
  ofRatio ((a < 0) != (b < 0)) a.natAbs b.natAbs

/-- The square root; NaN below zero. -/
def sqrt : Double → Double
  | .nan => .nan
  | .infinite s => if s then .nan else .infinite false
  | .finite s m =>
    if m.units = 0 then .finite s m
    else if s then .nan
    else
      let square := m.units * one
      let root := squareRoot square
      ofUnits false (2 * root + if root * root = square then 0 else 1) 2

/-- The cube root, which has the sign of its argument. -/
def cbrt : Double → Double
  | .finite s m =>
    if m.units = 0 then .finite s m
    else
      let cube := m.units * one * one
      let root := cubeRoot cube
      ofUnits s (2 * root + if root * root * root = cube then 0 else 1) 2
  | d => d

/-- The square root of the sum of the squares: infinite if an argument is, else NaN if an argument is. -/
def hypot (ds : List Double) : Double :=
  if ds.any isInfinite then .infinite false
  else if ds.any isNaN then .nan
  else
    let square := ds.foldr (fun d n => d.units * d.units + n) 0 * 2 ^ (128 : Nat)
    let root := squareRoot square
    ofUnits false (2 * root + if root * root = square then 0 else 1) (2 ^ (65 : Nat))

/-- The double nearest to the nearest number of the 32-bit format, which is infinite beyond that format's bound. -/
def toSingle : Double → Double
  | .finite s m =>
    let n := Format.binary32.round m.units 1
    if n < 2 ^ Format.binary32.top then ofUnits s n 1 else .infinite s
  | d => d

end Double

end DotGrid
