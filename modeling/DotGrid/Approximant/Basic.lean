import DotGrid.Double.Arithmetic

/-!
# Real numbers as integer approximations

An `Approximant` stands for a real number: at `p` it is an integer within one of the number times `2^p`. The
functions here compute with a few guard bits more than `p` and drop them at the end. `Double.ofApproximant` asks for
more and more places until both neighbours of the approximation round to the same double, which is then the double
nearest to the real number; a number that lies on a boundary between two doubles is not to be given to it.
-/

namespace DotGrid

-- powers are those of the core library, whatever else is in scope
attribute [local instance (20000)] instPowNat

/-- Integers within one of a real number times `2^p`, at every `p`. -/
abbrev Approximant := Nat → Int

namespace Approximant

/-- The bits that are computed beyond the places asked for. -/
def guardBits : Nat := 40

/-- `n / 2^k`, to the nearest integer. -/
def dropBits (n : Int) (k : Nat) : Int :=
  if k = 0 then n else (n + 2 ^ (k - 1)) / 2 ^ k

/-- `n · 2^k` for an exponent of any sign, to the nearest integer. -/
def scale (n : Int) (k : Int) : Int :=
  if 0 ≤ k then n * 2 ^ k.toNat else dropBits n (-k).toNat

/-- The approximant of a computation at a greater number of places, whose last bits are then dropped. -/
def guarded (f : Nat → Int) : Approximant := fun p =>
  dropBits (f (p + guardBits)) guardBits

/-- The ratio of an integer to a positive natural number. -/
def ofRatio (n : Int) (d : Nat) : Approximant := fun p => n * 2 ^ p / d

/-- The opposite. -/
def neg (a : Approximant) : Approximant := fun p => -a p

/-- The sum. -/
def add (a b : Approximant) : Approximant := fun p => dropBits (a (p + 2) + b (p + 2)) 2

/-- The difference. -/
def sub (a b : Approximant) : Approximant := add a b.neg

/-- The product with an exact ratio. -/
def mulRatio (n : Int) (d : Nat) (a : Approximant) : Approximant := fun p =>
  let extra := (n.natAbs / d).log2 + 3
  dropBits (n * a (p + extra) / d) extra

/-- The quotient by a number that is at least one half. -/
def div (a b : Approximant) : Approximant := fun p =>
  let extra := guardBits + (a 0).natAbs.log2
  let w := p + extra
  dropBits (a w * 2 ^ w / b w) extra

/-- The number times `2^k`. -/
def shift (k : Int) (a : Approximant) : Approximant := fun p =>
  if 0 ≤ (p : Int) + k then a ((p : Int) + k).toNat else dropBits (a 0) (-((p : Int) + k)).toNat

/-- `Σ ±t / (k n^(2j))` for the odd `k` from a given one on, with alternating signs or with none. -/
def oddSeries (alternating : Bool) (n : Nat) : Nat → Nat → Nat → Bool → Int → Int
  | 0, _, _, _, sum => sum
  | fuel + 1, t, k, minus, sum =>
    if t = 0 then sum
    else
      let term : Int := (t / k : Nat)
      oddSeries alternating n fuel (t / (n * n)) (k + 2) (alternating && !minus)
        (if minus then sum - term else sum + term)

/-- The area tangent of `1 / n`, times `2^w`. -/
def artanhReciprocal (n w : Nat) : Int := oddSeries false n w (2 ^ w / n) 1 false 0

/-- The arc tangent of `1 / n`, times `2^w`. -/
def arctanReciprocal (n w : Nat) : Int := oddSeries true n w (2 ^ w / n) 1 false 0

/-- The natural logarithm of two, by a three-term relation of area tangents. -/
def ln2 : Approximant :=
  guarded fun w => 18 * artanhReciprocal 26 w - 2 * artanhReciprocal 4801 w + 8 * artanhReciprocal 8749 w

/-- The ratio of the circumference to the diameter, by Machin's relation. -/
def pi : Approximant :=
  guarded fun w => 16 * arctanReciprocal 5 w - 4 * arctanReciprocal 239 w

/-- Half of `pi`. -/
def halfPi : Approximant := pi.shift (-1)

end Approximant

namespace Double

/-- The double nearest to `|n| / 2^p`, with the sign of `n`. -/
def ofScaled (negative : Bool) (n p : Nat) : Double := ofUnits negative (n * one) (2 ^ p)

/-- The double of both neighbours of an approximation, if there is only one. -/
def settled? (a : Approximant) (p : Nat) : Option Double :=
  let n := a p
  let low := ofScaled (n < 0) (n.natAbs - 1) p
  let high := ofScaled (n < 0) (n.natAbs + 1) p
  if 2 ≤ n.natAbs ∧ low = high then some low else none

/-- The double nearest to a real number that is not a boundary between two doubles: the first of a list of places
that settles it decides. -/
def ofApproximantAt (a : Approximant) : List Nat → Double
  | [] => zero false
  | p :: ps => (settled? a p).getD (ofApproximantAt a ps)

/-- The double nearest to a real number that is not a boundary between two doubles. -/
def ofApproximant (a : Approximant) : Double :=
  ofApproximantAt a [80, 200, 480, 1000, 2200, 4500, 9000]

end Double

end DotGrid
