import DotGrid.Approximant.Basic

/-!
# Exponentials and logarithms

The exponential is reduced by multiples of `ln 2` to a small argument and summed as a power series there; the
logarithm takes out a power of two and sums the series of the area tangent.
-/

namespace DotGrid.Approximant

-- powers are those of the core library, whatever else is in scope
attribute [local instance (20000)] instPowNat

/-- The sum of the exponential series from a term on, the terms and the argument being scaled by `2^w`. -/
def expSeries (w : Nat) (r : Int) : Nat → Int → Nat → Int → Int
  | 0, _, _, sum => sum
  | fuel + 1, t, k, sum =>
    if t = 0 then sum else expSeries w r fuel (Int.tdiv (t * r) (2 ^ w * k)) (k + 1) (sum + t)

/-- The square of a number scaled by `2^w`, repeatedly. -/
def squareTimes (w : Nat) : Nat → Int → Int
  | 0, v => v
  | k + 1, v => squareTimes w k (v * v / 2 ^ w)

/-- The exponential of `r / 2^w`, scaled by `2^w`, for a number below one in size. -/
def expSmall (w : Nat) (r : Int) : Int :=
  let wide := w + 24
  dropBits (squareTimes wide 8 (expSeries wide (r * 2 ^ (16 : Nat)) wide (2 ^ wide) 1 0)) 24

/-- The exponential. -/
def exp (a : Approximant) : Approximant := fun p =>
  let k := a 64 / ln2 64
  let w := ((p : Int) + k).toNat + guardBits
  let r := a w - k * ln2 (w + k.natAbs.log2 + 2) / 2 ^ (k.natAbs.log2 + 2)
  scale (expSmall w r) ((p : Int) + k - w)

/-- The natural logarithm of `m / 2^w`, scaled by `2^w`, for a number from one to two. -/
def logSmall (w : Nat) (m : Int) : Int :=
  let z := (m - 2 ^ w) * 2 ^ w / (m + 2 ^ w)
  let square := z * z / 2 ^ w
  let rec sum : Nat → Int → Nat → Int → Int
    | 0, _, _, s => s
    | fuel + 1, t, k, s => if t = 0 then s else sum fuel (t * square / 2 ^ w) (k + 2) (s + t / k)
  2 * sum w z 1 0

/-- The natural logarithm of a ratio that is at least one. -/
def logAboveOne (n d : Nat) : Approximant := guarded fun w =>
  let k := (n / d).log2
  k * ln2 w + logSmall w (n * 2 ^ w / (d * 2 ^ k) : Nat)

/-- The natural logarithm of a positive ratio. -/
def log (n d : Nat) : Approximant :=
  if d ≤ n then logAboveOne n d else (logAboveOne d n).neg

/-- The square root of a ratio. -/
def sqrt (n d : Nat) : Approximant := fun p => (squareRoot (n * 4 ^ p / d) : Nat)

/-- The natural logarithm of a number that is at least one. -/
def logOf (a : Approximant) : Approximant := guarded fun w =>
  (logAboveOne (a w).toNat (2 ^ w)) w

end DotGrid.Approximant
