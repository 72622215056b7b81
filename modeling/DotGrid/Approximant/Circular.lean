import DotGrid.Approximant.Exponential

/-!
# Circular functions and their inverses

Sine and cosine take the nearest multiple of a right angle out of an exact ratio, with as many bits of `π` as the
ratio is long, and sum their series on the rest. The arc tangent halves its angle a few times before its series.
-/

namespace DotGrid.Approximant

-- powers are those of the core library, whatever else is in scope
attribute [local instance (20000)] instPowNat

/-- `Σ t` of a series whose next term is the last one times `-r² / (k (k + 1))`, all scaled by `2^w`. -/
def circularSeries (w : Nat) (square : Int) : Nat → Int → Nat → Int → Int
  | 0, _, _, sum => sum
  | fuel + 1, t, k, sum =>
    if t = 0 then sum
    else circularSeries w square fuel (-Int.tdiv (t * square) (2 ^ w * (k * (k + 1)))) (k + 2) (sum + t)

/-- The sine of `r / 2^w`, scaled by `2^w`, for an angle of less than a right angle. -/
def sinSmall (w : Nat) (r : Int) : Int := circularSeries w (r * r / 2 ^ w) w r 2 0

/-- The cosine of `r / 2^w`, scaled by `2^w`, for an angle of less than a right angle. -/
def cosSmall (w : Nat) (r : Int) : Int := circularSeries w (r * r / 2 ^ w) w (2 ^ w) 1 0

/-- The number of right angles in a ratio, to the nearest one, and the rest scaled by `2^w`. -/
def quadrant (n : Int) (d w : Nat) : Int × Int :=
  let size := (n.natAbs / d).log2 + 2
  let wide := w + size
  let right := halfPi wide
  let scaled := n * 2 ^ wide / d
  let count := (2 * scaled + right) / (2 * right)
  (count, dropBits (scaled - count * right) size)

/-- The sine of a ratio moved by a number of right angles. -/
def sinShifted (turns n : Int) (d : Nat) : Approximant := guarded fun w =>
  let (count, r) := quadrant n d w
  match ((count + turns) % 4).toNat with
  | 0 => sinSmall w r
  | 1 => cosSmall w r
  | 2 => -sinSmall w r
  | _ => -cosSmall w r

/-- The sine of a ratio. -/
def sin (n : Int) (d : Nat) : Approximant := sinShifted 0 n d

/-- The cosine of a ratio. -/
def cos (n : Int) (d : Nat) : Approximant := sinShifted 1 n d

/-- The tangent of a ratio. -/
def tan (n : Int) (d : Nat) : Approximant := fun p =>
  let extra := 160
  let w := p + extra
  let cosine := cos n d w
  if cosine = 0 then 0 else dropBits (sin n d w * 2 ^ w / cosine) extra

/-- The tangent of half of the angle whose tangent is `t / 2^w`, scaled by `2^w`. -/
def halfAngle (w : Nat) (t : Nat) : Nat :=
  t * 2 ^ w / (2 ^ w + squareRoot (4 ^ w + t * t))

/-- The arc tangent of `t / 2^w`, scaled by `2^w`, for a number from zero to one. -/
def arctanSmall (w : Nat) (t : Nat) : Int :=
  let z : Int := (halfAngle w (halfAngle w (halfAngle w t)) : Nat)
  let square := z * z / 2 ^ w
  let rec sum : Nat → Int → Nat → Int → Int
    | 0, _, _, s => s
    | fuel + 1, u, k, s => if u = 0 then s else sum fuel (-Int.tdiv (u * square) (2 ^ w)) (k + 2) (s + Int.tdiv u k)
  8 * sum w z 1 0

/-- The arc tangent of a ratio. -/
def arctan (n d : Nat) : Approximant := guarded fun w =>
  if n ≤ d then arctanSmall w (n * 2 ^ w / d) else halfPi w - arctanSmall w (d * 2 ^ w / n)

/-- The arc tangent of the square root of a ratio. -/
def arctanSqrt (n d : Nat) : Approximant := guarded fun w =>
  if n ≤ d then arctanSmall w (squareRoot (n * 4 ^ w / d)) else halfPi w - arctanSmall w (squareRoot (d * 4 ^ w / n))

end DotGrid.Approximant
