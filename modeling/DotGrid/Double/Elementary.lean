import DotGrid.Approximant.Circular

/-!
# Elementary functions of doubles

Each function is the double nearest to its exact value. Zeros, infinities and the few arguments with an exact value
are decided first; an argument outside the domain gives NaN and a pole gives an infinity. Everywhere else the value is
irrational, so it lies on no boundary between two doubles and its approximations settle.
-/

namespace DotGrid.Double

-- powers are those of the core library, whatever else is in scope
attribute [local instance (20000)] instPowNat

/-- The exponent of the greatest power of two that divides a magnitude. -/
def twos (units : Nat) : Nat := (Nat.gcd units (2 ^ (2200 : Nat))).log2

/-- The ratio of the circumference to the diameter. -/
def pi : Double := ofApproximant .pi

/-- The arc tangent of an infinity. -/
def halfPi : Double := ofApproximant .halfPi

/-- From here on, in units, exponentials overflow or vanish. -/
def expBound : Nat := 1000 * one

/-- An odd function, given for the size of a finite number that is not zero and for infinity. -/
def odd (f : Nat → Double) (atInfinity : Double) : Double → Double
  | .nan => .nan
  | .infinite s => atInfinity.withSign s
  | .finite s m => if m.units = 0 then .finite s m else (f m.units).withSign s

/-- The sine; NaN at the infinities. -/
def sin : Double → Double :=
  fun d => match d with
  | .finite _ m => if m.units = 0 then d else ofApproximant (.sin d.signedUnits one)
  | _ => .nan

/-- The cosine; NaN at the infinities. -/
def cos : Double → Double :=
  fun d => match d with
  | .finite _ m => if m.units = 0 then ofInt 1 else ofApproximant (.cos d.signedUnits one)
  | _ => .nan

/-- The tangent; NaN at the infinities. -/
def tan : Double → Double :=
  fun d => match d with
  | .finite _ m => if m.units = 0 then d else ofApproximant (.tan d.signedUnits one)
  | _ => .nan

/-- The arc sine; NaN beyond one. -/
def asin : Double → Double :=
  odd (fun u => if one < u then .nan else ofApproximant (.arctanSqrt (u * u) (one * one - u * u))) .nan

/-- The arc cosine; NaN beyond one. -/
def acos : Double → Double :=
  fun d => match d with
  | .finite s m =>
    if one < m.units then .nan
    else if m.units = one && !s then zero false
    else
      let (n, k) := if s then (one + m.units, one - m.units) else (one - m.units, one + m.units)
      ofApproximant (Approximant.shift 1 (.arctanSqrt n k))
  | _ => .nan

/-- The arc tangent. -/
def atan : Double → Double := odd (fun u => ofApproximant (.arctan u one)) halfPi

/-- The angle of the point with the ordinate `y` and the abscissa `x`, with the sign of `y`. -/
def atan2 (y x : Double) : Double :=
  if y.isNaN || x.isNaN then .nan
  else
    let size :=
      if y.isZero then (if x.isNegative then pi else zero false)
      else match y, x with
        | .infinite _, .infinite s =>
          ofApproximant (if s then Approximant.mulRatio 3 4 .pi else Approximant.shift (-2) .pi)
        | .infinite _, _ => halfPi
        | _, .infinite s => if s then pi else zero false
        | _, _ =>
          if x.isZero then halfPi
          else
            let angle := Approximant.arctan y.units x.units
            ofApproximant (if x.isNegative then Approximant.sub .pi angle else angle)
    size.withSign y.isNegative

/-- The exponential. -/
def exp : Double → Double
  | .nan => .nan
  | .infinite s => if s then zero false else .infinite false
  | .finite s m =>
    if m.units = 0 then ofInt 1
    else if expBound ≤ m.units then (if s then zero false else .infinite false)
    else ofApproximant (.exp (.ofRatio (finite s m).signedUnits one))

/-- The exponential less one. -/
def expm1 : Double → Double
  | .nan => .nan
  | .infinite s => if s then ofInt (-1) else .infinite false
  | .finite s m =>
    if m.units = 0 then .finite s m
    else if expBound ≤ m.units then (if s then ofInt (-1) else .infinite false)
    else ofApproximant (.sub (.exp (.ofRatio (finite s m).signedUnits one)) (.ofRatio 1 1))

/-- The hyperbolic sine. -/
def sinh : Double → Double :=
  odd (fun u =>
    if expBound ≤ u then .infinite false
    else ofApproximant (Approximant.shift (-1) (.sub (.exp (.ofRatio u one)) (.exp (.ofRatio (-u) one)))))
    (.infinite false)

/-- The hyperbolic cosine. -/
def cosh : Double → Double
  | .nan => .nan
  | .infinite _ => .infinite false
  | .finite _ m =>
    let u : Int := m.units
    if u = 0 then ofInt 1
    else if expBound ≤ m.units then .infinite false
    else ofApproximant (Approximant.shift (-1) (.add (.exp (.ofRatio u one)) (.exp (.ofRatio (-u) one))))

/-- The hyperbolic tangent. -/
def tanh : Double → Double :=
  odd (fun u =>
    if expBound ≤ u then ofInt 1
    else
      let square := Approximant.exp (.ofRatio (2 * u) one)
      ofApproximant (.div (.sub square (.ofRatio 1 1)) (.add square (.ofRatio 1 1))))
    (ofInt 1)

/-- A logarithm, given for the size of a positive finite number: negative infinity at zero and NaN below it. -/
def logarithm (f : Nat → Double) : Double → Double
  | .nan => .nan
  | .infinite s => if s then .nan else .infinite false
  | .finite s m =>
    if m.units = 0 then .infinite true
    else if s then .nan
    else f m.units

/-- The natural logarithm. -/
def log : Double → Double :=
  logarithm fun u => if u = one then zero false else ofApproximant (.log u one)

/-- The logarithm to the base two, which is exact at the powers of two. -/
def log2 : Double → Double :=
  logarithm fun u =>
    if u = 2 ^ u.log2 then ofInt ((u.log2 : Int) - 1074)
    else ofApproximant (.div (.log u one) .ln2)

/-- The logarithm to the base ten, which is exact at the powers of ten. -/
def log10 : Double → Double :=
  logarithm fun u =>
    match (List.range 23).find? (fun k => u = 10 ^ k * one) with
    | some k => ofInt k
    | none => ofApproximant (.div (.log u one) (.log 10 1))

/-- The natural logarithm of a number increased by one. -/
def log1p : Double → Double
  | .nan => .nan
  | .infinite s => if s then .nan else .infinite false
  | .finite s m =>
    if m.units = 0 then .finite s m
    else if !s then ofApproximant (.log (one + m.units) one)
    else if m.units < one then ofApproximant (.log (one - m.units) one)
    else if m.units = one then .infinite true
    else .nan

/-- The area sine. -/
def asinh : Double → Double :=
  odd (fun u => ofApproximant
    (.logOf (.add (.ofRatio u one) (.sqrt (u * u + one * one) (one * one))))) (.infinite false)

/-- The area cosine; NaN below one. -/
def acosh : Double → Double
  | .nan => .nan
  | .infinite s => if s then .nan else .infinite false
  | .finite s m =>
    if s || m.units < one then .nan
    else if m.units = one then zero false
    else ofApproximant
      (.logOf (.add (.ofRatio m.units one) (.sqrt (m.units * m.units - one * one) (one * one))))

/-- The area tangent: infinite at one and NaN beyond it. -/
def atanh : Double → Double :=
  odd (fun u =>
    if one < u then .nan
    else if u = one then .infinite false
    else ofApproximant (Approximant.shift (-1) (.log (one + u) (one - u)))) .nan

/-- Tells a finite double that is an odd integer. -/
def isOddInteger : Double → Bool
  | .finite _ m => m.units % one = 0 && m.units / one % 2 = 1
  | _ => false

/-- Tells a finite double that is an integer. -/
def isInteger : Double → Bool
  | .finite _ m => m.units % one = 0
  | _ => false

/-- The square root of `m · 2^e`, taken repeatedly while it is of that form again. -/
def exactRoots : Nat → Nat × Int → Option (Nat × Int)
  | 0, x => some x
  | k + 1, (m, e) =>
    let r := squareRoot m
    if r * r = m ∧ e % 2 = 0 then exactRoots k (r, e / 2) else none

/-- A power whose exact value is a short binary fraction, as a double; nothing if it is not one. -/
def exactPower? (u : Nat) (negative : Bool) (v : Nat) : Option Double := do
  let halvings := 1074 - twos v
  let n := v * 2 ^ halvings / one
  let (m, e) ← exactRoots halvings (u / 2 ^ twos u, (twos u : Int) - 1074)
  let power : Nat × Int ←
    if m = 1 then some (1, if negative then -(e * n) else e * n)
    else if negative || 4000 < n * (m.log2 + 1) then none
    else some (m ^ n, e * n)
  if 0 ≤ power.2 then ofRatio false (power.1 * 2 ^ power.2.toNat) 1
  else ofRatio false power.1 (2 ^ (-power.2).toNat)

/-- A power of positive finite numbers of units, the exponent having a sign of its own. -/
def power (u : Nat) (negative : Bool) (v : Nat) : Double :=
  let exponent := Approximant.mulRatio (if negative then -(v : Int) else v) one (.log u one)
  let size := exponent 0
  if 800 < size then .infinite false
  else if size < -800 then zero false
  else (exactPower? u negative v).getD (ofApproximant (.exp exponent))

/-- The power `x^y`, rounded once. It is one if the exponent is a zero or the base is one, whatever the other operand;
a zero to a negative power is infinite, and a negative number to a power that is no integer is NaN. The powers of
mathematical libraries may be the next double instead: `0.49999999999999994 ** -1` is `2.0000000000000004`, which the
library of C gives as `2.0`. -/
def pow (x y : Double) : Double :=
  if y.isZero || x = ofInt 1 then ofInt 1
  else if x.isNaN || y.isNaN then .nan
  else
    let negative := x.isNegative && y.isOddInteger
    match x, y with
    | _, .infinite s =>
      if x.isInfinite || one < x.units then (if s then zero false else .infinite false)
      else if x.units = one then ofInt 1
      else if s then .infinite false
      else zero false
    | .infinite _, _ => if y.isNegative then zero negative else .infinite negative
    | _, _ =>
      if x.isZero then (if y.isNegative then .infinite negative else zero negative)
      else if x.isNegative && !y.isInteger then .nan
      else (power x.units y.isNegative y.units).withSign negative

end DotGrid.Double
