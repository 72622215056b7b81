import DotGrid.Value.Operators

/-!
# Functions of the namespace

`Builtin.apply` gives the result of a function on a list of arguments. A primitive function of a real number fails
outside its domain; a finite argument with an infinite result is out of range for the exponential functions and
outside the domain for the others. `max` and `min` are NaN if an argument is, and infinite without arguments.
-/

namespace DotGrid

-- powers are those of the core library, whatever else is in scope
attribute [local instance (20000)] instPowNat

namespace Builtin

/-- The value of a function of one real number as a double, if it is one. -/
def realFunction? : Builtin → Option (Double → Double)
  | .acos => some .acos
  | .acosh => some .acosh
  | .asin => some .asin
  | .asinh => some .asinh
  | .atan => some .atan
  | .atanh => some .atanh
  | .cos => some .cos
  | .cosh => some .cosh
  | .exp => some .exp
  | .expm1 => some .expm1
  | .log1p => some .log1p
  | .sin => some .sin
  | .sinh => some .sinh
  | .sqrt => some .sqrt
  | .tan => some .tan
  | .tanh => some .tanh
  | _ => none

/-- Tells the functions whose infinite results are overflows. -/
def overflows : Builtin → Bool
  | .cosh | .exp | .expm1 | .sinh => true
  | _ => false

/-- The report on a wrong number of arguments. -/
def wrongCount (f : Builtin) (args : List Value) : Except Fault Value :=
  .error (.mismatch (.arguments (f.miscount args.length)))

end Builtin

/-- The value of a function at a double: a new NaN is outside the domain, and an infinity of a finite argument is
an overflow or a pole. -/
def guarded (overflows : Bool) (f : Double → Double) (x : Double) : Except Fault Double :=
  let r := f x
  if r.isNaN && !x.isNaN then .error .domain
  else if r.isInfinite && x.isFinite then .error (if overflows then .range else .domain)
  else .ok r

/-- A positive integer of any size as a double from one half to one, and the exponent of the power of two that it is
to be multiplied by. -/
def fraction (n : Nat) : Double × Nat :=
  let bits := n.log2 + 1
  let d := Double.ofRatio false n (2 ^ bits)
  if d.units = Double.one then (.ofRatio false 1 2, bits + 1) else (d, bits)

/-- An integer of so many bits is too wide to be split into a fraction and a power of two. -/
def widthBound : Nat := 2 ^ (63 : Nat)

/-- The logarithm of a number; that of an integer beyond the range of doubles is put together from the logarithms of
a fraction and of a power of two. -/
def logOf (f : Double → Double) : Value → Except Fault Double
  | .function g => .error (.mismatch (.realNumber (Value.kind (.function g))))
  | .number n =>
    match n.whole? with
    | some m =>
      if m ≤ 0 then .error .domain
      else if (Double.ofInt m).isFinite then guarded false f (.ofInt m)
      else
        let (d, bits) := fraction m.natAbs
        if widthBound ≤ bits then .error .integerTooWide
        else .ok ((f d).add ((f (.ofInt 2)).mul (.ofInt bits)))
    | none => n.toDouble.bind (guarded false f)

/-- The natural logarithm, or the logarithm to a base as the quotient of two natural ones. -/
def logarithmOf : List Value → Except Fault Value
  | [x] => (logOf .log x).map .real
  | [x, base] => do
    let a ← logOf .log x
    let b ← logOf .log base
    if b.isZero then .error (.divisionByZero true) else .ok (.real (a.div b))
  | args => Builtin.wrongCount .log args

/-- A double of an integer, as the rounding functions give it. -/
def whole (n : Int) : Value := .real (.ofInt n)

/-- A rounding function: NaN and the infinities stay as they are, and a zero loses its sign. -/
def rounding (f : Double → Option Int) (v : Value) : Except Fault Value := do
  let x ← v.converted
  .ok (match f x with
    | some n => whole n
    | none => .real x)

/-- The integer nearest to a finite double, the greater one of two: the floor, or one more if the difference to the
floor is at least one half. -/
def roundHalfUp? (x : Double) : Option Int :=
  x.floor?.map fun n =>
    if (x.sub (.ofInt n)).units * 2 < Double.one then n else n + 1

/-- The sign of a number: minus one, zero or one, and NaN for NaN. -/
def signOf (x : Double) : Double :=
  if x.isNaN then .nan
  else if x.isZero then .zero false
  else .ofInt (if x.isNegative then -1 else 1)

/-- The argument that no later one is ahead of, the first among equals. -/
def extreme (ahead : Ordering) : Number → List Number → Number
  | best, [] => best
  | best, n :: ns =>
    extreme ahead (if Measure.compare? n.measure best.measure = some ahead then n else best) ns

/-- Whether some argument is NaN, looking at one after the other and stopping at the first. -/
def anyNaN : List Value → Except Fault Bool
  | [] => .ok false
  | v :: vs => do
    let x ← v.realNumber
    if x.isNaN then .ok true else anyNaN vs

/-- The numbers among values. -/
def numbers (vs : List Value) : List Number :=
  vs.filterMap fun v => match v with
    | .number n => some n
    | .function _ => none

/-- The greatest or the least argument as a double: NaN if an argument is, and `empty` without arguments. -/
def extremeOf (ahead : Ordering) (empty : Double) (args : List Value) : Except Fault Value := do
  if ← anyNaN args then .ok (.real .nan)
  else match numbers args with
    | [] => .ok (.real empty)
    | n :: ns => (extreme ahead n ns).toDouble.map .real

/-- The least and the greatest integer that the cube root takes. -/
def cubeRootDomain (n : Int) : Bool := -(2 ^ (63 : Nat)) ≤ n && n < 2 ^ (64 : Nat)

/-- The cube root of a value. -/
def cubeRootOf : Value → Except Fault Value
  | .number (.integer n) =>
    if cubeRootDomain n then .ok (.real (Double.ofInt n).cbrt) else .error (.mismatch (.cubeRoot .integer))
  | .number n => n.toDouble.map fun x => .real x.cbrt
  | .function f => .error (.mismatch (.cubeRoot (Value.kind (.function f))))

/-- The size of a number; an integer's is an integer. -/
def absoluteOf : Value → Except Fault Value
  | .number (.real d) => .ok (.real d.abs)
  | .number n => .ok (.number (.integer ((n.whole?.getD 0).natAbs)))
  | .function f => .error (.mismatch (.absolute (Value.kind (.function f))))

/-- The product of two words read as signed integers, rounded to a double and reduced to a signed word again. -/
def wordProduct (v w : BitVec 32) : Int := (Double.ofInt (v.toInt * w.toInt)).word.toInt

/-- The number of leading zero bits of a word. -/
def leadingZeros (w : BitVec 32) : Int := if w.toNat = 0 then 32 else 31 - (w.toNat.log2 : Int)

namespace Builtin

/-- A function of exactly one argument. -/
def ofOne (f : Builtin) (g : Value → Except Fault Value) : List Value → Except Fault Value
  | [v] => g v
  | args => f.wrongCount args

/-- A function of exactly two arguments. -/
def ofTwo (f : Builtin) (g : Value → Value → Except Fault Value) : List Value → Except Fault Value
  | [v, w] => g v w
  | args => f.wrongCount args

/-- A function of two real numbers, the first one being converted first. -/
def ofTwoReals (f : Builtin) (g : Double → Double → Except Fault Value) : List Value → Except Fault Value :=
  f.ofTwo fun v w => do
    let x ← v.realNumber
    let y ← w.realNumber
    g x y

/-- The result of a function on its arguments. -/
def apply (f : Builtin) (args : List Value) : Except Fault Value :=
  match f.realFunction? with
  | some g => f.ofOne (fun v => do .ok (.real (← guarded f.overflows g (← v.realNumber)))) args
  | none =>
    match f with
    | .abs => f.ofOne absoluteOf args
    | .atan2 => f.ofTwoReals (fun y x => .ok (.real (y.atan2 x))) args
    | .cbrt => f.ofOne cubeRootOf args
    | .ceil => f.ofOne (rounding Double.ceiling?) args
    | .clz32 => f.ofOne (fun v => v.word.map fun w => whole (leadingZeros w)) args
    | .floor => f.ofOne (rounding Double.floor?) args
    | .fround => f.ofOne (fun v => v.converted.map fun x => .real x.toSingle) args
    | .hypot => do .ok (.real (.hypot (← args.mapM Value.realNumber)))
    | .imul => f.ofTwo (fun a b => do .ok (whole (wordProduct (← a.word) (← b.word)))) args
    | .log => logarithmOf args
    | .log10 => f.ofOne (fun v => (logOf .log10 v).map .real) args
    | .log2 => f.ofOne (fun v => (logOf .log2 v).map .real) args
    | .max => extremeOf .gt (.infinite true) args
    | .min => extremeOf .lt (.infinite false) args
    | .pow => f.ofTwoReals powerOf args
    | .round => f.ofOne (rounding roundHalfUp?) args
    | .sign => f.ofOne (fun v => v.realNumber.map fun x => .real (signOf x)) args
    | _ => f.ofOne (rounding Double.truncate?) args

end Builtin

end DotGrid
