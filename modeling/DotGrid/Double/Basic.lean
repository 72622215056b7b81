import DotGrid.Rounding

/-!
# Double-precision numbers

A `Double` is a NaN, an infinity or a signed magnitude counted in units of `2^-1074`, so every finite double is an
exact integer of units. `Double.ofUnits` rounds an exact ratio of units once, to nearest with ties to even; every
operation of the library that yields a double goes through it. `Double.measure` is the view that comparisons use: the
place of a number on the extended line of integers of units.
-/

namespace DotGrid

-- powers are those of the core library, whatever else is in scope
attribute [local instance (20000)] instPowNat

/-- The size of a finite double, in units of `2^-1074`. -/
structure Magnitude where
  units : Nat
  representable : IsMagnitude units

instance : DecidableEq Magnitude := fun a b =>
  if h : a.units = b.units then isTrue (by cases a; cases b; cases h; rfl)
  else isFalse fun e => h (e ▸ rfl)

/-- The magnitude of zero. -/
def Magnitude.zero : Magnitude := ⟨0, isMagnitude_zero⟩

/-- The magnitude nearest to `p / q` units, or nothing if the rounded value is beyond the largest finite double. -/
def Magnitude.round? (p q : Nat) : Option Magnitude :=
  let n := Format.binary64.round p q
  if h : n < 2 ^ Format.binary64.top then some ⟨n, isMagnitude_round h⟩ else none

/-- A double-precision number. -/
inductive Double where
  | nan
  | infinite (negative : Bool)
  | finite (negative : Bool) (magnitude : Magnitude)
deriving DecidableEq

/-- The place of a number on the line of integers of units, extended by two ends; NaN has no place. -/
inductive Measure where
  | undefined
  | below
  | units (n : Int)
  | above
deriving DecidableEq

namespace Double

/-- The number of units in one. -/
def one : Nat := 2 ^ (1074 : Nat)

/-- The double nearest to `p / q` units, with a given sign; infinite beyond the largest finite double. -/
def ofUnits (negative : Bool) (p q : Nat) : Double :=
  match Magnitude.round? p q with
  | some m => .finite negative m
  | none => .infinite negative

/-- A zero of either sign. -/
def zero (negative : Bool) : Double := .finite negative .zero

/-- The double nearest to the ratio `p / q`, with a given sign. -/
def ofRatio (negative : Bool) (p q : Nat) : Double := ofUnits negative (p * one) q

/-- The double nearest to an integer, infinite if there is no finite one. -/
def ofInt (n : Int) : Double := ofRatio (n < 0) n.natAbs 1

/-- Tells a NaN. -/
def isNaN : Double → Bool
  | .nan => true
  | _ => false

/-- Tells an infinity of either sign. -/
def isInfinite : Double → Bool
  | .infinite _ => true
  | _ => false

/-- Tells a number that is neither NaN nor infinite. -/
def isFinite : Double → Bool
  | .finite _ _ => true
  | _ => false

/-- Tells a zero of either sign. -/
def isZero : Double → Bool
  | .finite _ m => m.units == 0
  | _ => false

/-- The sign, which a zero has too; NaN counts as positive. -/
def isNegative : Double → Bool
  | .nan => false
  | .infinite s => s
  | .finite s _ => s

/-- The size of a finite double in units; zero for the others. -/
def units : Double → Nat
  | .finite _ m => m.units
  | _ => 0

/-- A finite double as an integer of units; zero for the others. -/
def signedUnits : Double → Int
  | .finite s m => if s then -(m.units : Int) else m.units
  | _ => 0

/-- The place of a double on the extended line. -/
def measure : Double → Measure
  | .nan => .undefined
  | .infinite s => if s then .below else .above
  | .finite s m => .units (if s then -(m.units : Int) else m.units)

/-- The negated double. -/
def neg : Double → Double
  | .nan => .nan
  | .infinite s => .infinite !s
  | .finite s m => .finite (!s) m

/-- The double without its sign. -/
def abs : Double → Double
  | .nan => .nan
  | .infinite _ => .infinite false
  | .finite _ m => .finite false m

/-- The double with a given sign. -/
def withSign (negative : Bool) : Double → Double
  | .nan => .nan
  | .infinite _ => .infinite negative
  | .finite _ m => .finite negative m

/-- A finite double rounded toward zero; nothing for the others. -/
def truncate? : Double → Option Int
  | .finite s m =>
    let n : Int := (m.units / one : Nat)
    some (if s then -n else n)
  | _ => none

/-- The greatest integer that is not above a finite double; nothing for the others. -/
def floor? : Double → Option Int
  | .finite s m => some ((if s then -(m.units : Int) else m.units) / (one : Int))
  | _ => none

/-- The least integer that is not below a finite double; nothing for the others. -/
def ceiling? (d : Double) : Option Int :=
  (floor? d.neg).map (- ·)

end Double

namespace Measure

/-- The order of two places; nothing if one of them is undefined. -/
def compare? : Measure → Measure → Option Ordering
  | .undefined, _ => none
  | _, .undefined => none
  | .units a, .units b => some (compare a b)
  | .below, .below => some .eq
  | .below, _ => some .lt
  | _, .below => some .gt
  | .above, .above => some .eq
  | .above, _ => some .gt
  | _, .above => some .lt

end Measure

end DotGrid
