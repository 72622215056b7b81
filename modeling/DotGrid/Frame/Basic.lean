import DotGrid.Evaluation.DotFunction

/-!
# Frames

A frame samples a dot function on a square grid at one instant. The dots are numbered row by row from zero. A dot
whose call fails has the value zero; the frame counts such dots and keeps each different fault once, in the order of
the dots. Clamped values lie between minus one and one, and NaN becomes zero.
-/

namespace DotGrid

-- powers are those of the core library, whatever else is in scope
attribute [local instance (20000)] instPowNat

/-- A grid of values sampled at one instant, by rows, with the faults that were met. -/
structure Frame where
  time : Number
  size : Nat
  values : List (List Double)
  errors : List Fault
  failed : Nat
deriving DecidableEq

/-- The number of the dots of a frame. -/
def Frame.dots (f : Frame) : Nat := f.size * f.size

/-- The nearest number from minus one to one; zero for NaN. -/
def Double.clamped : Double → Double
  | .nan => .zero false
  | .infinite s => (ofInt 1).withSign s
  | .finite s m => if one < m.units then (ofInt 1).withSign s else .finite s m

/-- The rows of a grid of that size. -/
def gridOf {α : Type} (size : Nat) (f : (y x : Nat) → α) : List (List α) :=
  (List.range size).map fun y => (List.range size).map fun x => f y x

/-- The dot at column `x` and row `y` of a grid. -/
def dotAt (t : Number) (size y x : Nat) : Dot :=
  ⟨t, .integer (y * size + x : Nat), .integer x, .integer y⟩

/-- The double of a result: zero for a fault. -/
def sampled (clamp : Bool) (r : Except Fault Double) : Double :=
  match r with
  | .ok d => if clamp then d.clamped else d
  | .error _ => .zero false

/-- The fault of a result, if it is one. -/
def faultOf {α : Type} : Except Fault α → Option Fault
  | .ok _ => none
  | .error e => some e

/-- The first number that is beyond the sizes of things in memory. -/
def memoryLimit : Int := (2 ^ (63 : Nat) : Nat)

/-- Why there is no grid of a given size: it is below zero, or it is too large by itself, or the eight bytes of each
value are too many in all. -/
def gridFault? (size : Int) : Option Fault :=
  if size < -memoryLimit ∨ memoryLimit ≤ size then some .sizeTooLarge
  else if size < 0 then some .negativeSize
  else if memoryLimit ≤ 8 * size * size then some .gridTooLarge
  else none

namespace DotFunction

/-- The frame of a grid of a given size at one instant. -/
def frame (f : DotFunction) (t : Number) (size : Nat) (clamp : Bool) : Frame :=
  let results := gridOf size fun y x => f.call (dotAt t size y x)
  let faults := results.flatten.filterMap faultOf
  { time := t
    size := size
    values := results.map (·.map (sampled clamp))
    errors := firstOccurrences faults
    failed := faults.length }

/-- The frame of a grid, if there is one of that size. -/
def render (f : DotFunction) (t : Number) (size : Int) (clamp : Bool) : Except Fault Frame :=
  match gridFault? size with
  | some fault => .error fault
  | none => .ok (f.frame t size.toNat clamp)

end DotFunction

end DotGrid
