import DotGrid.Value.Operators

/-!
# Render configurations

What is rendered: the size of the grid, the instants, and the expression if there is one. Frame `n` is rendered at
`start + n / fps`.
-/

namespace DotGrid

/-- A render configuration. -/
structure RenderConfig where
  size : Int := 16
  start : Number := .real (.zero false)
  fps : Number := .real (.ofInt 60)
  frames : Int := 1
  clamp : Bool := true
  workers : Int := 1
  expression : Option String := none
deriving DecidableEq

namespace RenderConfig

/-- The time from the start to frame `n`. -/
def offset (c : RenderConfig) (n : Nat) : Except Fault Double :=
  match c.fps with
  | .real d => if d.isZero then .error (.divisionByZero true) else .ok ((Double.ofInt n).div d)
  | .integer k => quotient n k
  | .boolean b => quotient n (if b then 1 else 0)
where
  quotient (n : Nat) (k : Int) : Except Fault Double :=
    if k = 0 then .error (.divisionByZero false) else .ok (.divInts n k)

/-- The instant of frame `n`. -/
def instant (c : RenderConfig) (n : Nat) : Except Fault Double := do
  let offset ← c.offset n
  let start ← c.start.toDouble
  .ok (start.add offset)

/-- The instants of all frames. -/
def times (c : RenderConfig) : Except Fault (List Double) :=
  (List.range c.frames.toNat).mapM c.instant

end RenderConfig

end DotGrid
