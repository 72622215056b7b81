import DotGrid.Config.Basic

/-!
# Requests for frames

A request is a configuration that nobody has checked: its counts may be numbers of any kind. `RenderRequest.config`
gives the configuration that it stands for, or the first fault that rendering it meets. The number of frames is looked
at first, then the instants, then the workers, and the size only if there is a frame.
-/

namespace DotGrid

/-- A configuration whose counts are numbers of any kind. -/
structure RenderRequest where
  size : Number := .integer 16
  start : Number := .real (.zero false)
  fps : Number := .real (.ofInt 60)
  frames : Number := .integer 1
  clamp : Bool := true
  workers : Number := .integer 1

/-- A number that counts something, which has to be an integer or a truth value. -/
def Number.count (n : Number) : Except Fault Int :=
  match n.whole? with
  | some k => .ok k
  | none => .error (.mismatch .count)

/-- A number that measures something, which has to be an integer. -/
def Number.extent : Number → Except Fault Int
  | .integer k => .ok k
  | _ => .error (.mismatch .count)

/-- The integer that is left of a number without its fraction; zero for NaN and infinities. -/
def Number.truncated : Number → Int
  | .real d => d.truncate?.getD 0
  | n => n.whole?.getD 0

/-- Tells a number that is at most one. -/
def Number.isAtMostOne (n : Number) : Bool :=
  match Measure.compare? n.measure (Number.integer 1).measure with
  | some .gt | none => false
  | _ => true

namespace RenderRequest

/-- The configuration of a request as far as its instants need it. -/
def timing (r : RenderRequest) : Except Fault RenderConfig := do
  .ok { start := r.start, fps := r.fps, frames := ← r.frames.count, clamp := r.clamp }

/-- The instants of a request. -/
def times (r : RenderRequest) : Except Fault (List Double) := do (← r.timing).times

/-- The number of workers for some frames; a single frame needs no more than one worker of any kind. -/
def workersFor (r : RenderRequest) (frames : Nat) : Except Fault Int :=
  if r.workers.isAtMostOne ∨ frames = 1 then .ok 1 else r.workers.extent

/-- The size of the grid for some frames. -/
def sizeFor (r : RenderRequest) (frames : Nat) : Except Fault Int :=
  if frames = 0 then .ok r.size.truncated else r.size.extent

/-- The configuration that a request stands for. -/
def config (r : RenderRequest) : Except Fault RenderConfig := do
  let timing ← r.timing
  let frames := (← timing.times).length
  let workers ← r.workersFor frames
  .ok { timing with size := ← r.sizeFor frames, workers := workers }

end RenderRequest

end DotGrid
