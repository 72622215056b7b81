import DotGrid.Config.Basic
import DotGrid.Decimal.Fixed
import DotGrid.Frame.Basic
import DotGrid.Frame.Workers
import DotGrid.Log.Record

/-!
# Sequences of frames

The frames of a configuration, in the order of their instants. With more than one worker the instants are split into
consecutive batches of nearly equal length, each for one worker, and the frames of the batches are put together in
the order of the batches. Each batch is sent to a worker with the function, which fails if the tree is too deep.
-/

namespace DotGrid

/-- A list cut into pieces of a given length, of which the last may be shorter; a length of zero counts as one. -/
def pieces {α : Type} (length : Nat) : List α → List (List α)
  | [] => []
  | a :: as => (a :: as.take (length - 1)) :: pieces length (as.drop (length - 1))
termination_by as => as.length
decreasing_by simp only [List.length_drop, List.length_cons]; omega

/-- The length of a batch: a share of the frames for each worker, rounded up, and at least one. -/
def batchLength (frames workers : Nat) : Nat := max 1 ((frames + workers - 1) / workers)

namespace DotFunction

variable (f : DotFunction) (c : RenderConfig)

/-- The frames of some instants. -/
def batch (times : List Double) : Except Fault (List Frame) :=
  times.mapM fun t => f.render (.real t) c.size c.clamp

/-- The frames of a batch that is sent to a worker. -/
def sent (times : List Double) : Except Fault (List Frame) :=
  if deepestSent < f.tree.layers then .error .tooDeep else f.batch c times

/-- The frames of some instants, batch by batch, by the workers of a pool. -/
def batches (times : List Double) : Except Fault (List Frame) :=
  match poolFault? c.workers with
  | some fault => .error fault
  | none => do
    let parts ← (pieces (batchLength times.length c.workers.toNat) times).mapM (f.sent c)
    .ok parts.flatten

/-- The frames of a configuration. -/
def frames : Except Fault (List Frame) := do
  let times ← c.times
  if c.workers ≤ 1 ∨ times.length = 1 then f.batch c times else f.batches c times

end DotFunction

/-- The logger of frames. -/
def frameLogger : String := "evaluation.frame"

/-- A time with three decimal places. -/
def shownTime : Number → String
  | .real d => d.fixed 3
  | n => match n.toDouble with
    | .ok d => d.fixed 3
    | .error _ => n.text

/-- The warnings about a frame: one for each different fault. -/
def Frame.warnings (f : Frame) : List Log.Record :=
  f.errors.map fun e => ⟨frameLogger, Log.warning, "t=" ++ shownTime f.time ++ ": " ++ e.summary⟩

/-- The records about the frames of a configuration that took some time to render, given as text. -/
def frameRecords (c : RenderConfig) (frames : List Frame) (elapsed : String) : List Log.Record :=
  let size := toString c.size
  frames.flatMap Frame.warnings ++
    [⟨frameLogger, Log.debug, "Rendered " ++ toString frames.length ++ " frame(s) of " ++ size ++ "x" ++ size ++
      " in " ++ elapsed ++ " s"⟩]

end DotGrid
