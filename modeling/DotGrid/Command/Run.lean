import DotGrid.Archive.Grid
import DotGrid.Command.Arguments
import DotGrid.Config.File
import DotGrid.Frame.Drawing
import DotGrid.Frame.Sequence
import DotGrid.Log.Setup

/-!
# Runs of the command

A run first finds out what to render: the configuration is that of the file if one is named, with the options in the
place of its fields, and the expression is that of the command line or else of the configuration. `Arguments.job` gives
the work or the reason why there is none. The report of a job has the records for the log, the lines of the output and
the frames to be kept in a file. All records are given, and the level of the log decides which ones are shown.
-/

namespace DotGrid.Command

/-- Why a run renders nothing. -/
inductive Refusal where
  | configuration (fault : ConfigFault)
  | noExpression
  | expression (source : String) (fault : ParseFault)

/-- The description of a refusal. -/
def Refusal.message : Refusal → String
  | .configuration fault => "Invalid render configuration: " ++ fault.message?.getD ""
  | .noExpression => "No expression given on the command line or in the config."
  | .expression source fault =>
    "Could not compile expression '" ++ source ++ "': " ++ match fault with
      | .incorrect f => f.message
      | .tooDeep => "nested too deeply"

/-- Frames to be kept in a file. -/
structure Dump where
  path : String
  frames : List Frame

/-- The archive of a dump: the times, and the values by frame, row and column. -/
def Dump.archive (d : Dump) : List UInt8 :=
  let count := d.frames.length
  let size := (d.frames.head?.map Frame.size).getD 0
  let times := d.frames.map fun f => (f.time.toDouble.toOption).getD .nan
  Archive.zip
    [Archive.gridMember "times" [count] times,
      Archive.gridMember "frames" [count, size, size] (d.frames.flatMap fun f => f.values.flatten)]

/-- What a run leaves behind. -/
structure Report where
  exitCode : Nat
  records : List Log.Record
  output : List String
  dump : Option Dump

/-- The logger of the command. -/
def logger : String := "run_tixy"

/-! ## Jobs -/

/-- What a run renders, and the path of the file for the frames if there is one. -/
structure Job where
  function : DotFunction
  config : RenderConfig
  dump : Option String

namespace Job

/-- The names that no call can resolve, as a warning. -/
def warnings (j : Job) : List Log.Record :=
  match j.function.unresolvedNames with
  | [] => []
  | names => [⟨logger, Log.warning, "Unresolved names (every call will fail): " ++ String.intercalate ", " names⟩]

/-- The frames. Of the faults, a valid configuration leaves those of a grid that is too large. -/
def frames (j : Job) : Except Fault (List Frame) := j.function.frames j.config

/-- The lines for some frames: each one has a line with its time before it. -/
def lines (frames : List Frame) : List String := frames.flatMap fun f => ["t=" ++ shownTime f.time, f.text]

/-- The path of a file of frames, whose ending is always the same. -/
def dumpPath (path : String) : String := if path.endsWith ".npz" then path else path ++ ".npz"

/-- The report of a job, given its frames and the time that they took as text. -/
def report (j : Job) (frames : List Frame) (elapsed : String) : Report where
  exitCode := 0
  records := j.warnings ++ frameRecords j.config frames elapsed ++ [⟨logger, Log.info, "Render completed."⟩]
  output := lines frames ++ (j.dump.map ("Frames dumped to " ++ ·)).toList
  dump := j.dump.map fun path => ⟨dumpPath path, frames⟩

end Job

/-! ## Arguments as jobs -/

/-- The report of a refusal, if it is not a fault. -/
def Refusal.report (r : Refusal) : Except Fault Report :=
  match r with
  | .configuration (.unreported fault) => .error fault
  | _ => .ok ⟨2, [⟨logger, Log.error, r.message⟩], [], none⟩

namespace Arguments

/-- A path that an argument names; an empty one names none. -/
def path? (argument : Option String) : Option String := argument.filter (· ≠ "")

/-- The set-up of the log. -/
def logSetup (a : Arguments) : Log.Setup :=
  Log.Setup.initial.configure (if a.verbose then Log.debug else Log.info) false

/-- The configuration before any option, given the text of the file that is named. -/
def base (a : Arguments) (content : Option String) : Except ConfigFault RenderConfig :=
  match path? a.config with
  | some path => RenderConfig.ofFile path content
  | none => .ok {}

/-- A configuration with the options in the place of its fields, once more validated. -/
def override (a : Arguments) (c : RenderConfig) : Except ConfigFault RenderConfig :=
  let c := { c with
    start := (a.time.map Number.real).getD c.start
    frames := a.frames.getD c.frames
    size := a.size.getD c.size }
  RenderConfig.ofDatum c.toDatum

/-- The records before a job is found: those about the log and about the configuration's file. -/
def records (a : Arguments) (content : Option String) : List Log.Record :=
  let opening := if a.verbose then [⟨logger, Log.debug, "Verbose logging enabled."⟩] else []
  let loaded := match path? a.config, a.base content with
    | some path, .ok c => [RenderConfig.loadRecord path c]
    | _, _ => []
  opening ++ loaded

/-- The job of some arguments, given the text of the configuration's file. -/
def job (a : Arguments) (content : Option String) : Except Refusal Job := do
  let config ← (a.base content).mapError .configuration
  let config ← (a.override config).mapError .configuration
  match a.expression.orElse fun _ => config.expression with
  | none => .error .noExpression
  | some source =>
    let tree ← (Expr.parse source).mapError (.expression source)
    .ok ⟨⟨tree⟩, config, path? a.dump⟩

/-- The report of a run from its start, given the text of the configuration's file and the time that the frames took
as text; or the fault that ends the run. -/
def report (a : Arguments) (content : Option String) (elapsed : String) : Except Fault Report := do
  let outcome ← match a.job content with
    | .ok job => do .ok (job.report (← job.frames) elapsed)
    | .error refusal => refusal.report
  .ok { outcome with records := a.records content ++ outcome.records }

end Arguments

end DotGrid.Command
