import DotGrid.Command.Run
import Std.Time.Format

/-!
# The command line

Renders an expression as frames of text. Records go to standard error with the time of day, frames to standard output,
and the dump to its file.
-/

namespace DotGrid.Command

/-- How the command is called. -/
def usage : String :=
  "usage: dotgrid [-h] [--config CONFIG] [--time TIME] [--frames FRAMES] [--size SIZE] [--dump DUMP] [--verbose] " ++
    "[expression]"

/-- Shows records by the set-up of the log, after the time of day. -/
def showRecords (setup : Log.Setup) (records : List Log.Record) : IO Unit := do
  for line in setup.stderrOf records do
    let now ← Std.Time.PlainDateTime.now
    IO.eprintln (now.format "uuuu-MM-dd HH:mm:ss" ++ " " ++ line)

/-- The text of a file, if it can be read. -/
def contentOf (path : String) : IO (Option String) := do
  try
    return some (← IO.FS.readFile path)
  catch _ =>
    return none

/-- A number of milliseconds in seconds with three decimal places. -/
def shownSeconds (milliseconds : Nat) : String :=
  let digits := Nat.repr (milliseconds % 1000)
  Nat.repr (milliseconds / 1000) ++ "." ++ String.ofList (List.replicate (3 - digits.length) '0') ++ digits

/-- The report of a job, whose frames are timed. -/
def timedReport (job : Job) : IO (Except Fault Report) := do
  let start ← IO.monoMsNow
  let frames ← IO.lazyPure fun _ => job.frames
  let stop ← IO.monoMsNow
  return frames.map fun frames => job.report frames (shownSeconds (stop - start))

/-- Runs the command with some arguments; gives the exit code. -/
def run (a : Arguments) : IO Nat := do
  let content ← match Arguments.path? a.config with
    | some path => contentOf path
    | none => pure none
  showRecords a.logSetup (a.records content)
  let outcome ← match a.job content with
    | .ok job => timedReport job
    | .error refusal => pure refusal.report
  match outcome with
  | .error fault =>
    IO.eprintln fault.summary
    return 1
  | .ok report =>
    showRecords a.logSetup report.records
    if let some dump := report.dump then
      IO.FS.writeBinFile dump.path ⟨dump.archive.toArray⟩
    for line in report.output do
      IO.println line
    return report.exitCode

end DotGrid.Command

open DotGrid.Command in
def main (args : List String) : IO UInt32 := do
  match Arguments.read args with
  | .ok a => return (← run a).toUInt32
  | .error .help =>
    IO.println usage
    return 0
  | .error .misuse =>
    IO.eprintln usage
    return 2
