import DotGrid.Command.Word
import DotGrid.Decimal.Numeral
import DotGrid.Double.Basic

/-!
# Arguments of the command

A command line has at most one expression and any number of options, of which the last one of a name counts. The value
of an option is attached to it or is the plain word behind it. Words are read from left to right: help ends the reading
at once, and so does a value that is missing or malformed; words that are left over are refused at the end.
-/

namespace DotGrid.Command

/-- The arguments of a run. -/
structure Arguments where
  expression : Option String := none
  config : Option String := none
  time : Option Double := none
  frames : Option Int := none
  size : Option Int := none
  dump : Option String := none
  verbose : Bool := false
deriving DecidableEq

/-- Why a command line gives no arguments. -/
inductive Dismissal where
  | help
  | misuse
deriving DecidableEq

namespace Arguments

/-- The arguments with the value of an option; nothing if the value is malformed or the option has none. -/
def setValue? (a : Arguments) (flag : Flag) (value : String) : Option Arguments :=
  match flag with
  | .config => some { a with config := some value }
  | .dump => some { a with dump := some value }
  | .time => (Double.parse? value).map fun d => { a with time := some d }
  | .frames => (readInteger value).toOption.map fun n => { a with frames := some n }
  | .size => (readInteger value).toOption.map fun n => { a with size := some n }
  | .help | .verbose => none

/-- The arguments with an option that has no value. -/
def setFlag (a : Arguments) (flag : Flag) : Except Dismissal Arguments :=
  match flag with
  | .help => .error .help
  | .verbose => .ok { a with verbose := true }
  | _ => .error .misuse

/-- Reads words into arguments. `wanted` tells that the expression may still come, and `extra` that a word was left
over. The separator goes with the expression beside it. -/
def collect : (wanted extra : Bool) → Arguments → List Word → Except Dismissal Arguments
  | _, extra, a, [] => if extra then .error .misuse else .ok a
  | wanted, extra, a, .option flag (some value) :: ws =>
    match a.setValue? flag value with
    | some a => collect wanted extra a ws
    | none => .error .misuse
  | wanted, extra, a, .option flag none :: ws =>
    if flag.takesValue then
      match ws with
      | .plain value :: ws =>
        match a.setValue? flag value with
        | some a => collect wanted extra a ws
        | none => .error .misuse
      | _ => .error .misuse
    else do collect wanted extra (← a.setFlag flag) ws
  | true, extra, a, .plain s :: .separator :: ws
  | true, extra, a, .separator :: .plain s :: ws
  | true, extra, a, .plain s :: ws => collect false extra { a with expression := some s } ws
  | true, extra, a, .separator :: ws => collect false extra a ws
  | wanted, _, a, _ :: ws => collect wanted true a ws

/-- The arguments of a command line. -/
def read (args : List String) : Except Dismissal Arguments :=
  match words? args with
  | some ws => collect true false {} ws
  | none => .error .misuse

end Arguments

end DotGrid.Command
