import DotGrid.Text.Digit

/-!
# Words of a command line

A word is an option, with a value of its own if one is attached to it, or plain. The name of an option may be cut short
as long as no other name starts with the rest. A negative number is plain, and so is what looks like an option with a
space in it. The first word `--` is a separator, after which all words are plain.
-/

namespace DotGrid.Command

/-- The options. -/
inductive Flag where
  | help
  | config
  | time
  | frames
  | size
  | dump
  | verbose
deriving DecidableEq

namespace Flag

/-- The long names of the options. -/
def longNames : List (String × Flag) :=
  [("--help", help), ("--config", config), ("--time", time), ("--frames", frames), ("--size", size), ("--dump", dump),
    ("--verbose", verbose)]

/-- The option of a full name. -/
def ofName? (name : String) : Option Flag :=
  if name = "-h" then some help else (longNames.find? (·.1 = name)).map (·.2)

/-- Tells an option that has a value. -/
def takesValue : Flag → Bool
  | help | verbose => false
  | _ => true

end Flag

/-- One word of a command line. -/
inductive Word where
  | plain (text : String)
  | option (flag : Flag) (value : Option String)
  | unknown (text : String)
  | separator
deriving DecidableEq

/-- A text before and behind its first equals sign. -/
def splitEquals? (s : String) : Option (String × String) :=
  let cs := s.toList
  if cs.contains '=' then
    some (String.ofList (cs.takeWhile (· ≠ '=')), String.ofList ((cs.dropWhile (· ≠ '=')).drop 1))
  else none

/-- Tells a minus and a number in digits, which may have a point with digits behind it; a line feed may follow. -/
def isNegativeNumber (s : String) : Bool :=
  let digit (c : Char) : Bool := (Text.digitValue? c).isSome
  let cs := if s.toList.getLast? = some '\n' then s.toList.dropLast else s.toList
  match cs with
  | '-' :: body =>
    match body.dropWhile digit with
    | [] => !body.isEmpty
    | '.' :: fraction => !fraction.isEmpty && fraction.all digit
    | _ => false
  | _ => false

/-- The option `-h` with letters attached, which are options too; help comes before an unknown one, but a hyphen or an
equals sign makes all of it the value of an option that has none. -/
def shortHelp (attached : String) : Word :=
  match attached.toList.dropWhile (· = 'h') with
  | '-' :: _ | '=' :: _ => .option .help (some attached)
  | _ => .option .help none

/-- The options that a word in hyphens can stand for, with the value behind an equals sign. -/
def candidates (s : String) : List Word :=
  match s.toList with
  | '-' :: '-' :: _ =>
    let (start, value) := match splitEquals? s with
      | some (start, value) => (start, some value)
      | none => (s, none)
    (Flag.longNames.filter fun n => start.toList.isPrefixOf n.1.toList).map fun n => .option n.2 value
  | '-' :: 'h' :: attached => [shortHelp (String.ofList attached)]
  | _ => []

/-- An option by its full name, with the value behind an equals sign. -/
def Word.named? (s : String) : Option Word :=
  match Flag.ofName? s with
  | some flag => some (.option flag none)
  | none => do
    let (name, value) ← splitEquals? s
    let flag ← Flag.ofName? name
    some (.option flag (some value))

/-- What a word before the separator is; nothing if it can stand for several options. -/
def Word.of? (s : String) : Option Word :=
  if s.toList.head? ≠ some '-' ∨ s = "-" then some (.plain s)
  else match Word.named? s with
    | some w => some w
    | none =>
      match candidates s with
      | [w] => some w
      | _ :: _ :: _ => none
      | [] => some (if isNegativeNumber s || s.toList.contains ' ' then .plain s else .unknown s)

/-- The words of a command line. -/
def words? : List String → Option (List Word)
  | [] => some []
  | "--" :: args => some (.separator :: args.map .plain)
  | arg :: args => do some ((← Word.of? arg) :: (← words? args))

end DotGrid.Command
