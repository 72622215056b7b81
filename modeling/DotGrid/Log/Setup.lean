import DotGrid.Log.Record

/-!
# Loggers and where their records go

Loggers form a tree by the dots in their names, under one root. A logger with no level of its own has the level of
the nearest logger above it that has one. A record of a positive level that is not below its logger's level is written
by every handler of the root. A set-up takes the handlers of earlier ones away and gives the root one for standard error
and, if it names a log file, one for the file. Without handlers, records from `lastResortLevel` on go to standard error
as bare messages.
-/

namespace DotGrid.Log

/-- Where a handler writes formatted records. -/
inductive Handler where
  | stderr
  | file
deriving DecidableEq

/-- A logger with its own level; a level of zero stands for none. -/
structure Logger where
  name : String
  level : Int := 0
deriving DecidableEq

/-- The level of the root, the other loggers in the order in which they came to be, and the handlers of the root. -/
structure Setup where
  rootLevel : Int
  loggers : List Logger
  handlers : List Handler
deriving DecidableEq

/-- The lines that a record adds to standard error and to the log file. -/
structure Emission where
  stderr : List String
  file : List String
deriving DecidableEq

/-- From this level on, records go to standard error where there are no handlers. -/
def lastResortLevel : Int := warning

/-! ## Names -/

/-- The name of the root, which also has the empty name. -/
def rootName : String := "root"

/-- Tells the two names of the root. -/
def isRoot (name : String) : Bool := name = "" || name = rootName

/-- The name that records of a logger have. -/
def fullName (name : String) : String := if isRoot name then rootName else name

/-- What is before the last dot of a name, in reversed characters. -/
def beforeDot (cs : List Char) : List Char := (cs.dropWhile (· ≠ '.')).drop 1

theorem beforeDot_length_le (cs : List Char) : (beforeDot cs).length ≤ cs.length := by
  have h := (List.dropWhile_sublist (fun c => decide (c ≠ '.')) (l := cs)).length_le
  simp only [beforeDot, List.length_drop]
  omega

/-- A name and the names above it, in reversed characters. The last character of a name is no dot that ends a name
above it, so an empty part hides the name before it. -/
def ancestors : List Char → List (List Char)
  | [] => []
  | c :: cs => (c :: cs) :: ancestors (beforeDot cs)
termination_by cs => cs.length
decreasing_by have := beforeDot_length_le cs; simp only [List.length_cons]; omega

/-- The names above a name, the nearest one first. -/
def namesAbove (name : String) : List String :=
  (ancestors (beforeDot name.toList.reverse)).map fun r => String.ofList r.reverse

namespace Setup

/-- No set-up: the root's level is `warning` and there are no handlers. -/
def initial : Setup := ⟨warning, [], []⟩

/-! ## Levels -/

/-- The level that is set on a logger itself. -/
def ownLevel (s : Setup) (name : String) : Int :=
  if isRoot name then s.rootLevel else ((s.loggers.find? (·.name = name)).map (·.level)).getD 0

/-- Tells whether a logger with a name above another one is above that one too. It is unless its name begins the name
of the root: then loggers that came before it stay under the root. -/
def isAbove (s : Setup) (upper name : String) : Bool :=
  match s.loggers.findIdx? (·.name = upper), s.loggers.findIdx? (·.name = name) with
  | none, _ => false
  | some _, none => true
  | some i, some j => i < j || !rootName.startsWith upper

/-- The levels of a logger and of those above it, for at most a number of them. -/
def levelsFrom (s : Setup) : Nat → String → List Int
  | 0, _ => []
  | n + 1, name =>
    s.ownLevel name :: match (namesAbove name).find? (s.isAbove · name) with
      | some upper => s.levelsFrom n upper
      | none => []

/-- The level of a logger: its own one or that of the nearest logger above it with one. -/
def effectiveLevel (s : Setup) (name : String) : Int :=
  let levels := if isRoot name then [] else s.levelsFrom (name.length + 1) name
  (levels.find? (· ≠ 0)).getD s.rootLevel

/-! ## Steps -/

/-- Takes the handlers away, if there are any. -/
def clear (s : Setup) : Setup := if s.handlers.isEmpty then s else { s with handlers := [] }

/-- Adds a handler. -/
def addHandler (s : Setup) (h : Handler) : Setup := { s with handlers := s.handlers ++ [h] }

/-- Sets the root's level and replaces the handlers. -/
def configure (s : Setup) (level : Int) (toFile : Bool) : Setup :=
  let s := { s with rootLevel := level }.clear.addHandler .stderr
  if toFile then s.addHandler .file else s

/-- Adds a logger if there is none of that name. -/
def withLogger (s : Setup) (name : String) : Setup :=
  if isRoot name || s.loggers.any (·.name = name) then s else { s with loggers := s.loggers ++ [{ name := name }] }

/-- Sets the level of a logger. -/
def setLevel (s : Setup) (name : String) (level : Int) : Setup :=
  if isRoot name then { s with rootLevel := level }
  else
    let s := s.withLogger name
    { s with loggers := s.loggers.map fun l => if l.name = name then { l with level := level } else l }

/-- Tells whether a record is emitted by its logger. -/
def enabled (s : Setup) (r : Record) : Bool :=
  0 < r.level && s.effectiveLevel r.logger ≤ r.level

/-- The lines that handlers write to a place for a record: one line for each handler of the place. -/
def linesTo (s : Setup) (place : Handler) (r : Record) : List String :=
  (s.handlers.filter (· = place)).map fun _ => r.line

/-- The lines of a record. -/
def emit (s : Setup) (r : Record) : Emission :=
  if s.enabled r then
    if s.handlers.isEmpty then ⟨if lastResortLevel ≤ r.level then [r.message] else [], []⟩
    else ⟨s.linesTo .stderr r, s.linesTo .file r⟩
  else ⟨[], []⟩

/-- The lines that records add to standard error. -/
def stderrOf (s : Setup) (rs : List Record) : List String :=
  rs.flatMap fun r => (s.emit r).stderr

end Setup

/-- What is done with the log: a set-up, a look at a logger that may set its level, or a record. -/
inductive Step where
  | configure (level : Int) (toFile : Bool)
  | get (name : String) (level : Option Int)
  | log (record : Record)

/-- The lines that a step adds, and the set-up after it. -/
def Setup.after (s : Setup) : Step → Emission × Setup
  | .configure level toFile => (⟨[], []⟩, s.configure level toFile)
  | .get name none => (⟨[], []⟩, s.withLogger name)
  | .get name (some level) => (⟨[], []⟩, s.setLevel name level)
  | .log record =>
    let s := s.withLogger record.logger
    (s.emit { record with logger := fullName record.logger }, s)

end DotGrid.Log
