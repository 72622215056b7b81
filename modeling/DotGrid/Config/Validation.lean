import DotGrid.Config.Basic
import DotGrid.Config.Finding
import DotGrid.Document.Conversion

/-!
# Validating a configuration

A document is a mapping with an optional `expression`, a text, and an optional `render`, a mapping of the other fields
of a configuration. A field that is absent or null has its default value. Numbers may be given by any datum that
converts to them. Every field that breaks a rule is reported with all of its problems.
-/

namespace DotGrid

/-! ## Fields -/

/-- What is wrong with the value of a field: the rule that it breaks, and the reason why it is not converted. -/
structure Trouble where
  rule : Option Problem := none
  reason : Option String := none

/-- A field's value, or what is wrong with it. -/
abbrev Checked (α : Type) := Except Trouble α

/-- A value that breaks a rule. -/
def broken {α : Type} (rule : Problem) : Checked α := .error { rule := some rule }

/-- An integer field, which has to be at least one. -/
def positiveInteger (d : Datum) : Checked Int :=
  match d.toInteger with
  | .ok n => if n < 1 then broken (.belowMinimum "1") else .ok n
  | .error reason => .error ⟨some .notInteger, some reason⟩

/-- A real field. An integer that is no double is of the right kind, but it is not converted. -/
def realField (d : Datum) : Checked Double :=
  d.toReal.mapError fun reason => ⟨if d.number?.isSome then none else some .notReal, some reason⟩

/-- The least number of frames in a second. -/
def leastRate : Double := .ofDecimal false ⟨1, -9⟩

/-- Tells a number that is below the least rate; NaN is not. -/
def isBelowRate (n : Number) : Bool := Measure.compare? n.measure leastRate.measure = some .lt

/-- The number of frames in a second, which has to be at least `leastRate` unless it is NaN. -/
def rateField (d : Datum) : Checked Double :=
  let low : Problem := .belowMinimum leastRate.text
  match realField d with
  | .ok x => if isBelowRate (.real x) then broken low else .ok x
  | .error t => .error { t with rule := if d.number?.any isBelowRate then some low else t.rule }

/-- A truth value. -/
def truthField : Datum → Checked Bool
  | .boolean b => .ok b
  | _ => broken .notTruth

/-- The text of an expression. -/
def expressionField : Datum → Checked (Option String)
  | .text s => .ok (some s)
  | _ => broken .notText

/-- The value of a field, or its default if it is absent or null. -/
def valueOr {α : Type} (default : α) (check : Datum → Checked α) : Option Datum → Checked α
  | none | some .null => .ok default
  | some d => check d

/-- What is wrong with a field that has no value. -/
def trouble? {α : Type} : Checked α → Option Trouble
  | .ok _ => none
  | .error t => some t

namespace RenderConfig

/-! ## The `render` mapping -/

/-- What is wrong with an entry of a `render` mapping. -/
def renderTrouble? (key value : Datum) : Option Trouble :=
  match key with
  | .text "size" | .text "frames" | .text "workers" => trouble? (valueOr 1 positiveInteger value)
  | .text "start" => trouble? (valueOr (.zero false) realField value)
  | .text "fps" => trouble? (valueOr (.zero false) rateField value)
  | .text "clamp" => trouble? (valueOr true truthField value)
  | _ => some { rule := some .unknown }

/-- The configuration of the fields of a `render` mapping. -/
def ofFields (entries : List (Datum × Datum)) : Checked RenderConfig := do
  let field {α : Type} (name : String) (default : α) (check : Datum → Checked α) : Checked α :=
    valueOr default check (Datum.lookup? name entries)
  let size ← field "size" 16 positiveInteger
  let start ← field "start" (.zero false) realField
  let fps ← field "fps" (.ofInt 60) rateField
  let frames ← field "frames" 1 positiveInteger
  let clamp ← field "clamp" true truthField
  let workers ← field "workers" 1 positiveInteger
  .ok ⟨size, .real start, .real fps, frames, clamp, workers, none⟩

/-- The problems of the fields of a `render` mapping, in the order of its entries. -/
def renderProblems (entries : List (Datum × Datum)) : List (Datum × Problem) :=
  entries.filterMap fun e => (renderTrouble? e.1 e.2).bind fun t => t.rule.map fun rule => (e.1, rule)

/-- The values of a `render` mapping that are not converted. -/
def renderConversions (entries : List (Datum × Datum)) : List Finding :=
  entries.filterMap fun e => match e.1, renderTrouble? e.1 e.2 with
    | .text name, some ⟨_, some reason⟩ => some (.conversion name reason)
    | _, _ => none

/-! ## Documents -/

/-- The fields of the `render` mapping of a document. -/
def renderFields (entries : List (Datum × Datum)) : List (Datum × Datum) :=
  match Datum.lookup? "render" entries with
  | some (.mapping fields) => fields
  | _ => []

/-- What is wrong with an entry of a document. -/
def entryFinding? (key value : Datum) : Except Fault (Option Finding) :=
  match key with
  | .text "expression" =>
    .ok ((trouble? (valueOr none expressionField value)).bind fun t => t.rule.map (.field key))
  | .text "render" =>
    match value with
    | .null => .ok none
    | .mapping fields =>
      match renderProblems fields with
      | [] => .ok none
      | problems => do .ok (some (.inside (← Finding.arrangedProblems problems)))
    | _ => .ok (some (.field key .notMapping))
  | _ => .ok (some (.field key .unknown))

/-- The greatest depth of a value that a report can be about. -/
def deepestReport : Nat := 480

/-- All that is wrong with a document, arranged. A value that is too deep is always wrong and cannot be reported. -/
def findings (entries : List (Datum × Datum)) : Except Fault (List Finding) := do
  let findings ← entries.mapM fun e => entryFinding? e.1 e.2
  let arranged ← Finding.arrangedFindings (renderConversions (renderFields entries)) (findings.filterMap id)
  if entries.any fun e => deepestReport < e.2.depth then .error .tooDeep else .ok arranged

/-- The configuration that the known fields of a document make, whatever else it has. -/
def ofKnown (entries : List (Datum × Datum)) : Checked RenderConfig := do
  let expression ← valueOr none expressionField (Datum.lookup? "expression" entries)
  let config ← ofFields (renderFields entries)
  .ok { config with expression := expression }

/-- The configuration of the entries of a document, or the findings about it. -/
def ofEntries (entries : List (Datum × Datum)) : Except ConfigFault RenderConfig :=
  match findings entries, ofKnown entries with
  | .ok [], .ok c => .ok c
  | found, _ => .error (.ofFindings found)

/-- The configuration of a document; a blank document has all defaults. -/
def ofDatum (d : Datum) : Except ConfigFault RenderConfig :=
  if d.isBlank then ofEntries []
  else match d with
    | .mapping entries => ofEntries entries
    | d => .error (.notDocument d.plain)

/-- A number as a datum. -/
def numberDatum : Number → Datum
  | .integer n => .integer n
  | .boolean b => .boolean b
  | .real d => .real d

/-- An expression that may be absent as a datum. -/
def expressionDatum : Option String → Datum
  | some s => .text s
  | none => .null

/-- The entries of the `render` mapping of a configuration. -/
def fieldEntries (c : RenderConfig) : List (Datum × Datum) :=
  [(.text "size", .integer c.size), (.text "start", numberDatum c.start), (.text "fps", numberDatum c.fps),
    (.text "frames", .integer c.frames), (.text "clamp", .boolean c.clamp), (.text "workers", .integer c.workers)]

/-- The document of a configuration. -/
def toDatum (c : RenderConfig) : Datum :=
  .mapping
    [(.text "expression", expressionDatum c.expression), (.text "render", .mapping c.fieldEntries)]

end RenderConfig

end DotGrid
