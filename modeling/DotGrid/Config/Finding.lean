import DotGrid.Arrangement.Runs
import DotGrid.Document.Datum
import DotGrid.Value.Fault

/-!
# Findings

What is wrong with a configuration document, and how it is reported. A finding is about a field of the document, about
the fields inside of its `render` mapping, or about a value in there that is not converted. Findings are arranged by
the paths of what they are about, each time that one is added. `Finding.report` puts them together as one mapping from
fields to their problems.
-/

namespace DotGrid

/-- What is wrong with a field. -/
inductive Problem where
  | unknown
  | notText
  | notMapping
  | notInteger
  | notReal
  | notTruth
  | belowMinimum (minimum : String)
  | unconverted (field reason : String)
deriving DecidableEq

/-- The text of a problem. -/
def Problem.text : Problem → String
  | .unknown => "unknown field"
  | .notText => "must be of string type"
  | .notMapping => "must be of dict type"
  | .notInteger => "must be of integer type"
  | .notReal => "must be of float type"
  | .notTruth => "must be of boolean type"
  | .belowMinimum minimum => "min value is " ++ minimum
  | .unconverted field reason => "field '" ++ field ++ "' cannot be coerced: " ++ reason

/-- Tells a problem that is kept also where it cannot be arranged among others. -/
def Problem.isKept : Problem → Bool
  | .belowMinimum _ => true
  | _ => false

/-- What is wrong with a document. -/
inductive Finding where
  | field (key : Datum) (problem : Problem)
  | inside (problems : List (Datum × Problem))
  | conversion (field reason : String)

/-! ## Order -/

/-- Whether one path of keys is reported before another: a path is before those that go on from it, and otherwise the
first two keys that differ decide. -/
def pathBefore? : List Datum → List Datum → Option Bool
  | [], _ => some true
  | _ :: _, [] => some false
  | a :: as, b :: bs => if a.sameKey b then pathBefore? as bs else a.before? b

/-- A list with one more element, arranged; a fault if that fails and the element is not to be kept all the same. -/
def enlisted {α : Type} (before : Comparison α) (isKept : Bool) (as : List α) (a : α) : Except Fault (List α) :=
  let arrangement := before.arranged (as ++ [a])
  if arrangement.complete || isKept then .ok arrangement.items else .error (.mismatch .order)

namespace Finding

/-- The key of the mapping whose fields are findings of their own. -/
def renderKey : Datum := .text "render"

/-- The keys that lead to what a finding is about. -/
def path : Finding → List Datum
  | .field key _ => [key]
  | .inside _ => [renderKey]
  | .conversion name _ => [renderKey, .text name]

/-- Whether a finding is reported before another. -/
def before? : Comparison Finding := fun a b => pathBefore? a.path b.path

/-- Problems of fields inside of a mapping, arranged as they are added. -/
def arrangedProblems (problems : List (Datum × Problem)) : Except Fault (List (Datum × Problem)) :=
  problems.foldlM (fun done p => enlisted (fun a b => a.1.before? b.1) p.2.isKept done p) []

/-- Findings, those about conversions first, arranged as they are added. -/
def arrangedFindings (conversions findings : List Finding) : Except Fault (List Finding) :=
  findings.foldlM (enlisted before? false) (before?.arranged conversions).items

/-! ## Report -/

/-- The problems of fields inside of the `render` mapping. -/
def problems : Finding → List (Datum × Problem)
  | .field _ _ => []
  | .inside problems => problems
  | .conversion name reason => [(.text name, .unconverted name reason)]

/-- A mapping with one more text in the list of a key. -/
def withText (key : Datum) (text : String) : List (Datum × Datum) → List (Datum × Datum)
  | [] => [(key, .list [.text text])]
  | (k, v) :: es =>
    if k.sameKey key then
      (k, match v with
        | .list items => .list (items ++ [.text text])
        | v => v) :: es
    else (k, v) :: withText key text es

/-- Fields and the texts of their problems. -/
def collected (problems : List (Datum × Problem)) : List (Datum × Datum) :=
  problems.foldl (fun es p => withText p.1 p.2.text es) []

/-- Findings as one mapping, those inside of the `render` mapping under its key. -/
def report (findings : List Finding) : Datum :=
  let render := Datum.list [.mapping (collected (findings.flatMap problems))]
  .mapping (findings.foldl (fun es f => match f with
    | .field key problem => withText key problem.text es
    | _ => Datum.insertEntry renderKey render es) [])

/-- Tells a finding about a key that is too long to be written. -/
def isTooLong (f : Finding) : Bool := (f.path ++ f.problems.map (·.1)).any Datum.isTooLong

end Finding

/-! ## Faults -/

/-- Why there is no configuration: a document that is no mapping, what is wrong with one, a file that is not read or
holds something else, or a fault that keeps the findings from being reported. -/
inductive ConfigFault where
  | notDocument (shown : String)
  | invalid (findings : List Finding)
  | unreadable (path : String)
  | notMapping (path type : String)
  | unreported (fault : Fault)

namespace ConfigFault

/-- The fault of a document, by its findings if they could be arranged. -/
def ofFindings : Except Fault (List Finding) → ConfigFault
  | .ok findings => if findings.any Finding.isTooLong then .unreported .integerTooLong else .invalid findings
  | .error fault => .unreported fault

/-- Tells the fault of a document whose findings could be arranged. -/
def isAboutDocument : ConfigFault → Bool
  | .invalid _ | .unreported .integerTooLong => true
  | _ => false

/-- The description of a fault. -/
def message? : ConfigFault → Option String
  | .notDocument shown => some ("'" ++ shown ++ "' is not a document, must be a dict")
  | .invalid findings => some ("Render schema validation errors: " ++ (Finding.report findings).shown)
  | .unreadable path => some ("Failed to read render YAML '" ++ path ++ "'")
  | .notMapping path type => some ("Render YAML '" ++ path ++ "' must contain a mapping, got " ++ type)
  | .unreported fault => fault.message?

end ConfigFault

end DotGrid
