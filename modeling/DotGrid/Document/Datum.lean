import DotGrid.Document.Date
import DotGrid.Text.Quoted
import DotGrid.Value.Number

/-!
# Data of a document

A `Datum` is what a configuration document holds: a plain value, a list, a set, or a mapping in the order of its
entries. `Datum.shown` writes a datum on one line: texts in quotes, lists in brackets, sets and mappings in braces.
`Datum.before?` is the order in which keys are reported.
-/

namespace DotGrid

/-- A piece of data. -/
inductive Datum where
  | null
  | boolean (b : Bool)
  | integer (n : Int)
  | real (d : Double)
  | text (s : String)
  | bytes (bs : List UInt8)
  | date (d : Date)
  | list (items : List Datum)
  | mapping (entries : List (Datum × Datum))
  | set (members : List Datum)
deriving Inhabited

namespace Datum

/-- The name of the type of a datum. -/
def typeName : Datum → String
  | .null => "NoneType"
  | .boolean _ => "bool"
  | .integer _ => "int"
  | .real _ => "float"
  | .text _ => "str"
  | .bytes _ => "bytes"
  | .date d => d.typeName
  | .list _ => "list"
  | .mapping _ => "dict"
  | .set _ => "set"

/-- The name of the type of a datum, after the name of the module that it belongs to. -/
def qualifiedType : Datum → String
  | .date d => d.qualifiedType
  | d => d.typeName

/-- Tells a datum that stands for nothing: null, false, a zero, or one that holds nothing. -/
def isBlank : Datum → Bool
  | .null => true
  | .boolean b => !b
  | .integer n => n = 0
  | .real d => d.isZero
  | .text s => s.isEmpty
  | .bytes bs => bs.isEmpty
  | .date _ => false
  | .list items => items.isEmpty
  | .mapping entries => entries.isEmpty
  | .set members => members.isEmpty

mutual

/-- The greatest number of lists, sets and mappings in a datum that are one inside of the other. -/
def depth : Datum → Nat
  | .list items => depthOfItems items + 1
  | .mapping entries => depthOfEntries entries + 1
  | .set members => depthOfItems members + 1
  | _ => 0

/-- The greatest depth of some data. -/
def depthOfItems : List Datum → Nat
  | [] => 0
  | d :: ds => max d.depth (depthOfItems ds)

/-- The greatest depth of the values of some entries. -/
def depthOfEntries : List (Datum × Datum) → Nat
  | [] => 0
  | (_, v) :: es => max v.depth (depthOfEntries es)

end

/-- The number that a datum is. -/
def number? : Datum → Option Number
  | .boolean b => some (.boolean b)
  | .integer n => some (.integer n)
  | .real d => some (.real d)
  | _ => none

/-- Tells an integer that is too long to be written. -/
def isTooLong : Datum → Bool
  | .integer n => longestInteger < (Number.integer n).digitCount
  | _ => false

mutual

/-- A datum on one line. -/
def shown : Datum → String
  | .null => "None"
  | .boolean b => (Number.boolean b).text
  | .integer n => (Number.integer n).text
  | .real d => d.text
  | .text s => Text.quoted s
  | .bytes bs => Text.quotedBytes bs
  | .date d => d.shown
  | .list items => "[" ++ String.intercalate ", " (shownItems items) ++ "]"
  | .mapping entries => "\x7b" ++ String.intercalate ", " (shownEntries entries) ++ "\x7d"
  | .set members => "\x7b" ++ String.intercalate ", " (shownItems members) ++ "\x7d"

/-- The members of a list or a set, each on one line. -/
def shownItems : List Datum → List String
  | [] => []
  | d :: ds => d.shown :: shownItems ds

/-- The entries of a mapping, each on one line. -/
def shownEntries : List (Datum × Datum) → List String
  | [] => []
  | (k, v) :: es => (k.shown ++ ": " ++ v.shown) :: shownEntries es

end

/-- A datum as plain text: a text itself, and all else on one line. -/
def plain : Datum → String
  | .text s => s
  | d => d.shown

/-! ## Keys -/

/-- Whether two data are the same key of a mapping: equal numbers of any kind, or equal values of another kind. -/
def sameKey : Datum → Datum → Bool
  | .null, .null => true
  | .text a, .text b => a = b
  | .bytes a, .bytes b => a = b
  | .date a, .date b => a.isSame b
  | a, b =>
    match a.number?, b.number? with
    | some m, some n => Measure.compare? m.measure n.measure = some .eq
    | _, _ => false

/-- Tells an integer or a truth value. -/
def isWhole : Datum → Bool
  | .integer _ | .boolean _ => true
  | _ => false

/-- Tells a text. -/
def isText : Datum → Bool
  | .text _ => true
  | _ => false

/-- Whether a key is reported before another one. Whole numbers and texts are in order among themselves, and each of
them is before all else, the other kind included. Other keys have an order only if their kinds have one. -/
def before? (a b : Datum) : Option Bool :=
  match a, b with
  | .text s, .text t => some (s < t)
  | .bytes s, .bytes t => some (s < t)
  | .date d, .date e => d.before? e
  | a, b =>
    if a.isText || (a.isWhole && !b.isWhole) then some true
    else match a.number?, b.number? with
      | some m, some n => some (Measure.compare? m.measure n.measure = some .lt)
      | _, _ => none

/-- Sets the value of a key: in its place if the mapping has it, else at the end. -/
def insertEntry (key value : Datum) : List (Datum × Datum) → List (Datum × Datum)
  | [] => [(key, value)]
  | (k, v) :: es => if k.sameKey key then (k, value) :: es else (k, v) :: insertEntry key value es

/-- The value of a key that is a text. -/
def lookup? (key : String) (entries : List (Datum × Datum)) : Option Datum :=
  (entries.find? fun e => e.1.sameKey (.text key)).map (·.2)

end Datum

end DotGrid
