import DotGrid.Document.Datum
import DotGrid.Double.Arithmetic
import DotGrid.Text.Base64
import DotGrid.Value.Conversion
import DotGrid.Yaml.Plain

/-!
# The values of scalars

`Tag.datum? tag s` is the datum that a text denotes as a scalar of a tag. What a number may look like here is more than
what makes a plain scalar a number, because a tag can be given in front of any text.
-/

namespace DotGrid.Yaml

/-- A text in pieces between colons. -/
def colonParts (cs : List Char) : List String := (String.ofList cs).splitOn ":"

/-! ## Integers -/

/-- The integer of groups of base sixty. -/
def sexagesimal (parts : List Int) : Int := parts.foldl (fun n part => n * 60 + part) 0

/-- The integer that a text denotes without its sign: a zero in front is the mark of another base than ten. -/
def magnitude? (cs : List Char) : Option Int :=
  let read (base : Nat) (cs : List Char) : Option Int := (readIntegerIn base (String.ofList cs)).toOption
  match cs with
  | ['0'] => some 0
  | '0' :: 'b' :: digits => read 2 digits
  | '0' :: 'x' :: digits => read 16 digits
  | '0' :: _ => read 8 cs
  | [] => none
  | _ =>
    if cs.contains ':' then ((colonParts cs).mapM fun part => (readInteger part).toOption).map sexagesimal
    else read 10 cs

/-- The integer that a text denotes. -/
def integerOf? (s : String) : Option Int :=
  let (negative, body) := splitSign (s.toList.filter (· ≠ '_'))
  (magnitude? body).map fun n => if negative then -n else n

/-! ## Real numbers -/

/-- The double of groups of base sixty, added from the last one on; each place has to be a double. -/
def sexagesimalReal? (parts : List Double) : Option Double :=
  let add (sum : Nat × Double) (part : Double) : Option (Nat × Double) := do
    let scale ← (Number.integer sum.1).toDouble.toOption
    some (sum.1 * 60, sum.2.add (part.mul scale))
  (parts.reverse.foldlM add (1, .zero false)).map (·.2)

/-- The digits of a real number, with whether a minus is in front of them. -/
def realDigits (s : String) : Bool × List Char := splitSign ((s.toList.filter (· ≠ '_')).map Char.toLower)

/-- Tells the word for NaN. -/
def isNanWord (s : String) : Bool := (realDigits s).2 = ".nan".toList

/-- The double that a text denotes. -/
def realOf? (s : String) : Option Double := do
  let (negative, body) := realDigits s
  let d ←
    if isNanWord s then some .nan
    else if body = ".inf".toList then some (.infinite false)
    else if body.contains ':' then (← (colonParts body).mapM Double.parse?) |> sexagesimalReal?
    else Double.parse? (String.ofList body)
  some (if negative then d.neg else d)

/-! ## All scalars -/

/-- The truth value of a word in any case. -/
def truthOf? (s : String) : Option Bool :=
  let word := s.map Char.toLower
  if trueWords.contains word then some true
  else if falseWords.contains word then some false
  else none

/-- The bytes that a text of the basic alphabet denotes. -/
def bytesOf? (s : String) : Option (List UInt8) :=
  if s.toList.all fun c => c.toNat < 0x80 then Base64.decode? s else none

/-- The datum of a scalar with a tag; nothing if its text does not denote one. -/
def Tag.datum? (tag : Tag) (s : String) : Option Datum :=
  match tag with
  | .null => some .null
  | .truth => (truthOf? s).map .boolean
  | .integer => (integerOf? s).map .integer
  | .real => (realOf? s).map .real
  | .text => some (.text s)
  | .binary => (bytesOf? s).map .bytes
  | .date => ((dateOf? (withoutLineFeed s.toList)).filter Date.isValid).map .date
  | _ => none

end DotGrid.Yaml
