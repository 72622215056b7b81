import DotGrid.Yaml.Tag
import DotGrid.Yaml.Timestamp

/-!
# The tags of plain scalars

A plain scalar is a truth value, a number, null or a date if its text is of the form of one, and else a text. Integers
may be binary, octal, hexadecimal or sexagesimal, and low lines may stand between their digits; a real number has a
point, and its exponent a sign. A line feed at the end of the text does not count.
-/

namespace DotGrid.Yaml

/-! ## Forms -/

/-- Tells a digit or a low line. -/
def isGrouped (c : Char) : Bool := Text.isDigit c || c = '_'

/-- The words for truth. -/
def trueWords : List String := ["yes", "Yes", "YES", "true", "True", "TRUE", "on", "On", "ON"]

/-- The words for falsehood. -/
def falseWords : List String := ["no", "No", "NO", "false", "False", "FALSE", "off", "Off", "OFF"]

/-- Tells digits after a first one, with low lines among them. -/
def startsGrouped (cs : List Char) : Bool := cs.head?.any Text.isDigit

/-- What follows one or more groups of base sixty, each of a colon and one or two digits. -/
def afterSexagesimal (seen : Bool) : List Char → Option (List Char)
  | ':' :: cs =>
    match cs with
    | a :: b :: rest =>
      if Text.isDigit a && Text.isDigit b then (if a ≤ '5' then afterSexagesimal true rest else none)
      else if Text.isDigit a then afterSexagesimal true (b :: rest)
      else none
    | [a] => if Text.isDigit a then some [] else none
    | [] => none
  | cs => if seen then some cs else none

/-- Tells nothing, or a mark of an exponent, a sign and digits. -/
def isSignedExponent : List Char → Bool
  | [] => true
  | e :: sign :: digits =>
    (e = 'e' || e = 'E') && (sign = '+' || sign = '-') && !digits.isEmpty && digits.all Text.isDigit
  | _ => false

/-- Tells the form of a real number. -/
def isRealForm (cs : List Char) : Bool :=
  let body := (splitSign cs).2
  let rest := body.dropWhile isGrouped
  let pointed := match rest with
    | '.' :: r => startsGrouped body && isSignedExponent (r.dropWhile isGrouped)
    | _ => false
  let short := match cs with
    | '.' :: r => startsGrouped r && isSignedExponent (r.dropWhile isGrouped)
    | _ => false
  let sexagesimal := match afterSexagesimal false rest with
    | some ('.' :: r) => startsGrouped body && r.all isGrouped
    | _ => false
  pointed || short || sexagesimal || [".inf", ".Inf", ".INF"].contains (String.ofList body) ||
    [".nan", ".NaN", ".NAN"].contains (String.ofList cs)

/-- Tells one or more digits of a base, with low lines among them. -/
def isDigitsOf (base : Nat) (cs : List Char) : Bool :=
  !cs.isEmpty && cs.all fun c => c = '_' || (Text.valueIn? base c).isSome

/-- Tells the form of an integer. -/
def isIntegerForm (cs : List Char) : Bool :=
  match (splitSign cs).2 with
  | '0' :: 'b' :: r => isDigitsOf 2 r
  | '0' :: 'x' :: r => isDigitsOf 16 r
  | ['0'] => true
  | '0' :: r => isDigitsOf 8 r
  | c :: r =>
    Text.isDigit c && (r.all isGrouped || afterSexagesimal false (r.dropWhile isGrouped) = some [])
  | [] => false

/-! ## Tags -/

/-- A text without one line feed at its end. -/
def withoutLineFeed (cs : List Char) : List Char := if cs.getLast? = some '\n' then cs.dropLast else cs

/-- The tag of the form of a text. -/
def Tag.ofForm (cs : List Char) : Tag :=
  let s := String.ofList cs
  if (trueWords ++ falseWords).contains s then .truth
  else if isRealForm cs then .real
  else if isIntegerForm cs then .integer
  else if s = "<<" then .merge
  else if ["", "~", "null", "Null", "NULL"].contains s then .null
  else if isDateForm cs then .date
  else if s = "=" then .value
  else if ["!", "&", "*"].contains s then .unknown
  else .text

/-- The tag of a plain scalar. -/
def Tag.ofText (s : String) : Tag :=
  if s.toList.head? = some '\n' then .text else .ofForm (withoutLineFeed s.toList)

end DotGrid.Yaml
