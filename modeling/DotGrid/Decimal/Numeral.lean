import DotGrid.Decimal.Basic
import DotGrid.Text.Blank
import DotGrid.Text.Digit

/-!
# Numerals

How numbers are read from text. A decimal numeral has digits, at most one point among or beside them, and an optional
exponent. Numbers that a user writes may have padding around them, a sign, digits of any script and single low lines
between digits; a double may also be `inf`, `infinity` or `nan` in any case. A decimal integer has at most
`longestInteger` digits; one of another base may start with the mark of the base.
-/

namespace DotGrid

/-- The digits behind a leading sign, and whether the sign is a minus. -/
def splitSign : List Char → Bool × List Char
  | '-' :: cs => (true, cs)
  | '+' :: cs => (false, cs)
  | cs => (false, cs)

/-- The exponent at the end of a numeral: none, or a mark, an optional sign and digits. -/
def exponentPart? : List Char → Option Int
  | [] => some 0
  | c :: cs =>
    let (negative, digits) := splitSign cs
    if (c = 'e' ∨ c = 'E') ∧ !digits.isEmpty ∧ digits.all Text.isDigit then
      let n : Int := Text.numeral 10 digits
      some (if negative then -n else n)
    else none

/-- The value of a decimal numeral without a sign. -/
def Decimal.parse? (cs : List Char) : Option Decimal := do
  let whole := cs.takeWhile Text.isDigit
  let (fraction, rest) :=
    match cs.dropWhile Text.isDigit with
    | '.' :: r => (r.takeWhile Text.isDigit, r.dropWhile Text.isDigit)
    | r => ([], r)
  let exponent ← exponentPart? rest
  if whole.isEmpty && fraction.isEmpty then none
  else some ⟨Text.numeral 10 (whole ++ fraction), exponent - fraction.length⟩

/-- A text without the single low lines between digits; nothing if there is another low line. -/
def ungrouped? (isDigit : Char → Bool) : List Char → Option (List Char)
  | [] => some []
  | '_' :: _ => none
  | a :: '_' :: b :: cs =>
    if isDigit a && isDigit b then (ungrouped? isDigit (b :: cs)).map (a :: ·) else none
  | a :: cs => (ungrouped? isDigit cs).map (a :: ·)

/-- A character, or the digit of the basic alphabet that has the same value. -/
def plainDigit (c : Char) : Char :=
  match Text.digitValue? c with
  | some v => Char.ofNat ('0'.toNat + v)
  | none => c

/-- The characters of a number that a user wrote: the sign apart, in plain digits, without padding. -/
def userNumeral (s : String) : Bool × List Char := splitSign ((Text.trim s.toList).map plainDigit)

/-- The double that a user wrote. -/
def Double.parse? (s : String) : Option Double := do
  let (negative, body) := userNumeral s
  let body ← ungrouped? Text.isDigit body
  let word := body.map Char.toLower
  if word = "inf".toList ∨ word = "infinity".toList then some (.infinite negative)
  else if word = "nan".toList then some .nan
  else (Decimal.parse? body).map (ofDecimal negative)

/-- The greatest number of digits that an integer is read or written with. -/
def longestInteger : Nat := 4300

/-- Why a text is no integer. -/
inductive IntegerFault where
  | malformed
  | tooLong (digits : Nat)
deriving DecidableEq

/-- The digits behind the mark that a binary, octal or hexadecimal integer may start with. -/
def withoutMark (base : Nat) : List Char → List Char
  | '0' :: mark :: cs =>
    if [(2, 'b'), (8, 'o'), (16, 'x')].contains (base, mark.toLower) then cs else '0' :: mark :: cs
  | cs => cs

/-- The integer that a user wrote in a base. Only a decimal one can be too long, which counts more than what follows
its digits. -/
def readIntegerIn (base : Nat) (s : String) : Except IntegerFault Int :=
  let (negative, body) := userNumeral s
  let body := withoutMark base body
  let isDigit (c : Char) : Bool := (Text.valueIn? base c).isSome
  let isPart (c : Char) : Bool := c = '_' || isDigit c
  match ungrouped? isDigit (body.takeWhile isPart) with
  | none | some [] => .error .malformed
  | some digits =>
    if base = 10 ∧ longestInteger < digits.length then .error (.tooLong digits.length)
    else if !(body.dropWhile isPart).isEmpty then .error .malformed
    else
      let n : Int := Text.numeral base digits
      .ok (if negative then -n else n)

/-- The decimal integer that a user wrote. -/
def readInteger (s : String) : Except IntegerFault Int := readIntegerIn 10 s

end DotGrid
