import DotGrid.Decimal.Numeral
import DotGrid.Document.Date

/-!
# Dates in YAML

A date is a year, a month and a day between hyphens. A time of the day may follow a `T` or blanks, and behind that a
fraction of a second and a zone. As a plain scalar, a date without a time has two digits for the month and two for the
day.
-/

namespace DotGrid.Yaml

/-- A number of at least `least` and at most `most` digits, and what follows it. -/
def digitsBetween (least most : Nat) (cs : List Char) : Option (Nat × List Char) :=
  let digits := (cs.take most).takeWhile Text.isDigit
  if digits.length < least then none else some (Text.numeral 10 digits, cs.drop digits.length)

/-- What follows a given character. -/
def after (c : Char) : List Char → Option (List Char)
  | d :: cs => if c = d then some cs else none
  | [] => none

/-- Tells a space or a tab. -/
def isGap (c : Char) : Bool := c = ' ' || c = '\t'

/-- The distance of a zone in seconds; nothing is no zone. -/
def zoneOf (cs : List Char) : Option (Option Int) := do
  match cs.dropWhile isGap with
  | [] => if cs.isEmpty then some none else none
  | ['Z'] => some (some 0)
  | sign :: rest =>
    if sign ≠ '+' ∧ sign ≠ '-' then none
    else do
      let (hours, rest) ← digitsBetween 1 2 rest
      let minutes ← match rest with
        | [] => some 0
        | rest => do
          let (minutes, rest) ← digitsBetween 2 2 (← after ':' rest)
          if rest.isEmpty then some minutes else none
      let seconds : Int := (hours * 60 + minutes : Nat) * 60
      some (some (if sign = '-' then -seconds else seconds))

/-- The millionths of a second of a fraction. -/
def microseconds (digits : List Char) : Nat :=
  Text.numeral 10 ((digits ++ List.replicate 6 '0').take 6)

/-- The date that a text denotes, of the calendar or not. -/
def dateOf? (cs : List Char) : Option Date := do
  let (year, rest) ← digitsBetween 4 4 cs
  let (month, rest) ← digitsBetween 1 2 (← after '-' rest)
  let (day, rest) ← digitsBetween 1 2 (← after '-' rest)
  match rest with
  | [] => some ⟨year, month, day, none, none⟩
  | c :: more =>
    let rest ←
      if c = 'T' ∨ c = 't' then some more
      else if isGap c then some (rest.dropWhile isGap)
      else none
    let (hour, rest) ← digitsBetween 1 2 rest
    let (minute, rest) ← digitsBetween 2 2 (← after ':' rest)
    let (second, rest) ← digitsBetween 2 2 (← after ':' rest)
    let (fraction, rest) := match rest with
      | '.' :: r => (r.takeWhile Text.isDigit, r.dropWhile Text.isDigit)
      | r => ([], r)
    some ⟨year, month, day, some ⟨hour, minute, second, microseconds fraction⟩, ← zoneOf rest⟩

/-- Tells the form of a date as a plain scalar. -/
def isDateForm (cs : List Char) : Bool := (dateOf? cs).any fun d => d.clock.isSome || cs.length = 10

end DotGrid.Yaml
