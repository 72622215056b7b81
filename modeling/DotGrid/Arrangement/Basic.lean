/-!
# Arranging a short list

A list is arranged by a comparison that may have no answer for two elements and that need not be an order. The run at
the start of the list is kept, turned round if it descends, and each element behind it is inserted at the place that
bisection finds. Where two elements cannot be compared the arrangement stops and the rest of the list stays as it is.
-/

namespace DotGrid

variable {α : Type}

/-- A list as far as it was arranged, and whether that is to its end. -/
structure Arrangement (α : Type) where
  items : List α
  complete : Bool

/-- A comparison that tells whether an element is before another one, if it can. -/
abbrev Comparison (α : Type) := α → α → Option Bool

namespace Comparison

variable (before : Comparison α)

/-- Tells whether an element belongs on the left of a place for `x` behind all that is not after it. -/
def isNotAfter (x y : α) : Option Bool := (before x y).map not

/-- The number of elements that continue the run of the element in front of them. -/
def runLength? (descending : Bool) : α → List α → Option Nat
  | _, [] => some 0
  | a, b :: bs =>
    match before b a with
    | none => none
    | some answer => if answer = descending then (runLength? descending b bs).map (· + 1) else some 0

end Comparison

/-- The place between two bounds where the elements that belong on the left end. -/
def boundary? (isLeft : α → Option Bool) (xs : List α) (low high : Nat) : Option Nat :=
  if low < high then
    let middle := low + (high - low) / 2
    match xs[middle]? with
    | none => some low
    | some y =>
      match isLeft y with
      | none => none
      | some true => boundary? isLeft xs (middle + 1) high
      | some false => boundary? isLeft xs low middle
  else some low
termination_by high - low

namespace Comparison

variable (before : Comparison α)

/-- A list with the elements of another one inserted, one after the other. -/
def insertedAll (done : List α) : List α → Arrangement α
  | [] => ⟨done, true⟩
  | x :: xs =>
    match boundary? (before.isNotAfter x) done 0 done.length with
    | some place => insertedAll (done.insertIdx place x) xs
    | none => ⟨done ++ x :: xs, false⟩

/-- The start of a list as one run: the run that is there, with further elements inserted if it is shorter than
`least`. The rest of the list comes second. -/
def firstRun (least : Nat) : List α → Arrangement α × List α
  | a :: b :: xs =>
    match before b a with
    | none => (⟨a :: b :: xs, false⟩, [])
    | some descending =>
      match before.runLength? descending b xs with
      | none => (⟨a :: b :: xs, false⟩, [])
      | some n =>
        let run := a :: b :: xs.take n
        let further := least - run.length
        let run := if descending then run.reverse else run
        (before.insertedAll run ((xs.drop n).take further), (xs.drop n).drop further)
  | xs => (⟨xs, true⟩, [])

end Comparison

end DotGrid
