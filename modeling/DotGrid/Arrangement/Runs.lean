import DotGrid.Arrangement.Merge

/-!
# Arranging a list by its runs

`Comparison.arranged` cuts a list into the runs that it has, makes short runs longer by insertion, and merges them. A
run waits until the next one is known; the place of the border between them in a halving of the list decides which
waiting runs are merged first. A list with less than `shortList` elements is a single run.
-/

namespace DotGrid

variable {α : Type}

/-- The least length of a list that is cut into several runs. -/
def shortList : Nat := 64

/-- The least length of a run: a list is halved until it is short, and one more if a half was not even. -/
def leastRun (isOdd : Bool) (length : Nat) : Nat :=
  if shortList ≤ length then leastRun (isOdd || length % 2 = 1) (length / 2) else length + isOdd.toNat
termination_by length
decreasing_by have : shortList = 64 := rfl; omega

/-- The number of halvings of a list until two places, each twice the middle of a run, are in different parts. -/
def halvings (length : Nat) : Nat → Nat → Nat → Nat
  | 0, _, _ => 0
  | fuel + 1, a, b =>
    if length ≤ a then halvings length fuel ((a - length) * 2) ((b - length) * 2) + 1
    else if length ≤ b then 1
    else halvings length fuel (a * 2) (b * 2) + 1

/-- A run that waits to be merged, with the number of halvings at its border to the next one. -/
structure WaitingRun (α : Type) where
  items : List α
  power : Nat := 0

/-- The runs that wait, the last one first, with the patience of merges. -/
structure Waiting (α : Type) where
  runs : List (WaitingRun α) := []
  patience : Nat := longGroup

namespace Waiting

/-- The elements of all runs, with those of the rest of the list. -/
def content (w : Waiting α) (rest : List α) : List α :=
  w.runs.foldl (fun items run => run.items ++ items) rest

variable (before : Comparison α)

/-- Merges the last two runs; an incomplete merge is the end. -/
def mergeLast (w : Waiting α) : Except (Waiting α) (Waiting α) :=
  match w.runs with
  | right :: left :: more =>
    let m := before.merged w.patience left.items right.items
    let w : Waiting α := ⟨{ right with items := m.items } :: more, m.patience⟩
    if m.complete then .ok w else .error w
  | _ => .ok w

/-- Merges the two runs before the last one; an incomplete merge is the end. -/
def mergeBeforeLast (w : Waiting α) : Except (Waiting α) (Waiting α) :=
  match w.runs with
  | last :: more =>
    match mergeLast before { w with runs := more } with
    | .ok w => .ok { w with runs := last :: w.runs }
    | .error w => .error { w with runs := last :: w.runs }
  | [] => .ok w

/-- Merges runs as long as the border before the last one has a greater power than a new border. -/
def settle (power : Nat) : Nat → Waiting α → Except (Waiting α) (Waiting α)
  | 0, w => .ok w
  | fuel + 1, w =>
    match w.runs with
    | _ :: left :: _ => if power < left.power then (w.mergeLast before).bind (settle power fuel) else .ok w
    | _ => .ok w

/-- Adds a run of a list of some length behind those that wait. -/
def push (length : Nat) (w : Waiting α) (items : List α) : Except (Waiting α) (Waiting α) :=
  match w.runs with
  | [] => .ok { w with runs := [⟨items, 0⟩] }
  | last :: more =>
    let start := (more.map fun run => run.items.length).foldl (· + ·) 0
    let a := 2 * start + last.items.length
    let power := halvings length (length + 1) a (a + last.items.length + items.length)
    match w.settle before power (more.length + 1) with
    | .error w => .error w
    | .ok w =>
      match w.runs with
      | last :: more => .ok { w with runs := ⟨items, 0⟩ :: { last with power := power } :: more }
      | [] => .ok { w with runs := [⟨items, 0⟩] }

/-- Merges all runs, the two shorter ones of the last three first. -/
def mergeAll : Nat → Waiting α → Except (Waiting α) (Waiting α)
  | 0, w => .ok w
  | fuel + 1, w =>
    match w.runs with
    | last :: _ :: third :: _ =>
      if third.items.length < last.items.length then (w.mergeBeforeLast before).bind (mergeAll fuel)
      else (w.mergeLast before).bind (mergeAll fuel)
    | [_, _] => w.mergeLast before
    | _ => .ok w

end Waiting

namespace Comparison

variable (before : Comparison α)

/-- The arrangement of what runs have, behind which the rest of the list stays. -/
def arrangementOf (rest : List α) : Except (Waiting α) (Waiting α) → Arrangement α
  | .ok w => ⟨w.content rest, true⟩
  | .error w => ⟨w.content rest, false⟩

/-- The rest of a list of some length, arranged behind runs that wait. -/
def arrangedBehind (length least : Nat) : Nat → Waiting α → List α → Arrangement α
  | 0, w, rest => ⟨w.content rest, false⟩
  | fuel + 1, w, rest =>
    if rest.isEmpty then arrangementOf [] (w.mergeAll before w.runs.length)
    else
      let (run, rest) := before.firstRun least rest
      if !run.complete then ⟨w.content (run.items ++ rest), false⟩
      else match w.push before length run.items with
        | .error w => ⟨w.content (run.items ++ rest), false⟩
        | .ok w => arrangedBehind length least fuel w rest

/-- A list arranged by a comparison. -/
def arranged (xs : List α) : Arrangement α :=
  before.arrangedBehind xs.length (leastRun false xs.length) (xs.length + 1) {} xs

end Comparison

end DotGrid
