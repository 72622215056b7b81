import DotGrid.Arrangement.Basic

/-!
# Merging runs

Two runs that are one behind the other are merged from the end at which the shorter one is. Elements are taken one by
one while the runs take turns. When one run has won several times in a row, whole groups are taken from each run in
turn, whose lengths are found by strides that double. How many times in a row that takes is the patience, which groups
that are long lower and groups that are short raise.
-/

namespace DotGrid

variable {α : Type}

/-! ## Strides -/

/-- The last distance below a bound that goes on and the first one that does not, among distances that double. -/
def strides? (goesOn : Nat → Option Bool) (bound last next : Nat) : Option (Nat × Nat) :=
  if next < bound then
    match goesOn next with
    | none => none
    | some true => strides? goesOn bound next (2 * next + 1)
    | some false => some (last, next)
  else some (last, bound)
termination_by bound - next

/-- Tells whether the element at a place belongs on the left; behind the end no element does. -/
def probe? (isLeft : α → Option Bool) (xs : List α) (i : Nat) : Option Bool :=
  match xs[i]? with
  | some x => isLeft x
  | none => some false

/-- The place where the elements that belong on the left end, looked for from a place on. -/
def gallop? (isLeft : α → Option Bool) (xs : List α) (start : Nat) : Option Nat := do
  if ← probe? isLeft xs start then
    let (last, next) ← strides? (fun d => probe? isLeft xs (start + d)) (xs.length - start) 0 1
    boundary? isLeft xs (start + last + 1) (start + next)
  else
    let (last, next) ← strides? (fun d => (probe? isLeft xs (start - d)).map not) (start + 1) 0 1
    boundary? isLeft xs (start + 1 - next) (start - last)

/-! ## Two runs -/

/-- How often a run has to win in a row at first, and how long a group has to be for groups to go on. -/
def longGroup : Nat := 7

/-- How the heads of two runs are taken: whether the second one's is taken first, how many elements of each run are
taken before the other one's head, and whose group is looked for first. -/
structure Merge (α : Type) where
  takesSecond : α → α → Option Bool
  countFirst : α → List α → Option Nat
  countSecond : α → List α → Option Nat
  firstLeads : Bool

/-- Two runs as far as they are merged, with the merged elements in reverse. -/
structure Merging (α : Type) where
  first : List α
  second : List α
  merged : List α
  patience : Nat

/-- A merge that has ended: its elements, whether it is complete, and the patience that is left. -/
structure Merged (α : Type) where
  items : List α
  complete : Bool
  patience : Nat

namespace Merging

/-- The end of a merge, with what is left of the first run before what is left of the second one. -/
def ended (s : Merging α) (complete : Bool) : Merged α :=
  ⟨s.merged.reverse ++ s.first ++ s.second, complete, s.patience⟩

/-- The end of a merge at the last element of the first run, which comes behind the second one. -/
def endedBySecond (s : Merging α) : Merged α := ⟨s.merged.reverse ++ s.second ++ s.first, true, s.patience⟩

/-- Takes elements of the first run. The last one of them is known to be behind the whole second run. -/
def takeFirst (s : Merging α) (n : Nat) : Except (Merged α) (Merging α) :=
  let s := { s with first := s.first.drop n, merged := (s.first.take n).reverse ++ s.merged }
  match s.first with
  | [] => .error (s.ended true)
  | [_] => .error s.endedBySecond
  | _ => .ok s

/-- Takes elements of the second run. -/
def takeSecond (s : Merging α) (n : Nat) : Except (Merged α) (Merging α) :=
  let s := { s with second := s.second.drop n, merged := (s.second.take n).reverse ++ s.merged }
  if s.second.isEmpty then .error (s.ended true) else .ok s

/-- Takes the group of the first run that is before the head of the second one, and that head; gives the length of the
group. -/
def groupOfFirst (m : Merge α) (s : Merging α) : Except (Merged α) (Nat × Merging α) :=
  match s.second.head?.bind fun key => m.countFirst key s.first with
  | none => .error (s.ended false)
  | some n => do
    let s ← if n = 0 then .ok s else s.takeFirst n
    .ok (n, ← s.takeSecond 1)

/-- Takes the group of the second run that is before the head of the first one, and that head; gives the length of the
group. -/
def groupOfSecond (m : Merge α) (s : Merging α) : Except (Merged α) (Nat × Merging α) :=
  match s.first.head?.bind fun key => m.countSecond key s.second with
  | none => .error (s.ended false)
  | some n => do
    let s ← if n = 0 then .ok s else s.takeSecond n
    .ok (n, ← s.takeFirst 1)

/-- Takes a group of each run. -/
def groups (m : Merge α) (s : Merging α) : Except (Merged α) (Nat × Merging α) :=
  if m.firstLeads then do
    let (k, s) ← s.groupOfFirst m
    let (n, s) ← s.groupOfSecond m
    .ok (max k n, s)
  else do
    let (k, s) ← s.groupOfSecond m
    let (n, s) ← s.groupOfFirst m
    .ok (max k n, s)

mutual

/-- Takes elements one by one until a run has won so often in a row that patience ends; `wins` says how often, and
`bySecond` which run. -/
def oneByOne (m : Merge α) : Nat → (wins : Nat) → (bySecond : Bool) → Merging α → Merged α
  | 0, _, _, s => s.ended false
  | fuel + 1, wins, bySecond, s =>
    match s.first, s.second with
    | a :: _, b :: _ =>
      match m.takesSecond a b with
      | none => s.ended false
      | some second =>
        let wins := if second = bySecond then wins + 1 else 1
        match if second then s.takeSecond 1 else s.takeFirst 1 with
        | .error done => done
        | .ok s => if s.patience ≤ wins then byGroups m fuel s else oneByOne m fuel wins second s
    | _, _ => s.ended true

/-- Takes groups as long as one of them is long. -/
def byGroups (m : Merge α) : Nat → Merging α → Merged α
  | 0, s => s.ended false
  | fuel + 1, s =>
    match s.groups m with
    | .error done => done
    | .ok (longest, s) =>
      if longGroup ≤ longest then byGroups m fuel { s with patience := max 1 (s.patience - 1) }
      else oneByOne m fuel 0 true { s with patience := s.patience + 1 }

end

/-- Merges two runs, of which the head of the second one is known to be taken first. -/
def run (m : Merge α) (s : Merging α) : Merged α :=
  match s.takeSecond 1 with
  | .error done => done
  | .ok s =>
    match s.first with
    | [_] => s.endedBySecond
    | _ => oneByOne m (s.first.length + s.second.length) 0 true s

end Merging

namespace Comparison

variable (before : Comparison α)

/-- Takes the heads of two runs from the left. -/
def fromLeft : Merge α where
  takesSecond a b := before b a
  countFirst b first := gallop? (before.isNotAfter b) first 0
  countSecond a second := gallop? (before · a) second 0
  firstLeads := true

/-- The number of elements at the end of a list that do not belong on the left. -/
def countRight (isLeft : α → Option Bool) (reversed : List α) : Option Nat :=
  (gallop? isLeft reversed.reverse (reversed.length - 1)).map (reversed.length - ·)

/-- Takes the last elements of two runs from the right. The runs are given in reverse, the right one first. -/
def fromRight : Merge α where
  takesSecond b a := before b a
  countFirst a reversed := countRight (before · a) reversed
  countSecond b reversed := countRight (before.isNotAfter b) reversed
  firstLeads := false

/-- Merges two runs. What is in its place already at both ends is left there. -/
def merged (patience : Nat) (left right : List α) : Merged α :=
  match right.head?, left.getLast? with
  | some head, some last =>
    match gallop? (before.isNotAfter head) left 0 with
    | none => ⟨left ++ right, false, patience⟩
    | some k =>
      let first := left.drop k
      if first.isEmpty then ⟨left ++ right, true, patience⟩
      else match gallop? (before · last) right (right.length - 1) with
        | none => ⟨left ++ right, false, patience⟩
        | some 0 => ⟨left ++ right, true, patience⟩
        | some n =>
          let second := right.take n
          let inner : Merged α :=
            if first.length ≤ second.length then Merging.run before.fromLeft ⟨first, second, [], patience⟩
            else
              let r := Merging.run before.fromRight ⟨second.reverse, first.reverse, [], patience⟩
              { r with items := r.items.reverse }
          { inner with items := left.take k ++ inner.items ++ right.drop n }
  | _, _ => ⟨left ++ right, true, patience⟩

end Comparison

end DotGrid
