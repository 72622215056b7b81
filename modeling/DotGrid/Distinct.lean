/-!
# First occurrences

`firstOccurrences` keeps each member of a list where it occurs first and drops every later repeat.
-/

namespace DotGrid

variable {α : Type} [DecidableEq α]

/-- The members of a list that are new, each once, after those that are already known. -/
def occurrencesAfter : List α → List α → List α
  | known, [] => known
  | known, a :: as => occurrencesAfter (if a ∈ known then known else known ++ [a]) as

/-- The members of a list without later repeats. -/
def firstOccurrences (as : List α) : List α := occurrencesAfter [] as

end DotGrid
