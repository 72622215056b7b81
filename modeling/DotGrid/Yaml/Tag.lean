/-!
# Tags

The types of nodes that data can be made of, and those of the keys with a meaning of their own. `Tag.ofName` finds the
tag of a name in full.
-/

namespace DotGrid.Yaml

/-- The type of a node. -/
inductive Tag where
  | null
  | truth
  | integer
  | real
  | text
  | binary
  | date
  | sequence
  | mapping
  | set
  | pairs
  | orderedPairs
  | merge
  | value
  | unknown
deriving DecidableEq

/-- The start of the names of the common tags. -/
def commonTag : String := "tag:yaml.org,2002:"

/-- The common tags, by the ends of their names. -/
def commonTags : List (String × Tag) :=
  [("null", .null), ("bool", .truth), ("int", .integer), ("float", .real), ("str", .text), ("binary", .binary),
    ("timestamp", .date), ("seq", .sequence), ("map", .mapping), ("set", .set), ("pairs", .pairs),
    ("omap", .orderedPairs), ("merge", .merge), ("value", .value)]

/-- The tag of a name. -/
def Tag.ofName (name : String) : Tag :=
  ((commonTags.find? fun t => name = commonTag ++ t.1).map (·.2)).getD .unknown

end DotGrid.Yaml
