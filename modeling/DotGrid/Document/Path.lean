/-!
# Paths

A path in its shortest form that names the same file without a look at the files: empty parts and single dots are left
out. Two slashes at the start, but not more, differ from one.
-/

namespace DotGrid

/-- The slashes that an absolute path starts with. -/
def pathRoot (cs : List Char) : String :=
  match (cs.takeWhile (· = '/')).length with
  | 0 => ""
  | 2 => "//"
  | _ => "/"

/-- A path without empty parts and single dots. -/
def shortPath (path : String) : String :=
  let parts := (path.splitOn "/").filter fun part => part ≠ "" && part ≠ "."
  let short := pathRoot path.toList ++ String.intercalate "/" parts
  if short.isEmpty then "." else short

end DotGrid
