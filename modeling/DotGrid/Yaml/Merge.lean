import DotGrid.Yaml.Node

/-!
# Merge keys

The value of a merge key is a mapping, or a list of mappings of which the first one comes last. Its entries are put
in front of the entries that the mapping has itself, which win over them. `Graph.merged?` does so for one mapping and
for those that it takes entries from, which may be inside of one another. A lone equals sign as a key becomes a text.
-/

namespace DotGrid.Yaml.Graph

/-- The entries of a node, if it is a mapping. -/
def entries? (g : Graph) (id : Nat) : Option (List (Nat × Nat)) :=
  match g[id]? with
  | some ⟨_, .mapping entries⟩ => some entries
  | _ => none

/-- Tells a node with a given tag. -/
def hasTag (g : Graph) (tag : Tag) (id : Nat) : Bool := g[id]?.any (·.tag = tag)

/-- A graph in which a mapping has other entries. -/
def withEntries (g : Graph) (id : Nat) (entries : List (Nat × Nat)) : Graph :=
  g.modify id ({ · with content := .mapping entries })

/-- A graph in which the keys of some entries that are values are texts. -/
def withTextKeys (g : Graph) (entries : List (Nat × Nat)) : Graph :=
  entries.foldl (fun g e => if g.hasTag .value e.1 then g.modify e.1 ({ · with tag := .text }) else g) g

/-- The mappings that a merge key stands for. -/
def mergeSources? (g : Graph) (id : Nat) : Option (List Nat) :=
  match g[id]? with
  | some ⟨_, .mapping _⟩ => some [id]
  | some ⟨_, .sequence items⟩ => some items
  | _ => none

/-- A graph in which a mapping has no merge keys, and entries that were merged already are in front. Each step takes
one merge key out of the graph, so there are at most as many steps, one inside of the other, as there are keys. -/
def mergedBehind? : Nat → Graph → Nat → List (Nat × Nat) → Option Graph
  | 0, _, _, _ => none
  | fuel + 1, g, id, done => do
    let entries ← g.entries? id
    match entries.dropWhile fun e => !g.hasTag .merge e.1 with
    | [] => some ((g.withEntries id (done ++ entries)).withTextKeys entries)
    | (_, source) :: behind =>
      let front := entries.takeWhile fun e => !g.hasTag .merge e.1
      let (g, parts) ← (← g.mergeSources? source).foldlM (fun (acc : Graph × List (List (Nat × Nat))) part => do
        let g ← mergedBehind? fuel acc.1 part []
        some (g, (← g.entries? part) :: acc.2)) (g.withEntries id (front ++ behind), [])
      mergedBehind? fuel g id (done ++ parts.flatten)

/-- The number of entries of all mappings. -/
def entryCount (g : Graph) : Nat :=
  g.foldl (fun n node => match node.content with
    | .mapping entries => n + entries.length
    | _ => n) 0

/-- A graph in which a mapping has no merge keys. -/
def merged? (g : Graph) (id : Nat) : Option Graph := mergedBehind? (g.entryCount + 1) g id []

end DotGrid.Yaml.Graph
