import DotGrid.Yaml.Merge
import DotGrid.Yaml.Value

/-!
# The data of a YAML document

`load? text` gives the nodes of a stream that holds one document with what they stand for (`Loaded`). It is nothing if
the stream is malformed, has a second document or a tag of an unknown type, or if a key of a mapping is a collection.
The nodes that are inside of a collection get their data only after the nodes that were met before them, in the order
in which they are met, because merge keys change mappings on the way.

A collection may be inside of itself, and of many others; a datum is cut off at a depth (`Loaded.datum`). How deep a
collection really is shows when it is copied (`Loaded.copyDepth`): a copy goes into each collection once, where it meets
it first.
-/

namespace DotGrid.Yaml

/-- What a node stands for: a plain datum, or a collection of what other nodes stand for. -/
inductive Meaning where
  | plain (d : Datum)
  | list (items : List Nat)
  | pairs (items : List (Nat × Nat))
  | mapping (entries : List (Nat × Nat))
  | set (members : List Nat)

/-- The nodes of a document with their meanings as far as they are known, and the collections whose members are still
to be looked at. -/
structure Builder where
  graph : Graph
  meanings : Array (Option Meaning)
  waiting : List Nat := []

namespace Builder

/-! ## Scalars -/

/-- The text of a scalar. That of a mapping is the one under its key for a value. -/
def scalarText? (g : Graph) : Nat → Nat → Option String
  | 0, _ => none
  | fuel + 1, id =>
    match g[id]? with
    | some ⟨_, .scalar text⟩ => some text
    | some ⟨_, .mapping entries⟩ => (entries.find? (g.hasTag .value ·.1)).bind fun e => scalarText? g fuel e.2
    | _ => none

/-- The text that gives a scalar with a tag its datum. A date has to be written as a scalar. -/
def textFor? (b : Builder) (tag : Tag) (id : Nat) : Option String :=
  match tag, b.graph[id]? with
  | .date, some ⟨_, .mapping _⟩ => none
  | _, _ => scalarText? b.graph (b.graph.size + 1) id

/-- The meaning that a node begins with; a collection is empty at first. -/
def firstMeaning? (b : Builder) (id : Nat) : Option Meaning := do
  match (← b.graph[id]?).tag with
  | .sequence => some (.list [])
  | .pairs | .orderedPairs => some (.pairs [])
  | .mapping => some (.mapping [])
  | .set => some (.set [])
  | tag => (tag.datum? (← b.textFor? tag id)).map .plain

/-- Looks at a node for the first time, or once more. -/
def visit (b : Builder) (id : Nat) : Option Builder :=
  match b.meanings[id]? with
  | some none => do
    let meaning ← b.firstMeaning? id
    let waiting := match meaning with
      | .plain _ => b.waiting
      | _ => b.waiting ++ [id]
    some { b with meanings := b.meanings.set! id (some meaning), waiting := waiting }
  | some (some _) => some b
  | none => none

/-! ## Keys -/

/-- The plain datum of a node. -/
def plain? (b : Builder) (id : Nat) : Option Datum :=
  match b.meanings[id]? with
  | some (some (.plain d)) => some d
  | _ => none

/-- Tells a node that is written as the word for NaN. -/
def isNanConstant (b : Builder) (id : Nat) : Bool :=
  (scalarText? b.graph (b.graph.size + 1) id).any isNanWord

/-- Tells nodes that are the same key. A NaN is the same only as itself, but the word for it is always the same one. -/
def isSameKey (b : Builder) (k l : Nat) : Bool :=
  k = l || match b.plain? k, b.plain? l with
    | some (.real .nan), some (.real .nan) => b.isNanConstant k && b.isNanConstant l
    | some d, some e => d.sameKey e
    | _, _ => false

/-- Sets the value of a key: in its place if there is one, else at the end. -/
def withEntry (b : Builder) (key value : Nat) : List (Nat × Nat) → List (Nat × Nat)
  | [] => [(key, value)]
  | (k, v) :: es => if b.isSameKey k key then (k, value) :: es else (k, v) :: b.withEntry key value es

/-! ## Collections -/

/-- Looks at the entries of a mapping one after the other; a later value of a key replaces an earlier one. -/
def visitEntries (b : Builder) (done : List (Nat × Nat)) :
    List (Nat × Nat) → Option (Builder × List (Nat × Nat))
  | [] => some (b, done)
  | (key, value) :: es => do
    let b ← b.visit key
    if (b.plain? key).isNone then none
    else do
      let b ← b.visit value
      b.visitEntries (b.withEntry key value done) es

/-- Looks at the pairs of a list of mappings of one entry. -/
def visitPairs (b : Builder) : List Nat → Option (Builder × List (Nat × Nat))
  | [] => some (b, [])
  | id :: ids => do
    match ← b.graph.entries? id with
    | [(key, value)] => do
      let b ← (← b.visit key).visit value
      let (b, pairs) ← b.visitPairs ids
      some (b, (key, value) :: pairs)
    | _ => none

/-- The items of a node, if it is a sequence. -/
def items? (b : Builder) (id : Nat) : Option (List Nat) :=
  match b.graph[id]? with
  | some ⟨_, .sequence items⟩ => some items
  | _ => none

/-- The entries of a mapping after its merge keys are resolved. -/
def mergedEntries? (b : Builder) (id : Nat) : Option (Builder × List (Nat × Nat)) := do
  let b := { b with graph := ← b.graph.merged? id }
  b.visitEntries [] (← b.graph.entries? id)

/-- A builder in which a node has a meaning. -/
def withMeaning (b : Builder) (id : Nat) (m : Meaning) : Builder :=
  { b with meanings := b.meanings.set! id (some m) }

/-- Looks at the members of a collection. -/
def open? (b : Builder) (id : Nat) : Option Builder := do
  match (← b.graph[id]?).tag with
  | .sequence => do
    let items ← b.items? id
    some ((← items.foldlM visit b).withMeaning id (.list items))
  | .pairs | .orderedPairs => do
    let (b, pairs) ← b.visitPairs (← b.items? id)
    some (b.withMeaning id (.pairs pairs))
  | .set => do
    let (b, entries) ← b.mergedEntries? id
    some (b.withMeaning id (.set (entries.map (·.1))))
  | _ => do
    let (b, entries) ← b.mergedEntries? id
    some (b.withMeaning id (.mapping entries))

/-- Looks at the members of all collections that wait, for at most a number of them. -/
def openAll? : Nat → Builder → Option Builder
  | 0, b => if b.waiting.isEmpty then some b else none
  | n + 1, b =>
    match b.waiting with
    | [] => some b
    | id :: rest => ({ b with waiting := rest }.open? id).bind (openAll? n)

/-! ## Data -/

/-- The datum of a node, in which collections below a depth are empty. -/
def datum (b : Builder) : Nat → Nat → Datum
  | depth, id =>
    match b.meanings[id]?.join, depth with
    | none, _ => .null
    | some (.plain d), _ => d
    | some (.list _), 0 | some (.pairs _), 0 => .list []
    | some (.mapping _), 0 => .mapping []
    | some (.set _), 0 => .set []
    | some (.list items), n + 1 => .list (items.map (b.datum n))
    | some (.pairs items), n + 1 => .list (items.map fun p => .list [b.datum n p.1, b.datum n p.2])
    | some (.mapping entries), n + 1 => .mapping (entries.map fun e => (b.datum n e.1, b.datum n e.2))
    | some (.set members), n + 1 => .set (members.map (b.datum n))

/-! ## Copies -/

/-- What a copy of a node goes into, with the number of calls that it takes to get there. -/
def parts (b : Builder) (id : Nat) : List (Nat × Nat) :=
  match b.meanings[id]?.join with
  | some (.list items) | some (.set items) => items.map fun item => (2, item)
  | some (.pairs items) => items.flatMap fun p => [(5, p.1), (5, p.2)]
  | some (.mapping entries) => entries.map fun e => (2, e.2)
  | some (.plain _) | none => []

/-- The number of calls, one inside of the other, that a copy of a node takes if some nodes have been copied before, and
the nodes that have been copied after it. -/
def copied (b : Builder) : Nat → Array Bool → Nat → Nat × Array Bool
  | 0, done, _ => (0, done)
  | fuel + 1, done, id =>
    if done[id]?.getD true then (0, done)
    else
      (b.parts id).foldl (fun acc part =>
        let (calls, done) := b.copied fuel acc.2 part.2
        (max acc.1 (part.1 + calls), done)) (0, done.set! id true)

/-- The nodes of a document with the meanings of all that can be reached from its root. -/
def ofDocument? (d : Document) : Option Builder := do
  let b : Builder := { graph := d.graph, meanings := Array.replicate d.graph.size none }
  openAll? d.graph.size (← b.visit d.root)

end Builder

/-- A document with the meanings of its nodes, and the number of the node that all others are inside of. -/
structure Loaded where
  builder : Builder
  root : Nat

namespace Loaded

/-- The datum of a document, in which collections below a depth are empty. -/
def datum (l : Loaded) (depth : Nat) : Datum := l.builder.datum depth l.root

/-- The entries of a node that is a mapping, in its order. -/
def entries (l : Loaded) (id : Nat) : List (Datum × Nat) :=
  match l.builder.meanings[id]?.join with
  | some (.mapping entries) => entries.filterMap fun e => (l.builder.plain? e.1).map fun key => (key, e.2)
  | _ => []

/-- The number of calls, one inside of the other, that a copy of a node takes. -/
def copyDepth (l : Loaded) (id : Nat) : Nat :=
  let size := l.builder.meanings.size
  (l.builder.copied (size + 1) (Array.replicate size false) id).1

end Loaded

/-- The one document of a stream, or nothing inside for an empty stream. -/
def load? (text : String) : Option (Option Loaded) := do
  match ← Document.ofTokens? (← tokens? text) with
  | none => some none
  | some document => do some (some ⟨← Builder.ofDocument? document, document.root⟩)

end DotGrid.Yaml
