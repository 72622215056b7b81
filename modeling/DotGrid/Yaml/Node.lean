import DotGrid.Yaml.Plain
import DotGrid.Yaml.Token

/-!
# The nodes of a YAML document

`Document.ofTokens?` reads the tokens of a stream with one document as a graph of nodes, or with none as nothing. A node
has a tag, given or found from its text. An alias stands for the node of the same document that began before it and has
its anchor, so that a collection may be inside of itself.
-/

namespace DotGrid.Yaml

/-- What a node holds: a text, or other nodes by their numbers. -/
inductive Content where
  | scalar (text : String)
  | sequence (items : List Nat)
  | mapping (entries : List (Nat × Nat))

/-- A node of a document. -/
structure Node where
  tag : Tag
  content : Content

/-- The nodes of a document by their numbers. -/
abbrev Graph := Array Node

/-- The greatest number of collections that are one inside of the other. -/
def deepestNesting : Nat := 477

/-- What is left of the tokens, with the nodes that have begun, the number of collections around the place, and the
anchors and the handles of tags that are known. -/
structure Reader where
  tokens : List Token
  nodes : Graph := #[]
  depth : Nat := 0
  anchors : List (String × Nat) := []
  handles : List (String × String) := [("!", "!"), ("!!", commonTag)]

namespace Reader

/-- The next token. -/
def next (r : Reader) : Option Token := r.tokens.head?

/-- Tells whether the next token is one of some tokens. -/
def isAt (r : Reader) (ts : List Token) : Bool := r.next.any ts.contains

/-- Moves behind the next token. -/
def drop (r : Reader) : Reader := { r with tokens := r.tokens.tail }

/-- Takes one given token. -/
def take? (r : Reader) (t : Token) : Option Reader := if r.next = some t then some r.drop else none

/-- The name of a tag with a handle that is known, or of one without a handle. -/
def tagName? (r : Reader) (handle : Option String) (suffix : String) : Option String :=
  match handle with
  | none => some suffix
  | some h => (r.handles.find? (·.1 = h)).map (·.2 ++ suffix)

/-- The anchor and the tag before a node, in either order. -/
def properties (r : Reader) : Option (Option String × Option String × Reader) :=
  match r.tokens with
  | .anchor a :: .tag h s :: rest => do some (some a, some (← r.tagName? h s), { r with tokens := rest })
  | .anchor a :: rest => some (some a, none, { r with tokens := rest })
  | .tag h s :: .anchor a :: rest => do some (some a, some (← r.tagName? h s), { r with tokens := rest })
  | .tag h s :: rest => do some (none, some (← r.tagName? h s), { r with tokens := rest })
  | _ => some (none, none, r)

/-- Adds a node and notes its anchor. -/
def add (r : Reader) (anchor : Option String) (tag : Tag) (content : Content) : Nat × Reader :=
  let id := r.nodes.size
  (id, { r with
    nodes := r.nodes.push ⟨tag, content⟩
    anchors := (anchor.map fun a => (a, id)).toList ++ r.anchors })

/-- Adds the node of an empty place. -/
def addEmpty (r : Reader) : Nat × Reader := r.add none .null (.scalar "")

/-- Adds a collection that is still to be read, if it is not too deep inside of others. -/
def enter (r : Reader) (anchor : Option String) (tag : Tag) : Option (Nat × Reader) :=
  if deepestNesting ≤ r.depth then none
  else some ({ r with depth := r.depth + 1 }.add anchor tag (.sequence []))

/-- Gives a collection its content. -/
def leave (r : Reader) (id : Nat) (content : Content) : Nat × Reader :=
  (id, { r with
    nodes := r.nodes.modify id ({ · with content := content })
    depth := r.depth - 1 })

/-- Adds a mapping of one entry. -/
def addPair (r : Reader) (key value : Nat) : Nat × Reader := r.add none .mapping (.mapping [(key, value)])

end Reader

/-- The tag of a scalar: a lone exclamation mark asks for that of its text, and quotes make it a text. -/
def scalarTag (tag : Option String) (text : String) (plain : Bool) : Tag :=
  match tag with
  | some "!" => .ofText text
  | some name => .ofName name
  | none => if plain then .ofText text else .text

/-- The tag of a collection, or its own one if none is given. -/
def collectionTag (tag : Option String) (own : Tag) : Tag :=
  match tag with
  | some "!" | none => own
  | some name => .ofName name

/-- Where a node stands: which collections it may be. -/
inductive Place where
  | flow
  | block
  | blockOrEntries
deriving DecidableEq

mutual

/-- Reads a node. -/
def node : Nat → Place → Reader → Option (Nat × Reader)
  | 0, _, _ => none
  | n + 1, place, r =>
    match r.next with
    | some (.alias a) => (r.anchors.find? (·.1 = a)).map fun known => (known.2, r.drop)
    | _ => do
      let (anchor, tag, r) ← r.properties
      if anchor.any fun a => r.anchors.any (·.1 = a) then none
      else if place = .blockOrEntries ∧ r.next = some .blockEntry then do
        let (id, r) ← r.enter anchor (collectionTag tag .sequence)
        let (items, r) ← entries n [] r
        some (r.leave id (.sequence items))
      else match r.next with
        | some (.scalar text plain) => some (r.drop.add anchor (scalarTag tag text plain) (.scalar text))
        | some .flowSequenceStart => do
          let (id, r) ← r.drop.enter anchor (collectionTag tag .sequence)
          let (items, r) ← flowItems n true [] r
          some (r.leave id (.sequence items))
        | some .flowMappingStart => do
          let (id, r) ← r.drop.enter anchor (collectionTag tag .mapping)
          let (es, r) ← flowEntries n true [] r
          some (r.leave id (.mapping es))
        | some .blockSequenceStart =>
          if place = .flow then none
          else do
            let (id, r) ← r.drop.enter anchor (collectionTag tag .sequence)
            let (items, r) ← blockItems n [] r
            some (r.leave id (.sequence items))
        | some .blockMappingStart =>
          if place = .flow then none
          else do
            let (id, r) ← r.drop.enter anchor (collectionTag tag .mapping)
            let (es, r) ← blockEntries n [] r
            some (r.leave id (.mapping es))
        | _ =>
          if anchor.isSome || tag.isSome then some (r.add anchor (scalarTag tag "" true) (.scalar ""))
          else none

/-- Reads a node, or an empty one if one of some tokens is next. -/
def nodeUnless : Nat → Place → List Token → Reader → Option (Nat × Reader)
  | 0, _, _, _ => none
  | n + 1, place, ts, r => if r.isAt ts then some r.addEmpty else node n place r

/-- Reads the entries of a sequence that is not indented. -/
def entries : Nat → List Nat → Reader → Option (List Nat × Reader)
  | 0, _, _ => none
  | n + 1, items, r =>
    match r.take? .blockEntry with
    | some r => do
      let (item, r) ← nodeUnless n .block [.blockEntry, .key, .value, .blockEnd] r
      entries n (item :: items) r
    | none => some (items.reverse, r)

/-- Reads the entries of an indented sequence. -/
def blockItems : Nat → List Nat → Reader → Option (List Nat × Reader)
  | 0, _, _ => none
  | n + 1, items, r =>
    match r.take? .blockEntry with
    | some r => do
      let (item, r) ← nodeUnless n .block [.blockEntry, .blockEnd] r
      blockItems n (item :: items) r
    | none => (r.take? .blockEnd).map fun r => (items.reverse, r)

/-- Reads the value of an entry of an indented mapping; without a colon it is empty. -/
def blockValue : Nat → Reader → Option (Nat × Reader)
  | 0, _ => none
  | n + 1, r =>
    match r.take? .value with
    | some r => nodeUnless n .blockOrEntries [.key, .value, .blockEnd] r
    | none => some r.addEmpty

/-- Reads the entries of an indented mapping. -/
def blockEntries : Nat → List (Nat × Nat) → Reader → Option (List (Nat × Nat) × Reader)
  | 0, _, _ => none
  | n + 1, es, r =>
    match r.take? .key with
    | some r => do
      let (key, r) ← nodeUnless n .blockOrEntries [.key, .value, .blockEnd] r
      let (value, r) ← blockValue n r
      blockEntries n ((key, value) :: es) r
    | none => (r.take? .blockEnd).map fun r => (es.reverse, r)

/-- Reads a key and a value in a flow collection that a token ends; without a colon the value is empty. -/
def flowPair : Nat → Token → Reader → Option ((Nat × Nat) × Reader)
  | 0, _, _ => none
  | n + 1, stop, r => do
    let (key, r) ← nodeUnless n .flow [.value, .flowEntry, stop] r
    match r.take? .value with
    | some r => do
      let (value, r) ← nodeUnless n .flow [.flowEntry, stop] r
      some ((key, value), r)
    | none =>
      let (value, r) := r.addEmpty
      some ((key, value), r)

/-- Reads the items of a flow sequence; one with a key is a mapping of a single entry. -/
def flowItems : Nat → Bool → List Nat → Reader → Option (List Nat × Reader)
  | 0, _, _, _ => none
  | n + 1, first, items, r =>
    match r.take? .flowSequenceEnd with
    | some r => some (items.reverse, r)
    | none => do
      let r ← if first then some r else r.take? .flowEntry
      match r.take? .key with
      | some r => do
        let ((key, value), r) ← flowPair n .flowSequenceEnd r
        let (item, r) := r.addPair key value
        flowItems n false (item :: items) r
      | none =>
        match r.take? .flowSequenceEnd with
        | some r => some (items.reverse, r)
        | none => do
          let (item, r) ← node n .flow r
          flowItems n false (item :: items) r

/-- Reads the entries of a flow mapping; an entry without a colon has an empty value. -/
def flowEntries : Nat → Bool → List (Nat × Nat) → Reader → Option (List (Nat × Nat) × Reader)
  | 0, _, _, _ => none
  | n + 1, first, es, r =>
    match r.take? .flowMappingEnd with
    | some r => some (es.reverse, r)
    | none => do
      let r ← if first then some r else r.take? .flowEntry
      match r.take? .key with
      | some r => do
        let (pair, r) ← flowPair n .flowMappingEnd r
        flowEntries n false (pair :: es) r
      | none =>
        match r.take? .flowMappingEnd with
        | some r => some (es.reverse, r)
        | none => do
          let (key, r) ← node n .flow r
          let (value, r) := r.addEmpty
          flowEntries n false ((key, value) :: es) r

end

/-- Notes the directives before a document; fails at a second one of a kind and at another version than one. -/
def directives : Nat → Bool → List (String × String) → Reader → Option (List (String × String) × Reader)
  | 0, _, _, _ => none
  | n + 1, versioned, handles, r =>
    match r.next with
    | some (.directive "YAML" (some (major, _))) =>
      if versioned || Text.numeral 10 major.toList ≠ 1 then none else directives n true handles r.drop
    | some (.directive "TAG" (some (handle, start))) =>
      if handles.any (·.1 = handle) then none else directives n versioned ((handle, start) :: handles) r.drop
    | some (.directive _ _) => directives n versioned handles r.drop
    | _ => some (handles, r)

/-- Moves behind the marks of the end of a document. -/
def skipEnds : List Token → List Token
  | .documentEnd :: ts => skipEnds ts
  | ts => ts

/-- Tells that nothing but ends of documents is left. -/
def onlyEnds (r : Reader) : Bool := (skipEnds r.tokens).isEmpty

/-- A document: its nodes, and the number of the one that all others are inside of. -/
structure Document where
  graph : Graph
  root : Nat

/-- The document of a node that is read, if nothing but ends of documents follows. -/
def lastDocument (root : Nat) (r : Reader) : Option (Option Document) :=
  if onlyEnds r then some (some ⟨r.nodes, root⟩) else none

/-- The document behind a mark of its start. -/
def explicitDocument (fuel : Nat) (r : Reader) : Option (Option Document) := do
  let r := { r with tokens := skipEnds r.tokens }
  if r.tokens.isEmpty then some none
  else do
    let (handles, r) ← directives fuel false [] r
    let r ← r.take? .documentStart
    let r := { r with handles := handles ++ r.handles }
    let isDirective := match r.next with
      | some (.directive _ _) => true
      | _ => false
    if r.tokens.isEmpty || isDirective || r.isAt [.documentStart, .documentEnd] then
      let (root, r) := r.addEmpty
      lastDocument root r
    else do
      let (root, r) ← node fuel .block r
      lastDocument root r

/-- The document of a stream, if there is one; fails if there are more. -/
def Document.ofTokens? (ts : List Token) : Option (Option Document) :=
  let fuel := 4 * ts.length + 8
  match ts with
  | [] => some none
  | .directive _ _ :: _ | .documentStart :: _ => explicitDocument fuel { tokens := ts }
  | _ => do
    let (root, r) ← node fuel .block { tokens := ts }
    lastDocument root r

end DotGrid.Yaml
