import DotGrid.Yaml.Scalar

/-!
# The tokens of a YAML stream

`tokens? text` gives the tokens of a stream, or nothing if it is malformed. Indentation shows in the tokens as the
start and the end of block collections, and a key as a token before the first token of its text, which is put there
when the colon behind it is met.
-/

namespace DotGrid.Yaml.Scanner

/-! ## Tags, anchors and directives -/

/-- Tells a character of the rest of a tag. -/
def isUriChar (c : Char) : Bool :=
  isWordChar c || "-;/?:@&=+$,_.!~*'()[]".toList.contains c

/-- The bytes whose codes of two hexadecimal digits behind percent signs are next. -/
def uriBytes : Nat → Scanner → Option (List UInt8 × Scanner)
  | 0, s => some ([], s)
  | fuel + 1, s =>
    if s.next = some '%' then do
      let byte ← hexadecimal? 2 ((s.rest.drop 1).take 2)
      let (bytes, s) ← uriBytes fuel (s.advance 3)
      some (.ofNat byte :: bytes, s)
    else some ([], s)

/-- The rest of a tag, in which codes of bytes stand for characters. -/
def uri : Nat → List Char → Scanner → Option (List Char × Scanner)
  | 0, _, _ => none
  | fuel + 1, text, s =>
    match s.next with
    | some '%' => do
      let (bytes, s) ← uriBytes fuel s
      uri fuel (text ++ (← String.fromUTF8? ⟨bytes.toArray⟩).toList) s
    | some c =>
      if isUriChar c then uri fuel (text ++ [c]) s.step
      else if text.isEmpty then none
      else some (text, s)
    | none => if text.isEmpty then none else some (text, s)

/-- The rest of a tag. -/
def tagSuffix (s : Scanner) : Option (List Char × Scanner) := uri (s.rest.length + 1) [] s

/-- The handle of a tag: an exclamation mark, or two with a word between them. -/
def tagHandle (s : Scanner) : Option (List Char × Scanner) :=
  match s.rest with
  | '!' :: cs =>
    if cs.head? = some ' ' then some (['!'], s.step)
    else
      let word := cs.takeWhile isWordChar
      if cs[word.length]? = some '!' then some ('!' :: (word ++ ['!']), s.advance (word.length + 2)) else none
  | _ => none

/-- The tag that is next. -/
def fetchTag (s : Scanner) : Option Scanner := do
  let s ← s.saveKey
  let s := { s with keyAllowed := false }
  let (handle, suffix, s) ←
    match s.peek 1 with
    | some '<' => do
      let (suffix, s) ← (s.advance 2).tagSuffix
      if s.next = some '>' then some (none, suffix, s.step) else none
    | d =>
      if endsItem d then some (none, ['!'], s.step)
      else if ((s.rest.drop 1).takeWhile fun c => !endsWord (some c)).contains '!' then do
        let (handle, s) ← s.tagHandle
        let (suffix, s) ← s.tagSuffix
        some (some (String.ofList handle), suffix, s)
      else do
        let (suffix, s) ← s.step.tagSuffix
        some (some "!", suffix, s)
  if endsWord s.next then some (s.push (.tag handle (String.ofList suffix))) else none

/-- The anchor or alias that is next. -/
def fetchAnchor (s : Scanner) (token : String → Token) : Option Scanner := do
  let s ← s.saveKey
  let s := { s with keyAllowed := false }.step
  let name := s.run isWordChar
  let s := s.advance name.length
  if !name.isEmpty && (endsItem s.next || (s.next.any fun c => "?:,]\x7d%@\x60".toList.contains c)) then
    some (s.push (token (String.ofList name)))
  else none

/-- The digits of a version number, of which there is at least one. -/
def versionPart (s : Scanner) : Option (String × Scanner) :=
  let digits := s.run Text.isDigit
  if digits.isEmpty then none else some (String.ofList digits, s.advance digits.length)

/-- The two values of a directive that has them. -/
def directiveValue (name : String) (s : Scanner) : Option (Option (String × String) × Scanner) :=
  if name = "YAML" then do
    let (major, s) ← s.skipSpaces.versionPart
    if s.next ≠ some '.' then none
    else do
      let (minor, s) ← s.step.versionPart
      if endsWord s.next then some (some (major, minor), s) else none
  else if name = "TAG" then do
    let (handle, s) ← s.skipSpaces.tagHandle
    if s.next ≠ some ' ' then none
    else do
      let (start, s) ← s.skipSpaces.tagSuffix
      if endsWord s.next then some (some (String.ofList handle, String.ofList start), s) else none
  else some (none, s.skip (!isBreak ·))

/-- The directive that is next. -/
def fetchDirective (s : Scanner) : Option Scanner := do
  let s ← (s.unwind (-1)).dropKey
  let s := { s with keyAllowed := false }.step
  let name := String.ofList (s.run isWordChar)
  let s := s.skip isWordChar
  if name.isEmpty || !endsWord s.next then none
  else do
    let (value, s) ← directiveValue name s
    let s ← s.restOfLine
    some (s.push (.directive name value))

/-! ## Structure -/

/-- The separator of documents that is next. -/
def fetchSeparator (s : Scanner) (token : Token) : Option Scanner := do
  let s ← (s.unwind (-1)).dropKey
  some (({ s with keyAllowed := false }.advance 3).push token)

/-- The end of the stream. -/
def fetchEnd (s : Scanner) : Option Scanner := do
  let s ← (s.unwind (-1)).dropKey
  some { s with keys := [], finished := true }

/-- The start of a flow collection, which may be a key. -/
def fetchFlowStart (s : Scanner) (token : Token) : Option Scanner := do
  let s ← s.saveKey
  some ({ s with flow := s.flow + 1, keyAllowed := true }.step.push token)

/-- The end of a flow collection. -/
def fetchFlowEnd (s : Scanner) (token : Token) : Option Scanner := do
  let s ← s.dropKey
  some ({ s with flow := s.flow - 1, keyAllowed := false }.step.push token)

/-- The comma between the entries of a flow collection. -/
def fetchFlowEntry (s : Scanner) : Option Scanner := do
  let s ← { s with keyAllowed := true }.dropKey
  some (s.step.push .flowEntry)

/-- Opens a block collection at the place, if there is none there. -/
def openAt (s : Scanner) (column : Nat) (token : Token) : Scanner :=
  match s.addIndent column with
  | some s => s.push token
  | none => s

/-- The dash of an entry of a sequence. -/
def fetchBlockEntry (s : Scanner) : Option Scanner := do
  if s.flow = 0 && !s.keyAllowed then none
  else do
    let s := if s.flow = 0 then s.openAt s.column .blockSequenceStart else s
    let s ← { s with keyAllowed := true }.dropKey
    some (s.step.push .blockEntry)

/-- The question mark of a key. -/
def fetchKey (s : Scanner) : Option Scanner := do
  if s.flow = 0 && !s.keyAllowed then none
  else do
    let s := if s.flow = 0 then s.openAt s.column .blockMappingStart else s
    let s ← { s with keyAllowed := s.flow = 0 }.dropKey
    some (s.step.push .key)

/-- Adds a token before one that is already there. -/
def insertAt (s : Scanner) (i : Nat) (t : Token) : Scanner := { s with tokens := s.tokens.insertIdx i t }

/-- The colon of a value; if a key may have begun before it, that was the key. -/
def fetchValue (s : Scanner) : Option Scanner :=
  match s.keys.find? (·.flow = s.flow) with
  | some k =>
    let s := { s with keys := s.keys.filter (·.flow ≠ s.flow), keyAllowed := false }
    let s := s.insertAt k.tokenIndex .key
    let s := match if s.flow = 0 then s.addIndent k.column else none with
      | some s => s.insertAt k.tokenIndex .blockMappingStart
      | none => s
    some (s.step.push .value)
  | none =>
    if s.flow = 0 && !s.keyAllowed then none
    else do
      let s := if s.flow = 0 then s.openAt s.column .blockMappingStart else s
      let s ← { s with keyAllowed := s.flow = 0 }.dropKey
      some (s.step.push .value)

/-! ## Scalars -/

/-- A block scalar. -/
def fetchBlock (s : Scanner) (fold : Bool) : Option Scanner := do
  let s ← { s with keyAllowed := true }.dropKey
  let (text, s) ← s.blockScalar fold
  some (s.push (.scalar (String.ofList text) false))

/-- A quoted scalar, which may be a key. -/
def fetchQuoted (s : Scanner) (double : Bool) : Option Scanner := do
  let s ← s.saveKey
  let (text, s) ← { s with keyAllowed := false }.quotedScalar double
  some (s.push (.scalar (String.ofList text) false))

/-- A plain scalar, which may be a key. -/
def fetchPlain (s : Scanner) : Option Scanner := do
  let s ← s.saveKey
  let (text, s) := { s with keyAllowed := false }.plainScalar
  some (s.push (.scalar (String.ofList text) true))

/-- Tells a character that a plain scalar can start with, by the one behind it. -/
def startsPlain (s : Scanner) (c : Char) : Bool :=
  !(endsItem (some c) || "-?:,[]\x7b\x7d#&*!|>'\"%@\x60".toList.contains c) ||
    (!endsItem (s.peek 1) && (c = '-' || (s.flow = 0 && (c = '?' || c = ':'))))

/-- Moves behind spaces, comments and line breaks. A line break outside of flow collections allows a key. -/
def toNextToken : Nat → Scanner → Scanner
  | 0, s => s
  | fuel + 1, s =>
    let s := s.skipSpaces
    let s := if s.next = some '#' then s.skip (!isBreak ·) else s
    if s.next.any isBreak then
      let s := s.lineBreak.2
      toNextToken fuel (if s.flow = 0 then { s with keyAllowed := true } else s)
    else s

/-- The next token or tokens. -/
def fetch (s : Scanner) : Option Scanner := do
  let s := if s.index = 0 && s.next.any (·.toNat = 0xfeff) then s.step else s
  let s ← (s.toNextToken (s.rest.length + 1)).dropStaleKeys
  let s := s.unwind s.column
  match s.next with
  | none => s.fetchEnd
  | some c =>
    let alone := endsItem (s.peek 1)
    if c = '%' && s.column = 0 then s.fetchDirective
    else if s.column = 0 && s.atSeparator '-' then s.fetchSeparator .documentStart
    else if s.column = 0 && s.atSeparator '.' then s.fetchSeparator .documentEnd
    else if c = '[' then s.fetchFlowStart .flowSequenceStart
    else if c = '\x7b' then s.fetchFlowStart .flowMappingStart
    else if c = ']' then s.fetchFlowEnd .flowSequenceEnd
    else if c = '\x7d' then s.fetchFlowEnd .flowMappingEnd
    else if c = ',' then s.fetchFlowEntry
    else if c = '-' && alone then s.fetchBlockEntry
    else if c = '?' && (s.flow ≠ 0 || alone) then s.fetchKey
    else if c = ':' && (s.flow ≠ 0 || alone) then s.fetchValue
    else if c = '*' then s.fetchAnchor .alias
    else if c = '&' then s.fetchAnchor .anchor
    else if c = '!' then s.fetchTag
    else if c = '|' && s.flow = 0 then s.fetchBlock false
    else if c = '>' && s.flow = 0 then s.fetchBlock true
    else if c = '\'' then s.fetchQuoted false
    else if c = '"' then s.fetchQuoted true
    else if s.startsPlain c then s.fetchPlain
    else none

/-- The tokens from a place on. -/
def fetchAll : Nat → Scanner → Option (List Token)
  | 0, _ => none
  | fuel + 1, s => if s.finished then some s.tokens else s.fetch.bind (fetchAll fuel)

end DotGrid.Yaml.Scanner

namespace DotGrid.Yaml

/-- The tokens of a stream. -/
def tokens? (text : String) : Option (List Token) :=
  let cs := text.toList
  if cs.all isAllowed then Scanner.fetchAll (cs.length + 3) { rest := cs } else none

end DotGrid.Yaml
