import DotGrid.Text.Digit

/-!
# The scanner of a YAML stream

A `Scanner` is a place in the text of a stream together with what the place means: the column, the indentation of the
block collections around it, the number of flow collections around it, and where a key may have begun whose colon is
still to come. All moves go through `advance`, which keeps the line and the column. A scan that fails is `none`.
-/

namespace DotGrid.Yaml

/-- A token of a stream. -/
inductive Token where
  | directive (name : String) (value : Option (String × String))
  | documentStart
  | documentEnd
  | blockSequenceStart
  | blockMappingStart
  | blockEnd
  | flowSequenceStart
  | flowSequenceEnd
  | flowMappingStart
  | flowMappingEnd
  | blockEntry
  | flowEntry
  | key
  | value
  | alias (name : String)
  | anchor (name : String)
  | tag (handle : Option String) (suffix : String)
  | scalar (text : String) (plain : Bool)
deriving DecidableEq

/-- A place where a key may have begun: before which token, and whether it has to be a key. -/
structure PossibleKey where
  flow : Nat
  tokenIndex : Nat
  required : Bool
  index : Nat
  line : Nat
  column : Nat

/-- A place in a stream. -/
structure Scanner where
  rest : List Char
  index : Nat := 0
  line : Nat := 0
  column : Nat := 0
  flow : Nat := 0
  indent : Int := -1
  indents : List Int := []
  keyAllowed : Bool := true
  keys : List PossibleKey := []
  tokens : List Token := []
  finished : Bool := false

/-- Tells a line break. -/
def isBreak (c : Char) : Bool :=
  c = '\n' || c = '\r' || c.toNat = 0x85 || c.toNat = 0x2028 || c.toNat = 0x2029

/-- Tells a character that a stream may hold. -/
def isAllowed (c : Char) : Bool :=
  let n := c.toNat
  n = 0x9 || n = 0xa || n = 0xd || n = 0x85 || (0x20 ≤ n && n ≤ 0x7e) || (0xa0 ≤ n && n ≤ 0xfffd) ||
    0x10000 ≤ n

/-- Tells the end of the stream or a line break. -/
def endsLine : Option Char → Bool
  | none => true
  | some c => isBreak c

/-- Tells the end of the stream, a line break or a space. -/
def endsWord : Option Char → Bool
  | none => true
  | some c => isBreak c || c = ' '

/-- Tells the end of the stream, a line break, a space or a tab. -/
def endsItem : Option Char → Bool
  | none => true
  | some c => isBreak c || c = ' ' || c = '\t'

/-- Tells a character of an anchor's name, of a directive's name and of a tag's handle. -/
def isWordChar (c : Char) : Bool :=
  Text.isDigit c || ('A' ≤ c && c ≤ 'Z') || ('a' ≤ c && c ≤ 'z') || c = '-' || c = '_'

namespace Scanner

/-- The character at a distance from the place. -/
def peek (s : Scanner) (k : Nat) : Option Char := s.rest[k]?

/-- The next character. -/
def next (s : Scanner) : Option Char := s.rest.head?

/-- Moves behind one character. -/
def step (s : Scanner) : Scanner :=
  match s.rest with
  | [] => s
  | c :: cs =>
    if isBreak c && !(c = '\r' && cs.head? = some '\n') then
      { s with rest := cs, index := s.index + 1, line := s.line + 1, column := 0 }
    else
      { s with rest := cs, index := s.index + 1, column := if c.toNat = 0xfeff then s.column else s.column + 1 }

/-- Moves behind a number of characters. -/
def advance (s : Scanner) : Nat → Scanner
  | 0 => s
  | n + 1 => s.step.advance n

/-- The characters before the first one that fails a test. -/
def run (s : Scanner) (p : Char → Bool) : List Char := s.rest.takeWhile p

/-- Moves to the first character that fails a test. -/
def skip (s : Scanner) (p : Char → Bool) : Scanner := s.advance (s.run p).length

/-- Moves behind the spaces at the place. -/
def skipSpaces (s : Scanner) : Scanner := s.skip (· = ' ')

/-- Moves behind a line break, if there is one, and gives its normal form. -/
def lineBreak (s : Scanner) : List Char × Scanner :=
  match s.rest with
  | '\r' :: '\n' :: _ => (['\n'], s.advance 2)
  | c :: _ =>
    if isBreak c then ([if c.toNat < 0x100 then '\n' else c], s.step) else ([], s)
  | [] => ([], s)

/-- Moves to the end of a line if nothing but spaces and a comment is left on it, and behind its break. -/
def restOfLine (s : Scanner) : Option Scanner :=
  let s := s.skipSpaces
  let s := if s.next = some '#' then s.skip (!isBreak ·) else s
  if endsLine s.next then some s.lineBreak.2 else none

/-- Tells a mark of three characters, alone at the place, that separates documents. -/
def atSeparator (s : Scanner) (c : Char) : Bool :=
  s.rest.take 3 = [c, c, c] && endsItem (s.peek 3)

/-- Adds a token. -/
def push (s : Scanner) (t : Token) : Scanner := { s with tokens := s.tokens ++ [t] }

/-- Closes the block collections that are indented by more than a column; in flow collections there are none. -/
def unwind (s : Scanner) (column : Int) : Scanner :=
  if s.flow ≠ 0 then s else close s s.indents
where
  /-- Closes block collections, given the indentations around them. -/
  close (s : Scanner) : List Int → Scanner
    | [] => s
    | outer :: indents =>
      if column < s.indent then
        close { s with indent := outer, indents := indents, tokens := s.tokens ++ [.blockEnd] } indents
      else s

/-- Opens a block collection at a column, if it is indented by more than the one around it. -/
def addIndent (s : Scanner) (column : Nat) : Option Scanner :=
  if s.indent < column then some { s with indent := column, indents := s.indent :: s.indents } else none

/-- Forgets the places of keys on earlier lines or too far back; fails if one had to be a key. -/
def dropStaleKeys (s : Scanner) : Option Scanner :=
  let stale (k : PossibleKey) : Bool := k.line ≠ s.line || 1024 < s.index - k.index
  if s.keys.any fun k => stale k && k.required then none
  else some { s with keys := s.keys.filter (!stale ·) }

/-- Forgets the place of a key among the current flow collections; fails if it had to be a key. -/
def dropKey (s : Scanner) : Option Scanner :=
  if s.keys.any fun k => k.flow = s.flow && k.required then none
  else some { s with keys := s.keys.filter (·.flow ≠ s.flow) }

/-- Notes that a key may begin here. -/
def saveKey (s : Scanner) : Option Scanner :=
  if s.keyAllowed then do
    let s ← s.dropKey
    let required := s.flow = 0 && s.indent = s.column
    some { s with keys := ⟨s.flow, s.tokens.length, required, s.index, s.line, s.column⟩ :: s.keys }
  else some s

end Scanner

end DotGrid.Yaml
