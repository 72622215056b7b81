import DotGrid.Text.Surrogate
import DotGrid.Yaml.Scanner

/-!
# Scalars of a YAML stream

The text of a scalar by its style. Plain and quoted scalars fold a single line break to a space and keep the further
ones; a literal block keeps all breaks, and a folded one joins lines that are not indented any further. What follows
the last line of a block is kept, clipped or stripped as its header says.
-/

namespace DotGrid.Yaml.Scanner

/-- The text of a line break that is followed by others, when lines are folded. -/
def folded (first more : List Char) : List Char :=
  (if first ≠ ['\n'] then first else if more.isEmpty then [' '] else []) ++ more

/-- Tells a separator of documents of either kind at the place. -/
def atAnySeparator (s : Scanner) : Bool := s.atSeparator '-' || s.atSeparator '.'

/-! ## Plain scalars -/

/-- The length of the word of a plain scalar. -/
def plainLength (flow : Bool) : List Char → Nat
  | [] => 0
  | c :: cs =>
    let closes := match cs.head? with
      | some d => endsItem (some d) || (flow && (d = ',' || d = '[' || d = ']' || d = '\x7b' || d = '\x7d'))
      | none => true
    let indicator := c = ',' || c = '?' || c = '[' || c = ']' || c = '\x7b' || c = '\x7d'
    if endsItem (some c) || (c = ':' && closes) || (flow && indicator) then 0
    else plainLength flow cs + 1

/-- The breaks and spaces after a line of a plain scalar; nothing if a separator of documents follows. -/
def plainBreaks : Nat → List Char → Scanner → Option (List Char) × Scanner
  | 0, breaks, s => (some breaks, s)
  | fuel + 1, breaks, s =>
    match s.next with
    | some ' ' => plainBreaks fuel breaks s.step
    | some c =>
      if isBreak c then
        let (text, s) := s.lineBreak
        if s.atAnySeparator then (none, s) else plainBreaks fuel (breaks ++ text) s
      else (some breaks, s)
    | none => (some breaks, s)

/-- What stands between two words of a plain scalar; empty if the scalar ends. -/
def plainSpaces (s : Scanner) : List Char × Scanner :=
  let spaces := s.run (· = ' ')
  let s := s.skipSpaces
  if !(s.next.any isBreak) then (spaces, s)
  else
    let (text, s) := s.lineBreak
    let s := { s with keyAllowed := true }
    if s.atAnySeparator then ([], s)
    else match plainBreaks (s.rest.length + 1) [] s with
      | (some breaks, s) => (folded text breaks, s)
      | (none, s) => ([], s)

/-- The words of a plain scalar from the place on, after a text and the spaces behind it. -/
def plainWords (indent : Int) : Nat → List Char → List Char → Scanner → List Char × Scanner
  | 0, text, _, s => (text, s)
  | fuel + 1, text, spaces, s =>
    let length := plainLength (s.flow ≠ 0) s.rest
    if s.next = some '#' || length = 0 then (text, s)
    else
      let text := text ++ spaces ++ s.rest.take length
      let (spaces, s) := plainSpaces { s.advance length with keyAllowed := false }
      if spaces.isEmpty || s.next = some '#' || (s.flow = 0 && (s.column : Int) < indent) then (text, s)
      else plainWords indent fuel text spaces s

/-- The text of a plain scalar. -/
def plainScalar (s : Scanner) : List Char × Scanner :=
  plainWords (s.indent + 1) (s.rest.length + 1) [] [] s

/-! ## Quoted scalars -/

/-- The character that a letter stands for after a backslash. -/
def escape? (c : Char) : Option Char :=
  match c with
  | '0' => some '\x00'
  | 'a' => some '\x07'
  | 'b' => some '\x08'
  | 't' | '\t' => some '\t'
  | 'n' => some '\n'
  | 'v' => some '\x0b'
  | 'f' => some '\x0c'
  | 'r' => some '\r'
  | 'e' => some '\x1b'
  | ' ' => some ' '
  | '"' => some '"'
  | '\\' => some '\\'
  | '/' => some '/'
  | 'N' => some '\u0085'
  | '_' => some '\u00a0'
  | 'L' => some '\u2028'
  | 'P' => some '\u2029'
  | _ => none

/-- The number of hexadecimal digits after a letter that stands for a code point. -/
def escapeDigits? (c : Char) : Option Nat :=
  match c with
  | 'x' => some 2
  | 'u' => some 4
  | 'U' => some 8
  | _ => none

/-- The number that some hexadecimal digits denote, if there are as many as there have to be. -/
def hexadecimal? (length : Nat) (digits : List Char) : Option Nat :=
  if digits.length = length && digits.all fun c => (Text.valueIn? 16 c).isSome then some (Text.numeral 16 digits)
  else none

/-- The further breaks in a quoted scalar, with the spaces around them left out. -/
def quotedBreaks : Nat → List Char → Scanner → Option (List Char × Scanner)
  | 0, _, _ => none
  | fuel + 1, breaks, s =>
    if s.atAnySeparator then none
    else
      let s := s.skip fun c => c = ' ' || c = '\t'
      if s.next.any isBreak then
        let (text, s) := s.lineBreak
        quotedBreaks fuel (breaks ++ text) s
      else some (breaks, s)

/-- The text of a quoted scalar from the place on, up to its closing quote, after a text. -/
def quotedText (double : Bool) : Nat → List Char → Scanner → Option (List Char × Scanner)
  | 0, _, _ => none
  | fuel + 1, text, s => do
    let c ← s.next
    if !double && c = '\'' then
      if s.peek 1 = some '\'' then quotedText double fuel (text ++ ['\'']) (s.advance 2) else some (text, s.step)
    else if double && c = '"' then some (text, s.step)
    else if double && c = '\\' then
      let d ← s.peek 1
      match escape? d, escapeDigits? d with
      | some e, _ => quotedText double fuel (text ++ [e]) (s.advance 2)
      | none, some n =>
        let e ← (hexadecimal? n ((s.rest.drop 2).take n)).bind Text.ofCodePoint?
        quotedText double fuel (text ++ [e]) (s.advance (n + 2))
      | none, none =>
        if isBreak d then
          let (breaks, s) ← quotedBreaks (s.rest.length + 1) [] s.step.lineBreak.2
          quotedText double fuel (text ++ breaks) s
        else none
    else if c = ' ' || c = '\t' || isBreak c then
      let spaces := s.run fun c => c = ' ' || c = '\t'
      let s := s.advance spaces.length
      let d ← s.next
      if isBreak d then
        let (first, s) := s.lineBreak
        let (more, s) ← quotedBreaks (s.rest.length + 1) [] s
        quotedText double fuel (text ++ folded first more) s
      else quotedText double fuel (text ++ spaces) s
    else quotedText double fuel (text ++ [c]) s.step

/-- The text of the quoted scalar whose opening quote is next. -/
def quotedScalar (s : Scanner) (double : Bool) : Option (List Char × Scanner) :=
  quotedText double (s.rest.length + 1) [] s.step

/-! ## Block scalars -/

/-- What is done with the end of a block scalar. -/
inductive Chomping where
  | strip
  | clip
  | keep
deriving DecidableEq

/-- The chomping of an indicator. -/
def chomping? (c : Char) : Option Chomping :=
  if c = '+' then some .keep else if c = '-' then some .strip else none

/-- The chomping and the indentation of a block's header, in either order; an indentation of zero fails. -/
def blockHeader (s : Scanner) : Option (Chomping × Option Nat × Scanner) := do
  let chomp (s : Scanner) : Option Chomping := s.next.bind chomping?
  let digit (s : Scanner) : Option Nat := s.next.bind fun c => if Text.isDigit c then Text.valueIn? 10 c else none
  let (first, s) := match chomp s with
    | some c => (some c, s.step)
    | none => (none, s)
  let (increment, s) := match digit s with
    | some n => (some n, s.step)
    | none => (none, s)
  let (second, s) := match first, increment, chomp s with
    | none, some _, some c => (some c, s.step)
    | _, _, _ => (none, s)
  if increment = some 0 || !endsWord s.next then none
  else some ((first.orElse fun _ => second).getD .clip, increment, ← s.restOfLine)

/-- Moves to the first line of a block that is not empty; gives the breaks before it and the widest indentation. -/
def blockIndentation : Nat → List Char → Nat → Scanner → List Char × Nat × Scanner
  | 0, breaks, widest, s => (breaks, widest, s)
  | fuel + 1, breaks, widest, s =>
    if s.next = some ' ' then
      let s := s.step
      blockIndentation fuel breaks (max widest s.column) s
    else if s.next.any isBreak then
      let (text, s) := s.lineBreak
      blockIndentation fuel (breaks ++ text) widest s
    else (breaks, widest, s)

/-- Moves behind the spaces up to a column. -/
def skipTo (column : Nat) (s : Scanner) : Scanner :=
  s.advance (min (column - s.column) (s.run (· = ' ')).length)

/-- Moves to the next line of a block that is not empty; gives the breaks before it. -/
def blockBreaks (indent : Nat) : Nat → List Char → Scanner → List Char × Scanner
  | 0, breaks, s => (breaks, s)
  | fuel + 1, breaks, s =>
    let s := skipTo indent s
    if s.next.any isBreak then
      let (text, s) := s.lineBreak
      blockBreaks indent fuel (breaks ++ text) s
    else (breaks, s)

/-- The lines of a block from the place on, after a text; gives also the last break and those behind it. -/
def blockLines (fold : Bool) (indent : Nat) :
    Nat → List Char → List Char → Scanner → List Char × List Char × List Char × Scanner
  | 0, text, breaks, s => (text, [], breaks, s)
  | fuel + 1, text, breaks, s =>
    if s.column ≠ indent || s.next.isNone then (text, [], breaks, s)
    else
      let indented (s : Scanner) : Bool := s.next = some ' ' || s.next = some '\t'
      let line := s.run (!isBreak ·)
      let (last, after) := (s.advance line.length).lineBreak
      let (more, after) := blockBreaks indent (after.rest.length + 1) [] after
      let text := text ++ breaks ++ line
      if after.column = indent && after.next.isSome then
        let joined :=
          if fold && last = ['\n'] && !indented s && !indented after then (if more.isEmpty then [' '] else [])
          else last
        blockLines fold indent fuel (text ++ joined) more after
      else (text, last, more, after)

/-- The text of the block scalar whose indicator is next. -/
def blockScalar (s : Scanner) (fold : Bool) : Option (List Char × Scanner) := do
  let (chomping, increment, s) ← s.step.blockHeader
  let least := max 1 (s.indent + 1).toNat
  let fuel := s.rest.length + 1
  let (breaks, indent, s) := match increment with
    | some n =>
      let (breaks, s) := blockBreaks (least + n - 1) fuel [] s
      (breaks, least + n - 1, s)
    | none =>
      let (breaks, widest, s) := blockIndentation fuel [] 0 s
      (breaks, max least widest, s)
  let (text, last, more, s) := blockLines fold indent fuel [] breaks s
  some (text ++ (if chomping = .strip then [] else last) ++ (if chomping = .keep then more else []), s)

end DotGrid.Yaml.Scanner
