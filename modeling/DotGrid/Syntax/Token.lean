import DotGrid.Decimal.Numeral
import DotGrid.Decimal.Shortest
import DotGrid.Syntax.Symbol
import DotGrid.Text.Quoted

/-!
# Tokens

A source text is a sequence of lexemes with blanks between them. Four classes of lexemes are tried in this order:
hexadecimal numerals, decimal numerals, names and symbols; each function such as `decimalPrefix` gives the longest
lexeme of its class at the start of a text. `scan` gives the tokens of a text with their offsets, or the first
character at which no lexeme starts. The end of the text is not a token of its own: it is where the list ends.
-/

namespace DotGrid

/-- The content of a token: a literal with its value, a name or a symbol. -/
inductive Lexeme where
  | number (value : Double)
  | name (ident : String)
  | symbol (s : Symbol)
deriving DecidableEq

/-- A lexeme and the offset of its first character. -/
structure Token where
  lexeme : Lexeme
  position : Nat
deriving DecidableEq

/-- How a lexeme is shown in a message: a literal by its value, all else in quotes. -/
def Lexeme.shown : Lexeme → String
  | .number value => value.text
  | .name ident => Text.quoted ident
  | .symbol s => Text.quoted s.text

/-- Tells a character that a name can start with. -/
def isNameStart (c : Char) : Bool :=
  ('A' ≤ c && c ≤ 'Z') || ('a' ≤ c && c ≤ 'z') || c = '_' || c = '$'

/-- Tells a character that a name can go on with. -/
def isNamePart (c : Char) : Bool := isNameStart c || Text.isDigit c

/-- Tells a hexadecimal digit. -/
def isHexDigit (c : Char) : Bool := (Text.valueIn? 16 c).isSome

/-- The longest hexadecimal numeral at the start of a text; empty if there is none. -/
def hexPrefix : List Char → List Char
  | '0' :: x :: cs =>
    let digits := cs.takeWhile isHexDigit
    if (x = 'x' ∨ x = 'X') ∧ !digits.isEmpty then '0' :: x :: digits else []
  | _ => []

/-- The longest exponent at the start of a text: a mark, an optional sign and digits; empty if there is none. -/
def exponentPrefix : List Char → List Char
  | c :: cs =>
    let sign := match cs with
      | '+' :: _ => ['+']
      | '-' :: _ => ['-']
      | _ => []
    let digits := (cs.drop sign.length).takeWhile Text.isDigit
    if (c = 'e' ∨ c = 'E') ∧ !digits.isEmpty then c :: (sign ++ digits) else []
  | [] => []

/-- The longest decimal numeral without an exponent at the start of a text; empty if there is none. -/
def mantissaPrefix (cs : List Char) : List Char :=
  let whole := cs.takeWhile Text.isDigit
  match cs.dropWhile Text.isDigit with
  | '.' :: r =>
    let fraction := r.takeWhile Text.isDigit
    if whole.isEmpty && fraction.isEmpty then [] else whole ++ '.' :: fraction
  | _ => whole

/-- The longest decimal numeral at the start of a text; empty if there is none. -/
def decimalPrefix (cs : List Char) : List Char :=
  let mantissa := mantissaPrefix cs
  if mantissa.isEmpty then [] else mantissa ++ exponentPrefix (cs.drop mantissa.length)

/-- The longest name at the start of a text; empty if there is none. -/
def namePrefix : List Char → List Char
  | c :: cs => if isNameStart c then c :: cs.takeWhile isNamePart else []
  | [] => []

/-- The value of a hexadecimal numeral: the nearest double, infinite if there is no finite one. -/
def hexValue (cs : List Char) : Double := .ofInt (Text.numeral 16 (cs.drop 2))

/-- The value of a decimal numeral: the nearest double, infinite if there is no finite one. -/
def decimalValue (cs : List Char) : Double :=
  match Decimal.parse? cs with
  | some d => .ofDecimal false d
  | none => .nan

/-- The lexeme at the start of a text, with its characters. -/
def Lexeme.first? (cs : List Char) : Option (Lexeme × List Char) :=
  if !(hexPrefix cs).isEmpty then some (.number (hexValue (hexPrefix cs)), hexPrefix cs)
  else if !(decimalPrefix cs).isEmpty then some (.number (decimalValue (decimalPrefix cs)), decimalPrefix cs)
  else if !(namePrefix cs).isEmpty then some (.name (String.ofList (namePrefix cs)), namePrefix cs)
  else (Symbol.first? cs).map fun s => (.symbol s, s.chars)

/-- A character that starts no lexeme, and its offset. -/
structure Stray where
  char : Char
  position : Nat
deriving DecidableEq

/-- The tokens of a text whose first character has a given offset. -/
def scanFrom (position : Nat) : List Char → Except Stray (List Token)
  | [] => .ok []
  | c :: cs =>
    if Text.isBlank c then scanFrom (position + 1) cs
    else
      match Lexeme.first? (c :: cs) with
      | none => .error ⟨c, position⟩
      | some (lexeme, text) =>
        match scanFrom (position + text.length) (cs.drop (text.length - 1)) with
        | .ok tokens => .ok (⟨lexeme, position⟩ :: tokens)
        | .error stray => .error stray
termination_by cs => cs.length
decreasing_by
  · simp
  · simp only [List.length_drop, List.length_cons]; omega

/-- The tokens of a text. -/
def scan (source : String) : Except Stray (List Token) := scanFrom 0 source.toList

end DotGrid
