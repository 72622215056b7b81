/-!
# Symbols

The operators and marks that an expression is written with. `Symbol.all` lists them with the longest texts first, so
the first one that starts a text is the longest one that does.
-/

namespace DotGrid

/-- An operator or a mark. -/
inductive Symbol where
  | unsignedRight
  | identical
  | notIdentical
  | power
  | shiftLeft
  | shiftRight
  | atMost
  | atLeast
  | equal
  | notEqual
  | both
  | either
  | plus
  | minus
  | times
  | over
  | percent
  | less
  | greater
  | bang
  | tilde
  | ampersand
  | bar
  | caret
  | question
  | colon
  | opening
  | closing
  | comma
deriving DecidableEq

namespace Symbol

/-- The characters of a symbol. -/
def chars : Symbol → List Char
  | .unsignedRight => ['>', '>', '>']
  | .identical => ['=', '=', '=']
  | .notIdentical => ['!', '=', '=']
  | .power => ['*', '*']
  | .shiftLeft => ['<', '<']
  | .shiftRight => ['>', '>']
  | .atMost => ['<', '=']
  | .atLeast => ['>', '=']
  | .equal => ['=', '=']
  | .notEqual => ['!', '=']
  | .both => ['&', '&']
  | .either => ['|', '|']
  | .plus => ['+']
  | .minus => ['-']
  | .times => ['*']
  | .over => ['/']
  | .percent => ['%']
  | .less => ['<']
  | .greater => ['>']
  | .bang => ['!']
  | .tilde => ['~']
  | .ampersand => ['&']
  | .bar => ['|']
  | .caret => ['^']
  | .question => ['?']
  | .colon => [':']
  | .opening => ['(']
  | .closing => [')']
  | .comma => [',']

/-- The text of a symbol. -/
def text (s : Symbol) : String := String.ofList s.chars

/-- All symbols, those with the longest texts first. -/
def all : List Symbol :=
  [.unsignedRight, .identical, .notIdentical,
    .power, .shiftLeft, .shiftRight, .atMost, .atLeast, .equal, .notEqual, .both, .either,
    .plus, .minus, .times, .over, .percent, .less, .greater, .bang, .tilde, .ampersand, .bar, .caret,
    .question, .colon, .opening, .closing, .comma]

theorem mem_all (s : Symbol) : s ∈ all := by
  cases s <;> decide

/-- The longest symbol at the start of a text. -/
def first? (cs : List Char) : Option Symbol := all.find? fun s => s.chars.isPrefixOf cs

/-- The symbol with a given text. -/
def ofText? (s : String) : Option Symbol := all.find? fun o => o.chars = s.toList

end Symbol

end DotGrid
