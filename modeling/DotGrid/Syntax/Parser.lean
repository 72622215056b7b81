import DotGrid.Syntax.Expr
import DotGrid.Syntax.Token

/-!
# Parsing

An expression is read by recursive descent over the phrases of the grammar, from the loosest to the tightest: a
conditional, ten levels of binary operators, prefix operators, a power, calls, and a primary. `Phrase.parse` takes a
budget of nested phrases; a phrase that is nested deeper than that stops with `Stop.tooDeep`. A phrase that cannot be
read stops at the first token that no expression has there, and the tokens from there on are part of the outcome.
-/

namespace DotGrid

/-- What is expected where a parser stops. -/
inductive Complaint where
  | operand
  | symbol (text : String)
  | finish
  | other (text : String)
deriving DecidableEq

/-- The first half of a message. -/
def Complaint.text : Complaint → String
  | .operand => "Expected a number, name or '('"
  | .symbol text => "Expected '" ++ text ++ "'"
  | .finish => "Unexpected token"
  | .other text => text

/-- Why a parser stops without a result. -/
inductive Stop where
  | unexpected (complaint : Complaint)
  | tooDeep
deriving DecidableEq

/-- A result or the reason why there is none, with the tokens that are left. -/
inductive Outcome (α : Type) where
  | done (value : α) (rest : List Token)
  | stopped (reason : Stop) (rest : List Token)

namespace Outcome

variable {α β : Type}

/-- Goes on with the tokens that are left, unless the outcome is a stop. -/
def andThen : Outcome α → (α → List Token → Outcome β) → Outcome β
  | .done a rest, f => f a rest
  | .stopped reason rest, _ => .stopped reason rest

/-- The tokens that are left. -/
def rest : Outcome α → List Token
  | .done _ rest => rest
  | .stopped _ rest => rest

end Outcome

/-- How an operator joins two operands. -/
inductive Joint where
  | binary (op : BinaryOp)
  | logical (op : LogicalOp)
deriving DecidableEq

/-- The tree of two joined operands. -/
def Joint.build : Joint → Expr → Expr → Expr
  | .binary op => .binary op
  | .logical op => .logical op

/-- The number of levels of binary operators. -/
def binaryLevels : Nat := 10

/-- The level of a binary operator, from the loosest on, and what it builds. -/
def Symbol.joint? : Symbol → Option (Nat × Joint)
  | .either => some (0, .logical .either)
  | .both => some (1, .logical .both)
  | .bar => some (2, .binary .bitOr)
  | .caret => some (3, .binary .bitXor)
  | .ampersand => some (4, .binary .bitAnd)
  | .equal | .identical => some (5, .binary .equal)
  | .notEqual | .notIdentical => some (5, .binary .notEqual)
  | .less => some (6, .binary .less)
  | .atMost => some (6, .binary .atMost)
  | .greater => some (6, .binary .greater)
  | .atLeast => some (6, .binary .atLeast)
  | .shiftLeft => some (7, .binary .shiftLeft)
  | .shiftRight => some (7, .binary .shiftRight)
  | .unsignedRight => some (7, .binary .unsignedRight)
  | .plus => some (8, .binary .add)
  | .minus => some (8, .binary .sub)
  | .times => some (9, .binary .mul)
  | .over => some (9, .binary .div)
  | .percent => some (9, .binary .remainder)
  | _ => none

/-- What a symbol builds between two operands of a given level. -/
def Symbol.jointAt? (s : Symbol) (level : Nat) : Option Joint :=
  s.joint?.bind fun j => if j.1 = level then some j.2 else none

/-- The prefix operator of a symbol. -/
def Symbol.unary? : Symbol → Option UnaryOp
  | .minus => some .negate
  | .plus => some .toReal
  | .bang => some .not
  | .tilde => some .complement
  | _ => none

/-- The symbol of a token. -/
def Token.symbol? (t : Token) : Option Symbol :=
  match t.lexeme with
  | .symbol s => some s
  | _ => none

/-- The symbol at the start of a token list. -/
def leading? (ts : List Token) : Option Symbol := ts.head?.bind Token.symbol?

/-- Takes one given symbol. -/
def expect (s : Symbol) (ts : List Token) : Outcome Unit :=
  if leading? ts = some s then .done () ts.tail else .stopped (.unexpected (.symbol s.text)) ts

/-- A chain of operands that operators of one level join to the left, after its first operand. -/
def chain (level : Nat) (operand : List Token → Outcome Expr) : Nat → Expr → List Token → Outcome Expr
  | 0, left, ts => .done left ts
  | fuel + 1, left, ts =>
    match (leading? ts).bind (·.jointAt? level) with
    | none => .done left ts
    | some joint => (operand ts.tail).andThen fun right rest => chain level operand fuel (joint.build left right) rest

/-- The further arguments of a call, each after a comma; those before are given in reverse. -/
def moreArgs (argument : List Token → Outcome Expr) : Nat → List Expr → List Token → Outcome (List Expr)
  | 0, args, ts => .done args.reverse ts
  | fuel + 1, args, ts =>
    if leading? ts = some .comma then
      (argument ts.tail).andThen fun arg rest => moreArgs argument fuel (arg :: args) rest
    else .done args.reverse ts

/-- The arguments of a call after its opening parenthesis, up to and with the closing one. -/
def arguments (argument : List Token → Outcome Expr) (ts : List Token) : Outcome (List Expr) :=
  let args :=
    if leading? ts = some .closing then .done [] ts
    else (argument ts).andThen fun arg rest => moreArgs argument rest.length [arg] rest
  args.andThen fun args rest => (expect .closing rest).andThen fun _ rest => .done args rest

/-- The calls after a function. -/
def calls (argument : List Token → Outcome Expr) : Nat → Expr → List Token → Outcome Expr
  | 0, function, ts => .done function ts
  | fuel + 1, function, ts =>
    if leading? ts = some .opening then
      (arguments argument ts.tail).andThen fun args rest => calls argument fuel (.call function args) rest
    else .done function ts

/-- A phrase of the grammar. -/
inductive Phrase where
  | conditional
  | binary (level : Nat)
  | unary
  | power
  | application
  | primary
deriving DecidableEq

/-- Reads a phrase, with a budget for the phrases that are nested in each other. -/
def Phrase.parse : Nat → Phrase → List Token → Outcome Expr
  | 0, _, ts => .stopped .tooDeep ts
  | n + 1, .conditional, ts =>
    (parse n (.binary 0) ts).andThen fun test rest =>
      if leading? rest = some .question then
        (parse n .conditional rest.tail).andThen fun thenBranch rest =>
          (expect .colon rest).andThen fun _ rest =>
            (parse n .conditional rest).andThen fun elseBranch rest =>
              .done (.conditional test thenBranch elseBranch) rest
      else .done test rest
  | n + 1, .binary level, ts =>
    if binaryLevels ≤ level then parse n .unary ts
    else
      (parse n (.binary (level + 1)) ts).andThen fun left rest =>
        chain level (parse n (.binary (level + 1))) rest.length left rest
  | n + 1, .unary, ts =>
    match (leading? ts).bind Symbol.unary? with
    | some op => (parse n .unary ts.tail).andThen fun operand rest => .done (.unary op operand) rest
    | none => parse n .power ts
  | n + 1, .power, ts =>
    (parse n .application ts).andThen fun base rest =>
      if leading? rest = some .power then
        (parse n .unary rest.tail).andThen fun exponent rest => .done (.binary .power base exponent) rest
      else .done base rest
  | n + 1, .application, ts =>
    (parse n .primary ts).andThen fun function rest => calls (parse n .conditional) rest.length function rest
  | n + 1, .primary, ts =>
    match ts with
    | ⟨.number value, _⟩ :: rest => .done (.number (.real value)) rest
    | ⟨.name ident, _⟩ :: rest => .done (.name ident) rest
    | ⟨.symbol .opening, _⟩ :: rest =>
      (parse n .conditional rest).andThen fun inner rest =>
        (expect .closing rest).andThen fun _ rest => .done inner rest
    | _ => .stopped (.unexpected .operand) ts

/-- Reads an expression that takes all of the tokens, within a given budget. -/
def parseAllWithin (limit : Nat) (ts : List Token) : Outcome Expr :=
  (Phrase.parse limit .conditional ts).andThen fun e rest =>
    if rest.isEmpty then .done e rest else .stopped (.unexpected .finish) rest

/-- Reads an expression that takes all of the tokens. -/
def parseAll (ts : List Token) : Outcome Expr := parseAllWithin nestingLimit ts

end DotGrid
