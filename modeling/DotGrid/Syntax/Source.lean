import DotGrid.Syntax.Parser

/-!
# Reading a source text

`Expr.parse` reads a whole source text. It fails with a `ParseFault`: the nesting is too deep, or a `SyntaxFault` names
what was found and where. A `Cursor` reads the tokens of a text step by step, one phrase or one token at a time, and
keeps its place after a failed step.
-/

namespace DotGrid

/-- Why a text is no expression. -/
inductive SyntaxFault where
  | stray (s : Stray)
  | unexpected (complaint : Complaint) (found : Option Lexeme) (position : Nat)
  | notText (kind : String)
deriving DecidableEq

/-- Why a text is not read. -/
inductive ParseFault where
  | incorrect (fault : SyntaxFault)
  | tooDeep
deriving DecidableEq

namespace SyntaxFault

/-- The offset of a fault in its text. -/
def position? : SyntaxFault → Option Nat
  | .stray s => some s.position
  | .unexpected _ _ position => some position
  | .notText _ => none

/-- What is wrong, without the place. -/
def summary : SyntaxFault → String
  | .stray s => "Unexpected character " ++ Text.quoted (String.singleton s.char)
  | .unexpected complaint found _ =>
    complaint.text ++ ", got " ++ match found with
      | some lexeme => lexeme.shown
      | none => "end of expression"
  | .notText kind => "Expression must be a string, not " ++ kind

/-- What is wrong, with the column of the place. -/
def message (f : SyntaxFault) : String :=
  match f.position? with
  | some p => f.summary ++ " (at column " ++ Nat.repr (p + 1) ++ ")"
  | none => f.summary

/-- The fault of a complaint about the first of the tokens that are left, or about the end of the text. -/
def about (complaint : Complaint) (endOffset : Nat) : List Token → SyntaxFault
  | [] => .unexpected complaint none endOffset
  | t :: _ => .unexpected complaint (some t.lexeme) t.position

end SyntaxFault

/-- The result of an outcome, with a fault placed in a text of a given length. -/
def Outcome.toExcept {α : Type} (endOffset : Nat) : Outcome α → Except ParseFault α
  | .done a _ => .ok a
  | .stopped (.unexpected complaint) rest => .error (.incorrect (.about complaint endOffset rest))
  | .stopped .tooDeep _ => .error .tooDeep

/-- The expression of a source text. -/
def Expr.parse (source : String) : Except ParseFault Expr :=
  match scan source with
  | .error stray => .error (.incorrect (.stray stray))
  | .ok tokens => (parseAll tokens).toExcept source.length

/-- A place among the tokens of a text. -/
structure Cursor where
  tokens : List Token
  rest : List Token
  endOffset : Nat

namespace Cursor

/-- The cursor before the first token of a text. -/
def ofSource (source : String) : Except SyntaxFault Cursor :=
  match scan source with
  | .error stray => .error (.stray stray)
  | .ok tokens => .ok ⟨tokens, tokens, source.length⟩

/-- The number of tokens before a cursor. -/
def index (c : Cursor) : Nat := c.tokens.length - c.rest.length

/-- The token at a cursor; nothing at the end. -/
def peek (c : Cursor) : Option Token := c.rest.head?

/-- Moves behind one token, if there is one. -/
def advance (c : Cursor) : Cursor := { c with rest := c.rest.tail }

/-- Tells whether the token at a cursor is a symbol with one of some texts. -/
def atSymbol (c : Cursor) (texts : List String) : Bool :=
  (leading? c.rest).any fun s => texts.contains s.text

/-- The fault of a complaint about the token at a cursor. -/
def complain (c : Cursor) (complaint : Complaint) : SyntaxFault := .about complaint c.endOffset c.rest

/-- Takes a symbol with a given text and gives its token. -/
def expect (c : Cursor) (text : String) : Except ParseFault (Option Token) × Cursor :=
  if c.atSymbol [text] then (.ok c.peek, c.advance)
  else (.error (.incorrect (c.complain (.symbol text))), c)

/-- The result of an outcome and the cursor after it. -/
def follow {α : Type} (c : Cursor) (o : Outcome α) : Except ParseFault α × Cursor :=
  (o.toExcept c.endOffset, { c with rest := o.rest })

/-- Reads one phrase. -/
def read (c : Cursor) (p : Phrase) : Except ParseFault Expr × Cursor :=
  c.follow (p.parse nestingLimit c.rest)

/-- Reads an expression that takes all tokens from the cursor on. -/
def readAll (c : Cursor) : Except ParseFault Expr × Cursor :=
  c.follow (parseAll c.rest)

end Cursor

end DotGrid
