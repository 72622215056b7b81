import DotGrid.Syntax.Operator
import DotGrid.Text.Quoted
import DotGrid.Value.Builtin

/-!
# Faults

Why an evaluation stops, as causes. A cause records what its report shows and nothing else, so that two faults are the
same report exactly when they are equal: a `Mismatch` has the kinds of the operands, and a `Miscount` has the number of
arguments unless the report leaves it out.

The report (`Fault.report`) is the name of the class and the description. `Fault.message?` is as much of the
description as records show: a function in one form for all, and no description of a mismatch.
-/

namespace DotGrid

/-- The kinds of values that reports tell apart. -/
inductive ValueKind where
  | integer
  | boolean
  | real
  | primitive
  | derived
deriving DecidableEq

/-- The name of the type of a kind of values. -/
def ValueKind.typeName : ValueKind → String
  | .integer => "int"
  | .boolean => "bool"
  | .real => "float"
  | .primitive => "builtin_function_or_method"
  | .derived => "function"

/-- The kind of a value. -/
def Value.kind : Value → ValueKind
  | .number (.integer _) => .integer
  | .number (.boolean _) => .boolean
  | .number (.real _) => .real
  | .function f => if f.isPrimitive then .primitive else .derived

/-- A wrong number of arguments, as far as it is reported: of functions that are defined together by their first one,
and of a logarithm without the number. -/
structure Miscount where
  family : Builtin
  given : Nat
  isFirst : family.family = family
  isHidden : family = .log → given = 0
deriving DecidableEq

/-- The report on a number of arguments that a function does not take. -/
def Builtin.miscount (f : Builtin) (given : Nat) : Miscount where
  family := f.family
  given := if f.family = .log then 0 else given
  isFirst := f.family_family
  isHidden := fun h => if_pos h

/-- All wrong numbers of arguments of a logarithm are one report. -/
theorem Builtin.miscount_log (m n : Nat) : log.miscount m = log.miscount n := rfl

/-- A value where an operation has no meaning for its kind, a wrong number of arguments, a number that counts nothing,
or two values that have no order. -/
inductive Mismatch where
  | operands (op : BinaryOp) (left right : ValueKind)
  | negation (kind : ValueKind)
  | realNumber (kind : ValueKind)
  | conversion (kind : ValueKind)
  | absolute (kind : ValueKind)
  | cubeRoot (kind : ValueKind)
  | arguments (miscount : Miscount)
  | count
  | order
deriving DecidableEq

/-! ## Descriptions of mismatches -/

/-- A number of things; `thing` is what one of them is called. -/
def counted (n : Nat) (thing : String) : String := Nat.repr n ++ " " ++ thing ++ if n = 1 then "" else "s"

/-- What a function of some parameters says of another number of arguments: the parameters that have none, or else how
many it takes. -/
def missingOrSurplus (parameters : List String) (given : Nat) : String :=
  match parameters.drop given with
  | [] => "takes " ++ counted parameters.length "positional argument" ++ " but " ++ Nat.repr given ++ " were given"
  | missing => "missing " ++ counted missing.length "required positional argument" ++ ": " ++
      String.intercalate " and " (missing.map fun p => "'" ++ p ++ "'")

namespace Miscount

/-- What the report says before it comes to the number of arguments. -/
def opening (m : Miscount) : String :=
  match m.family with
  | .log => "math.log requires 1 to 2 arguments"
  | .atan2 | .pow => m.family.name ++ " expected 2 arguments, got "
  | f => f.definedName ++ if f.isPrimitive then "() takes exactly one argument (" else "() "

/-- What the report says of the number of arguments. -/
def ending (m : Miscount) : String :=
  match m.family with
  | .log => ""
  | .atan2 | .pow => Nat.repr m.given
  | f => if f.isPrimitive then Nat.repr m.given ++ " given)" else missingOrSurplus f.parameters m.given

end Miscount

/-- Tells an operator that asks for an order. -/
def BinaryOp.isOrder : BinaryOp → Bool
  | .less | .atMost | .greater | .atLeast => true
  | _ => false

namespace Mismatch

/-- What the report says before it comes to the operands or the arguments. -/
def opening : Mismatch → String
  | .operands op _ _ =>
    if op.isOrder then "'" ++ op.text ++ "' not supported between instances of '"
    else "unsupported operand type(s) for " ++ op.text ++ ": '"
  | .negation _ => "bad operand type for unary -: '"
  | .realNumber _ => "must be real number, not "
  | .conversion _ => "float() argument must be a string or a real number, not '"
  | .absolute _ => "bad operand type for abs(): '"
  | .cubeRoot _ => "loop of ufunc does not support argument 0 of type "
  | .arguments m => m.opening
  | .count => "'float' object cannot be interpreted as an integer"
  | .order => ""

/-- What the report says of the operands or the arguments. -/
def ending : Mismatch → String
  | .operands _ left right => left.typeName ++ "' and '" ++ right.typeName ++ "'"
  | .negation kind | .conversion kind | .absolute kind => kind.typeName ++ "'"
  | .realNumber kind => kind.typeName
  | .cubeRoot kind => kind.typeName ++ " which has no callable cbrt method"
  | .arguments m => m.ending
  | .count | .order => ""

/-- The description of a mismatch. That of two values without an order depends on more than the mismatch. -/
def description? : Mismatch → Option String
  | .order => none
  | m => some (m.opening ++ m.ending)

end Mismatch

/-! ## Faults -/

/-- Why an evaluation or a rendering stops. -/
inductive Fault where
  | unresolvedName (name : String)
  | notCallable (value : Number)
  | unknownNode (kind : String)
  | unknownOperator (text : String)
  | divisionByZero (ofReals : Bool)
  | domain
  | range
  | outOfRange
  | integerTooLarge
  | quotientTooLarge
  | integerTooLong
  | integerTooWide
  | tooManyWorkers
  | functionAsNumber
  | functionAsResult (f : Builtin)
  | mismatch (m : Mismatch)
  | negativeSize
  | sizeTooLarge
  | gridTooLarge
  | tooDeep
deriving DecidableEq

namespace Fault

/-- The name of the class of a fault. -/
def kind : Fault → String
  | .unresolvedName _ => "UnresolvedNameError"
  | .notCallable _ => "NotCallableError"
  | .unknownNode _ => "EvaluationError"
  | .unknownOperator _ => "KeyError"
  | .divisionByZero _ => "ZeroDivisionError"
  | .domain | .integerTooLong | .negativeSize | .sizeTooLarge | .gridTooLarge => "ValueError"
  | .range | .outOfRange | .integerTooLarge | .quotientTooLarge | .integerTooWide | .tooManyWorkers =>
    "OverflowError"
  | .functionAsNumber | .functionAsResult _ | .mismatch _ => "TypeError"
  | .tooDeep => "RecursionError"

/-- The description of a fault as records show it; a mismatch and too deep a nesting have none. -/
def message? : Fault → Option String
  | .unresolvedName name => some ("'" ++ name ++ "' is not defined")
  | .notCallable value => some (value.text ++ " is not a function")
  | .unknownNode kind => some ("Unknown node type " ++ kind)
  | .unknownOperator text => some (Text.quoted text)
  | .divisionByZero ofReals => some (if ofReals then "float division by zero" else "division by zero")
  | .domain => some "math domain error"
  | .range => some "math range error"
  | .outOfRange => some "numerical result out of range"
  | .integerTooLarge => some "int too large to convert to float"
  | .quotientTooLarge => some "integer division result too large for a float"
  | .integerTooLong => some ("Exceeds the limit (" ++ Nat.repr longestInteger ++
      " digits) for integer string conversion; use sys.set_int_max_str_digits() to increase the limit")
  | .integerTooWide => some "huge integer: number of bits overflows a Py_ssize_t"
  | .tooManyWorkers => some "Python int too large to convert to C int"
  | .functionAsNumber => some "cannot convert a function to a number"
  | .functionAsResult _ => some "expression evaluated to <function>, not a number"
  | .mismatch _ => none
  | .negativeSize => some "negative dimensions are not allowed"
  | .sizeTooLarge => some "Maximum allowed dimension exceeded"
  | .gridTooLarge =>
    some "array is too big; \x60arr.size * arr.dtype.itemsize\x60 is larger than the maximum possible size."
  | .tooDeep => none

/-- The whole description of a fault, given the places of the derived functions in memory. Too deep a nesting is one
fault, wherever it is noticed. -/
def description? (address : Builtin → Nat) : Fault → Option String
  | .functionAsResult f => some ("expression evaluated to " ++ f.shown address ++ ", not a number")
  | .mismatch m => m.description?
  | f => f.message?

/-- What is reported of a fault. -/
def report (address : Builtin → Nat) (f : Fault) : String × Option String := (f.kind, f.description? address)

/-- A fault as one line of text. -/
def summary (f : Fault) : String :=
  match f.message? with
  | some m => f.kind ++ ": " ++ m
  | none => f.kind

end Fault

/-- The text of a value, which an integer that is too long does not have. -/
def Value.written (v : Value) : Except Fault String :=
  match v with
  | .number n => if longestInteger < n.digitCount then .error .integerTooLong else .ok v.text
  | .function _ => .ok v.text

end DotGrid
