import DotGrid.Value.Number

/-!
# The namespace of expressions

Expressions see a fixed set of functions and constants without any qualification. Names are case sensitive. A
primitive function is computed directly; a derived one first converts its arguments by rules of its own.
-/

namespace DotGrid

/-- A function of the namespace. -/
inductive Builtin where
  | abs | acos | acosh | asin | asinh | atan | atan2 | atanh | cbrt | ceil | clz32 | cos | cosh | exp | expm1
  | floor | fround | hypot | imul | log | log10 | log1p | log2 | max | min | pow | round | sign | sin | sinh
  | sqrt | tan | tanh | trunc
deriving DecidableEq

namespace Builtin

/-- All functions, in the order of their names. -/
def all : List Builtin :=
  [.abs, .acos, .acosh, .asin, .asinh, .atan, .atan2, .atanh, .cbrt, .ceil, .clz32, .cos, .cosh, .exp, .expm1,
    .floor, .fround, .hypot, .imul, .log, .log10, .log1p, .log2, .max, .min, .pow, .round, .sign, .sin, .sinh,
    .sqrt, .tan, .tanh, .trunc]

theorem mem_all (f : Builtin) : f ∈ all := by
  cases f <;> decide

/-- The name of a function. -/
def name : Builtin → String
  | .abs => "abs" | .acos => "acos" | .acosh => "acosh" | .asin => "asin" | .asinh => "asinh" | .atan => "atan"
  | .atan2 => "atan2" | .atanh => "atanh" | .cbrt => "cbrt" | .ceil => "ceil" | .clz32 => "clz32" | .cos => "cos"
  | .cosh => "cosh" | .exp => "exp" | .expm1 => "expm1" | .floor => "floor" | .fround => "fround"
  | .hypot => "hypot" | .imul => "imul" | .log => "log" | .log10 => "log10" | .log1p => "log1p" | .log2 => "log2"
  | .max => "max" | .min => "min" | .pow => "pow" | .round => "round" | .sign => "sign" | .sin => "sin"
  | .sinh => "sinh" | .sqrt => "sqrt" | .tan => "tan" | .tanh => "tanh" | .trunc => "trunc"

/-- Tells a function that is computed directly. -/
def isPrimitive : Builtin → Bool
  | .cbrt | .ceil | .clz32 | .floor | .fround | .imul | .max | .min | .round | .sign | .trunc => false
  | _ => true

/-- The first one of the functions that are defined together; a report on a wrong number of arguments tells these from
others only. -/
def family : Builtin → Builtin
  | .ceil | .round | .trunc => .floor
  | .fround => .cbrt
  | f => f

theorem family_family (f : Builtin) : f.family.family = f.family := by
  cases f <;> rfl

/-- The name under which a function is defined. -/
def definedName (f : Builtin) : String :=
  match f.family with
  | .abs => "abs"
  | .cbrt => "<lambda>"
  | .floor => "_integral.<locals>.rounded"
  | g => (if g.isPrimitive then "math." else "_") ++ g.name

/-- The names of the parameters of a derived function, except for those of any number of arguments. -/
def parameters : Builtin → List String
  | .max | .min => []
  | .imul => ["a", "b"]
  | _ => ["x"]

/-- A function on one line. A derived one is shown with its place in memory. -/
def shown (address : Builtin → Nat) (f : Builtin) : String :=
  if f.isPrimitive then "<built-in function " ++ f.name ++ ">"
  else "<function " ++ f.definedName ++ " at 0x" ++ String.ofList (Nat.toDigits 16 (address f)) ++ ">"

end Builtin

/-- What a name can stand for and an expression can evaluate to: a number or a function of the namespace. -/
inductive Value where
  | number (n : Number)
  | function (f : Builtin)
deriving DecidableEq

namespace Value

/-- A double as a value. -/
def real (d : Double) : Value := .number (.real d)

/-- Zeros and NaN are false and all else, functions included, is true. -/
def truthy : Value → Bool
  | .number n => n.truthy
  | .function _ => true

/-- The text of a value; functions have one text in common. -/
def text : Value → String
  | .number n => n.text
  | .function _ => "<function>"

end Value

/-- The constants of the namespace, in the order of their names. -/
def constants : List (String × Double) :=
  [("E", .ofDecimal false ⟨2718281828459045, -15⟩),
    ("LN10", .ofDecimal false ⟨2302585092994046, -15⟩),
    ("LN2", .ofDecimal false ⟨6931471805599453, -16⟩),
    ("LOG10E", .ofDecimal false ⟨4342944819032518, -16⟩),
    ("LOG2E", .ofDecimal false ⟨14426950408889634, -16⟩),
    ("PI", .ofDecimal false ⟨3141592653589793, -15⟩),
    ("SQRT1_2", .ofDecimal false ⟨7071067811865476, -16⟩),
    ("SQRT2", .ofDecimal false ⟨14142135623730951, -16⟩)]

/-- What a name of the namespace stands for. -/
def namespaceValue? (name : String) : Option Value :=
  match Builtin.all.find? (·.name = name) with
  | some f => some (.function f)
  | none => (constants.find? (·.1 = name)).map fun c => .real c.2

/-- The entries of the namespace, constants first, in the order of their names. -/
def namespaceEntries : List (String × Value) :=
  constants.map (fun c => (c.1, .real c.2)) ++ Builtin.all.map fun f => (f.name, .function f)

end DotGrid
