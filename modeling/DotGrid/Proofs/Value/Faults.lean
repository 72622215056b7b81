import DotGrid.Value.Functions

/-!
# Faults of operations

`FaultsOnly F` says of a computation that its fault, if it stops with one, has the property `F`. It goes through the
steps of a computation one by one (`FaultsOnly.bind`), whatever their values are. Operators and functions only see
values, so their faults are about values: neither a name nor the nesting of a tree is to blame
(`BinaryOp.apply_faults`, `UnaryOp.apply_faults`, `Builtin.apply_faults`).
-/

namespace DotGrid

/-! ## Properties of a fault -/

/-- The fault of a computation, if there is one, has a property. -/
inductive FaultsOnly {α : Type} (F : Fault → Prop) : Except Fault α → Prop
  | ok (a : α) : FaultsOnly F (.ok a)
  | error {fault : Fault} : F fault → FaultsOnly F (.error fault)

namespace FaultsOnly

variable {α β : Type} {F G : Fault → Prop} {r : Except Fault α} {fault : Fault}

theorem of_eq_error (h : FaultsOnly F r) (hr : r = .error fault) : F fault := by
  cases h with
  | ok a => cases hr
  | error hfault => exact Except.error.inj hr ▸ hfault

/-- A computation with two ways to go. -/
theorem ite {c : Prop} [Decidable c] {r' : Except Fault α} (h : FaultsOnly F r) (h' : FaultsOnly F r') :
    FaultsOnly F (if c then r else r') := by
  split
  · exact h
  · exact h'

theorem mono (h : FaultsOnly F r) (himp : ∀ fault, F fault → G fault) : FaultsOnly G r := by
  cases h with
  | ok a => exact .ok a
  | error hfault => exact .error (himp _ hfault)

theorem bind {k : α → Except Fault β} (h : FaultsOnly F r) (hk : ∀ a, FaultsOnly F (k a)) : FaultsOnly F (r >>= k) := by
  cases h with
  | ok a => exact hk a
  | error hfault => exact .error hfault

theorem map (h : FaultsOnly F r) (f : α → β) : FaultsOnly F (r.map f) := by
  cases h with
  | ok a => exact .ok (f a)
  | error hfault => exact .error hfault

theorem mapM {f : α → Except Fault β} {as : List α} (h : ∀ a ∈ as, FaultsOnly F (f a)) :
    FaultsOnly F (as.mapM f) := by
  induction as with
  | nil => exact .ok []
  | cons a as ih =>
    obtain ⟨ha, has⟩ := List.forall_mem_cons.mp h
    rw [List.mapM_cons]
    exact ha.bind fun b => (ih has).bind fun bs => .ok (b :: bs)

end FaultsOnly

/-- Tells the faults of operations on values. The others come from the nodes of a tree or from the size of a grid. -/
def Fault.isOfOperation : Fault → Bool
  | .divisionByZero _ | .domain | .range | .outOfRange | .integerTooLarge | .quotientTooLarge | .integerTooWide
  | .functionAsNumber | .mismatch _ => true
  | _ => false

/-- The computation is an operation on values, as far as its fault tells. -/
abbrev Operational {α : Type} : Except Fault α → Prop := FaultsOnly fun fault => fault.isOfOperation = true

/-! ## Conversions -/

theorem integerToDouble_faults (n : Int) : Operational (integerToDouble n) := by
  unfold integerToDouble
  exact .ite (.error rfl) (.ok _)

theorem toDouble_faults (n : Number) : Operational n.toDouble := by
  cases n with
  | integer m => exact integerToDouble_faults m
  | boolean b => exact .ok _
  | real d => exact .ok d

theorem realNumber_faults (v : Value) : Operational v.realNumber := by
  cases v with
  | number n => exact toDouble_faults n
  | function f => exact .error rfl

theorem converted_faults (v : Value) : Operational v.converted := by
  cases v with
  | number n => exact toDouble_faults n
  | function f => exact .error rfl

theorem word_faults (v : Value) : Operational v.word := (converted_faults v).map _

/-! ## Operators -/

theorem checked_faults (x y d : Double) : Operational (checked x y d) := by
  unfold checked
  exact .ite (.error rfl) (.ok _)

theorem exactOrRounded_faults (op : BinaryOp) (onInts : Int → Int → Int) (onDoubles : Double → Double → Double)
    (v w : Value) : Operational (exactOrRounded op onInts onDoubles v w) := by
  unfold exactOrRounded
  split
  · split
    · exact .ok _
    · exact (toDouble_faults _).bind fun x => (toDouble_faults _).bind fun y => checked_faults x y _
  · exact .error rfl

theorem divideIntegers_faults (m n : Int) : Operational (divideIntegers m n) := by
  unfold divideIntegers
  exact .ite (.error rfl) (.ite (.error rfl) (.ok _))

theorem divide_faults (v w : Value) : Operational (divide v w) := by
  unfold divide
  split
  · split
    · exact divideIntegers_faults ..
    · refine (toDouble_faults _).bind fun x => (toDouble_faults _).bind fun y => ?_
      exact .ite (.error rfl) (checked_faults ..)
  · exact .error rfl

theorem remainderOf_faults (v w : Value) : Operational (remainderOf v w) :=
  (realNumber_faults v).bind fun _ => (realNumber_faults w).bind fun _ => .ite (.error rfl) (.ok _)

theorem powerOf_faults (x y : Double) : Operational (powerOf x y) :=
  .ite (.ok _) (.ite (.error rfl) (.error rfl))

theorem ordered_faults (op : BinaryOp) (holds : Ordering → Bool) (v w : Value) :
    Operational (ordered op holds v w) := by
  unfold ordered
  split
  · exact .ok _
  · exact .error rfl

theorem onWords_faults (f : BitVec 32 → BitVec 32 → Int) (v w : Value) : Operational (onWords f v w) :=
  (word_faults v).bind fun _ => (word_faults w).bind fun _ => .ok _

/-- **Operators with two operands** blame their operands only. -/
theorem BinaryOp.apply_faults (op : BinaryOp) (v w : Value) : Operational (op.apply v w) := by
  cases op with
  | add => exact exactOrRounded_faults ..
  | sub => exact exactOrRounded_faults ..
  | mul => exact exactOrRounded_faults ..
  | div => exact divide_faults v w
  | remainder => exact remainderOf_faults v w
  | power => exact (realNumber_faults v).bind fun x => (realNumber_faults w).bind fun y => powerOf_faults x y
  | equal => exact .ok _
  | notEqual => exact .ok _
  | less => exact ordered_faults ..
  | atMost => exact ordered_faults ..
  | greater => exact ordered_faults ..
  | atLeast => exact ordered_faults ..
  | bitAnd => exact onWords_faults ..
  | bitOr => exact onWords_faults ..
  | bitXor => exact onWords_faults ..
  | shiftLeft => exact onWords_faults ..
  | shiftRight => exact onWords_faults ..
  | unsignedRight => exact onWords_faults ..

theorem negated_faults (v : Value) : Operational (negated v) := by
  unfold negated
  split
  · exact .ok _
  · exact .ok _
  · exact .ok _
  · exact .error rfl

/-- **Operators with one operand** blame their operand only. -/
theorem UnaryOp.apply_faults (op : UnaryOp) (v : Value) : Operational (op.apply v) := by
  cases op with
  | negate => exact negated_faults v
  | toReal =>
    cases v with
    | number n => exact (toDouble_faults n).map _
    | function f => exact .error rfl
  | not => exact .ok _
  | complement => exact (word_faults v).map _

/-! ## Functions -/

theorem guarded_faults (overflows : Bool) (f : Double → Double) (x : Double) : Operational (guarded overflows f x) := by
  refine .ite (.error rfl) (.ite (.error ?_) (.ok _))
  cases overflows <;> rfl

theorem logOf_faults (f : Double → Double) (v : Value) : Operational (logOf f v) := by
  cases v with
  | function g => exact .error rfl
  | number n =>
    rw [logOf]
    split
    · refine .ite (.error rfl) (.ite (guarded_faults ..) ?_)
      generalize fraction _ = parts
      obtain ⟨d, bits⟩ := parts
      exact .ite (.error rfl) (.ok _)
    · exact (toDouble_faults n).bind fun x => guarded_faults ..

section

variable (f : Builtin) (args : List Value)

theorem wrongCount_faults : Operational (f.wrongCount args) := .error rfl

theorem logarithmOf_faults : Operational (logarithmOf args) := by
  unfold logarithmOf
  split
  · exact (logOf_faults _ _).map _
  · exact (logOf_faults _ _).bind fun a => (logOf_faults _ _).bind fun b => .ite (.error rfl) (.ok _)
  · exact wrongCount_faults _ _

theorem rounding_faults (g : Double → Option Int) (v : Value) : Operational (rounding g v) :=
  (converted_faults v).bind fun _ => .ok _

theorem anyNaN_faults : Operational (anyNaN args) := by
  induction args with
  | nil => exact .ok _
  | cons v vs ih =>
    exact (realNumber_faults v).bind fun x => .ite (.ok _) ih

theorem extremeOf_faults (ahead : Ordering) (empty : Double) : Operational (extremeOf ahead empty args) := by
  refine (anyNaN_faults args).bind fun b => .ite (.ok _) ?_
  split
  · exact .ok _
  · exact (toDouble_faults _).map _

theorem absoluteOf_faults (v : Value) : Operational (absoluteOf v) := by
  unfold absoluteOf
  split
  · exact .ok _
  · exact .ok _
  · exact .error rfl

theorem cubeRootOf_faults (v : Value) : Operational (cubeRootOf v) := by
  unfold cubeRootOf
  split
  · exact .ite (.ok _) (.error rfl)
  · exact (toDouble_faults _).map _
  · exact .error rfl

variable {f args}

theorem ofOne_faults {g : Value → Except Fault Value} (hg : ∀ v, Operational (g v)) : Operational (f.ofOne g args) := by
  unfold Builtin.ofOne
  split
  · exact hg _
  · exact wrongCount_faults _ _

theorem ofTwo_faults {g : Value → Value → Except Fault Value} (hg : ∀ v w, Operational (g v w)) :
    Operational (f.ofTwo g args) := by
  unfold Builtin.ofTwo
  split
  · exact hg _ _
  · exact wrongCount_faults _ _

theorem ofTwoReals_faults {g : Double → Double → Except Fault Value} (hg : ∀ x y, Operational (g x y)) :
    Operational (f.ofTwoReals g args) :=
  ofTwo_faults fun v w => (realNumber_faults v).bind fun x => (realNumber_faults w).bind fun y => hg x y

/-- **Functions** blame their arguments only. -/
theorem Builtin.apply_faults (f : Builtin) (args : List Value) : Operational (f.apply args) := by
  unfold Builtin.apply
  split
  · exact ofOne_faults fun v => (realNumber_faults v).bind fun x => (guarded_faults ..).bind fun _ => .ok _
  · split
    · exact ofOne_faults absoluteOf_faults
    · exact ofTwoReals_faults fun _ _ => .ok _
    · exact ofOne_faults cubeRootOf_faults
    · exact ofOne_faults (rounding_faults _)
    · exact ofOne_faults fun v => (word_faults v).map _
    · exact ofOne_faults (rounding_faults _)
    · exact ofOne_faults fun v => (converted_faults v).map _
    · exact (FaultsOnly.mapM fun v _ => realNumber_faults v).bind fun _ => .ok _
    · exact ofTwo_faults fun v w => (word_faults v).bind fun _ => (word_faults w).bind fun _ => .ok _
    · exact logarithmOf_faults args
    · exact ofOne_faults fun v => (logOf_faults _ v).map _
    · exact ofOne_faults fun v => (logOf_faults _ v).map _
    · exact extremeOf_faults args _ _
    · exact extremeOf_faults args _ _
    · exact ofTwoReals_faults powerOf_faults
    · exact ofOne_faults (rounding_faults _)
    · exact ofOne_faults fun v => (realNumber_faults v).map _
    · exact ofOne_faults (rounding_faults _)

end

end DotGrid
