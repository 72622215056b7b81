import DotGrid.Proofs.Double.Arithmetic
import DotGrid.Value.Operators

/-!
# Answers of operators

An operation on values answers with a value or with a fault. `Answers P` says that the fault, if there is one, is of a
documented kind and that the value, if there is one, satisfies `P`; it goes through the steps of a computation one by
one (`Answers.bind`). There is one lemma for each operation: the value is a number, which is finite under an
assumption `given` that stands for the finiteness of the operands. With `True` for it the lemma is about finite
operands, and with `False` about the faults for whatever operands.
-/

namespace DotGrid

/-! ## Documented faults -/

namespace Fault

/-- The kinds of faults that the evaluation of an expression may stop with. -/
def documentedKinds : List String :=
  ["UnresolvedNameError", "NotCallableError", "TypeError", "ValueError", "OverflowError", "ZeroDivisionError",
    "RecursionError"]

/-- The fault is of a documented kind. -/
def Documented (f : Fault) : Prop := f.kind ∈ documentedKinds

/-- Only nodes and operators outside of the language lead to faults of other kinds. -/
@[simp] theorem documented_iff (f : Fault) :
    f.Documented ↔ (∀ kind, f ≠ .unknownNode kind) ∧ ∀ text, f ≠ .unknownOperator text := by
  cases f <;> simp [Documented, kind, documentedKinds]

end Fault

/-! ## Answers -/

section

variable {α β : Type}

/-- A value with a property, or a documented fault. -/
inductive Answers (P : α → Prop) : Except Fault α → Prop
  | ok {a : α} : P a → Answers P (.ok a)
  | error {f : Fault} : f.Documented → Answers P (.error f)

namespace Answers

variable {P : α → Prop} {Q : β → Prop} {r : Except Fault α}

/-- A computation that is refused under a condition. -/
theorem refused {b : Bool} {f : Fault} (hf : f.Documented) (h : b = false → Answers P r) :
    Answers P (if b = true then .error f else r) := by
  cases b with
  | true => exact .error hf
  | false => exact h rfl

/-- A computation with two ways to go. -/
theorem ite {c : Prop} [Decidable c] {r' : Except Fault α} (h : c → Answers P r) (h' : ¬c → Answers P r') :
    Answers P (if c then r else r') := by
  split
  · exact h ‹c›
  · exact h' ‹¬c›

theorem imp {P' : α → Prop} (h : Answers P r) (himp : ∀ a, P a → P' a) : Answers P' r := by
  cases h with
  | ok h => exact .ok (himp _ h)
  | error h => exact .error h

theorem bind {k : α → Except Fault β} (h : Answers P r) (hk : ∀ a, P a → Answers Q (k a)) : Answers Q (r >>= k) := by
  cases h with
  | ok h => exact hk _ h
  | error h => exact .error h

theorem map {f : α → β} (h : Answers P r) (hf : ∀ a, P a → Q (f a)) : Answers Q (r.map f) := by
  cases h with
  | ok h => exact .ok (hf _ h)
  | error h => exact .error h

theorem ok_or_error (h : Answers P r) : (∃ a, r = .ok a ∧ P a) ∨ ∃ f, r = .error f ∧ f.Documented := by
  cases h with
  | ok h => exact .inl ⟨_, rfl, h⟩
  | error h => exact .inr ⟨_, rfl, h⟩

theorem of_eq_ok {a : α} (h : Answers P r) (hr : r = .ok a) : P a := by
  cases h with
  | ok h => exact Except.ok.inj hr ▸ h
  | error h => cases hr

/-- The value of an answer is what the computation gives. -/
theorem eq_ok (h : Answers P r) : Answers (fun a => r = .ok a ∧ P a) r := by
  cases h with
  | ok h => exact .ok ⟨rfl, h⟩
  | error h => exact .error h

theorem mapM {f : α → Except Fault β} {as : List α} (h : ∀ a ∈ as, Answers Q (f a)) :
    Answers (fun bs => ∀ b ∈ bs, Q b) (as.mapM f) := by
  induction as with
  | nil => exact .ok nofun
  | cons a as ih =>
    obtain ⟨ha, has⟩ := List.forall_mem_cons.mp h
    rw [List.mapM_cons]
    refine ha.bind fun b hb => (ih has).bind fun bs hbs => .ok ?_
    exact List.forall_mem_cons.mpr ⟨hb, hbs⟩

end Answers

end

/-! ## Finite values -/

/-- Tells a number that is no infinity and no NaN. -/
def Number.isFinite : Number → Bool
  | .real d => d.isFinite
  | _ => true

/-- Tells a value that is no infinity and no NaN. -/
def Value.isFinite : Value → Bool
  | .number n => n.isFinite
  | .function _ => true

/-- The value is finite under an assumption. -/
abbrev FiniteIf (given : Prop) (v : Value) : Prop := given → v.isFinite = true

/-- The value is a number, and finite under an assumption. -/
def NumberIf (given : Prop) (v : Value) : Prop := ∃ n, v = .number n ∧ (given → n.isFinite = true)

theorem NumberIf.real {given : Prop} {d : Double} (h : given → d.isFinite = true) : NumberIf given (.real d) :=
  ⟨.real d, rfl, h⟩

theorem NumberIf.imp {given given' : Prop} {v : Value} (h : NumberIf given v) (himp : given' → given) :
    NumberIf given' v := by
  obtain ⟨n, rfl, hn⟩ := h
  exact ⟨n, rfl, fun hg => hn (himp hg)⟩

theorem NumberIf.finiteIf {given : Prop} {v : Value} (h : NumberIf given v) : FiniteIf given v := by
  obtain ⟨n, rfl, hn⟩ := h
  exact hn

section

variable {given : Prop} {v w : Value} {n : Number} {x y d : Double}

/-! ## Conversions -/

/-- An integer that becomes a double becomes a finite one. -/
theorem integerToDouble_answers (m : Int) : Answers (fun x => x.isFinite = true) (integerToDouble m) := by
  unfold integerToDouble
  exact .refused (by simp) fun hinf => .ok ((Double.isFinite_iff _).mpr ⟨Double.isNaN_ofInt m, hinf⟩)

theorem toDouble_answers (hn : given → n.isFinite = true) :
    Answers (fun x => given → x.isFinite = true) n.toDouble := by
  cases n with
  | integer m =>
    rw [Number.toDouble]
    exact (integerToDouble_answers m).imp fun x hx _ => hx
  | boolean b =>
    refine .ok fun _ => ?_
    cases b
    · exact (Double.within_ofInt (b := 0) (by decide) (by decide)).isFinite
    · exact (Double.within_ofInt (b := 0) (by decide) (by decide)).isFinite
  | real d => exact .ok hn

theorem realNumber_answers (hv : FiniteIf given v) : Answers (fun x => given → x.isFinite = true) v.realNumber := by
  cases v with
  | number n => exact toDouble_answers hv
  | function f => exact .error (by simp)

theorem converted_answers (hv : FiniteIf given v) : Answers (fun x => given → x.isFinite = true) v.converted := by
  cases v with
  | number n => exact toDouble_answers hv
  | function f => exact .error (by simp)

theorem word_answers (v : Value) : Answers (fun _ => True) v.word :=
  (converted_answers fun h : False => h.elim).map fun _ _ => trivial

/-! ## Arithmetic -/

theorem checked_answers (h : given → x.isFinite = true ∧ y.isFinite = true ∧ d.isNaN = false) :
    Answers (NumberIf given) (checked x y d) := by
  unfold checked
  refine .refused (by simp) fun hcheck => .ok (.real fun hg => ?_)
  obtain ⟨hx, hy, hnan⟩ := h hg
  rw [Double.isFinite_iff]
  exact ⟨hnan, by simpa [hx, hy] using hcheck⟩

theorem exactOrRounded_answers {onDoubles : Double → Double → Double}
    (hnan : ∀ x y, x.isFinite = true → y.isFinite = true → (onDoubles x y).isNaN = false) (op : BinaryOp)
    (onInts : Int → Int → Int) (hv : FiniteIf given v) (hw : FiniteIf given w) :
    Answers (NumberIf given) (exactOrRounded op onInts onDoubles v w) := by
  unfold exactOrRounded
  split
  · split
    · exact .ok ⟨_, rfl, fun _ => rfl⟩
    · refine (toDouble_answers hv).bind fun x hx => (toDouble_answers hw).bind fun y hy => ?_
      exact checked_answers fun hg => ⟨hx hg, hy hg, hnan x y (hx hg) (hy hg)⟩
  · exact .error (by simp)

theorem divideIntegers_answers (m n : Int) : Answers (NumberIf given) (divideIntegers m n) := by
  unfold divideIntegers
  split
  · exact .error (by simp)
  · refine .refused (by simp) fun hinf => .ok (.real fun _ => ?_)
    rw [Double.isFinite_iff]
    exact ⟨Double.isNaN_divInts m n, hinf⟩

theorem divide_answers (hv : FiniteIf given v) (hw : FiniteIf given w) : Answers (NumberIf given) (divide v w) := by
  unfold divide
  split
  · split
    · exact divideIntegers_answers _ _
    · refine (toDouble_answers hv).bind fun x hx => (toDouble_answers hw).bind fun y hy => ?_
      refine .refused (by simp) fun hzero => checked_answers fun hg => ⟨hx hg, hy hg, ?_⟩
      exact Double.isNaN_div (hx hg) (hy hg) hzero
  · exact .error (by simp)

theorem remainderOf_answers (hv : FiniteIf given v) (hw : FiniteIf given w) :
    Answers (NumberIf given) (remainderOf v w) := by
  unfold remainderOf
  refine (realNumber_answers hv).bind fun x hx => (realNumber_answers hw).bind fun y hy => ?_
  refine .refused (by simp) fun hnan => .ok (.real fun hg => ?_)
  have hnan' : (x.remainder y).isNaN = false := by
    simpa [Double.isNaN_of_isFinite (hx hg), Double.isNaN_of_isFinite (hy hg)] using hnan
  exact Double.isFinite_remainder (hx hg) hnan'

theorem powerOf_answers (hx : given → x.isFinite = true) (hy : given → y.isFinite = true) :
    Answers (NumberIf given) (powerOf x y) := by
  unfold powerOf
  dsimp only
  split
  · rename_i hfinite
    refine .ok (.real fun hg => ?_)
    simpa [hx hg, hy hg] using hfinite
  · split
    · exact .error (by simp)
    · exact .error (by simp)

/-! ## Orders and words -/

theorem ordered_answers (op : BinaryOp) (holds : Ordering → Bool) (v w : Value) :
    Answers (NumberIf given) (ordered op holds v w) := by
  unfold ordered
  split
  · exact .ok ⟨_, rfl, fun _ => rfl⟩
  · exact .error (by simp)

theorem onWords_answers (f : BitVec 32 → BitVec 32 → Int) (v w : Value) : Answers (NumberIf given) (onWords f v w) := by
  refine (word_answers v).bind fun a _ => (word_answers w).bind fun b _ => ?_
  exact .ok ⟨_, rfl, fun _ => rfl⟩

/-! ## Operators -/

/-- **Operators with two operands.** The answer is a number, and finite if both operands are. -/
theorem BinaryOp.apply_answers (op : BinaryOp) (hv : FiniteIf given v) (hw : FiniteIf given w) :
    Answers (NumberIf given) (op.apply v w) := by
  cases op with
  | add => exact exactOrRounded_answers (fun x y => Double.isNaN_add) .add _ hv hw
  | sub => exact exactOrRounded_answers (fun x y => Double.isNaN_sub) .sub _ hv hw
  | mul => exact exactOrRounded_answers (fun x y => Double.isNaN_mul) .mul _ hv hw
  | div => exact divide_answers hv hw
  | remainder => exact remainderOf_answers hv hw
  | power =>
    refine (realNumber_answers hv).bind fun x hx => (realNumber_answers hw).bind fun y hy => ?_
    exact powerOf_answers hx hy
  | equal => exact .ok ⟨_, rfl, fun _ => rfl⟩
  | notEqual => exact .ok ⟨_, rfl, fun _ => rfl⟩
  | less => exact ordered_answers ..
  | atMost => exact ordered_answers ..
  | greater => exact ordered_answers ..
  | atLeast => exact ordered_answers ..
  | bitAnd => exact onWords_answers ..
  | bitOr => exact onWords_answers ..
  | bitXor => exact onWords_answers ..
  | shiftLeft => exact onWords_answers ..
  | shiftRight => exact onWords_answers ..
  | unsignedRight => exact onWords_answers ..

theorem negated_answers (hv : FiniteIf given v) : Answers (NumberIf given) (negated v) := by
  cases v with
  | function f => exact .error (by simp)
  | number n =>
    cases n with
    | integer m => exact .ok ⟨_, rfl, fun _ => rfl⟩
    | boolean b => exact .ok ⟨_, rfl, fun _ => rfl⟩
    | real d => exact .ok (.real fun hg => (Double.isFinite_neg d).trans (hv hg))

/-- **Operators with one operand.** The answer is a number, and finite if the operand is. -/
theorem UnaryOp.apply_answers (op : UnaryOp) (hv : FiniteIf given v) : Answers (NumberIf given) (op.apply v) := by
  cases op with
  | negate => exact negated_answers hv
  | toReal =>
    cases v with
    | number n => exact (toDouble_answers hv).map fun x hx => .real hx
    | function f => exact .error (by simp)
  | not => exact .ok ⟨_, rfl, fun _ => rfl⟩
  | complement => exact (word_answers v).map fun _ _ => ⟨_, rfl, fun _ => rfl⟩

end

end DotGrid
