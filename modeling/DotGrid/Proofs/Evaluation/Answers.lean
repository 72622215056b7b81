import DotGrid.Evaluation.DotFunction
import DotGrid.Proofs.Printer
import DotGrid.Proofs.Scanner.Literals
import DotGrid.Proofs.Value.Functions

/-!
# Answers of an evaluation

What the operators and the functions answer is carried through a tree by one induction (`Evaluable.answers`). There are
two results of it. A tree that is read from a text is evaluated to a value or stops with a fault of a documented kind,
and never because of a node or an operator that the evaluation does not know (`parse_call_documented`). A tree without
calls gives finite numbers if its literals and its parameters are finite (`formula_finite`).
-/

namespace DotGrid

variable {given : Prop} {scope : Scope} {e : Expr}

/-! ## Names -/

theorem isFinite_constants : ∀ c ∈ constants, c.2.isFinite = true := by decide +kernel

/-- The entries of the namespace are functions and finite constants. -/
theorem isFinite_namespaceValue {name : String} {v : Value} (h : namespaceValue? name = some v) :
    v.isFinite = true := by
  unfold namespaceValue? at h
  split at h
  · cases h
    rfl
  · obtain ⟨c, hc, rfl⟩ := Option.map_eq_some_iff.mp h
    exact isFinite_constants c (List.mem_of_find?_eq_some hc)

theorem lookup_answers (hscope : given → ∀ name n, scope name = some n → n.isFinite = true) (name : String) :
    Answers (FiniteIf given) (scope.lookup name) := by
  unfold Scope.lookup
  split
  · rename_i n hn
    exact .ok fun hg => hscope hg name n hn
  · split
    · rename_i v hv
      exact .ok fun _ => isFinite_namespaceValue hv
    · exact .error (by simp)

theorem callOfNumber_documented (n : Number) : (callOfNumber n).Documented := by
  unfold callOfNumber
  split <;> simp

/-! ## Trees -/

/-- A tree without nodes and operators outside of the language. Under an assumption its literals are finite and it has
no calls. -/
inductive Evaluable (given : Prop) : Expr → Prop
  | number {n : Number} : (given → n.isFinite = true) → Evaluable given (.number n)
  | name (ident : String) : Evaluable given (.name ident)
  | unary (op : UnaryOp) {a : Expr} : Evaluable given a → Evaluable given (.unary op a)
  | binary (op : BinaryOp) {a b : Expr} : Evaluable given a → Evaluable given b → Evaluable given (.binary op a b)
  | logical (op : LogicalOp) {a b : Expr} : Evaluable given a → Evaluable given b → Evaluable given (.logical op a b)
  | conditional {a b c : Expr} : Evaluable given a → Evaluable given b → Evaluable given c →
      Evaluable given (.conditional a b c)
  | call {f : Expr} {args : List Expr} : ¬given → Evaluable given f → (∀ a ∈ args, Evaluable given a) →
      Evaluable given (.call f args)

/-- The answer of a tree, for every budget. -/
theorem Evaluable.answers (h : Evaluable given e)
    (hscope : given → ∀ name n, scope name = some n → n.isFinite = true) (budget : Nat) :
    Answers (FiniteIf given) (e.evalWithin scope budget) := by
  induction budget generalizing e with
  | zero => exact .error (by simp)
  | succ n ih =>
    cases h with
    | number hn => exact .ok hn
    | name ident => exact lookup_answers hscope ident
    | unary op ha => exact (ih ha).bind fun v hv => (op.apply_answers hv).imp fun _ => NumberIf.finiteIf
    | binary op ha hb =>
      refine (ih ha).bind fun v hv => (ih hb).bind fun w hw => ?_
      exact (op.apply_answers hv hw).imp fun _ => NumberIf.finiteIf
    | logical op ha hb => exact (ih ha).bind fun v hv => Answers.ite (fun _ => ih hb) fun _ => .ok hv
    | conditional ha hb hc => exact (ih ha).bind fun v _ => Answers.ite (fun _ => ih hb) fun _ => ih hc
    | call hg hf hargs =>
      refine (ih hf).bind fun v _ => ?_
      cases v with
      | number k => exact .error (callOfNumber_documented k)
      | function f =>
        refine (Answers.mapM fun a ha => ih (hargs a ha)).bind fun vs hvs => ?_
        exact (f.apply_answers hvs).imp fun _ _ h => absurd h hg

theorem Dot.scope_mem {d : Dot} {name : String} {n : Number} (h : d.scope name = some n) :
    n ∈ [d.t, d.i, d.x, d.y] := by
  unfold Dot.scope at h
  split at h <;> cases h <;> simp

/-- The answer of a dot function. -/
theorem Evaluable.call_answers (h : Evaluable given e) {d : Dot}
    (hd : given → ∀ n ∈ [d.t, d.i, d.x, d.y], n.isFinite = true) :
    Answers (fun x => given → x.isFinite = true) ((DotFunction.mk e).call d) := by
  have hscope : given → ∀ name n, d.scope name = some n → n.isFinite = true :=
    fun hg _ _ hn => hd hg _ (Dot.scope_mem hn)
  refine (h.answers hscope nestingLimit).bind fun v hv => ?_
  cases v with
  | number n => exact toDouble_answers hv
  | function f => exact .error (by simp)

/-! ## Trees of texts -/

theorem Written.evaluable (h : Written e) : Evaluable False e := by
  induction h with
  | number value => exact .number nofun
  | name ident => exact .name ident
  | unary op _ ih => exact .unary op ih
  | binary op _ _ iha ihb => exact .binary op iha ihb
  | logical op _ _ iha ihb => exact .logical op iha ihb
  | conditional _ _ _ iha ihb ihc => exact .conditional iha ihb ihc
  | call _ _ ihf ihargs => exact .call nofun ihf ihargs

/-- **The evaluation knows every tree that is read.** A tree that is read from a text has nodes and operators of the
language only, its literals are doubles that are neither NaN nor negative, and whatever the numbers of a dot are, its
dot function gives a double or stops with a fault of a documented kind. -/
theorem parse_call_documented {source : String} (h : Expr.parse source = .ok e) :
    Written e ∧
      (∀ value, Expr.number value ∈ e.leaves →
        ∃ d : Double, value = .real d ∧ d.isNaN = false ∧ d.isNegative = false) ∧
      ∀ d : Dot, (∃ x, (DotFunction.mk e).call d = .ok x) ∨
        ∃ fault, (DotFunction.mk e).call d = .error fault ∧ fault.kind ∈ Fault.documentedKinds := by
  obtain ⟨ts, -, hd⟩ := parse_eq_ok h
  refine ⟨hd.written, fun value hvalue => ?_, fun d => ?_⟩
  · obtain ⟨d, hd, hliteral⟩ := parse_literal h hvalue
    exact ⟨d, hd, hliteral.isNaN, hliteral.isNegative⟩
  · rcases (hd.written.evaluable.call_answers (d := d) nofun).ok_or_error with ⟨x, hx, -⟩ | hfault
    · exact .inl ⟨x, hx⟩
    · exact .inr hfault

/-- The quotient of one by an abscissa. -/
theorem parse_call_documented_quotient :
    let tree : Expr := .binary .div (.number (.real (decimalValue ['1']))) (.name "x")
    Expr.parse "1/x" = .ok tree ∧
      ∀ d : Dot, (∃ x, (DotFunction.mk tree).call d = .ok x) ∨
        ∃ fault, (DotFunction.mk tree).call d = .error fault ∧ fault.kind ∈ Fault.documentedKinds := by
  intro tree
  have hscan : scan "1/x" =
      .ok [⟨.number (decimalValue ['1']), 0⟩, ⟨.symbol .over, 1⟩, ⟨.name "x", 2⟩] := by
    have htext : "1/x".toList = ['1', '/', 'x'] := rfl
    rw [scan, htext]
    repeat refine scanFrom_cons _ (by decide) rfl ?_
    rw [List.drop_nil, scanFrom]
  have hparse : Expr.parse "1/x" = .ok tree := by
    rw [Expr.parse, hscan]
    rfl
  exact ⟨hparse, (parse_call_documented hparse).2.2⟩

/-! ## Formulas -/

/-- A tree of operators, names and finite literals, without calls. -/
inductive Formula : Expr → Prop
  | number {n : Number} : n.isFinite = true → Formula (.number n)
  | name (ident : String) : Formula (.name ident)
  | unary (op : UnaryOp) {a : Expr} : Formula a → Formula (.unary op a)
  | binary (op : BinaryOp) {a b : Expr} : Formula a → Formula b → Formula (.binary op a b)
  | logical (op : LogicalOp) {a b : Expr} : Formula a → Formula b → Formula (.logical op a b)
  | conditional {a b c : Expr} : Formula a → Formula b → Formula c → Formula (.conditional a b c)

theorem Formula.evaluable (h : Formula e) : Evaluable True e := by
  induction h with
  | number hn => exact .number fun _ => hn
  | name ident => exact .name ident
  | unary op _ ih => exact .unary op ih
  | binary op _ _ iha ihb => exact .binary op iha ihb
  | logical op _ _ iha ihb => exact .logical op iha ihb
  | conditional _ _ _ iha ihb ihc => exact .conditional iha ihb ihc

/-- **Finite operands give finite numbers.** A formula whose parameters are finite is evaluated to a finite number or to
a function of the namespace, or stops with a documented fault. The double of a dot with finite numbers is finite. -/
theorem formula_finite (h : Formula e) :
    (∀ scope : Scope, (∀ name n, scope name = some n → n.isFinite = true) → ∀ budget : Nat,
      (∃ n : Number, e.evalWithin scope budget = .ok (.number n) ∧ n.isFinite = true) ∨
      (∃ f : Builtin, e.evalWithin scope budget = .ok (.function f)) ∨
      ∃ fault : Fault, e.evalWithin scope budget = .error fault ∧ fault.Documented) ∧
    ∀ d : Dot, (∀ n ∈ [d.t, d.i, d.x, d.y], n.isFinite = true) →
      (∃ x : Double, (DotFunction.mk e).call d = .ok x ∧ x.isFinite = true) ∨
      ∃ fault : Fault, (DotFunction.mk e).call d = .error fault ∧ fault.Documented := by
  constructor
  · intro scope hscope budget
    rcases (h.evaluable.answers (fun _ => hscope) budget).ok_or_error with ⟨v, hv, hfinite⟩ | hfault
    · cases v with
      | number n => exact .inl ⟨n, hv, hfinite trivial⟩
      | function f => exact .inr (.inl ⟨f, hv⟩)
    · exact .inr (.inr hfault)
  · intro d hd
    rcases (h.evaluable.call_answers fun _ => hd).ok_or_error with ⟨x, hx, hfinite⟩ | hfault
    · exact .inl ⟨x, hx, hfinite trivial⟩
    · exact .inr hfault

/-- The square of a large abscissa is refused. -/
theorem formula_finite_square :
    let tree : Expr := .binary .mul (.name "x") (.name "x")
    let d : Dot := ⟨.integer 0, .integer 0, .real (.ofInt (10 ^ 200)), .integer 0⟩
    Formula tree ∧ (∀ n ∈ [d.t, d.i, d.x, d.y], n.isFinite = true) ∧
      ∃ fault, (DotFunction.mk tree).call d = .error fault ∧ fault.Documented := by
  intro tree d
  have hformula : Formula tree := .binary .mul (.name "x") (.name "x")
  have hfinite : ∀ n ∈ [d.t, d.i, d.x, d.y], n.isFinite = true := by decide +kernel
  have hcall : ((DotFunction.mk tree).call d).isOk = false := by decide +kernel
  refine ⟨hformula, hfinite, ?_⟩
  rcases (formula_finite hformula).2 d hfinite with ⟨x, hx, -⟩ | hfault
  · rw [hx] at hcall
    cases hcall
  · exact hfault

end DotGrid
