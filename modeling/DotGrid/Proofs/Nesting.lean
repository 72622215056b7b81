import DotGrid.Proofs.Evaluation.Dependence
import DotGrid.Proofs.Parser.Exactness
import DotGrid.Proofs.Scanner.Segmentation

/-!
# The limit of nesting

A limit of nesting takes an answer away or leaves it as it is. Both parsers and evaluations have a result that no limit
is part of: `parseUnlimited` is what all limits from some limit on give, and `Expr.value` follows the tree alone. A
result within a limit is this one unless it is too deep (`parseAllWithin_cut`, `evalWithin_cut`), and a higher limit
keeps it (`parseAllWithin_eq_of_le`, `evalWithin_eq_of_le`). So a compiled dot function, and what it gives for a dot,
do not depend on the limit (`limit_only_cuts`).
-/

namespace DotGrid

variable {scope : Scope} {e : Expr} {m n : Nat}

/-! ## Results that are cut off -/

/-- A result is the one that is meant, or it is too deep. -/
def CutOff {α : Type} (meant r : Except Fault α) : Prop := r = .error .tooDeep ∨ r = meant

namespace CutOff

variable {α β : Type} {r r' : Except Fault α}

theorem refl (r : Except Fault α) : CutOff r r := .inr rfl

theorem eq (h : CutOff r' r) (hd : r ≠ .error .tooDeep) : r = r' := h.resolve_left hd

/-- The next step sees the value that is meant, or it is not taken. -/
theorem bind {k k' : α → Except Fault β} (h : CutOff r' r) (hk : ∀ a, CutOff (k' a) (k a)) :
    CutOff (r' >>= k') (r >>= k) := by
  rcases h with rfl | rfl
  · exact .inl rfl
  · cases r with
    | ok a => exact hk a
    | error fault => exact .inr rfl

theorem ite {c : Prop} [Decidable c] {q q' : Except Fault α} (h : CutOff r' r) (h' : CutOff q' q) :
    CutOff (if c then r' else q') (if c then r else q) := by
  split
  · exact h
  · exact h'

theorem mapM {f f' : α → Except Fault β} {as : List α} (h : ∀ a ∈ as, CutOff (f' a) (f a)) :
    CutOff (as.mapM f') (as.mapM f) := by
  induction as with
  | nil => exact refl _
  | cons a as ih =>
    obtain ⟨ha, has⟩ := List.forall_mem_cons.mp h
    rw [List.mapM_cons, List.mapM_cons]
    exact ha.bind fun b => (ih has).bind fun bs => refl _

end CutOff

theorem Fault.kind_eq_recursion_iff {fault : Fault} : fault.kind = "RecursionError" ↔ fault = .tooDeep := by
  cases fault <;> simp [kind]

/-! ## Evaluation -/

mutual

/-- The value of a tree, however deep it is. -/
def Expr.value (scope : Scope) : Expr → Except Fault Value
  | .number value => .ok (.number value)
  | .name ident => scope.lookup ident
  | .unary op operand => do op.apply (← value scope operand)
  | .binary op left right => do
    let a ← value scope left
    let b ← value scope right
    op.apply a b
  | .logical op left right => do
    let a ← value scope left
    if op.goesOn a then value scope right else .ok a
  | .conditional test thenBranch elseBranch => do
    let v ← value scope test
    if v.truthy then value scope thenBranch else value scope elseBranch
  | .call function args => do
    match ← value scope function with
    | .number v => .error (callOfNumber v)
    | .function f => f.apply (← valuesOf scope args)
  | .unsupported op _ => .error (.unknownOperator op)
  | .foreign kind => .error (.unknownNode kind)

/-- The values of some trees, one after the other. -/
def Expr.valuesOf (scope : Scope) : List Expr → Except Fault (List Value)
  | [] => .ok []
  | e :: es => do
    let v ← value scope e
    let vs ← valuesOf scope es
    .ok (v :: vs)

end

theorem Expr.valuesOf_eq_mapM (es : List Expr) : valuesOf scope es = es.mapM (value scope) := by
  induction es with
  | nil => rfl
  | cons e es ih => rw [List.mapM_cons, valuesOf, ih]; rfl

/-- A tree has fewer nodes in its parts than in all. -/
theorem Expr.size_lt_of_part {part : Expr} (h : part ∈ e.children) : part.size < e.size := by
  have hall : ∀ es : List Expr, part ∈ es → part.size ≤ sizeAll es := by
    intro es hmem
    induction es with
    | nil => cases hmem
    | cons a as ih =>
      rw [sizeAll]
      rcases List.mem_cons.mp hmem with rfl | hmem
      · omega
      · have := ih hmem
        omega
  have := hall e.children h
  rw [size_eq e]
  omega

theorem Expr.value_eq_step (e : Expr) : e.value scope = e.step scope (value scope) := by
  cases e with
  | call f args =>
    rw [step, ← valuesOf_eq_mapM]
    rfl
  | _ => rfl

/-- A limit that is not below the number of nodes is never reached. -/
theorem evalWithin_eq_value (h : e.size ≤ n) : e.evalWithin scope n = e.value scope := by
  induction n generalizing e with
  | zero => rw [Expr.size_eq] at h; omega
  | succ n ih =>
    rw [Expr.evalWithin_succ, Expr.value_eq_step]
    refine Expr.step_congr (fun _ _ => rfl) fun part hmem => ?_
    have hsize := Expr.size_lt_of_part hmem
    exact ih (by omega)

/-- A part that is cut off cuts off the tree, and what follows it is not evaluated. -/
theorem step_cut {meant eval : Expr → Except Fault Value} (h : ∀ part, CutOff (meant part) (eval part)) (e : Expr) :
    CutOff (e.step scope meant) (e.step scope eval) := by
  cases e with
  | number value => exact .refl _
  | name ident => exact .refl _
  | unary op a => exact (h a).bind fun v => .refl _
  | binary op a b => exact (h a).bind fun v => (h b).bind fun w => .refl _
  | logical op a b => exact (h a).bind fun v => .ite (h b) (.refl _)
  | conditional a b c => exact (h a).bind fun v => .ite (h b) (h c)
  | call f args =>
    refine (h f).bind fun v => ?_
    cases v with
    | number k => exact .refl _
    | function g => exact (CutOff.mapM fun a _ => h a).bind fun vs => .refl _
  | unsupported op operands => exact .refl _
  | foreign kind => exact .refl _

/-- A lower limit cuts off results of a higher one and changes none. -/
theorem evalWithin_cut_of_le (h : m ≤ n) (e : Expr) : CutOff (e.evalWithin scope n) (e.evalWithin scope m) := by
  induction m generalizing n e with
  | zero => exact .inl rfl
  | succ m ih =>
    obtain ⟨n, rfl⟩ : ∃ k, n = k + 1 := ⟨n - 1, by omega⟩
    rw [Expr.evalWithin_succ, Expr.evalWithin_succ]
    exact step_cut (ih (Nat.le_of_succ_le_succ h)) e

theorem evalWithin_eq_of_le (h : m ≤ n) (hd : e.evalWithin scope m ≠ .error .tooDeep) :
    e.evalWithin scope n = e.evalWithin scope m :=
  ((evalWithin_cut_of_le h e).eq hd).symm

theorem evalWithin_cut (e : Expr) (n : Nat) : CutOff (e.value scope) (e.evalWithin scope n) := by
  rw [← evalWithin_eq_value (Nat.le_max_right n e.size)]
  exact evalWithin_cut_of_le (Nat.le_max_left n e.size) e

theorem lookup_ne_tooDeep (ident : String) : FaultsOnly (· ≠ .tooDeep) (scope.lookup ident) := by
  unfold Scope.lookup
  split
  · exact .ok _
  · split
    · exact .ok _
    · exact .error nofun

/-- Without a limit no tree is too deep. The induction is on the number of nodes. -/
theorem value_faults (h : e.size ≤ n) : FaultsOnly (· ≠ .tooDeep) (e.value scope) := by
  induction n generalizing e with
  | zero => rw [Expr.size_eq] at h; omega
  | succ n ih =>
    rw [Expr.value_eq_step]
    refine Expr.step_faults (fun _ => Fault.IsOfStep.ne_tooDeep) (fun ident _ => lookup_ne_tooDeep ident) ?_
    intro part hmem
    have hsize := Expr.size_lt_of_part hmem
    exact ih (by omega)

theorem value_ne_tooDeep (e : Expr) : e.value scope ≠ .error .tooDeep :=
  fun h => (value_faults (Nat.le_refl _)).of_eq_error h rfl

/-! ## Parsing -/

/-- The outcome of the parser without a limit: the one that all limits from some limit on give. -/
def parseUnlimited (ts : List Token) : Outcome Expr := parseAllWithin (16 * (ts.length + 1)) ts

theorem parseAllWithin_eq_unlimited {ts : List Token} (h : 16 * (ts.length + 1) ≤ n) :
    parseAllWithin n ts = parseUnlimited ts :=
  parseAllWithin_eq_of_le h (parseAllWithin_enough (Nat.le_refl _))

theorem parseAllWithin_cut (n : Nat) (ts : List Token) :
    (∃ rest, parseAllWithin n ts = .stopped .tooDeep rest) ∨ parseAllWithin n ts = parseUnlimited ts := by
  by_cases hd : ∃ rest, parseAllWithin n ts = .stopped .tooDeep rest
  · exact .inl hd
  · have heq := parseAllWithin_eq_of_le (Nat.le_max_left n (16 * (ts.length + 1))) (not_exists.mp hd)
    exact .inr (heq.symm.trans (parseAllWithin_eq_unlimited (Nat.le_max_right _ _)))

/-! ## Dot functions -/

/-- The expression of a source text, within a limit. -/
def Expr.parseWithin (limit : Nat) (source : String) : Except ParseFault Expr :=
  match scan source with
  | .error stray => .error (.incorrect (.stray stray))
  | .ok tokens => (parseAllWithin limit tokens).toExcept source.length

namespace DotFunction

/-- The dot function of a source text that is an expression within a limit. -/
def compileWithin? (limit : Nat) (source : String) : Option DotFunction :=
  match Expr.parseWithin limit source with
  | .ok tree => some ⟨tree⟩
  | .error _ => none

/-- The double of a dot, within a limit. -/
def callWithin (limit : Nat) (f : DotFunction) (d : Dot) : Except Fault Double := do
  match ← f.tree.evalWithin d.scope limit with
  | .number n => n.toDouble
  | .function g => .error (.functionAsResult g)

variable {source : String} {f : DotFunction} {d : Dot}

theorem compileWithin?_nestingLimit : compileWithin? nestingLimit source = compile? source := rfl

theorem callWithin_nestingLimit : callWithin nestingLimit f d = f.call d := rfl

theorem compileWithin?_eq_some_iff : compileWithin? n source = some f ↔ Expr.parseWithin n source = .ok f.tree := by
  unfold compileWithin?
  split
  · rename_i tree htree
    rw [htree]
    exact ⟨fun h => by cases h; rfl, fun h => by cases h; rfl⟩
  · rename_i fault hfault
    rw [hfault]
    exact ⟨nofun, nofun⟩

/-- The faults of a text within two limits are the same, as long as neither limit is reached. -/
theorem parseWithin_eq (h : m ≤ n) (hd : Expr.parseWithin m source ≠ .error .tooDeep) :
    Expr.parseWithin n source = Expr.parseWithin m source := by
  unfold Expr.parseWithin at hd ⊢
  split
  · rfl
  · rename_i tokens htokens
    rw [htokens] at hd
    rw [parseAllWithin_eq_of_le h (toExcept_ne_tooDeep_iff.mp hd)]

theorem parseWithin_eq_or_tooDeep (m : Nat) (h : Expr.parseWithin n source = .ok f.tree) :
    Expr.parseWithin m source = .ok f.tree ∨ Expr.parseWithin m source = .error .tooDeep := by
  have hn : Expr.parseWithin n source ≠ .error .tooDeep := by rw [h]; nofun
  rcases Nat.le_total n m with hle | hle
  · exact .inl ((parseWithin_eq hle hn).trans h)
  · by_cases hm : Expr.parseWithin m source = .error .tooDeep
    · exact .inr hm
    · exact .inl ((parseWithin_eq hle hm).symm.trans h)

theorem callWithin_cut_of_le (h : m ≤ n) : CutOff (callWithin n f d) (callWithin m f d) := by
  refine (evalWithin_cut_of_le h f.tree).bind fun v => ?_
  cases v with
  | number k => exact .refl _
  | function g => exact .refl _

theorem callWithin_eq_or_tooDeep (m : Nat) (h : callWithin n f d ≠ .error .tooDeep) :
    callWithin m f d = callWithin n f d ∨ callWithin m f d = .error .tooDeep := by
  rcases Nat.le_total n m with hle | hle
  · exact .inl ((callWithin_cut_of_le hle).eq h).symm
  · exact (callWithin_cut_of_le hle).symm

end DotFunction

/-! ## Limits -/

/-- What a limit does to the parser: it is stopped for the depth, or it gives what it gives without a limit, the same
tree or the same complaint with the same tokens ahead. -/
structure CutsParser (ts : List Token) (limit : Nat) : Prop where
  cut : (∃ rest, parseAllWithin limit ts = .stopped .tooDeep rest) ∨ parseAllWithin limit ts = parseUnlimited ts
  raise : ∀ higher, limit ≤ higher → (∀ rest, parseAllWithin limit ts ≠ .stopped .tooDeep rest) →
    parseAllWithin higher ts = parseAllWithin limit ts
  enough : 16 * (ts.length + 1) ≤ limit → parseAllWithin limit ts = parseUnlimited ts
  unlimited : ∀ rest, parseUnlimited ts ≠ .stopped .tooDeep rest

/-- What a limit does to the evaluation of a tree, with a value or a fault. -/
structure CutsEvaluation (scope : Scope) (e : Expr) (limit : Nat) : Prop where
  cut : e.evalWithin scope limit = .error .tooDeep ∨ e.evalWithin scope limit = e.value scope
  raise : ∀ higher, limit ≤ higher → e.evalWithin scope limit ≠ .error .tooDeep →
    e.evalWithin scope higher = e.evalWithin scope limit
  enough : e.size ≤ limit → e.evalWithin scope limit = e.value scope
  unlimited : e.value scope ≠ .error .tooDeep

/-- The result of a dot within a limit is its only result, apart from that of too deep a nesting. -/
structure OnlyResult (f : DotFunction) (d : Dot) (limit : Nat) : Prop where
  cut : ∀ other, f.callWithin other d = f.callWithin limit d ∨ f.callWithin other d = .error .tooDeep
  raise : ∀ higher, limit ≤ higher → f.callWithin higher d = f.callWithin limit d

/-- A dot function that is compiled within a limit is the only one of its text, and gives each dot one result. -/
structure OnlyFunction (source : String) (limit : Nat) (f : DotFunction) : Prop where
  cut : ∀ other, DotFunction.compileWithin? other source = some f ∨ Expr.parseWithin other source = .error .tooDeep
  raise : ∀ higher, limit ≤ higher → DotFunction.compileWithin? higher source = some f
  results : ∀ (d : Dot) (n : Nat), (∀ fault, f.callWithin n d = .error fault → fault.kind ≠ "RecursionError") →
    OnlyResult f d n

/-- Limits of nesting take answers away and do nothing else. -/
structure LimitsOnlyCut : Prop where
  parser : ∀ ts limit, CutsParser ts limit
  evaluation : ∀ scope e limit, CutsEvaluation scope e limit
  functions : ∀ source limit f, DotFunction.compileWithin? limit source = some f → OnlyFunction source limit f

namespace DotFunction

theorem onlyResult (h : ∀ fault, f.callWithin n d = .error fault → fault.kind ≠ "RecursionError") :
    OnlyResult f d n := by
  have hd : f.callWithin n d ≠ .error .tooDeep :=
    fun heq => h .tooDeep heq (Fault.kind_eq_recursion_iff.mpr rfl)
  exact ⟨fun other => callWithin_eq_or_tooDeep other hd, fun higher hle => ((callWithin_cut_of_le hle).eq hd).symm⟩

theorem onlyFunction (h : compileWithin? n source = some f) : OnlyFunction source n f := by
  have hparse := compileWithin?_eq_some_iff.mp h
  refine ⟨fun other => ?_, fun higher hle => ?_, fun d m => onlyResult⟩
  · rw [compileWithin?_eq_some_iff]
    exact parseWithin_eq_or_tooDeep other hparse
  · have hd : Expr.parseWithin n source ≠ .error .tooDeep := by rw [hparse]; nofun
    rw [compileWithin?_eq_some_iff, parseWithin_eq hle hd, hparse]

end DotFunction

/-- **A limit of nesting only takes answers away.** Within any limit, the parser is stopped for the depth, or it gives
what it gives without a limit: the same tree, or the same complaint with the same tokens ahead. So it is with the
evaluation of any tree, for a value and for a fault. What is not stopped for the depth stays the same when the limit is
raised, and from some limit on nothing is stopped. Hence a dot function that is compiled within one limit is the only
one that is compiled within any limit, and a dot has one result, if it is not that of too deep a nesting. -/
theorem limit_only_cuts : LimitsOnlyCut where
  parser ts limit :=
    { cut := parseAllWithin_cut limit ts
      raise := fun _ => parseAllWithin_eq_of_le
      enough := parseAllWithin_eq_unlimited
      unlimited := parseAllWithin_enough (Nat.le_refl _) }
  evaluation _ e limit :=
    { cut := evalWithin_cut e limit
      raise := fun _ => evalWithin_eq_of_le
      enough := evalWithin_eq_value
      unlimited := value_ne_tooDeep e }
  functions _ _ _ := DotFunction.onlyFunction

/-- A sign before a name, which takes seventeen nested phrases and two nested nodes. -/
theorem limit_only_cuts_sign :
    let ts : List Token := [⟨.symbol .minus, 0⟩, ⟨.name "x", 1⟩]
    let f : DotFunction := ⟨.unary .negate (.name "x")⟩
    let d : Dot := ⟨.integer 0, .integer 0, .integer 7, .integer 0⟩
    parseAllWithin 16 ts = .stopped .tooDeep ts.tail ∧ parseAllWithin 900 ts = parseAllWithin 17 ts ∧
      parseAllWithin 900 ts = parseUnlimited ts ∧
      f.tree.evalWithin d.scope 1 = .error .tooDeep ∧ f.tree.evalWithin d.scope 900 = f.tree.evalWithin d.scope 2 ∧
      f.tree.evalWithin d.scope 900 = f.tree.value d.scope ∧
      DotFunction.compileWithin? 900 "-x" = some f ∧ f.callWithin 900 d = f.callWithin 2 d := by
  intro ts f d
  have hscan : scan "-x" = .ok ts := by
    have htext : "-x".toList = ['-', 'x'] := rfl
    rw [scan, htext]
    repeat refine scanFrom_cons _ (by decide) rfl ?_
    rw [List.drop_nil, scanFrom]
  have hparse : parseAllWithin 17 ts = .done f.tree [] := rfl
  have hcompile : DotFunction.compileWithin? 17 "-x" = some f := by
    rw [DotFunction.compileWithin?_eq_some_iff, Expr.parseWithin, hscan]
    rfl
  have hvalue : f.tree.evalWithin d.scope 2 = .ok (.number (.integer (-7))) := rfl
  have hcall : (f.callWithin 2 d).isOk = true := by decide +kernel
  have hfunction := limit_only_cuts.functions "-x" 17 f hcompile
  have hresult : OnlyResult f d 2 := hfunction.results d 2 fun fault hfault => by rw [hfault] at hcall; cases hcall
  exact ⟨rfl, (limit_only_cuts.parser ts 17).raise 900 (by decide) fun rest => by simp [hparse],
    (limit_only_cuts.parser ts 900).enough (by decide), rfl,
    (limit_only_cuts.evaluation d.scope f.tree 2).raise 900 (by decide) (by simp [hvalue]),
    (limit_only_cuts.evaluation d.scope f.tree 900).enough (by decide), hfunction.raise 900 (by decide),
    hresult.raise 900 (by decide)⟩

end DotGrid
