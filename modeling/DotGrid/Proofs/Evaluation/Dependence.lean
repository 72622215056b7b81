import DotGrid.Proofs.Evaluation.Names
import DotGrid.Proofs.Frame.Grid

/-!
# What an evaluation depends on

Two scopes in which the names of a tree stand for the same things give the same result, value or fault, whatever the
budget is (`evalWithin_congr`): a tree sees its scope through its names only. So a dot function that names neither the
index nor the place of a dot has one result for all dots of a frame, and the frame shows one value or one fault
(`eval_depends_on_names`).
-/

namespace DotGrid

variable {s s' : Scope} {e : Expr} {f : DotFunction} {t : Number}

/-! ## Trees -/

theorem lookup_congr {ident : String} (h : s ident = s' ident) : s.lookup ident = s'.lookup ident := by
  simp only [Scope.lookup, h]

theorem evalWithin_congr (h : ∀ name ∈ e.names, s name = s' name) (budget : Nat) :
    e.evalWithin s budget = e.evalWithin s' budget := by
  induction budget generalizing e with
  | zero => rfl
  | succ n ih =>
    rw [Expr.evalWithin_succ, Expr.evalWithin_succ]
    refine Expr.step_congr ?_ fun part hmem => ih fun name hname => h name (Expr.mem_names_of_part hmem hname)
    rintro ident rfl
    exact lookup_congr (h ident (Expr.mem_names_name ident))

/-! ## Dots -/

theorem call_congr {d d' : Dot} (h : ∀ name ∈ f.tree.names, d.scope name = d'.scope name) : f.call d = f.call d' := by
  simp only [DotFunction.call, Expr.eval, evalWithin_congr h]

/-- A dot function that does not name the index and the place of a dot has one result at each instant. -/
theorem call_eq_of_not_named (h : ∀ name ∈ ["i", "x", "y"], name ∉ f.tree.names) {d d' : Dot} (ht : d.t = d'.t) :
    f.call d = f.call d' := by
  refine call_congr fun name hname => ?_
  have hother : name ∉ ["i", "x", "y"] := fun hmem => h name hmem hname
  unfold Dot.scope
  split <;> simp_all

/-! ## Frames -/

/-- A frame of dots with one result shows its value everywhere, and its fault once if there is a dot. -/
theorem frame_of_const {size : Nat} {r : Except Fault Double} (h : ∀ y x, f.call (dotAt t size y x) = r)
    (clamp : Bool) :
    (f.frame t size clamp).values = gridOf size (fun _ _ => sampled clamp r) ∧
      (f.frame t size clamp).errors = (if size = 0 then [] else (faultOf r).toList) ∧
      (f.frame t size clamp).failed = (faultOf r).toList.length * (size * size) := by
  have hresults : (gridOf size fun y x => f.call (dotAt t size y x)).flatten = List.replicate (size * size) r := by
    simp only [h, gridOf_const, List.flatten_replicate_replicate]
  refine ⟨by simp only [DotFunction.frame, map_gridOf, h], ?_⟩
  simp only [DotFunction.frame, hresults, List.filterMap_replicate]
  cases faultOf r with
  | none => simp [firstOccurrences, occurrencesAfter]
  | some fault =>
    have hsquare : size * size = 0 ↔ size = 0 := by rw [Nat.mul_eq_zero, or_self]
    simp [firstOccurrences_replicate, hsquare]

/-- **An evaluation depends on the names of its tree only.** Two scopes that agree on the names of a tree, where both
give a name the same number or both do not know it, give the same value or the same fault, whatever the budget is. A dot
function that does not name the index and the place of a dot has one result for all dots of a frame: the frame shows its
value everywhere, or it fails everywhere with this fault as the only one. -/
theorem eval_depends_on_names :
    (∀ (e : Expr) (s s' : Scope), (∀ name ∈ e.names, s name = s' name) →
      ∀ budget, e.evalWithin s budget = e.evalWithin s' budget) ∧
    ∀ f : DotFunction, (∀ name ∈ ["i", "x", "y"], name ∉ f.tree.names) → ∀ (t : Number) (size : Nat) (clamp : Bool),
      ∃ r : Except Fault Double, (∀ y x, f.call (dotAt t size y x) = r) ∧
        (f.frame t size clamp).values = gridOf size (fun _ _ => sampled clamp r) ∧
        (f.frame t size clamp).errors = (if size = 0 then [] else (faultOf r).toList) ∧
        (f.frame t size clamp).failed = (faultOf r).toList.length * (size * size) := by
  refine ⟨fun e s s' h => evalWithin_congr h, fun f hf t size clamp => ?_⟩
  have hconst : ∀ y x, f.call (dotAt t size y x) = f.call (dotAt t size 0 0) :=
    fun y x => call_eq_of_not_named hf rfl
  exact ⟨_, hconst, frame_of_const hconst clamp⟩

/-- A quotient by the time: two scopes that differ at a name that it does not have, and the frame at the instant zero,
where every dot divides by zero. -/
theorem eval_depends_on_names_quotient :
    let e : Expr := .binary .div (.name "PI") (.name "t")
    let s : Scope := fun name => if name = "t" then some (.integer 0) else none
    let s' : Scope := fun name => if name = "x" then some (.integer 1) else s name
    (∀ name ∈ e.names, s name = s' name) ∧ s "x" ≠ s' "x" ∧ e.eval s = e.eval s' ∧
      (∀ name ∈ ["i", "x", "y"], name ∉ e.names) ∧
      ((DotFunction.mk e).frame (.integer 0) 2 true).errors = [.divisionByZero true] ∧
      ((DotFunction.mk e).frame (.integer 0) 2 true).failed = 4 := by
  intro e s s'
  have hnames : e.names = ["PI", "t"] := by rw [Expr.names_eq]; rfl
  have hagree : ∀ name ∈ e.names, s name = s' name := by
    rw [hnames]
    decide
  have hother : ∀ name ∈ ["i", "x", "y"], name ∉ e.names := by
    rw [hnames]
    decide
  have hfault : faultOf ((DotFunction.mk e).call (dotAt (.integer 0) 2 0 0)) = some (.divisionByZero true) := by
    decide +kernel
  obtain ⟨r, hr, -, herrors, hfailed⟩ := eval_depends_on_names.2 ⟨e⟩ hother (.integer 0) 2 true
  rw [hr] at hfault
  rw [hfault] at herrors hfailed
  exact ⟨hagree, nofun, eval_depends_on_names.1 e s s' hagree nestingLimit, hother, herrors, hfailed⟩

end DotGrid
