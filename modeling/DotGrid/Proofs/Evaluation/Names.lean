import DotGrid.Evaluation.DotFunction
import DotGrid.Proofs.Distinct
import DotGrid.Proofs.Evaluation.Step
import DotGrid.Proofs.Leaves

/-!
# Names of an evaluation

An evaluation looks up names of its tree only. So a name that it cannot resolve is a name of the tree that is neither a
parameter nor in the namespace (`evalWithin_unresolved`). `DotFunction.unresolvedNames` lists just these names among the
names of the text, and the report on an unresolved name is about one of them (`unresolvedNames_exact`).
-/

namespace DotGrid

variable {scope : Scope} {e : Expr} {name : String}

/-! ## Names of parts -/

theorem Expr.leavesOf_names (es : List Expr) : (leavesOf es).filterMap ident? = es.flatMap names := by
  induction es with
  | nil => rfl
  | cons e es ih => simp [leavesOf, ih, names_eq]

/-- The names of a tree are its own name or those of its parts, one part after the other. -/
theorem Expr.names_eq_append (e : Expr) : e.names = e.ident?.toList ++ e.children.flatMap names := by
  rw [names_eq, leaves_names, leavesOf_names]

theorem Expr.mem_names_name (ident : String) : ident ∈ (Expr.name ident).names := by
  rw [names_eq_append]
  exact List.mem_append_left _ (List.mem_singleton_self ident)

theorem Expr.mem_names_of_part {part : Expr} (hpart : part ∈ e.children) (h : name ∈ part.names) : name ∈ e.names := by
  rw [names_eq_append]
  exact List.mem_append_right _ (List.mem_flatMap.mpr ⟨part, hpart, h⟩)

theorem namespaceEntries_names : namespaceEntries.map (·.1) = constants.map (·.1) ++ Builtin.all.map Builtin.name := by
  rw [namespaceEntries, List.map_append, List.map_map, List.map_map]
  rfl

theorem namespaceValue?_eq_none_iff : namespaceValue? name = none ↔ name ∉ namespaceEntries.map (·.1) := by
  rw [namespaceEntries_names, List.mem_append, not_or]
  unfold namespaceValue?
  split
  · rename_i g hg
    have hname : g.name = name := by simpa using List.find?_some hg
    have hmem : name ∈ Builtin.all.map Builtin.name := List.mem_map.mpr ⟨g, g.mem_all, hname⟩
    simp [hmem]
  · rename_i hnone
    have hmem : name ∉ Builtin.all.map Builtin.name := by simpa using List.find?_eq_none.mp hnone
    simp only [Option.map_eq_none_iff, List.find?_eq_none, decide_eq_true_eq, hmem, not_false_eq_true, and_true]
    exact ⟨fun h hc => let ⟨c, hc, hname⟩ := List.mem_map.mp hc; h c hc hname,
      fun h c hc hname => h (List.mem_map.mpr ⟨c, hc, hname⟩)⟩

/-! ## Faults about names -/

theorem Fault.kind_eq_unresolved_iff {fault : Fault} :
    fault.kind = "UnresolvedNameError" ↔ ∃ name, fault = .unresolvedName name := by
  cases fault <;> simp [kind]

/-- The name stands for nothing. -/
def Scope.Lacks (scope : Scope) (name : String) : Prop := scope name = none ∧ namespaceValue? name = none

/-- The fault is about no name, or about a name of a tree that stands for nothing. -/
def Fault.BlamesNames (scope : Scope) (e : Expr) (fault : Fault) : Prop :=
  ∀ name, fault = .unresolvedName name → name ∈ e.names ∧ scope.Lacks name

theorem Fault.BlamesNames.of_part {fault : Fault} {part : Expr} (hpart : part ∈ e.children)
    (h : fault.BlamesNames scope part) : fault.BlamesNames scope e := fun name hname =>
  ⟨Expr.mem_names_of_part hpart (h name hname).1, (h name hname).2⟩

theorem Fault.IsOfStep.blamesNames {fault : Fault} (h : fault.IsOfStep) : fault.BlamesNames scope e :=
  fun name hname => absurd hname (h.ne_unresolvedName name)

theorem lookup_faults (ident : String) : FaultsOnly (·.BlamesNames scope (.name ident)) (scope.lookup ident) := by
  unfold Scope.lookup
  split
  · exact .ok _
  · rename_i hscope
    split
    · exact .ok _
    · rename_i hnamespace
      refine .error fun name hname => ?_
      obtain rfl := Fault.unresolvedName.inj hname
      exact ⟨Expr.mem_names_name ident, hscope, hnamespace⟩

/-- The faults of a tree, for every budget: each part blames its own names and a step blames only that of its node. -/
theorem evalWithin_faults (e : Expr) (budget : Nat) :
    FaultsOnly (·.BlamesNames scope e) (e.evalWithin scope budget) := by
  induction budget generalizing e with
  | zero => exact .error nofun
  | succ n ih =>
    rw [Expr.evalWithin_succ]
    refine Expr.step_faults (fun _ => Fault.IsOfStep.blamesNames) ?_ fun part hmem => ?_
    · rintro ident rfl
      exact lookup_faults ident
    · exact (ih part).mono fun _ => .of_part hmem

/-- A name that an evaluation cannot resolve is a name of the tree, and it stands for nothing. -/
theorem evalWithin_unresolved {budget : Nat} (h : e.evalWithin scope budget = .error (.unresolvedName name)) :
    name ∈ e.names ∧ scope.Lacks name :=
  (evalWithin_faults e budget).of_eq_error h name rfl

/-! ## Dot functions -/

theorem Dot.scope_eq_none_iff (d : Dot) (name : String) : d.scope name = none ↔ name ∉ parameterNames := by
  unfold Dot.scope
  split <;> simp_all [parameterNames]

namespace DotFunction

variable {f : DotFunction}

theorem mem_unresolvedNames_iff :
    name ∈ f.unresolvedNames ↔
      name ∈ f.tree.names ∧ name ∉ parameterNames ∧ name ∉ namespaceEntries.map (·.1) := by
  rw [unresolvedNames, (inFirstOrder_firstOccurrences _).mem_iff, ← namespaceValue?_eq_none_iff]
  simp

/-- A dot function that cannot resolve a name has it among its unresolved names. -/
theorem mem_unresolvedNames_of_call {d : Dot} (h : f.call d = .error (.unresolvedName name)) :
    name ∈ f.unresolvedNames := by
  have hcall : FaultsOnly (·.BlamesNames d.scope f.tree) (f.call d) := by
    refine (evalWithin_faults f.tree nestingLimit).bind fun v => ?_
    cases v with
    | number n => exact (toDouble_faults n).mono fun _ h => (Fault.IsOfStep.of_operation h).blamesNames
    | function g => exact .error nofun
  obtain ⟨hname, hscope, hnamespace⟩ := hcall.of_eq_error h name rfl
  exact mem_unresolvedNames_iff.mpr ⟨hname, (d.scope_eq_none_iff name).mp hscope,
    namespaceValue?_eq_none_iff.mp hnamespace⟩

theorem compile?_eq_some {source : String} (h : compile? source = some f) : Expr.parse source = .ok f.tree := by
  unfold compile? at h
  split at h
  · rename_i tree hparse
    cases h
    exact hparse
  · cases h

end DotFunction

/-- **Unresolved names are diagnosed exactly.** The unresolved names of a text that is compiled are the names among its
tokens that are neither a parameter nor in the namespace, each of them once and in the order in which they occur first.
If a call reports an unresolved name, the report is about one of them; if there are none, no call does. -/
theorem unresolvedNames_exact {source : String} {f : DotFunction} (h : DotFunction.compile? source = some f) :
    ∃ ts, scan source = .ok ts ∧
      let identifiers := (lexemes ts).filterMap Lexeme.name?
      (∀ name, name ∈ f.unresolvedNames ↔
        name ∈ identifiers ∧ name ∉ ["t", "i", "x", "y"] ∧ name ∉ namespaceEntries.map (·.1)) ∧
      f.unresolvedNames.Nodup ∧
      f.unresolvedNames.Pairwise (fun m n => identifiers.idxOf m < identifiers.idxOf n) ∧
      (∀ d fault, f.call d = .error fault → fault.kind = "UnresolvedNameError" →
        ∃ name ∈ f.unresolvedNames, fault.message? = some ("'" ++ name ++ "' is not defined")) ∧
      (f.unresolvedNames = [] → ∀ d fault, f.call d = .error fault → fault.kind ≠ "UnresolvedNameError") := by
  obtain ⟨ts, hscan, hd⟩ := parse_eq_ok (DotFunction.compile?_eq_some h)
  have hnames : f.tree.names = (lexemes ts).filterMap Lexeme.name? := by
    rw [Expr.names_eq, hd.leaves_eq, leavesIn_names]
  have hreport : ∀ d fault, f.call d = .error fault → fault.kind = "UnresolvedNameError" →
      ∃ name ∈ f.unresolvedNames, fault.message? = some ("'" ++ name ++ "' is not defined") := by
    intro d fault hcall hkind
    obtain ⟨name, rfl⟩ := Fault.kind_eq_unresolved_iff.mp hkind
    exact ⟨name, DotFunction.mem_unresolvedNames_of_call hcall, rfl⟩
  have horder : InFirstOrder f.unresolvedNames _ := inFirstOrder_firstOccurrences _
  refine ⟨ts, hscan, ?_⟩
  intro identifiers
  rw [hnames] at horder
  refine ⟨fun name => ?_, horder.nodup, horder.ordered_of_filter, hreport, ?_⟩
  · rw [DotFunction.mem_unresolvedNames_iff, hnames]
    rfl
  · intro hnone d fault hcall hkind
    obtain ⟨name, hname, -⟩ := hreport d fault hcall hkind
    rw [hnone] at hname
    cases hname

/-- A name that occurs twice, one that occurs after it, a parameter, and a function of the namespace. -/
theorem unresolvedNames_exact_product :
    let f : DotFunction := ⟨.binary .mul (.binary .mul (.name "b") (.name "x"))
      (.call (.name "sin") [.binary .mul (.name "a") (.name "b")])⟩
    DotFunction.compile? "b*x*sin(a*b)" = some f ∧ f.unresolvedNames = ["b", "a"] ∧
      ∀ d fault, f.call d = .error fault → fault.kind = "UnresolvedNameError" →
        ∃ name ∈ f.unresolvedNames, fault.message? = some ("'" ++ name ++ "' is not defined") := by
  intro f
  have hscan : scan "b*x*sin(a*b)" = .ok
      [⟨.name "b", 0⟩, ⟨.symbol .times, 1⟩, ⟨.name "x", 2⟩, ⟨.symbol .times, 3⟩, ⟨.name "sin", 4⟩,
        ⟨.symbol .opening, 7⟩, ⟨.name "a", 8⟩, ⟨.symbol .times, 9⟩, ⟨.name "b", 10⟩, ⟨.symbol .closing, 11⟩] := by
    have htext : "b*x*sin(a*b)".toList = ['b', '*', 'x', '*', 's', 'i', 'n', '(', 'a', '*', 'b', ')'] := rfl
    rw [scan, htext]
    repeat refine scanFrom_cons _ (by decide) rfl ?_
    rw [List.drop_nil, scanFrom]
  have hparse : Expr.parse "b*x*sin(a*b)" = .ok f.tree := by
    rw [Expr.parse, hscan]
    rfl
  have hcompile : DotFunction.compile? "b*x*sin(a*b)" = some f := by
    rw [DotFunction.compile?, hparse]
  obtain ⟨ts, -, -, -, -, hreport, -⟩ := unresolvedNames_exact hcompile
  have hnames : f.unresolvedNames = ["b", "a"] := by
    rw [DotFunction.unresolvedNames, Expr.names_eq]
    decide +kernel
  exact ⟨hcompile, hnames, hreport⟩

end DotGrid
