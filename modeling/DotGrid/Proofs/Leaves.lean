import DotGrid.Proofs.Parser.Exactness
import DotGrid.Proofs.Scanner.Segmentation

/-!
# The leaves of a tree

`Expr.leaves` walks through a tree by recursion, from left to right, and lists its literals and names.

* The worklist of `Expr.namesOf` meets the names in this order, whatever the tree is (`namesOf_eq`): a list of trees on
  the worklist stands for their leaves one after the other.
* A phrase has the literals and names of its lexemes as leaves (`Derives.leaves_eq`), so that none is lost, doubled or
  moved between a text and its tree (`parse_leaves`).
-/

namespace DotGrid

/-! ## Recursion from left to right -/

namespace Expr

mutual

/-- The literals and names of a tree, from left to right. -/
def leaves : Expr → List Expr
  | .number value => [.number value]
  | .name ident => [.name ident]
  | .unary _ a => leaves a
  | .binary _ a b | .logical _ a b => leaves a ++ leaves b
  | .conditional a b c => leaves a ++ (leaves b ++ leaves c)
  | .call f args => leaves f ++ leavesOf args
  | .unsupported _ operands => leavesOf operands
  | .foreign _ => []

/-- The literals and names of a list of trees. -/
def leavesOf : List Expr → List Expr
  | [] => []
  | e :: es => leaves e ++ leavesOf es

end

theorem leavesOf_append (es fs : List Expr) : leavesOf (es ++ fs) = leavesOf es ++ leavesOf fs := by
  induction es with
  | nil => rfl
  | cons e es ih => simp [leavesOf, ih]

/-- The names among the leaves of a tree: its own name, or those of its parts. -/
theorem leaves_names (e : Expr) :
    e.leaves.filterMap ident? = e.ident?.toList ++ (leavesOf e.children).filterMap ident? := by
  cases e <;> simp [leaves, leavesOf, children, ident?]

/-- The worklist meets the names of its trees one after the other. -/
theorem namesOf_eq (es : List Expr) : namesOf es = (leavesOf es).filterMap ident? := by
  fun_induction namesOf es with
  | case1 => rfl
  | case2 e rest ih =>
    rw [ih, leavesOf_append, List.filterMap_append, ← List.append_assoc, ← leaves_names]
    simp [leavesOf]

theorem names_eq (e : Expr) : e.names = e.leaves.filterMap ident? := by
  simp [names, namesOf_eq, leavesOf]

end Expr

/-! ## Leaves of a phrase -/

/-- The leaf that a lexeme stands for: a literal or a name. -/
def Lexeme.leaf? : Lexeme → Option Expr
  | .number value => some (.number (.real value))
  | .name ident => some (.name ident)
  | .symbol _ => none

/-- The name that a lexeme is. -/
def Lexeme.name? : Lexeme → Option String
  | .name ident => some ident
  | _ => none

theorem Lexeme.leaf?_ident (l : Lexeme) : l.leaf?.bind Expr.ident? = l.name? := by
  cases l <;> rfl

/-- The leaves that the lexemes of a text stand for. -/
abbrev leavesIn (w : List Lexeme) : List Expr := w.filterMap Lexeme.leaf?

@[simp] theorem leavesIn_symbol (s : Symbol) (w : List Lexeme) : leavesIn (.symbol s :: w) = leavesIn w :=
  rfl

theorem leavesIn_commaSeparated (ws : List (List Lexeme)) :
    leavesIn (commaSeparated ws) = ws.flatMap leavesIn := by
  induction ws with
  | nil => rfl
  | cons w ws ih =>
    cases ws with
    | nil => simp
    | cons w' ws =>
      rw [commaSeparated, List.intercalate_cons_cons]
      simp only [leavesIn, List.filterMap_append] at ih ⊢
      simpa [Lexeme.leaf?] using ih

@[simp] theorem Joint.leaves_build (joint : Joint) (a b : Expr) : (joint.build a b).leaves = a.leaves ++ b.leaves := by
  cases joint <;> simp [Joint.build, Expr.leaves]

/-- The arguments of a call have the leaves of their texts. -/
theorem leavesOf_args (args : List (List Lexeme × Expr)) (h : ∀ a ∈ args, a.2.leaves = leavesIn a.1) :
    Expr.leavesOf (args.map (·.2)) = (args.map (·.1)).flatMap leavesIn := by
  induction args with
  | nil => rfl
  | cons a args ih =>
    obtain ⟨ha, hargs⟩ := List.forall_mem_cons.mp h
    simp [Expr.leavesOf, ha, ih hargs]

/-- A tree has the literals and names of its text as leaves, in their order. -/
theorem Derives.leaves_eq {p : Phrase} {w : List Lexeme} {e : Expr} (h : Derives p w e) :
    e.leaves = leavesIn w := by
  induction h with
  | tighter _ _ ih => exact ih
  | number value => rfl
  | name ident => rfl
  | group _ ih => simp [ih]
  | call args _ _ ihf ihargs =>
    rw [Expr.leaves, ihf, leavesOf_args args ihargs, ← leavesIn_commaSeparated]
    simp
  | power _ _ iha ihb => simp [Expr.leaves, iha, ihb]
  | signed _ _ ih => simp [Expr.leaves, ih]
  | joined _ _ _ iha ihb => simp [iha, ihb]
  | choice _ _ _ iha ihb ihc => simp [Expr.leaves, iha, ihb, ihc]

/-! ## Leaves of a text -/

theorem parse_eq_ok {source : String} {e : Expr} (h : Expr.parse source = .ok e) :
    ∃ ts, scan source = .ok ts ∧ Derives .conditional (lexemes ts) e := by
  unfold Expr.parse at h
  split at h
  · cases h
  · rename_i ts hscan
    obtain ⟨rest, hdone⟩ := toExcept_eq_ok_iff.mp h
    exact ⟨ts, hscan, parseAllWithin_sound hdone⟩

/-- The names among the leaves of a text are its names. -/
theorem leavesIn_names (w : List Lexeme) : (leavesIn w).filterMap Expr.ident? = w.filterMap Lexeme.name? := by
  have hname : (fun l : Lexeme => l.leaf?.bind Expr.ident?) = Lexeme.name? := funext Lexeme.leaf?_ident
  rw [leavesIn, List.filterMap_filterMap, hname]

/-- **Nothing is lost, doubled or moved between a text and its tree.** The leaves of a tree that is read are the
literals and the names among the tokens of its text, with their values and in their order, and its names are the names
among the tokens. The worklist gives the names of any tree as the recursion from left to right does. -/
theorem parse_leaves {source : String} {e : Expr} (h : Expr.parse source = .ok e) :
    (∃ ts, scan source = .ok ts ∧ e.leaves = (lexemes ts).filterMap Lexeme.leaf? ∧
      e.names = (lexemes ts).filterMap Lexeme.name?) ∧
    ∀ tree : Expr, tree.names = tree.leaves.filterMap Expr.ident? := by
  constructor
  · obtain ⟨ts, hscan, hd⟩ := parse_eq_ok h
    have hleaves := hd.leaves_eq
    refine ⟨ts, hscan, hleaves, ?_⟩
    rw [e.names_eq, hleaves, leavesIn_names]
  · exact Expr.names_eq

/-- A call with two arguments, one of them a literal, as the test of a choice, and a name that occurs twice. -/
theorem parse_leaves_choice :
    let tree : Expr :=
      .conditional (.call (.name "f") [.name "x", .number (.real (decimalValue ['1', '.']))]) (.name "y")
        (.unary .negate (.name "x"))
    Expr.parse "f(x,1.)?y:-x" = .ok tree ∧ tree.names = ["f", "x", "y", "x"] := by
  intro tree
  have hscan : scan "f(x,1.)?y:-x" = .ok
      [⟨.name "f", 0⟩, ⟨.symbol .opening, 1⟩, ⟨.name "x", 2⟩, ⟨.symbol .comma, 3⟩,
        ⟨.number (decimalValue ['1', '.']), 4⟩, ⟨.symbol .closing, 6⟩, ⟨.symbol .question, 7⟩, ⟨.name "y", 8⟩,
        ⟨.symbol .colon, 9⟩, ⟨.symbol .minus, 10⟩, ⟨.name "x", 11⟩] := by
    have htext : "f(x,1.)?y:-x".toList = ['f', '(', 'x', ',', '1', '.', ')', '?', 'y', ':', '-', 'x'] := rfl
    rw [scan, htext]
    repeat refine scanFrom_cons _ (by decide) rfl ?_
    rw [List.drop_nil, scanFrom]
  have hparse : Expr.parse "f(x,1.)?y:-x" = .ok tree := by
    rw [Expr.parse, hscan]
    rfl
  refine ⟨hparse, ?_⟩
  obtain ⟨⟨ts, hts, -, hnames⟩, -⟩ := parse_leaves hparse
  cases hscan.symm.trans hts
  exact hnames

end DotGrid
