import DotGrid.Proofs.Nesting

/-!
# Inlining a name

A name stands for a value, and a text in parentheses may stand in its place. A text in which a text in parentheses
takes the place of each occurrence of a name derives the tree in which the other tree takes its place
(`Derives.inlined`): parentheses make a primary of any text, and a name is a primary. Where the other tree has a number
as its value, the tree that is made so has the result that the first tree has with the name bound to that number
(`value_substitute`); a limit of nesting can only cut it off (`evalWithin_substitute`).
-/

namespace DotGrid

variable {ident : String} {p : Phrase} {v w : List Lexeme} {e s : Expr} {scope : Scope} {k : Number} {n : Nat}

/-! ## Texts and trees -/

/-- The lexemes that take the place of a lexeme: a text in parentheses for a given name, and else the lexeme. -/
def Lexeme.inlined (ident : String) (v : List Lexeme) (l : Lexeme) : List Lexeme :=
  if l = .name ident then .symbol .opening :: (v ++ [.symbol .closing]) else [l]

/-- A text in which a text in parentheses takes the place of each occurrence of a name. -/
def inlined (ident : String) (v w : List Lexeme) : List Lexeme := w.flatMap (Lexeme.inlined ident v)

mutual

/-- A tree in which a tree takes the place of each occurrence of a name. -/
def Expr.substitute (e : Expr) (ident : String) (s : Expr) : Expr :=
  match e with
  | .number value => .number value
  | .name other => if other = ident then s else .name other
  | .unary op a => .unary op (substitute a ident s)
  | .binary op a b => .binary op (substitute a ident s) (substitute b ident s)
  | .logical op a b => .logical op (substitute a ident s) (substitute b ident s)
  | .conditional a b c => .conditional (substitute a ident s) (substitute b ident s) (substitute c ident s)
  | .call f args => .call (substitute f ident s) (substituteAll args ident s)
  | .unsupported op operands => .unsupported op (substituteAll operands ident s)
  | .foreign kind => .foreign kind

/-- Trees in each of which a tree takes the place of each occurrence of a name. -/
def Expr.substituteAll (es : List Expr) (ident : String) (s : Expr) : List Expr :=
  match es with
  | [] => []
  | e :: es => substitute e ident s :: substituteAll es ident s

end

theorem Expr.substituteAll_eq_map (es : List Expr) :
    substituteAll es ident s = es.map fun e => e.substitute ident s := by
  induction es with
  | nil => rfl
  | cons e es ih => rw [substituteAll, ih, List.map_cons]

theorem Expr.substitute_name : (Expr.name ident).substitute ident s = s := by
  rw [substitute, if_pos rfl]

@[simp] theorem Joint.substitute_build (joint : Joint) (a b : Expr) :
    (joint.build a b).substitute ident s = joint.build (a.substitute ident s) (b.substitute ident s) := by
  cases joint <;> rfl

/-! ## Derivations -/

@[simp] theorem inlined_nil : inlined ident v [] = [] :=
  rfl

@[simp] theorem inlined_append (u w : List Lexeme) :
    inlined ident v (u ++ w) = inlined ident v u ++ inlined ident v w :=
  List.flatMap_append

@[simp] theorem inlined_symbol (o : Symbol) (w : List Lexeme) :
    inlined ident v (.symbol o :: w) = .symbol o :: inlined ident v w :=
  rfl

theorem inlined_commaSeparated (ws : List (List Lexeme)) :
    inlined ident v (commaSeparated ws) = commaSeparated (ws.map (inlined ident v)) := by
  induction ws with
  | nil => rfl
  | cons w ws ih =>
    cases ws with
    | nil => simp
    | cons w' ws =>
      rw [commaSeparated, List.intercalate_cons_cons, List.append_assoc, inlined_append, List.singleton_append,
        inlined_symbol, ih]
      simp [List.intercalate_cons_cons]

/-- A name gives way to a text in parentheses in every phrase: both are primaries, whatever stands around them. -/
theorem Derives.inlined (h : Derives p w e) (hs : Derives .conditional v s) :
    Derives p (DotGrid.inlined ident v w) (e.substitute ident s) := by
  induction h with
  | tighter hq _ ih => exact .tighter hq ih
  | number value => exact .number value
  | name other =>
    by_cases hother : other = ident
    · subst hother
      have htext : DotGrid.inlined other v [.name other] = .symbol .opening :: (v ++ [.symbol .closing]) := by
        simp [DotGrid.inlined, Lexeme.inlined]
      rw [htext, Expr.substitute_name]
      exact .group hs
    · have htext : DotGrid.inlined ident v [.name other] = [.name other] := by
        simp [DotGrid.inlined, Lexeme.inlined, hother]
      rw [htext, Expr.substitute, if_neg hother]
      exact .name other
  | group _ ih =>
    rw [inlined_symbol, inlined_append, inlined_symbol]
    exact .group ih
  | @call w f args _ _ ihf ihargs =>
    have hcall := Derives.call (args.map fun a => (DotGrid.inlined ident v a.1, a.2.substitute ident s)) ihf
      fun a ha => by
        obtain ⟨pair, hpair, rfl⟩ := List.mem_map.mp ha
        exact ihargs pair hpair
    rw [inlined_append, inlined_symbol, inlined_append, inlined_commaSeparated, inlined_symbol, Expr.substitute,
      Expr.substituteAll_eq_map]
    simpa [Function.comp_def] using hcall
  | power _ _ iha ihb =>
    rw [inlined_append, inlined_symbol]
    exact .power iha ihb
  | signed ho _ ih =>
    rw [inlined_symbol]
    exact .signed ho ih
  | joined ho _ _ iha ihb =>
    rw [inlined_append, inlined_symbol, Joint.substitute_build]
    exact .joined ho iha ihb
  | choice _ _ _ iha ihb ihc =>
    rw [inlined_append, inlined_symbol, inlined_append, inlined_symbol]
    exact .choice iha ihb ihc

/-! ## Values -/

/-- A scope with a number for a name, whatever the name stood for before. -/
def Scope.bind (scope : Scope) (ident : String) (k : Number) : Scope := fun name =>
  if name = ident then some k else scope name

theorem Scope.lookup_bind : (scope.bind ident k).lookup ident = .ok (.number k) := by
  simp [lookup, bind]

theorem Scope.lookup_bind_of_ne {name : String} (h : name ≠ ident) :
    (scope.bind ident k).lookup name = scope.lookup name :=
  lookup_congr (if_neg h)

/-- A step at a node that is not the name is a step of the first tree, whose parts are evaluated with the tree in the
place of the name. -/
theorem Expr.step_substitute {eval : Expr → Except Fault Value} (h : e ≠ .name ident) :
    (e.substitute ident s).step scope eval =
      e.step (scope.bind ident k) fun part => eval (part.substitute ident s) := by
  cases e with
  | name other =>
    have hother : other ≠ ident := fun heq => h (heq ▸ rfl)
    rw [substitute, if_neg hother, step, step, Scope.lookup_bind_of_ne hother]
  | call f args =>
    rw [substitute, step, step, substituteAll_eq_map, List.mapM_map]
    rfl
  | _ => rfl

/-- Within a limit, the tree with a tree in the place of a name has the result of the first tree with the name bound to
the value of the other one, or it is too deep: a name is one node, and the tree in its place may be deeper. -/
theorem evalWithin_substitute (hs : ∀ n, CutOff (.ok (.number k)) (s.evalWithin scope n)) (e : Expr) (n : Nat) :
    CutOff (e.evalWithin (scope.bind ident k) n) ((e.substitute ident s).evalWithin scope n) := by
  induction n generalizing e with
  | zero => exact .inl rfl
  | succ n ih =>
    by_cases hname : e = .name ident
    · subst hname
      rw [Expr.substitute_name, Expr.evalWithin_succ, Expr.step, Scope.lookup_bind]
      exact hs (n + 1)
    · rw [Expr.evalWithin_succ, Expr.evalWithin_succ, Expr.step_substitute hname]
      exact step_cut ih e

/-- Without a limit both have one result. -/
theorem value_substitute (hs : s.value scope = .ok (.number k)) (e : Expr) :
    (e.substitute ident s).value scope = e.value (scope.bind ident k) := by
  have hcut : CutOff (e.evalWithin (scope.bind ident k) (max e.size (e.substitute ident s).size))
      ((e.substitute ident s).evalWithin scope (max e.size (e.substitute ident s).size)) :=
    evalWithin_substitute (fun n => hs ▸ evalWithin_cut s n) e _
  rw [evalWithin_eq_value (Nat.le_max_left ..), evalWithin_eq_value (Nat.le_max_right ..)] at hcut
  exact hcut.eq (value_ne_tooDeep _)

/-- **Inlining in parentheses is binding.** Let one text be read as the tree `e`, and another one as the tree `s`. A
text that has the second one in parentheses in the place of each occurrence of a name in the first one is read as the
tree that has `s` in the place of the name in `e`, unless it reaches the limit, which it does not if that is high
enough. Where the value of `s` is a number, that tree has the result of `e` with the name bound to the number, be it a
value or a fault, whatever the name stands for otherwise; within a limit that is so unless the tree is too deep. -/
theorem inlining_binds (ident : String) :
    (∀ (m n limit start middle finish : Nat) (ts ss us : List Token) (e s : Expr),
      (parseAllWithin m ts).toExcept start = .ok e → (parseAllWithin n ss).toExcept middle = .ok s →
      lexemes us = inlined ident (lexemes ss) (lexemes ts) →
        ((parseAllWithin limit us).toExcept finish ≠ .error .tooDeep →
          (parseAllWithin limit us).toExcept finish = .ok (e.substitute ident s)) ∧
        (16 * (us.length + 1) ≤ limit → (parseAllWithin limit us).toExcept finish = .ok (e.substitute ident s))) ∧
    ∀ (e s : Expr) (scope : Scope) (k : Number),
      (∀ m, s.evalWithin scope m = .ok (.number k) → ∀ n,
        (e.substitute ident s).evalWithin scope n ≠ .error .tooDeep →
          (e.substitute ident s).evalWithin scope n = e.evalWithin (scope.bind ident k) n) ∧
      (s.value scope = .ok (.number k) → (e.substitute ident s).value scope = e.value (scope.bind ident k)) := by
  constructor
  · intro m n limit start middle finish ts ss us e s hts hss hus
    obtain ⟨_, he⟩ := toExcept_eq_ok_iff.mp hts
    obtain ⟨_, hs⟩ := toExcept_eq_ok_iff.mp hss
    have hd : Derives .conditional (lexemes us) (e.substitute ident s) :=
      hus ▸ (parseAllWithin_sound he).inlined (parseAllWithin_sound hs)
    have hok : (parseAllWithin limit us).toExcept finish ≠ .error .tooDeep →
        (parseAllWithin limit us).toExcept finish = .ok (e.substitute ident s) := by
      intro hdeep
      exact toExcept_eq_ok_iff.mpr ⟨[], hd.parseAllWithin_eq (toExcept_ne_tooDeep_iff.mp hdeep)⟩
    exact ⟨hok, fun hl => hok (toExcept_ne_tooDeep_iff.mpr (parseAllWithin_enough hl))⟩
  · intro e s scope k
    refine ⟨fun m hm n hdeep => ?_, fun hs => value_substitute hs e⟩
    have hvalue : .ok (.number k) = s.value scope := hm ▸ (evalWithin_cut s m).eq (by rw [hm]; nofun)
    exact (evalWithin_substitute (fun n => hvalue ▸ evalWithin_cut s n) e n).eq hdeep

/-- `PI ? PI - t : q` with `x && y` for `PI`, a name of the namespace: the text of the second in parentheses in the
place of `PI`, and the value with that of `y` for it. The name `q` stands for nothing, and it is not looked up. -/
theorem inlining_binds_choice :
    let e : Expr := .conditional (.name "PI") (.binary .sub (.name "PI") (.name "t")) (.name "q")
    let s : Expr := .logical .both (.name "x") (.name "y")
    let text : List Lexeme :=
      [.name "PI", .symbol .question, .name "PI", .symbol .minus, .name "t", .symbol .colon, .name "q"]
    let inner : List Lexeme := [.name "x", .symbol .both, .name "y"]
    let scope : Scope := (Dot.mk (.integer 1) (.integer 0) (.integer 5) (.integer 3)).scope
    (parseAllWithin 60 ((inlined "PI" inner text).map fun l => ⟨l, 0⟩)).toExcept 0 = .ok (e.substitute "PI" s) ∧
      s.evalWithin scope 2 = .ok (.number (.integer 3)) ∧ s.value scope = .ok (.number (.integer 3)) ∧
      (e.substitute "PI" s).evalWithin scope 4 = e.evalWithin (scope.bind "PI" (.integer 3)) 4 ∧
      (e.substitute "PI" s).value scope = .ok (.number (.integer 2)) := by
  intro e s text inner scope
  have hparse := ((inlining_binds "PI").1 60 60 60 0 0 0 (text.map fun l => ⟨l, 0⟩) (inner.map fun l => ⟨l, 0⟩)
    ((inlined "PI" inner text).map fun l => ⟨l, 0⟩) e s rfl rfl (by simp only [lexemes_placed])).1
  have hwithin : s.evalWithin scope 2 = .ok (.number (.integer 3)) := rfl
  have hvalue : s.value scope = .ok (.number (.integer 3)) := rfl
  have hbinds := (inlining_binds "PI").2 e s scope (.integer 3)
  exact ⟨hparse nofun, hwithin, hvalue, hbinds.1 2 hwithin 4 nofun, hbinds.2 hvalue⟩

end DotGrid
