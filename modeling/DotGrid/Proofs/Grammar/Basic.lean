import DotGrid.Syntax.Parser

/-!
# The grammar

`Derives p w e` says that the lexemes `w` are a phrase `p` with the tree `e`. The relation does not mention the parser:
chains of binary operators and of calls are left recursive, and the operators come from tables of their own
(`operatorRows`, `signs`), which agree with the parser's (`jointAt?_eq_some_iff`, `unary?_eq_some_iff`).

Phrases are ordered by how tightly they bind (`Phrase.rank`): a phrase is also a phrase of every looser kind
(`Derives.loosen`). A phrase starts with a literal, a name, an opening parenthesis or, if it is loose enough, with a
sign (`Derives.starts`).
-/

namespace DotGrid

/-! ## Operators -/

/-- The rows of binary operators, from the loosest on, with what each symbol builds. -/
def operatorRows : List (List (Symbol × Joint)) :=
  [[(.either, .logical .either)],
    [(.both, .logical .both)],
    [(.bar, .binary .bitOr)],
    [(.caret, .binary .bitXor)],
    [(.ampersand, .binary .bitAnd)],
    [(.equal, .binary .equal), (.notEqual, .binary .notEqual), (.identical, .binary .equal),
      (.notIdentical, .binary .notEqual)],
    [(.less, .binary .less), (.atMost, .binary .atMost), (.greater, .binary .greater), (.atLeast, .binary .atLeast)],
    [(.shiftLeft, .binary .shiftLeft), (.shiftRight, .binary .shiftRight), (.unsignedRight, .binary .unsignedRight)],
    [(.plus, .binary .add), (.minus, .binary .sub)],
    [(.times, .binary .mul), (.over, .binary .div), (.percent, .binary .remainder)]]

/-- The binary operators of one level. -/
def operatorRow (level : Nat) : List (Symbol × Joint) := operatorRows.getD level []

/-- The prefix operators. -/
def signs : List (Symbol × UnaryOp) :=
  [(.minus, .negate), (.plus, .toReal), (.bang, .not), (.tilde, .complement)]

theorem operatorRow_eq_nil {level : Nat} (h : binaryLevels ≤ level) : operatorRow level = [] := by
  rw [operatorRow, List.getD_eq_getElem?_getD, List.getElem?_eq_none h, Option.getD_none]

theorem joint?_level_lt {s : Symbol} {j : Nat × Joint} (h : s.joint? = some j) : j.1 < binaryLevels := by
  cases s <;> cases h <;> decide

/-- The table of the parser is the table of the grammar. -/
theorem jointAt?_eq_some_iff {s : Symbol} {level : Nat} {joint : Joint} :
    s.jointAt? level = some joint ↔ (s, joint) ∈ operatorRow level := by
  rcases Nat.lt_or_ge level binaryLevels with hl | hl
  · have hrow : ∀ s ∈ Symbol.all, ∀ k < binaryLevels,
        (s.jointAt? k).toList = ((operatorRow k).filter (·.1 = s)).map (·.2) := by decide
    rw [← Option.mem_toList, hrow s s.mem_all level hl]
    simp
  · rw [operatorRow_eq_nil hl]
    refine ⟨fun h => ?_, fun h => nomatch h⟩
    obtain ⟨j, hj, hk⟩ := Option.bind_eq_some_iff.mp h
    have := joint?_level_lt hj
    split at hk
    · omega
    · cases hk

theorem unary?_eq_some_iff {s : Symbol} {op : UnaryOp} : s.unary? = some op ↔ (s, op) ∈ signs := by
  cases s <;> cases op <;> decide

/-! ## Phrases -/

/-- The lexemes of a list of tokens. -/
abbrev lexemes (ts : List Token) : List Lexeme := ts.map Token.lexeme

theorem lexemes_eq_cons {us : List Token} {l : Lexeme} {w : List Lexeme} (h : lexemes us = l :: w) :
    ∃ position vs, us = ⟨l, position⟩ :: vs ∧ lexemes vs = w := by
  obtain ⟨⟨l, position⟩, vs, rfl, rfl, rfl⟩ := List.map_eq_cons_iff.mp h
  exact ⟨position, vs, rfl, rfl⟩

theorem lexemes_eq_append_cons {us : List Token} {v w : List Lexeme} {l : Lexeme} (h : lexemes us = v ++ l :: w) :
    ∃ vs position ws, us = vs ++ ⟨l, position⟩ :: ws ∧ lexemes vs = v ∧ lexemes ws = w := by
  obtain ⟨vs, us', rfl, hv, hus'⟩ := List.map_eq_append_iff.mp h
  obtain ⟨position, ws, rfl, hw⟩ := lexemes_eq_cons hus'
  exact ⟨vs, position, ws, rfl, hv, hw⟩

/-- Every list of lexemes is that of some tokens. -/
theorem lexemes_placed (w : List Lexeme) : lexemes (w.map fun l => ⟨l, 0⟩) = w :=
  (List.map_map ..).trans (List.map_id w)

/-- The lexemes of a list of arguments, with commas between them. -/
abbrev commaSeparated (ws : List (List Lexeme)) : List Lexeme := [.symbol .comma].intercalate ws

/-- The next tighter kind of phrase. -/
def Phrase.tighter? : Phrase → Option Phrase
  | .conditional => some (.binary 0)
  | .binary level => some (if binaryLevels ≤ level then .unary else .binary (level + 1))
  | .unary => some .power
  | .power => some .application
  | .application => some .primary
  | .primary => none

/-- **The grammar.** A phrase is one of the next tighter kind, or it has a form of its own. -/
inductive Derives : Phrase → List Lexeme → Expr → Prop
  | tighter {p q : Phrase} {w : List Lexeme} {e : Expr} : p.tighter? = some q → Derives q w e → Derives p w e
  | number (value : Double) : Derives .primary [.number value] (.number (.real value))
  | name (ident : String) : Derives .primary [.name ident] (.name ident)
  | group {w : List Lexeme} {e : Expr} : Derives .conditional w e →
      Derives .primary (.symbol .opening :: (w ++ [.symbol .closing])) e
  | call {w : List Lexeme} {f : Expr} (args : List (List Lexeme × Expr)) : Derives .application w f →
      (∀ a ∈ args, Derives .conditional a.1 a.2) →
      Derives .application
        (w ++ .symbol .opening :: (commaSeparated (args.map (·.1)) ++ [.symbol .closing]))
        (.call f (args.map (·.2)))
  | power {u v : List Lexeme} {a b : Expr} : Derives .application u a → Derives .unary v b →
      Derives .power (u ++ .symbol .power :: v) (.binary .power a b)
  | signed {s : Symbol} {op : UnaryOp} {w : List Lexeme} {e : Expr} : (s, op) ∈ signs → Derives .unary w e →
      Derives .unary (.symbol s :: w) (.unary op e)
  | joined {level : Nat} {s : Symbol} {joint : Joint} {u v : List Lexeme} {a b : Expr} :
      (s, joint) ∈ operatorRow level → Derives (.binary level) u a → Derives (.binary (level + 1)) v b →
      Derives (.binary level) (u ++ .symbol s :: v) (joint.build a b)
  | choice {u v w : List Lexeme} {a b c : Expr} : Derives (.binary 0) u a → Derives .conditional v b →
      Derives .conditional w c →
      Derives .conditional (u ++ .symbol .question :: (v ++ .symbol .colon :: w)) (.conditional a b c)

/-- How loosely a phrase binds. -/
def Phrase.rank : Phrase → Nat
  | .primary => 1
  | .application => 2
  | .power => 3
  | .unary => 4
  | .binary level => 15 - min level binaryLevels
  | .conditional => 16

theorem Phrase.rank_tighter {p q : Phrase} (h : p.tighter? = some q) : p.rank = q.rank + 1 := by
  cases p <;> cases h
  case binary level =>
    split
    · simp only [rank, binaryLevels] at *; omega
    · simp only [rank, binaryLevels] at *; omega
  all_goals rfl

theorem Phrase.rank_pos (p : Phrase) : 0 < p.rank := by
  cases p <;> simp only [rank, binaryLevels] <;> omega

theorem Phrase.rank_le (p : Phrase) : p.rank ≤ Phrase.conditional.rank := by
  cases p <;> simp only [rank, binaryLevels] <;> omega

/-- Phrases of one rank are of one kind, but for the levels behind the last one. -/
theorem Phrase.eq_of_rank_eq {p q : Phrase} (h : p.rank = q.rank) :
    p = q ∨ ∃ k l, p = .binary k ∧ q = .binary l ∧ binaryLevels ≤ k ∧ binaryLevels ≤ l := by
  cases p <;> cases q
  case binary.binary k l =>
    simp only [rank, binaryLevels] at h
    rcases Nat.lt_or_ge k 10 with hk | hk
    · exact .inl (congrArg _ (by omega))
    · rcases Nat.lt_or_ge l 10 with hl | hl
      · exact .inl (congrArg _ (by omega))
      · exact .inr ⟨k, l, rfl, rfl, hk, hl⟩
  all_goals first | exact .inl rfl | (simp only [rank, binaryLevels] at h; omega)

/-- Tells how a phrase can start: with a literal, a name or an opening parenthesis, and with a sign if it is loose
enough. -/
def Lexeme.Starts (p : Phrase) : Lexeme → Prop
  | .number _ | .name _ => True
  | .symbol s => s = .opening ∨ Phrase.unary.rank ≤ p.rank ∧ ∃ op, (s, op) ∈ signs

theorem Lexeme.Starts.mono {p q : Phrase} {l : Lexeme} (h : l.Starts p) (hr : p.rank ≤ q.rank) : l.Starts q := by
  cases l with
  | number _ => trivial
  | name _ => trivial
  | symbol s => exact h.imp_right fun ⟨hp, hs⟩ => ⟨Nat.le_trans hp hr, hs⟩

namespace Derives

variable {p q : Phrase} {w : List Lexeme} {e : Expr}

theorem unary_of_binary {level : Nat} (hl : binaryLevels ≤ level) (h : Derives (.binary level) w e) :
    Derives .unary w e := by
  cases h with
  | tighter hq h =>
    simp only [Phrase.tighter?, if_pos hl, Option.some.injEq] at hq
    exact hq ▸ h
  | joined hs _ _ => rw [operatorRow_eq_nil hl] at hs; cases hs

/-- A phrase is a phrase of every looser kind. -/
theorem loosen (h : Derives p w e) (hr : p.rank ≤ q.rank) : Derives q w e := by
  obtain ⟨k, hk⟩ := Nat.exists_eq_add_of_le hr
  induction k generalizing q with
  | zero =>
    rcases Phrase.eq_of_rank_eq hk.symm with rfl | ⟨k, l, rfl, rfl, hk, hl⟩
    · exact h
    · exact .tighter (by simp [Phrase.tighter?, hl]) (unary_of_binary hk h)
  | succ k ih =>
    cases hq : q.tighter? with
    | none =>
      cases q <;> cases hq
      have hp := p.rank_pos
      have hone : Phrase.primary.rank = 1 := rfl
      omega
    | some q' =>
      have := Phrase.rank_tighter hq
      exact .tighter hq (ih (by omega) (by omega))

/-- There is a phrase of every kind. -/
theorem exists_derives (p : Phrase) : ∃ w e, Derives p w e :=
  ⟨_, _, (name "x").loosen p.rank_pos⟩

theorem starts (h : Derives p w e) : ∃ l w', w = l :: w' ∧ l.Starts p := by
  induction h with
  | tighter hq _ ih =>
    obtain ⟨l, w', rfl, hl⟩ := ih
    exact ⟨l, w', rfl, hl.mono (by rw [Phrase.rank_tighter hq]; exact Nat.le_succ _)⟩
  | number _ => exact ⟨_, _, rfl, trivial⟩
  | name _ => exact ⟨_, _, rfl, trivial⟩
  | group _ _ => exact ⟨_, _, rfl, .inl rfl⟩
  | signed hs _ _ => exact ⟨_, _, rfl, .inr ⟨Nat.le_refl _, _, hs⟩⟩
  | call _ _ _ ih _ =>
    obtain ⟨l, w', rfl, hl⟩ := ih
    exact ⟨l, _, rfl, hl⟩
  | power _ _ ih _ =>
    obtain ⟨l, w', rfl, hl⟩ := ih
    exact ⟨l, _, rfl, hl.mono (by decide)⟩
  | joined _ _ _ ih _ =>
    obtain ⟨l, w', rfl, hl⟩ := ih
    exact ⟨l, _, rfl, hl⟩
  | choice _ _ _ ih _ _ =>
    obtain ⟨l, w', rfl, hl⟩ := ih
    exact ⟨l, _, rfl, hl.mono (by decide)⟩

theorem ne_nil (h : Derives p w e) : w ≠ [] := by
  obtain ⟨l, w', rfl, -⟩ := h.starts
  exact List.cons_ne_nil l w'

end Derives

/-! ## Lists of arguments -/

/-- The lexemes are arguments with commas between them. -/
def DerivesArgs (w : List Lexeme) (args : List Expr) : Prop :=
  ∃ pairs : List (List Lexeme × Expr), w = commaSeparated (pairs.map (·.1)) ∧ args = pairs.map (·.2) ∧
    ∀ a ∈ pairs, Derives .conditional a.1 a.2

theorem commaSeparated_append {ws : List (List Lexeme)} (h : ws ≠ []) (v : List Lexeme) :
    commaSeparated (ws ++ [v]) = commaSeparated ws ++ .symbol .comma :: v := by
  induction ws with
  | nil => exact absurd rfl h
  | cons w ws ih =>
    cases ws with
    | nil => simp [List.intercalate_cons_cons]
    | cons w' ws => simpa [List.intercalate_cons_cons] using ih (List.cons_ne_nil _ _)

namespace DerivesArgs

variable {v w : List Lexeme} {args : List Expr} {e f : Expr}

theorem nil : DerivesArgs [] [] := ⟨[], rfl, rfl, nofun⟩

theorem singleton (h : Derives .conditional w e) : DerivesArgs w [e] := by
  refine ⟨[(w, e)], by simp, rfl, fun a ha => ?_⟩
  cases List.mem_singleton.mp ha
  exact h

theorem snoc (h : DerivesArgs w args) (hne : args ≠ []) (he : Derives .conditional v e) :
    DerivesArgs (w ++ .symbol .comma :: v) (args ++ [e]) := by
  obtain ⟨pairs, rfl, rfl, hpairs⟩ := h
  refine ⟨pairs ++ [(v, e)], ?_, by simp, fun a ha => ?_⟩
  · rw [List.map_append, List.map_singleton, commaSeparated_append (by simpa using hne)]
  · rcases List.mem_append.mp ha with ha | ha
    · exact hpairs a ha
    · cases List.mem_singleton.mp ha
      exact he

end DerivesArgs

theorem Derives.apply {v w : List Lexeme} {args : List Expr} {f : Expr} (hf : Derives .application w f)
    (h : DerivesArgs v args) :
    Derives .application (w ++ .symbol .opening :: (v ++ [.symbol .closing])) (.call f args) := by
  obtain ⟨pairs, rfl, rfl, hpairs⟩ := h
  exact .call pairs hf hpairs

end DotGrid
