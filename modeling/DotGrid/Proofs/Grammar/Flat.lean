import DotGrid.Proofs.Grammar.Basic
import Mathlib.Algebra.Order.Ring.Nat

/-!
# Flat words

A flat word consists of literals and names, each followed by any number of empty argument lists, that binary operators
of any levels join. Every flat word is an expression (`FlatWord.exists_derives`): an operator goes to the place in the
tree so far that its level gives it (`Derives.exists_joined`), and an empty argument list to the last operand
(`Derives.exists_called`).

The tree of a flat word is as high as its length demands. Each level of operators is a chain to the left of operands of
the next level, and a chain is not longer than it is high, so the length is bounded by a power of the height
(`Derives.length_lt_of_flat`).
-/

namespace DotGrid

variable {p q : Phrase} {s : Symbol} {joint : Joint} {k level : Nat} {u v w : List Lexeme} {a b e f : Expr}

/-! ## Words -/

/-- What comes next in a flat word: an operand, or what can stand behind one. -/
inductive Turn where
  | operand
  | behind

/-- The lexemes are a flat word, from an operand on or from behind one on. -/
inductive FlatWord : Turn → List Lexeme → Prop
  | number {w : List Lexeme} (value : Double) : FlatWord .behind w → FlatWord .operand (.number value :: w)
  | name {w : List Lexeme} (ident : String) : FlatWord .behind w → FlatWord .operand (.name ident :: w)
  | call {w : List Lexeme} : FlatWord .behind w → FlatWord .behind (.symbol .opening :: .symbol .closing :: w)
  | joined {s : Symbol} {joint : Joint} {level : Nat} {w : List Lexeme} : (s, joint) ∈ operatorRow level →
      FlatWord .operand w → FlatWord .behind (.symbol s :: w)
  | finish : FlatWord .behind []

theorem exists_joint_of_mem (h : (s, joint) ∈ operatorRow level) : ∃ j, s.joint? = some j ∧ j.1 = level := by
  have hj := jointAt?_eq_some_iff.mpr h
  obtain ⟨j, hj, hlevel⟩ := Option.bind_eq_some_iff.mp hj
  refine ⟨j, hj, ?_⟩
  split at hlevel
  · assumption
  · cases hlevel

theorem level_lt_of_mem (h : (s, joint) ∈ operatorRow level) : level < binaryLevels := by
  obtain ⟨j, hj, rfl⟩ := exists_joint_of_mem h
  exact joint?_level_lt hj

theorem ne_closing_of_mem (h : (s, joint) ∈ operatorRow level) : s ≠ .closing := by
  rintro rfl
  obtain ⟨j, hj, -⟩ := exists_joint_of_mem h
  cases hj

namespace FlatWord

/-- Behind an operand stands the argument list of a call or a binary operator. -/
theorem behind_symbol (h : FlatWord .behind (.symbol s :: w)) :
    (s = .opening ∧ ∃ w', w = .symbol .closing :: w' ∧ FlatWord .behind w') ∨
      (s.joint?.isSome = true ∧ FlatWord .operand w) := by
  cases h with
  | call hw => exact .inl ⟨rfl, _, rfl, hw⟩
  | joined hs hw =>
    obtain ⟨j, hj, -⟩ := exists_joint_of_mem hs
    exact .inr ⟨by rw [hj]; rfl, hw⟩

theorem operand_of_joined (hs : (s, joint) ∈ operatorRow level) (h : FlatWord .behind (.symbol s :: w)) :
    FlatWord .operand w := by
  rcases h.behind_symbol with ⟨rfl, -⟩ | ⟨-, hw⟩
  · obtain ⟨j, hj, -⟩ := exists_joint_of_mem hs
    cases hj
  · exact hw

/-- A flat word ends before each symbol in it but the second one of an argument list. -/
theorem split {turn : Turn} (h : FlatWord turn (u ++ .symbol s :: w)) (hs : s ≠ .closing) :
    FlatWord turn u ∧ FlatWord .behind (.symbol s :: w) := by
  generalize hx : u ++ .symbol s :: w = x at h
  induction h generalizing u with
  | number value hx' ih =>
    cases u with
    | nil => cases hx
    | cons l u =>
      cases hx
      obtain ⟨hu, hw⟩ := ih rfl
      exact ⟨.number value hu, hw⟩
  | name ident hx' ih =>
    cases u with
    | nil => cases hx
    | cons l u =>
      cases hx
      obtain ⟨hu, hw⟩ := ih rfl
      exact ⟨.name ident hu, hw⟩
  | call hx' ih =>
    cases u with
    | nil =>
      cases hx
      exact ⟨.finish, .call hx'⟩
    | cons l u =>
      cases u with
      | nil =>
        cases hx
        exact absurd rfl hs
      | cons l' u =>
        cases hx
        obtain ⟨hu, hw⟩ := ih rfl
        exact ⟨.call hu, hw⟩
  | joined hop hx' ih =>
    cases u with
    | nil =>
      cases hx
      exact ⟨.finish, .joined hop hx'⟩
    | cons l u =>
      cases hx
      obtain ⟨hu, hw⟩ := ih rfl
      exact ⟨.joined hop hu, hw⟩
  | finish => exact absurd hx (by simp)

/-- The symbols of a flat word are binary operators, but for those of argument lists. -/
theorem isSome_joint {turn : Turn} (h : FlatWord turn (u ++ .symbol s :: w)) (hopening : s ≠ .opening)
    (hclosing : s ≠ .closing) : s.joint?.isSome = true := by
  obtain ⟨-, hrest⟩ := h.split hclosing
  rcases hrest.behind_symbol with ⟨hs, -⟩ | ⟨hs, -⟩
  · exact absurd hs hopening
  · exact hs

end FlatWord

/-! ## Derivations -/

/-- An operator and an operand behind a chain: the operator takes the part of the chain that its level gives it. -/
theorem Derives.exists_joined (hu : Derives (.binary k) u a) (hk : k ≤ level) (hs : (s, joint) ∈ operatorRow level)
    (hv : Derives .application v b) : ∃ e, Derives (.binary k) (u ++ .symbol s :: v) e := by
  have hlevel := level_lt_of_mem hs
  have hoperand : ∀ l, Derives (.binary l) v b := fun l => hv.loosen (by simp only [Phrase.rank, binaryLevels]; omega)
  -- the induction is on the number of levels between that of the chain and that of the operator
  obtain ⟨d, rfl⟩ := Nat.exists_eq_add_of_le hk
  induction d generalizing k u a with
  | zero => exact ⟨_, .joined hs hu (hoperand _)⟩
  | succ d ih =>
    have hnext : k + (d + 1) = k + 1 + d := by omega
    rw [hnext] at hs hlevel
    cases hu with
    | tighter hq hu =>
      rw [Phrase.tighter?, if_neg (by omega)] at hq
      cases hq
      obtain ⟨e, he⟩ := ih hu (by omega) hs hlevel
      exact ⟨e, .tighter (by rw [Phrase.tighter?, if_neg (by omega)]) he⟩
    | joined hs' hu hv' =>
      obtain ⟨e, he⟩ := ih hv' (by omega) hs hlevel
      exact ⟨_, by simpa using Derives.joined hs' hu he⟩

/-- An empty argument list behind a phrase belongs to its last operand. -/
theorem Derives.exists_called (h : Derives p w e) (hp : Phrase.application.rank ≤ p.rank) :
    ∃ f, Derives p (w ++ [.symbol .opening, .symbol .closing]) f := by
  induction h with
  | @tighter p q w e hq hd ih =>
    rcases Nat.lt_or_ge q.rank Phrase.application.rank with hlt | hle
    · have hrank : p.rank = Phrase.application.rank := by
        have := Phrase.rank_tighter hq
        omega
      rcases Phrase.eq_of_rank_eq hrank with rfl | ⟨k, l, -, hl, -⟩
      · exact ⟨_, Derives.apply (.tighter hq hd) .nil⟩
      · cases hl
    · obtain ⟨f, hf⟩ := ih hle
      exact ⟨f, .tighter hq hf⟩
  | number value => exact absurd hp (by decide)
  | name ident => exact absurd hp (by decide)
  | group _ _ => exact absurd hp (by decide)
  | call args hf hargs _ _ => exact ⟨_, Derives.apply (.call args hf hargs) .nil⟩
  | power ha _ _ ih =>
    obtain ⟨f, hf⟩ := ih (by decide)
    exact ⟨_, by simpa using ha.power hf⟩
  | signed hs _ ih =>
    obtain ⟨f, hf⟩ := ih hp
    exact ⟨_, .signed hs hf⟩
  | joined hs ha _ _ ih =>
    obtain ⟨f, hf⟩ := ih (by simp only [Phrase.rank, binaryLevels]; omega)
    exact ⟨_, by simpa using Derives.joined hs ha hf⟩
  | choice ha hb _ _ _ ih =>
    obtain ⟨f, hf⟩ := ih hp
    exact ⟨_, by simpa using Derives.choice ha hb hf⟩

/-- The lexemes complete expressions: those that end before them, or before an operator and them. -/
def Completing : Turn → List Lexeme → Prop
  | .behind, w => ∀ u a, Derives (.binary 0) u a → ∃ e, Derives (.binary 0) (u ++ w) e
  | .operand, w => (∃ e, Derives (.binary 0) w e) ∧ ∀ u a s joint level, (s, joint) ∈ operatorRow level →
      Derives (.binary 0) u a → ∃ e, Derives (.binary 0) (u ++ .symbol s :: w) e

theorem Completing.operand {l : Lexeme} (hl : Derives .application [l] a) (h : Completing .behind w) :
    Completing .operand (l :: w) := by
  constructor
  · exact h [l] a (hl.loosen (by decide))
  · intro u b s joint level hs hu
    obtain ⟨e, he⟩ := hu.exists_joined (Nat.zero_le level) hs hl
    obtain ⟨f, hf⟩ := h _ e he
    exact ⟨f, by simpa using hf⟩

theorem FlatWord.completing {turn : Turn} (h : FlatWord turn w) : Completing turn w := by
  induction h with
  | number value _ ih => exact .operand ((Derives.number value).loosen (by decide)) ih
  | name ident _ ih => exact .operand ((Derives.name ident).loosen (by decide)) ih
  | call _ ih =>
    intro u a hu
    obtain ⟨f, hf⟩ := hu.exists_called (by decide)
    obtain ⟨e, he⟩ := ih _ f hf
    exact ⟨e, by simpa using he⟩
  | joined hs _ ih => exact fun u a hu => ih.2 u a _ _ _ hs hu
  | finish => exact fun u a hu => ⟨a, by simpa using hu⟩

/-- A flat word is an expression. -/
theorem FlatWord.exists_derives (h : FlatWord .operand w) : ∃ e, Derives .conditional w e := by
  obtain ⟨e, he⟩ := h.completing.1
  exact ⟨e, .tighter rfl he⟩

/-! ## Heights -/

mutual

/-- The height of a tree. -/
def Expr.height : Expr → Nat
  | .number _ | .name _ | .foreign _ => 1
  | .unary _ a => height a + 1
  | .binary _ a b | .logical _ a b => max (height a) (height b) + 1
  | .conditional a b c => max (height a) (max (height b) (height c)) + 1
  | .call f args => max (height f) (heightAll args) + 1
  | .unsupported _ operands => heightAll operands + 1

/-- The height of the highest of some trees. -/
def Expr.heightAll : List Expr → Nat
  | [] => 0
  | e :: es => max (height e) (heightAll es)

end

theorem Expr.height_pos (e : Expr) : 0 < e.height := by
  cases e <;> simp [height]

theorem Joint.height_build (joint : Joint) (a b : Expr) : (joint.build a b).height = max a.height b.height + 1 := by
  cases joint <;> simp [build, Expr.height]

/-- The number of levels of operators in a phrase, counting the calls as one. -/
def Phrase.levels (p : Phrase) : Nat := max 1 (min p.rank 15 - 4)

theorem Phrase.levels_tighter (h : p.tighter? = some q) : q.levels ≤ p.levels := by
  have := Phrase.rank_tighter h
  simp only [levels]
  omega

/-- A chain of operators of one level joins operands of the next level. -/
theorem Phrase.levels_binary (h : level < binaryLevels) :
    (Phrase.binary level).levels = (Phrase.binary (level + 1)).levels + 1 := by
  simp only [levels, rank, binaryLevels] at *
  omega

/-- The argument lists of a flat word are empty. -/
theorem no_arguments {args : List (List Lexeme × Expr)} (hargs : ∀ a ∈ args, Derives .conditional a.1 a.2)
    (h : FlatWord .behind (.symbol .opening :: (commaSeparated (args.map (·.1)) ++ [.symbol .closing]))) :
    args = [] := by
  rcases h.behind_symbol with ⟨-, w', heq, -⟩ | ⟨hs, -⟩
  · cases args with
    | nil => rfl
    | cons a args =>
      obtain ⟨l, v, hl, hstart⟩ := (hargs a List.mem_cons_self).starts
      have hfirst : l = .symbol .closing := by
        cases args <;> simp_all [List.intercalate_cons_cons]
      rw [hfirst] at hstart
      rcases hstart with hs | ⟨-, op, hop⟩
      · cases hs
      · exact absurd hop (by cases op <;> decide)
  · cases hs

/-- The length of a flat word is bounded by a power of the height of its tree. -/
theorem Derives.length_lt_of_flat (h : Derives p w e) (hw : FlatWord .operand w) :
    w.length + 1 ≤ 2 * e.height ^ p.levels := by
  induction h with
  | @tighter p q w e hq _ ih =>
    calc w.length + 1 ≤ 2 * e.height ^ q.levels := ih hw
      _ ≤ 2 * e.height ^ p.levels :=
        Nat.mul_le_mul_left 2 (Nat.pow_le_pow_right e.height_pos (Phrase.levels_tighter hq))
  | number value => simp [Expr.height]
  | name ident => simp [Expr.height]
  | group _ _ => cases hw
  | @call w f args _ hargs ihf _ =>
    obtain ⟨hf, hrest⟩ := hw.split (by decide)
    obtain rfl := no_arguments hargs hrest
    have hlength := ihf hf
    simp [Phrase.levels, Phrase.rank, Expr.height, Expr.heightAll] at hlength ⊢
    omega
  | power _ _ _ _ => exact absurd (hw.isSome_joint (by decide) (by decide)) (by decide)
  | signed _ _ _ => cases hw
  | @joined level s joint u v a b hs _ _ iha ihb =>
    obtain ⟨hu, hrest⟩ := hw.split (ne_closing_of_mem hs)
    have ha := iha hu
    have hb := ihb (hrest.operand_of_joined hs)
    rw [Phrase.levels_binary (level_lt_of_mem hs)] at ha ⊢
    rw [joint.height_build, List.length_append, List.length_cons]
    generalize (Phrase.binary (level + 1)).levels = k at ha hb ⊢
    generalize hH : max a.height b.height = H
    have ha' : a.height ^ (k + 1) ≤ H ^ (k + 1) := Nat.pow_le_pow_left (by omega) _
    have hb' : b.height ^ k ≤ H ^ k := Nat.pow_le_pow_left (by omega) _
    calc u.length + (v.length + 1) + 1 ≤ 2 * H ^ (k + 1) + 2 * H ^ k := by omega
      _ = 2 * (H ^ k * (H + 1)) := by rw [Nat.pow_succ, Nat.mul_succ, Nat.mul_add]
      _ ≤ 2 * ((H + 1) ^ k * (H + 1)) :=
        Nat.mul_le_mul_left 2 (Nat.mul_le_mul_right _ (Nat.pow_le_pow_left (Nat.le_succ H) k))
      _ = 2 * (H + 1) ^ (k + 1) := by rw [Nat.pow_succ]
  | choice _ _ _ _ _ _ => exact absurd (hw.isSome_joint (by decide) (by decide)) (by decide)

end DotGrid
