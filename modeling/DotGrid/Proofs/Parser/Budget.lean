import DotGrid.Proofs.Parser.Coupling

/-!
# The budget of the parser

A larger budget changes nothing but a stop for its depth (`parse_eq_of_le`), and a budget that is proportional to the
number of tokens is enough for every list of them (`parse_enough`). The tokens behind the one where a run stops do not
matter (`parse_done_local`, `parse_stopped_local`).
-/

namespace DotGrid

open Outcome

variable {p : Phrase} {e : Expr} {m n : Nat} {ts us vs rest : List Token} {reason : Stop}

/-! ## A larger budget -/

/-- The tokens are the same, and the second run may be less limited if `lenient`. -/
def Coupling.same (lenient : Prop) : Coupling where
  ahead := (· = ·)
  past _ := False
  lenient := lenient
  past_of_suffix _ h := h
  look h := .inr ⟨by rw [h], by rw [h]⟩

theorem Coupling.Agree.eq {α : Type} {o o' : Outcome α} (h : (Coupling.same False).Agree o o') : o = o' := by
  cases h with
  | done h => rw [show _ = _ from h]
  | stopped h => rw [show _ = _ from h]
  | past h => exact h.elim
  | deep h => exact h.elim

/-- A larger budget does not change an outcome that is not a stop for its depth. -/
theorem parse_eq_of_le (h : m ≤ n) (hd : ∀ rest, p.parse m ts ≠ .stopped .tooDeep rest) :
    p.parse n ts = p.parse m ts := by
  have hr := (Coupling.Related.parse (c := .same True) m n p (.inr ⟨trivial, h⟩)).agree ts ts rfl
  generalize p.parse m ts = o at hd hr
  generalize p.parse n ts = o' at hr
  cases hr with
  | done h => rw [show _ = _ from h]
  | stopped h => rw [show _ = _ from h]
  | past h => exact h.elim
  | deep _ => exact absurd rfl (hd _)

/-- A loop does not need more budget than there are tokens ahead. -/
theorem chain_fuel {level fuel : Nat} (left : Expr) (hf : ts.length ≤ fuel) :
    chain level (p.parse n) fuel left ts = chain level (p.parse n) ts.length left ts :=
  (Coupling.Related.chain_agree (.parse n n p (.inl rfl)) _ _ left hf (Nat.le_refl _) rfl).eq

theorem calls_fuel {fuel : Nat} (f : Expr) (hf : ts.length ≤ fuel) :
    calls (p.parse n) fuel f ts = calls (p.parse n) ts.length f ts :=
  (Coupling.Related.calls_agree (.parse n n p (.inl rfl)) _ _ f hf (Nat.le_refl _) rfl).eq

/-! ## Enough budget -/

/-- An outcome of a reader with enough budget: fewer than a given number of tokens are left, or it stops for a reason
other than its depth. -/
abbrev Settled {α : Type} (length : Nat) (o : Outcome α) : Prop :=
  o.Holds (fun _ rest => rest.length < length) (fun reason _ => reason ≠ .tooDeep)

section Enough

variable {length : Nat} {operand argument : List Token → Outcome Expr}

/-- Loops settle if each round settles, which takes a token at least. -/
theorem chain_settled {level : Nat} (h : ∀ ts, ts.length < length → Settled ts.length (operand ts)) (fuel : Nat)
    (left : Expr) (hl : ts.length ≤ length) : Settled (length + 1) (chain level operand fuel left ts) := by
  refine chain_holds (fun _ rest => rest.length ≤ length) (fun _ _ => Nat.lt_succ_of_le) ?_ fuel left ts hl
  intro left s joint position ts _ hts
  rw [List.length_cons] at hts
  exact (h ts hts).imp (fun _ _ hr => by omega) fun _ _ => id

theorem arguments_settled (h : ∀ ts, ts.length < length → Settled ts.length (argument ts)) (hl : ts.length < length) :
    Settled length (arguments argument ts) := by
  refine arguments_holds (fun _ rest => rest.length < length) ?_ ?_ ?_ ?_ ?_
  · exact fun _ _ _ => hl
  · exact (h ts hl).imp (fun _ _ hr => by omega) fun _ _ => id
  · intro args position ts hts
    rw [List.length_cons] at hts
    exact (h ts (by omega)).imp (fun _ _ hr => by omega) fun _ _ => id
  · intro args position rest hts
    rw [List.length_cons] at hts
    omega
  · exact fun _ _ _ => nofun

theorem calls_settled (h : ∀ ts, ts.length < length → Settled ts.length (argument ts)) (fuel : Nat) (f : Expr)
    (hl : ts.length ≤ length) : Settled (length + 1) (calls argument fuel f ts) := by
  refine calls_holds (fun _ rest => rest.length ≤ length) (fun _ _ => Nat.lt_succ_of_le) ?_ fuel f ts hl
  intro f position ts hts
  rw [List.length_cons] at hts
  exact (arguments_settled h hts).imp (fun _ _ hr => by omega) fun _ _ => id

/-- A tree that is built of what a reader behind a token gives. -/
theorem built_settled {o : Outcome Expr} (h : Settled ts.length o) (hl : ts.length < length) (f : Expr → Expr) :
    Settled length (o.andThen fun e rest => .done (f e) rest) := by
  refine h.andThen fun e rest hr => ?_
  show rest.length < length
  omega

/-- An expression in parentheses, from the first token in them on. -/
theorem group_settled {o : Outcome Expr} (h : Settled ts.length o) :
    Settled (ts.length + 1)
      (o.andThen fun inner rest => (expect .closing rest).andThen fun _ rest => .done inner rest) := by
  refine h.andThen fun inner rest hr => ?_
  refine expect_holds ?_ fun _ => nofun
  rintro position rest' rfl
  rw [List.length_cons] at hr
  show rest'.length < ts.length + 1
  omega

/-- The two branches behind a question mark. -/
theorem branches_settled {branch : List Token → Outcome Expr}
    (h : ∀ ts, ts.length < length → Settled ts.length (branch ts)) (hl : ts.length < length) (test : Expr) :
    Settled length ((branch ts).andThen fun thenBranch rest =>
      (expect .colon rest).andThen fun _ rest =>
        (branch rest).andThen fun elseBranch rest => .done (Expr.conditional test thenBranch elseBranch) rest) := by
  refine ((h ts hl).imp (fun _ _ hr => Nat.lt_trans hr hl) fun _ _ => id).andThen fun thenBranch rest hr => ?_
  refine expect_holds ?_ fun _ => nofun
  rintro position rest' rfl
  rw [List.length_cons] at hr
  exact built_settled (h rest' (by omega)) (by omega) _

end Enough

/-- A budget of sixteen for each token ahead is enough. -/
theorem parse_enough : ∀ (n : Nat) (p : Phrase) (ts : List Token), 16 * ts.length + p.rank ≤ n →
    Settled ts.length (p.parse n ts) := by
  intro n
  induction n with
  | zero => exact fun p ts h => absurd p.rank_pos (by omega)
  | succ n ih =>
    intro p ts hn
    -- a phrase of any kind may be nested behind a token
    have nested : ∀ (q : Phrase) (rest : List Token), rest.length < ts.length →
        Settled rest.length (q.parse n rest) := by
      intro q rest hr
      have hq : q.rank ≤ 16 := q.rank_le
      have := p.rank_pos
      exact ih q rest (by omega)
    have first : ∀ {q : Phrase}, p.tighter? = some q → Settled ts.length (q.parse n ts) :=
      fun hq => ih _ ts (by rw [Phrase.rank_tighter hq] at hn; omega)
    cases p with
    | conditional =>
      refine (first rfl).andThen fun test rest hr => ?_
      split
      · rename_i hs
        obtain ⟨position, rest, rfl⟩ := leading?_eq_some_iff.mp hs
        exact branches_settled (nested .conditional) (Nat.lt_of_succ_lt hr) test
      · exact hr
    | binary level =>
      rcases Nat.lt_or_ge level binaryLevels with hl | hl
      · rw [parse_binary_of_lt hl]
        have hq : (Phrase.binary level).tighter? = some (.binary (level + 1)) := by
          simp [Phrase.tighter?, Nat.not_le.mpr hl]
        refine (first hq).andThen fun left rest hr => ?_
        obtain ⟨length, hlength⟩ := Nat.exists_eq_add_one_of_ne_zero (Nat.ne_zero_of_lt hr)
        rw [hlength] at hr ⊢
        exact chain_settled (fun ts' h => nested _ ts' (by omega)) _ left (Nat.le_of_lt_succ hr)
      · rw [parse_binary_of_le hl]
        exact first (by simp [Phrase.tighter?, hl])
    | unary =>
      unfold Phrase.parse
      split
      · rename_i op hs
        obtain ⟨s, hs, -⟩ := Option.bind_eq_some_iff.mp hs
        obtain ⟨position, ts, rfl⟩ := leading?_eq_some_iff.mp hs
        have hlt := Nat.lt_succ_self ts.length
        exact built_settled (nested .unary ts hlt) hlt (.unary op)
      · exact first rfl
    | power =>
      refine (first rfl).andThen fun base rest hr => ?_
      split
      · rename_i hs
        obtain ⟨position, rest, rfl⟩ := leading?_eq_some_iff.mp hs
        have hlt := Nat.lt_of_succ_lt hr
        exact built_settled (nested .unary rest hlt) hlt (.binary .power base)
      · exact hr
    | application =>
      refine (first rfl).andThen fun f rest hr => ?_
      obtain ⟨length, hlength⟩ := Nat.exists_eq_add_one_of_ne_zero (Nat.ne_zero_of_lt hr)
      rw [hlength] at hr ⊢
      exact calls_settled (fun ts' h => nested _ ts' (by omega)) _ f (Nat.le_of_lt_succ hr)
    | primary =>
      unfold Phrase.parse
      split
      · exact Nat.lt_succ_self _
      · exact Nat.lt_succ_self _
      · rename_i position rest
        exact group_settled (nested .conditional rest (Nat.lt_succ_self _))
      · exact fun h => by cases h

/-! ## The tokens behind a run -/

/-- The tokens are the same but for the last ones, which are `r` in the first run and `r'` in the second. -/
def Coupling.behind (r r' : List Token) : Coupling where
  ahead ts ts' := ∃ us, ts = us ++ r ∧ ts' = us ++ r'
  past ts := ts <:+ r
  lenient := False
  past_of_suffix h h' := h.trans h'
  look := by
    rintro ts ts' ⟨us, rfl, rfl⟩
    cases us with
    | nil => exact .inl List.suffix_rfl
    | cons t us => exact .inr ⟨rfl, us, rfl, rfl⟩

theorem not_cons_suffix {t : Token} {r : List Token} : ¬ t :: r <:+ r :=
  fun h => Nat.not_succ_le_self _ h.length_le

/-- A phrase that ends before a token is read whatever is behind that token. -/
theorem parse_done_local {t : Token} {r : List Token} (h : p.parse n (us ++ t :: r) = .done e (t :: r))
    (r' : List Token) : p.parse n (us ++ t :: r') = .done e (t :: r') := by
  have hr := (Coupling.Related.parse (c := .behind r r') n n p (.inl rfl)).agree (us ++ t :: r) (us ++ t :: r')
    ⟨us ++ [t], List.append_cons .., List.append_cons ..⟩
  rw [h] at hr
  generalize p.parse n (us ++ t :: r') = o at hr ⊢
  cases hr with
  | done ha =>
    obtain ⟨ws, hw, rfl⟩ := ha
    rw [← List.append_cancel_right (List.singleton_append.trans hw)]
    rfl
  | past hp => exact absurd hp not_cons_suffix

/-- A stop before a token occurs whatever is behind that token. -/
theorem parse_stopped_local {t : Token} {r : List Token} (h : p.parse n (us ++ t :: r) = .stopped reason (t :: r))
    (r' : List Token) : p.parse n (us ++ t :: r') = .stopped reason (t :: r') := by
  have hr := (Coupling.Related.parse (c := .behind r r') n n p (.inl rfl)).agree (us ++ t :: r) (us ++ t :: r')
    ⟨us ++ [t], List.append_cons .., List.append_cons ..⟩
  rw [h] at hr
  generalize p.parse n (us ++ t :: r') = o at hr ⊢
  cases hr with
  | stopped ha =>
    obtain ⟨ws, hw, rfl⟩ := ha
    rw [← List.append_cancel_right (List.singleton_append.trans hw)]
    rfl
  | past hp => exact absurd hp not_cons_suffix
  | deep hd => exact hd.elim

end DotGrid
