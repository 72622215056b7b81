import DotGrid.Proofs.Parser.Soundness

/-!
# Two runs of the parser

A `Coupling` says which tokens ahead of two runs correspond, and which outcomes of the first run need no counterpart:
those that have left the part of the tokens that is coupled, and, if the coupling is lenient, those that are too deep.
Two readers are related if corresponding tokens lead to corresponding outcomes; all that a parser is put together from
keeps related readers related, and so each phrase is related to itself (`Coupling.Related.parse`).

There are two uses: a larger budget changes nothing but a stop for its depth (`parse_eq_of_le`), and the tokens behind
the one where a run stops do not matter (`parse_done_local`, `parse_stopped_local`).
-/

namespace DotGrid

variable {α β : Type}

/-- What corresponds in two runs. -/
structure Coupling where
  /-- The tokens ahead of the runs correspond. -/
  ahead : List Token → List Token → Prop
  /-- The first run has left the part that is coupled. -/
  past : List Token → Prop
  /-- The first run may be too deep where the second one is not. -/
  lenient : Prop
  past_of_suffix : ∀ {us ts}, us <:+ ts → past ts → past us
  look : ∀ {ts ts'}, ahead ts ts' →
    past ts ∨ ts.head?.map Token.lexeme = ts'.head?.map Token.lexeme ∧ ahead ts.tail ts'.tail

namespace Coupling

variable (c : Coupling)

/-- The outcomes of two runs correspond. -/
inductive Agree : Outcome α → Outcome α → Prop
  | done {a : α} {rest rest' : List Token} : c.ahead rest rest' → Agree (.done a rest) (.done a rest')
  | stopped {reason : Stop} {rest rest' : List Token} : c.ahead rest rest' →
      Agree (.stopped reason rest) (.stopped reason rest')
  | past {o o' : Outcome α} : c.past o.rest → Agree o o'
  | deep {rest : List Token} {o : Outcome α} : c.lenient → Agree (.stopped .tooDeep rest) o

variable {c} {ts ts' : List Token}

theorem Agree.andThen {o o' : Outcome α} {f f' : α → List Token → Outcome β} (h : c.Agree o o')
    (hf : ∀ a rest rest', o.rest = rest → o'.rest = rest' → c.ahead rest rest' → c.Agree (f a rest) (f' a rest'))
    (hs : ∀ a rest, (f a rest).rest <:+ rest) : c.Agree (o.andThen f) (o'.andThen f') := by
  cases h with
  | done h => exact hf _ _ _ rfl rfl h
  | stopped h => exact .stopped h
  | past h =>
    refine .past (c.past_of_suffix ?_ h)
    exact Outcome.rest_andThen_suffix List.suffix_rfl hs
  | deep h => exact .deep h

theorem leading?_eq (h : ts.head?.map Token.lexeme = ts'.head?.map Token.lexeme) : leading? ts = leading? ts' := by
  cases ts <;> cases ts' <;> simp_all [leading?, Token.symbol?]

/-- Either the first run has left the part that is compared, or both runs see the same symbol. -/
theorem look_leading (h : c.ahead ts ts') : c.past ts ∨ leading? ts = leading? ts' ∧ c.ahead ts.tail ts'.tail :=
  (c.look h).imp_right fun ⟨hh, ht⟩ => ⟨leading?_eq hh, ht⟩

/-- Two readers leave a suffix of the tokens, and corresponding tokens lead them to corresponding outcomes. -/
structure Related (c : Coupling) (r r' : List Token → Outcome α) : Prop where
  left : ∀ ts, (r ts).rest <:+ ts
  right : ∀ ts, (r' ts).rest <:+ ts
  agree : ∀ ts ts', c.ahead ts ts' → c.Agree (r ts) (r' ts')

namespace Related

theorem done (a : α) : c.Related (Outcome.done a) (Outcome.done a) :=
  ⟨fun _ => List.suffix_rfl, fun _ => List.suffix_rfl, fun _ _ h => .done h⟩

theorem stopped (reason : Stop) : c.Related (Outcome.stopped (α := α) reason) (Outcome.stopped reason) :=
  ⟨fun _ => List.suffix_rfl, fun _ => List.suffix_rfl, fun _ _ h => .stopped h⟩

theorem andThen {r r' : List Token → Outcome α} {f f' : α → List Token → Outcome β} (h : c.Related r r')
    (hf : ∀ a, c.Related (f a) (f' a)) : c.Related (fun ts => (r ts).andThen f) (fun ts => (r' ts).andThen f') where
  left ts := Outcome.rest_andThen_suffix (h.left ts) fun a => (hf a).left
  right ts := Outcome.rest_andThen_suffix (h.right ts) fun a => (hf a).right
  agree ts ts' ha := (h.agree ts ts' ha).andThen (fun a _ _ _ _ ha => (hf a).agree _ _ ha) fun a => (hf a).left

theorem tail {r r' : List Token → Outcome α} (h : c.Related r r') :
    c.Related (fun ts => r ts.tail) (fun ts => r' ts.tail) where
  left ts := (h.left _).trans (List.tail_suffix ts)
  right ts := (h.right _).trans (List.tail_suffix ts)
  agree ts ts' ha := by
    rcases c.look ha with hp | ⟨-, ht⟩
    · exact .past (c.past_of_suffix ((h.left _).trans (List.tail_suffix ts)) hp)
    · exact h.agree _ _ ht

/-- The first lexeme ahead may decide what is read. -/
theorem byHead {f g : Option Lexeme → List Token → Outcome α} (h : ∀ l, c.Related (f l) (g l)) :
    c.Related (fun ts => f (ts.head?.map Token.lexeme) ts) (fun ts => g (ts.head?.map Token.lexeme) ts) where
  left ts := (h _).left ts
  right ts := (h _).right ts
  agree ts ts' ha := by
    rcases c.look ha with hp | ⟨hl, -⟩
    · exact .past (c.past_of_suffix ((h _).left ts) hp)
    · rw [← hl]
      exact (h _).agree _ _ ha

theorem byLeading {f g : Option Symbol → List Token → Outcome α} (h : ∀ s, c.Related (f s) (g s)) :
    c.Related (fun ts => f (leading? ts) ts) (fun ts => g (leading? ts) ts) where
  left ts := (h _).left ts
  right ts := (h _).right ts
  agree ts ts' ha := by
    rcases c.look ha with hp | ⟨hl, -⟩
    · exact .past (c.past_of_suffix ((h _).left ts) hp)
    · rw [← leading?_eq hl]
      exact (h _).agree _ _ ha

theorem ifLeading (s : Symbol) {r r' q q' : List Token → Outcome α} (h : c.Related r r') (h' : c.Related q q') :
    c.Related (fun ts => if leading? ts = some s then r ts else q ts)
      (fun ts => if leading? ts = some s then r' ts else q' ts) := by
  refine byLeading (f := fun l ts => if l = some s then r ts else q ts)
    (g := fun l ts => if l = some s then r' ts else q' ts) fun l => ?_
  by_cases hl : l = some s
  · simpa only [if_pos hl] using h
  · simpa only [if_neg hl] using h'

theorem expect (s : Symbol) : c.Related (DotGrid.expect s) (DotGrid.expect s) :=
  ifLeading s (done ()).tail (stopped _)

/-! ### Loops -/

section Loops

variable {operand operand' argument argument' : List Token → Outcome Expr} {level : Nat}

/-- The tokens behind the first one, or a part of them, are fewer. -/
theorem length_of_suffix_tail {fuel : Nat} {rest : List Token} {s : Symbol} (hl : leading? ts = some s)
    (hr : rest <:+ ts.tail) (hf : ts.length ≤ fuel) : rest.length < ts.length ∧ rest.length ≤ fuel - 1 := by
  obtain ⟨position, us, rfl⟩ := leading?_eq_some_iff.mp hl
  have hle := hr.length_le
  simp only [List.tail_cons, List.length_cons] at hle hf ⊢
  omega

theorem chain_agree (h : c.Related operand operand') (fuel fuel' : Nat) (left : Expr) (hf : ts.length ≤ fuel)
    (hf' : ts'.length ≤ fuel') (ha : c.ahead ts ts') :
    c.Agree (DotGrid.chain level operand fuel left ts) (DotGrid.chain level operand' fuel' left ts') := by
  induction hn : ts.length using Nat.strongRecOn generalizing ts ts' fuel fuel' left with
  | _ n ih =>
    rcases c.look_leading ha with hp | ⟨hl, ht⟩
    · exact .past (c.past_of_suffix (chain_suffix h.left fuel left ts) hp)
    rw [chain_eq left hf, chain_eq left hf', ← hl]
    split
    · exact .done ha
    · rename_i joint hj
      obtain ⟨s, hs, -⟩ := Option.bind_eq_some_iff.mp hj
      refine (h.agree _ _ ht).andThen (fun right rest rest' hr hr' ha' => ?_) fun _ _ => chain_suffix h.left _ _ _
      obtain ⟨hlt, hle⟩ := length_of_suffix_tail hs (hr ▸ h.left ts.tail) hf
      obtain ⟨-, hle'⟩ := length_of_suffix_tail (hl ▸ hs) (hr' ▸ h.right ts'.tail) hf'
      exact ih rest.length (hn ▸ hlt) (fuel - 1) (fuel' - 1) _ hle hle' ha' rfl

theorem chain (h : c.Related operand operand') (left : Expr) :
    c.Related (fun ts => DotGrid.chain level operand ts.length left ts)
      (fun ts => DotGrid.chain level operand' ts.length left ts) where
  left ts := chain_suffix h.left _ _ ts
  right ts := chain_suffix h.right _ _ ts
  agree _ _ := chain_agree h _ _ left (Nat.le_refl _) (Nat.le_refl _)

theorem moreArgs_agree (h : c.Related argument argument') (fuel fuel' : Nat) (args : List Expr)
    (hf : ts.length ≤ fuel) (hf' : ts'.length ≤ fuel') (ha : c.ahead ts ts') :
    c.Agree (DotGrid.moreArgs argument fuel args ts) (DotGrid.moreArgs argument' fuel' args ts') := by
  induction hn : ts.length using Nat.strongRecOn generalizing ts ts' fuel fuel' args with
  | _ n ih =>
    rcases c.look_leading ha with hp | ⟨hl, ht⟩
    · exact .past (c.past_of_suffix (moreArgs_suffix h.left fuel args ts) hp)
    rw [moreArgs_eq args hf, moreArgs_eq args hf', ← hl]
    split
    · rename_i hs
      refine (h.agree _ _ ht).andThen (fun arg rest rest' hr hr' ha' => ?_) fun _ _ => moreArgs_suffix h.left _ _ _
      obtain ⟨hlt, hle⟩ := length_of_suffix_tail hs (hr ▸ h.left ts.tail) hf
      obtain ⟨-, hle'⟩ := length_of_suffix_tail (hl ▸ hs) (hr' ▸ h.right ts'.tail) hf'
      exact ih rest.length (hn ▸ hlt) (fuel - 1) (fuel' - 1) _ hle hle' ha' rfl
    · exact .done ha

theorem moreArgs (h : c.Related argument argument') (args : List Expr) :
    c.Related (fun ts => DotGrid.moreArgs argument ts.length args ts)
      (fun ts => DotGrid.moreArgs argument' ts.length args ts) where
  left ts := moreArgs_suffix h.left _ _ ts
  right ts := moreArgs_suffix h.right _ _ ts
  agree _ _ := moreArgs_agree h _ _ args (Nat.le_refl _) (Nat.le_refl _)

theorem arguments (h : c.Related argument argument') :
    c.Related (DotGrid.arguments argument) (DotGrid.arguments argument') := by
  have some := h.andThen fun arg => moreArgs h [arg]
  have closed (args : List Expr) := (Related.expect (c := c) .closing).andThen fun _ => done args
  exact (ifLeading .closing (done []) some).andThen closed

theorem calls_agree (h : c.Related argument argument') (fuel fuel' : Nat) (f : Expr)
    (hf : ts.length ≤ fuel) (hf' : ts'.length ≤ fuel') (ha : c.ahead ts ts') :
    c.Agree (DotGrid.calls argument fuel f ts) (DotGrid.calls argument' fuel' f ts') := by
  induction hn : ts.length using Nat.strongRecOn generalizing ts ts' fuel fuel' f with
  | _ n ih =>
    rcases c.look_leading ha with hp | ⟨hl, ht⟩
    · exact .past (c.past_of_suffix (calls_suffix h.left fuel f ts) hp)
    rw [calls_eq f hf, calls_eq f hf', ← hl]
    split
    · rename_i hs
      have hargs := h.arguments
      refine (hargs.agree _ _ ht).andThen (fun args rest rest' hr hr' ha' => ?_) fun _ _ => calls_suffix h.left _ _ _
      obtain ⟨hlt, hle⟩ := length_of_suffix_tail hs (hr ▸ hargs.left ts.tail) hf
      obtain ⟨-, hle'⟩ := length_of_suffix_tail (hl ▸ hs) (hr' ▸ hargs.right ts'.tail) hf'
      exact ih rest.length (hn ▸ hlt) (fuel - 1) (fuel' - 1) _ hle hle' ha' rfl
    · exact .done ha

theorem calls (h : c.Related argument argument') (f : Expr) :
    c.Related (fun ts => DotGrid.calls argument ts.length f ts) (fun ts => DotGrid.calls argument' ts.length f ts) where
  left ts := calls_suffix h.left _ _ ts
  right ts := calls_suffix h.right _ _ ts
  agree _ _ := calls_agree h _ _ f (Nat.le_refl _) (Nat.le_refl _)

end Loops

/-! ### Phrases -/

/-- A phrase is related to itself, and leniently to itself with a larger budget. -/
theorem parse : ∀ (n n' : Nat) (p : Phrase), n = n' ∨ c.lenient ∧ n ≤ n' →
    c.Related (Phrase.parse n p) (Phrase.parse n' p) := by
  intro n
  induction n with
  | zero =>
    rintro n' p (rfl | ⟨hd, -⟩)
    · exact stopped .tooDeep
    · exact ⟨fun _ => List.suffix_rfl, fun ts => parse_suffix n' p ts, fun _ _ _ => .deep hd⟩
  | succ n ih =>
    intro n' p hn
    obtain ⟨m, rfl⟩ : ∃ m, n' = m + 1 := ⟨n' - 1, by omega⟩
    replace ih : ∀ p, c.Related (Phrase.parse n p) (Phrase.parse m p) :=
      fun p => ih m p (hn.imp (by omega) fun ⟨hd, hle⟩ => ⟨hd, by omega⟩)
    cases p with
    | conditional =>
      have branches (test : Expr) := (ih .conditional).andThen fun thenBranch => (expect .colon).andThen fun _ =>
        (ih .conditional).andThen fun elseBranch => done (Expr.conditional test thenBranch elseBranch)
      exact (ih (.binary 0)).andThen fun test => ifLeading .question (branches test).tail (done test)
    | binary level =>
      rcases Nat.lt_or_ge level binaryLevels with hl | hl
      · rw [parse_binary_of_lt hl, parse_binary_of_lt hl]
        exact (ih _).andThen fun left => chain (ih _) left
      · rw [parse_binary_of_le hl, parse_binary_of_le hl]
        exact ih .unary
    | unary =>
      have signed (op : UnaryOp) := (ih .unary).andThen fun operand => done (Expr.unary op operand)
      rw [parse_unary, parse_unary]
      refine byLeading (f := fun s => unaryBy _ _ (s.bind Symbol.unary?))
        (g := fun s => unaryBy _ _ (s.bind Symbol.unary?)) fun s => ?_
      cases s.bind Symbol.unary? with
      | none => exact ih .power
      | some op => exact (signed op).tail
    | power =>
      have raised (base : Expr) := (ih .unary).andThen fun exponent => done (Expr.binary .power base exponent)
      exact (ih .application).andThen fun base => ifLeading .power (raised base).tail (done base)
    | application => exact (ih .primary).andThen fun f => calls (ih .conditional) f
    | primary =>
      have group := (ih .conditional).andThen fun inner => (expect .closing).andThen fun _ => done inner
      rw [parse_primary, parse_primary]
      refine byHead fun l => ?_
      match l with
      | none => exact stopped _
      | some (.number value) => exact (done _).tail
      | some (.name ident) => exact (done _).tail
      | some (.symbol s) =>
        cases s
        case opening => exact group.tail
        all_goals exact stopped _

end Related

end Coupling

end DotGrid
