import DotGrid.Syntax.Parser

/-!
# What holds of an outcome

`Outcome.Holds P Q o` says that `P` holds of the result of `o` or `Q` of the reason for its stop, each with the tokens
that are left. There is one rule for each part that a parser is put together from: sequence (`Holds.bind`), one
symbol (`expect_holds`), and the loops (`chain_holds`, `moreArgs_holds`, `calls_holds`), each with an invariant of what
has been read so far and the tokens ahead. The rules hold whatever the budget of a loop is. The tokens that an outcome
leaves are a suffix of those that were ahead, if this holds of the parts of a loop.
-/

namespace DotGrid

variable {α β : Type}

namespace Outcome

/-- What holds of an outcome: `P` of a result, `Q` of a stop. -/
def Holds (P : α → List Token → Prop) (Q : Stop → List Token → Prop) : Outcome α → Prop
  | .done a rest => P a rest
  | .stopped reason rest => Q reason rest

section

variable {P P' : α → List Token → Prop} {Q Q' : Stop → List Token → Prop} {o : Outcome α}

theorem Holds.imp (h : o.Holds P Q) (hP : ∀ a rest, P a rest → P' a rest) (hQ : ∀ r rest, Q r rest → Q' r rest) :
    o.Holds P' Q' := by
  cases o with
  | done a rest => exact hP a rest h
  | stopped reason rest => exact hQ reason rest h

theorem Holds.bind {R : β → List Token → Prop} {f : α → List Token → Outcome β} (h : o.Holds P Q)
    (hQ : ∀ r rest, Q r rest → Q' r rest) (hf : ∀ a rest, P a rest → (f a rest).Holds R Q') :
    (o.andThen f).Holds R Q' := by
  cases o with
  | done a rest => exact hf a rest h
  | stopped reason rest => exact hQ reason rest h

theorem Holds.andThen {R : β → List Token → Prop} {f : α → List Token → Outcome β} (h : o.Holds P Q)
    (hf : ∀ a rest, P a rest → (f a rest).Holds R Q) : (o.andThen f).Holds R Q :=
  h.bind (fun _ _ => id) hf

end

end Outcome

open Outcome

@[simp] theorem leading?_symbol (s : Symbol) (position : Nat) (ts : List Token) :
    leading? (⟨.symbol s, position⟩ :: ts) = some s :=
  rfl

theorem leading?_eq_some_iff {s : Symbol} {ts : List Token} :
    leading? ts = some s ↔ ∃ position rest, ts = ⟨.symbol s, position⟩ :: rest := by
  constructor
  · intro h
    match ts, h with
    | ⟨.symbol s', position⟩ :: rest, h => cases h; exact ⟨position, rest, rfl⟩
  · rintro ⟨position, rest, rfl⟩
    rfl

theorem expect_holds {s : Symbol} {ts : List Token} {P : α → List Token → Prop} {Q : Stop → List Token → Prop}
    {f : Unit → List Token → Outcome α}
    (hdone : ∀ position rest, ts = ⟨.symbol s, position⟩ :: rest → (f () rest).Holds P Q)
    (hstop : leading? ts ≠ some s → Q (.unexpected (.symbol s.text)) ts) : ((expect s ts).andThen f).Holds P Q := by
  unfold expect
  split
  · rename_i h
    obtain ⟨position, rest, rfl⟩ := leading?_eq_some_iff.mp h
    exact hdone position rest rfl
  · rename_i h
    exact hstop h

/-! ## Loops -/

section Loops

variable {Q : Stop → List Token → Prop}

/-- A chain of operands keeps an invariant of the tree on its left. -/
theorem chain_holds {level : Nat} {operand : List Token → Outcome Expr} {P : Expr → List Token → Prop}
    (Inv : Expr → List Token → Prop) (hend : ∀ left ts, Inv left ts → P left ts)
    (hstep : ∀ left s joint position ts, s.jointAt? level = some joint → Inv left (⟨.symbol s, position⟩ :: ts) →
      (operand ts).Holds (fun right rest => Inv (joint.build left right) rest) Q) :
    ∀ (fuel : Nat) (left : Expr) (ts : List Token), Inv left ts → (chain level operand fuel left ts).Holds P Q
  | 0, left, ts, h => hend left ts h
  | fuel + 1, left, ts, h => by
    unfold chain
    split
    · exact hend left ts h
    · rename_i joint hj
      obtain ⟨s, hs, hj⟩ := Option.bind_eq_some_iff.mp hj
      obtain ⟨position, rest, rfl⟩ := leading?_eq_some_iff.mp hs
      exact (hstep left s joint position rest hj h).andThen fun right => chain_holds Inv hend hstep fuel _

/-- The arguments of a call keep an invariant of the list of those that have been read. -/
theorem moreArgs_holds {argument : List Token → Outcome Expr} {P : List Expr → List Token → Prop}
    (Inv : List Expr → List Token → Prop) (hend : ∀ args ts, Inv args ts → P args ts)
    (hstep : ∀ args position ts, Inv args (⟨.symbol .comma, position⟩ :: ts) →
      (argument ts).Holds (fun arg rest => Inv (args ++ [arg]) rest) Q) :
    ∀ (fuel : Nat) (args : List Expr) (ts : List Token), Inv args.reverse ts →
      (moreArgs argument fuel args ts).Holds P Q
  | 0, args, ts, h => hend args.reverse ts h
  | fuel + 1, args, ts, h => by
    unfold moreArgs
    split
    · rename_i hs
      obtain ⟨position, rest, rfl⟩ := leading?_eq_some_iff.mp hs
      refine (hstep args.reverse position rest h).andThen fun arg rest' h' => ?_
      exact moreArgs_holds Inv hend hstep fuel (arg :: args) rest' (by rwa [List.reverse_cons])
    · exact hend args.reverse ts h

theorem arguments_holds {argument : List Token → Outcome Expr} {P : List Expr → List Token → Prop} {ts : List Token}
    (Inv : List Expr → List Token → Prop)
    (hnone : ∀ position rest, ts = ⟨.symbol .closing, position⟩ :: rest → Inv [] ts)
    (hfirst : (argument ts).Holds (fun arg rest => Inv [arg] rest) Q)
    (hstep : ∀ args position ts, Inv args (⟨.symbol .comma, position⟩ :: ts) →
      (argument ts).Holds (fun arg rest => Inv (args ++ [arg]) rest) Q)
    (hend : ∀ args position rest, Inv args (⟨.symbol .closing, position⟩ :: rest) → P args rest)
    (hstop : ∀ args rest, Inv args rest → Q (.unexpected (.symbol Symbol.closing.text)) rest) :
    (arguments argument ts).Holds P Q := by
  unfold arguments
  refine Holds.andThen (P := Inv) ?_ fun args rest h => ?_
  · split
    · rename_i hs
      obtain ⟨position, rest, rfl⟩ := leading?_eq_some_iff.mp hs
      exact hnone position rest rfl
    · exact hfirst.andThen fun arg rest h => moreArgs_holds Inv (fun _ _ h => h) hstep _ [arg] rest h
  · refine expect_holds ?_ fun _ => hstop args rest h
    rintro position rest' rfl
    exact hend args position rest' h

/-- The calls after a function keep an invariant of the tree so far. -/
theorem calls_holds {argument : List Token → Outcome Expr} {P : Expr → List Token → Prop}
    (Inv : Expr → List Token → Prop) (hend : ∀ f ts, Inv f ts → P f ts)
    (hstep : ∀ f position ts, Inv f (⟨.symbol .opening, position⟩ :: ts) →
      (arguments argument ts).Holds (fun args rest => Inv (.call f args) rest) Q) :
    ∀ (fuel : Nat) (f : Expr) (ts : List Token), Inv f ts → (calls argument fuel f ts).Holds P Q
  | 0, f, ts, h => hend f ts h
  | fuel + 1, f, ts, h => by
    unfold calls
    split
    · rename_i hs
      obtain ⟨position, rest, rfl⟩ := leading?_eq_some_iff.mp hs
      exact (hstep f position rest h).andThen fun args => calls_holds Inv hend hstep fuel _
    · exact hend f ts h

end Loops

/-! ## Equations -/

section Equations

variable {n level fuel : Nat} {ts : List Token} {operand argument : List Token → Outcome Expr}

/-! A loop that has budget for every token ahead goes on as long as there is a symbol for it. -/

theorem chain_eq (left : Expr) (hf : ts.length ≤ fuel) :
    chain level operand fuel left ts = match (leading? ts).bind (·.jointAt? level) with
      | none => .done left ts
      | some joint =>
        (operand ts.tail).andThen fun right rest => chain level operand (fuel - 1) (joint.build left right) rest := by
  cases fuel with
  | zero =>
    cases List.length_eq_zero_iff.mp (Nat.le_zero.mp hf)
    rfl
  | succ fuel => rfl

theorem moreArgs_eq (args : List Expr) (hf : ts.length ≤ fuel) :
    moreArgs argument fuel args ts =
      if leading? ts = some .comma then
        (argument ts.tail).andThen fun arg rest => moreArgs argument (fuel - 1) (arg :: args) rest
      else .done args.reverse ts := by
  cases fuel with
  | zero =>
    cases List.length_eq_zero_iff.mp (Nat.le_zero.mp hf)
    rfl
  | succ fuel => rfl

theorem calls_eq (f : Expr) (hf : ts.length ≤ fuel) :
    calls argument fuel f ts =
      if leading? ts = some .opening then
        (arguments argument ts.tail).andThen fun args rest => calls argument (fuel - 1) (.call f args) rest
      else .done f ts := by
  cases fuel with
  | zero =>
    cases List.length_eq_zero_iff.mp (Nat.le_zero.mp hf)
    rfl
  | succ fuel => rfl

/-! The first symbol or lexeme decides how a phrase is read. -/

theorem parse_binary_of_le (h : binaryLevels ≤ level) :
    Phrase.parse (n + 1) (.binary level) = Phrase.parse n .unary :=
  funext fun _ => if_pos h

theorem parse_binary_of_lt (h : level < binaryLevels) :
    Phrase.parse (n + 1) (.binary level) = fun ts =>
      (Phrase.parse n (.binary (level + 1)) ts).andThen fun left rest =>
        chain level (Phrase.parse n (.binary (level + 1))) rest.length left rest :=
  funext fun _ => if_neg (Nat.not_le.mpr h)

/-- What a prefix operator, or none, stands before. -/
def unaryBy (signed unsigned : List Token → Outcome Expr) : Option UnaryOp → List Token → Outcome Expr
  | some op, ts => (signed ts.tail).andThen fun operand rest => .done (.unary op operand) rest
  | none, ts => unsigned ts

theorem parse_unary :
    Phrase.parse (n + 1) .unary = fun ts =>
      unaryBy (Phrase.parse n .unary) (Phrase.parse n .power) ((leading? ts).bind Symbol.unary?) ts := by
  funext ts
  rw [Phrase.parse]
  cases (leading? ts).bind Symbol.unary? <;> rfl

/-- What a primary is, by its first lexeme. -/
def primaryBy (inner : List Token → Outcome Expr) : Option Lexeme → List Token → Outcome Expr
  | some (.number value), ts => .done (.number (.real value)) ts.tail
  | some (.name ident), ts => .done (.name ident) ts.tail
  | some (.symbol .opening), ts =>
    (inner ts.tail).andThen fun inner rest => (expect .closing rest).andThen fun _ rest => .done inner rest
  | _, ts => .stopped (.unexpected .operand) ts

theorem parse_primary :
    Phrase.parse (n + 1) .primary = fun ts =>
      primaryBy (Phrase.parse n .conditional) (ts.head?.map Token.lexeme) ts := by
  funext ts
  match ts with
  | [] => rfl
  | ⟨.number _, _⟩ :: _ => rfl
  | ⟨.name _, _⟩ :: _ => rfl
  | ⟨.symbol s, _⟩ :: _ => cases s <;> rfl

end Equations

/-! ## Outcomes leave a suffix of the tokens -/

section Suffix

variable {operand argument : List Token → Outcome Expr} {level : Nat}

theorem Outcome.rest_andThen_suffix {o : Outcome α} {f : α → List Token → Outcome β} {ts : List Token}
    (ho : o.rest <:+ ts) (hf : ∀ a rest, (f a rest).rest <:+ rest) : (o.andThen f).rest <:+ ts := by
  cases o with
  | done a rest => exact (hf a rest).trans ho
  | stopped reason rest => exact ho

theorem expect_suffix (s : Symbol) (ts : List Token) : (expect s ts).rest <:+ ts := by
  unfold expect
  split
  · exact List.tail_suffix ts
  · exact List.suffix_rfl

theorem chain_suffix (h : ∀ ts, (operand ts).rest <:+ ts) : ∀ (fuel : Nat) (left : Expr) (ts : List Token),
    (chain level operand fuel left ts).rest <:+ ts
  | 0, _, _ => List.suffix_rfl
  | fuel + 1, left, ts => by
    unfold chain
    split
    · exact List.suffix_rfl
    · exact Outcome.rest_andThen_suffix ((h _).trans (List.tail_suffix ts)) fun _ _ => chain_suffix h fuel _ _

theorem moreArgs_suffix (h : ∀ ts, (argument ts).rest <:+ ts) : ∀ (fuel : Nat) (args : List Expr) (ts : List Token),
    (moreArgs argument fuel args ts).rest <:+ ts
  | 0, _, _ => List.suffix_rfl
  | fuel + 1, args, ts => by
    unfold moreArgs
    split
    · exact Outcome.rest_andThen_suffix ((h _).trans (List.tail_suffix ts)) fun _ _ => moreArgs_suffix h fuel _ _
    · exact List.suffix_rfl

theorem arguments_suffix (h : ∀ ts, (argument ts).rest <:+ ts) (ts : List Token) :
    (arguments argument ts).rest <:+ ts := by
  unfold arguments
  refine Outcome.rest_andThen_suffix ?_ fun args rest => ?_
  · split
    · exact List.suffix_rfl
    · exact Outcome.rest_andThen_suffix (h ts) fun _ _ => moreArgs_suffix h _ _ _
  · exact Outcome.rest_andThen_suffix (expect_suffix _ _) fun _ _ => List.suffix_rfl

theorem calls_suffix (h : ∀ ts, (argument ts).rest <:+ ts) : ∀ (fuel : Nat) (f : Expr) (ts : List Token),
    (calls argument fuel f ts).rest <:+ ts
  | 0, _, _ => List.suffix_rfl
  | fuel + 1, f, ts => by
    unfold calls
    split
    · exact Outcome.rest_andThen_suffix ((arguments_suffix h _).trans (List.tail_suffix ts))
        fun _ _ => calls_suffix h fuel _ _
    · exact List.suffix_rfl

end Suffix

end DotGrid
