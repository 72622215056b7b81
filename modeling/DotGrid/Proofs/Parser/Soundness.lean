import DotGrid.Proofs.Grammar.Basic
import DotGrid.Proofs.Parser.Outcome

/-!
# The parser reads what the grammar derives

A result of the parser comes with a derivation of the tokens that were taken (`Read`). A stop leaves tokens behind that
can be completed to a phrase (`Completable`), whatever the reason of the stop is. Both hold for every phrase and every
budget (`parse_holds`).
-/

namespace DotGrid

open Outcome

variable {p q : Phrase} {s : Symbol} {ts us rest : List Token} {e : Expr}

/-- The tokens before `rest` are a phrase with a given tree. -/
def Read (p : Phrase) (ts : List Token) (e : Expr) (rest : List Token) : Prop :=
  ∃ us, ts = us ++ rest ∧ Derives p (lexemes us) e

/-- The tokens before `rest` are the start of a phrase. -/
def Completable (p : Phrase) (ts rest : List Token) : Prop :=
  ∃ us more e, ts = us ++ rest ∧ Derives p (lexemes us ++ more) e

theorem Read.tighter (hq : p.tighter? = some q) (h : Read q ts e rest) : Read p ts e rest := by
  obtain ⟨us, rfl, hd⟩ := h
  exact ⟨us, rfl, .tighter hq hd⟩

/-- Nothing is the start of a phrase of any kind. -/
theorem Completable.refl (p : Phrase) (ts : List Token) : Completable p ts ts := by
  obtain ⟨w, e, hd⟩ := Derives.exists_derives p
  exact ⟨[], w, e, rfl, hd⟩

/-- The start of a part of a phrase, behind the parts before it, is the start of the phrase. -/
theorem Completable.within (h : Completable q ts rest) (us : List Token) (post : List Lexeme)
    (hp : ∀ w e, Derives q w e → ∃ e', Derives p (lexemes us ++ (w ++ post)) e') : Completable p (us ++ ts) rest := by
  obtain ⟨vs, more, e, rfl, hd⟩ := h
  obtain ⟨e', hd'⟩ := hp _ e hd
  refine ⟨us ++ vs, more ++ post, e', (List.append_assoc us vs rest).symm, ?_⟩
  simpa [List.append_assoc] using hd'

theorem Completable.tighter (hq : p.tighter? = some q) (h : Completable q ts rest) : Completable p ts rest := by
  obtain ⟨us, more, e, rfl, hd⟩ := h
  exact ⟨us, more, e, rfl, .tighter hq hd⟩

/-- What an outcome for a phrase has to satisfy: a phrase has been read, or the start of one. -/
abbrev Sound (p : Phrase) (ts : List Token) (o : Outcome Expr) : Prop :=
  o.Holds (Read p ts) (fun _ rest => Completable p ts rest)

/-! ## Arguments -/

/-- The tokens before `rest` are arguments with commas between them; if there are none, the list is closed. -/
def ReadArgs (ts : List Token) (args : List Expr) (rest : List Token) : Prop :=
  ∃ us, ts = us ++ rest ∧ DerivesArgs (lexemes us) args ∧ (args = [] → leading? rest = some .closing)

/-- The tokens before `rest` are arguments and a closing parenthesis. -/
def ClosedArgs (ts : List Token) (args : List Expr) (rest : List Token) : Prop :=
  ∃ us position, ts = us ++ ⟨.symbol .closing, position⟩ :: rest ∧ DerivesArgs (lexemes us) args

/-- The tokens before `rest` are the start of arguments. -/
def CompletableArgs (ts rest : List Token) : Prop :=
  ∃ us more args, ts = us ++ rest ∧ DerivesArgs (lexemes us ++ more) args

theorem arguments_sound {argument : List Token → Outcome Expr} (h : ∀ ts, Sound .conditional ts (argument ts))
    (ts : List Token) :
    (arguments argument ts).Holds (ClosedArgs ts) (fun _ rest => CompletableArgs ts rest) := by
  refine arguments_holds (ReadArgs ts) ?_ ?_ ?_ ?_ ?_
  · rintro position rest rfl
    exact ⟨[], rfl, .nil, fun _ => rfl⟩
  · refine (h ts).imp ?_ ?_
    · rintro e rest ⟨us, rfl, hd⟩
      exact ⟨us, rfl, .singleton hd, nofun⟩
    · rintro - rest ⟨us, more, e, rfl, hd⟩
      exact ⟨us, more, [e], rfl, .singleton hd⟩
  · rintro args position ts' ⟨us, rfl, hargs, hnil⟩
    have hne : args ≠ [] := fun h => absurd (hnil h) (by simp [leading?, Token.symbol?])
    refine (h ts').imp ?_ ?_
    · rintro e rest ⟨vs, rfl, hd⟩
      refine ⟨us ++ ⟨.symbol .comma, position⟩ :: vs, by simp, ?_, by simp⟩
      simpa using hargs.snoc hne hd
    · rintro - rest ⟨vs, more, e, rfl, hd⟩
      refine ⟨us ++ ⟨.symbol .comma, position⟩ :: vs, more, args ++ [e], by simp, ?_⟩
      simpa using hargs.snoc hne hd
  · rintro args position rest ⟨us, rfl, hargs, -⟩
    exact ⟨us, position, rfl, hargs⟩
  · rintro args rest ⟨us, rfl, hargs, -⟩
    exact ⟨us, [], args, rfl, by rwa [List.append_nil]⟩

/-! ## Phrases -/

theorem chain_sound {level : Nat} {operand : List Token → Outcome Expr}
    (h : ∀ ts, Sound (.binary (level + 1)) ts (operand ts)) (fuel : Nat) {left : Expr}
    (hl : Read (.binary level) ts left rest) : Sound (.binary level) ts (chain level operand fuel left rest) := by
  refine chain_holds (Read (.binary level) ts) (fun _ _ => id) ?_ fuel left rest hl
  rintro left s joint position ts' hs ⟨us, rfl, hd⟩
  have hs := jointAt?_eq_some_iff.mp hs
  refine (h ts').imp ?_ ?_
  · rintro right rest ⟨vs, rfl, hr⟩
    exact ⟨us ++ ⟨.symbol s, position⟩ :: vs, by simp, by simpa using hd.joined hs hr⟩
  · intro _ rest hr
    rw [List.append_cons]
    exact hr.within _ [] fun w e hw => ⟨joint.build left e, by simpa using hd.joined hs hw⟩

theorem calls_sound {argument : List Token → Outcome Expr} (h : ∀ ts, Sound .conditional ts (argument ts)) (fuel : Nat)
    {f : Expr} (hf : Read .application ts f rest) : Sound .application ts (calls argument fuel f rest) := by
  refine calls_holds (Read .application ts) (fun _ _ => id) ?_ fuel f rest hf
  rintro f position ts' ⟨us, rfl, hd⟩
  refine (arguments_sound h ts').imp ?_ ?_
  · rintro args rest ⟨vs, position', rfl, hargs⟩
    refine ⟨us ++ ⟨.symbol .opening, position⟩ :: (vs ++ [⟨.symbol .closing, position'⟩]), by simp, ?_⟩
    simpa using hd.apply hargs
  · rintro - rest ⟨vs, more, args, rfl, hargs⟩
    refine ⟨us ++ ⟨.symbol .opening, position⟩ :: vs, more ++ [.symbol .closing], .call f args, by simp, ?_⟩
    simpa using hd.apply hargs

/-- An expression in parentheses, from the closing one on. -/
theorem group_sound {inner : Expr} {position : Nat} (hi : Read .conditional ts inner rest) :
    Sound .primary (⟨.symbol .opening, position⟩ :: ts)
      ((expect .closing rest).andThen fun _ rest => .done inner rest) := by
  obtain ⟨us, rfl, hd⟩ := hi
  refine expect_holds ?_ fun _ => ?_
  · rintro position' rest rfl
    refine ⟨⟨.symbol .opening, position⟩ :: (us ++ [⟨.symbol .closing, position'⟩]), by simp, ?_⟩
    simpa using hd.group
  · exact ⟨⟨.symbol .opening, position⟩ :: us, [.symbol .closing], inner, rfl, by simpa using hd.group⟩

/-- The two branches behind a test and its question mark. -/
theorem branches_sound {branch : List Token → Outcome Expr} {test : Expr} {position : Nat}
    (h : ∀ ts, Sound .conditional ts (branch ts)) (ht : Derives (.binary 0) (lexemes us) test) :
    Sound .conditional (us ++ ⟨.symbol .question, position⟩ :: ts)
      ((branch ts).andThen fun thenBranch rest =>
        (expect .colon rest).andThen fun _ rest =>
          (branch rest).andThen fun elseBranch rest => .done (.conditional test thenBranch elseBranch) rest) := by
  have hx : Derives .conditional [.name "x"] (.name "x") := (Derives.name "x").loosen (by decide)
  refine (h ts).bind (fun _ _ hb => ?_) ?_
  · rw [List.append_cons]
    refine hb.within _ [.symbol .colon, .name "x"] fun w e hw => ⟨.conditional test e (.name "x"), ?_⟩
    simpa using ht.choice hw hx
  rintro thenBranch rest ⟨vs, rfl, hb⟩
  refine expect_holds ?_ fun _ => ?_
  · rintro position' rest rfl
    refine (h rest).bind (fun _ _ hc => ?_) ?_
    · have hus : us ++ ⟨.symbol .question, position⟩ :: (vs ++ ⟨.symbol .colon, position'⟩ :: rest) =
          (us ++ ⟨.symbol .question, position⟩ :: (vs ++ [⟨.symbol .colon, position'⟩])) ++ rest := by simp
      rw [hus]
      exact hc.within _ [] fun w e hw => ⟨.conditional test thenBranch e, by simpa using ht.choice hb hw⟩
    · rintro elseBranch rest ⟨ws, rfl, hc⟩
      refine ⟨us ++ ⟨.symbol .question, position⟩ :: (vs ++ ⟨.symbol .colon, position'⟩ :: ws), by simp, ?_⟩
      simpa using ht.choice hb hc
  · refine ⟨us ++ ⟨.symbol .question, position⟩ :: vs, [.symbol .colon, .name "x"],
      .conditional test thenBranch (.name "x"), by simp, ?_⟩
    simpa using ht.choice hb hx

/-- What stands behind a prefix operator. -/
theorem signed_sound {operand : List Token → Outcome Expr} {op : UnaryOp} {position : Nat}
    (h : Sound .unary ts (operand ts)) (hs : (s, op) ∈ signs) :
    Sound .unary (⟨.symbol s, position⟩ :: ts) ((operand ts).andThen fun e rest => .done (.unary op e) rest) := by
  refine h.bind (fun _ _ h => ?_) ?_
  · exact h.within [⟨.symbol s, position⟩] [] fun w e hw => ⟨.unary op e, by simpa using hw.signed hs⟩
  · rintro e rest ⟨us, rfl, hd⟩
    exact ⟨⟨.symbol s, position⟩ :: us, rfl, hd.signed hs⟩

/-- The exponent behind a base and the symbol of a power. -/
theorem exponent_sound {exponent : List Token → Outcome Expr} {base : Expr} {position : Nat}
    (h : Sound .unary ts (exponent ts)) (ha : Derives .application (lexemes us) base) :
    Sound .power (us ++ ⟨.symbol .power, position⟩ :: ts)
      ((exponent ts).andThen fun e rest => .done (.binary .power base e) rest) := by
  refine h.bind (fun _ _ h => ?_) ?_
  · rw [List.append_cons]
    exact h.within _ [] fun w e hw => ⟨.binary .power base e, by simpa using ha.power hw⟩
  · rintro e rest ⟨vs, rfl, hb⟩
    exact ⟨us ++ ⟨.symbol .power, position⟩ :: vs, by simp, by simpa using ha.power hb⟩

/-- What is read is a phrase, and where the reading stops, it is the start of one. -/
theorem parse_holds : ∀ (n : Nat) (p : Phrase) (ts : List Token), Sound p ts (p.parse n ts) := by
  intro n
  induction n with
  | zero => exact fun p ts => .refl p ts
  | succ n ih =>
    -- a phrase of the next tighter kind comes first
    have first : ∀ {p q : Phrase} {ts : List Token} {f : Expr → List Token → Outcome Expr}, p.tighter? = some q →
        (∀ e rest, Read q ts e rest → Sound p ts (f e rest)) → Sound p ts ((q.parse n ts).andThen f) :=
      fun hq hf => (ih _ _).bind (fun _ _ h => h.tighter hq) hf
    intro p ts
    cases p with
    | conditional =>
      refine first rfl fun test rest hread => ?_
      split
      · rename_i hs
        obtain ⟨position, rest, rfl⟩ := leading?_eq_some_iff.mp hs
        obtain ⟨us, rfl, ht⟩ := hread
        exact branches_sound (ih .conditional) ht
      · exact hread.tighter rfl
    | binary level =>
      unfold Phrase.parse
      split
      · rename_i hl
        have hq : (Phrase.binary level).tighter? = some .unary := by simp [Phrase.tighter?, hl]
        exact (ih .unary ts).imp (fun _ _ h => h.tighter hq) fun _ _ h => h.tighter hq
      · rename_i hl
        have hq : (Phrase.binary level).tighter? = some (.binary (level + 1)) := by simp [Phrase.tighter?, hl]
        exact first hq fun e rest h => chain_sound (ih _) _ (h.tighter hq)
    | unary =>
      unfold Phrase.parse
      split
      · rename_i op hs
        obtain ⟨s, hs, hop⟩ := Option.bind_eq_some_iff.mp hs
        obtain ⟨position, ts, rfl⟩ := leading?_eq_some_iff.mp hs
        exact signed_sound (ih .unary ts) (unary?_eq_some_iff.mp hop)
      · exact (ih .power ts).imp (fun _ _ h => h.tighter rfl) fun _ _ h => h.tighter rfl
    | power =>
      refine first rfl fun base rest hread => ?_
      split
      · rename_i hs
        obtain ⟨position, rest, rfl⟩ := leading?_eq_some_iff.mp hs
        obtain ⟨us, rfl, ha⟩ := hread
        exact exponent_sound (ih .unary rest) ha
      · exact hread.tighter rfl
    | application => exact first rfl fun e rest h => calls_sound (ih _) _ (h.tighter rfl)
    | primary =>
      unfold Phrase.parse
      split
      · rename_i value position rest
        exact ⟨[⟨.number value, position⟩], rfl, .number value⟩
      · rename_i ident position rest
        exact ⟨[⟨.name ident, position⟩], rfl, .name ident⟩
      · rename_i position ts
        refine (ih .conditional ts).bind (fun _ _ h => ?_) fun e rest h => group_sound h
        exact h.within [⟨.symbol .opening, position⟩] [.symbol .closing] fun w e hw => ⟨e, hw.group⟩
      · exact .refl _ ts

theorem parse_suffix (n : Nat) (p : Phrase) (ts : List Token) : (p.parse n ts).rest <:+ ts := by
  have h := parse_holds n p ts
  cases ho : p.parse n ts with
  | done e rest =>
    rw [ho] at h
    obtain ⟨us, hts, -⟩ := h
    exact ⟨us, hts.symm⟩
  | stopped reason rest =>
    rw [ho] at h
    obtain ⟨us, -, -, hts, -⟩ := h
    exact ⟨us, hts.symm⟩

end DotGrid
