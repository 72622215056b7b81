import DotGrid.Proofs.Parser.Budget

/-!
# The parser reads all that the grammar derives

A phrase is read whole if it does not go on with the token behind it (`Phrase.EndsAt`). The chains of the grammar are
left recursive, while the parser reads the first operand and then loops: `resume` is what is left to do for a parser
behind a complete phrase, and the parser gets to that point behind every phrase that the grammar derives
(`Derives.reached`). There is one lemma for each form of a phrase.
-/

namespace DotGrid

variable {p q : Phrase} {s : Symbol} {v w : List Lexeme} {e : Expr} {n : Nat} {ts us rest : List Token}

/-! ## Where a phrase ends -/

/-- The rank of the tightest phrase that can go on with a symbol; beyond all ranks if there is none. -/
def Symbol.reach (s : Symbol) : Nat :=
  match s with
  | .opening => Phrase.application.rank
  | .power => Phrase.power.rank
  | .question => Phrase.conditional.rank
  | _ => match s.joint? with
    | some (level, _) => (Phrase.binary level).rank
    | none => Phrase.conditional.rank + 1

theorem Symbol.reach_of_mem {level : Nat} {joint : Joint} (h : (s, joint) ∈ operatorRow level) :
    s.reach = (Phrase.binary level).rank := by
  obtain ⟨⟨k, j⟩, hj, hk⟩ := Option.bind_eq_some_iff.mp (jointAt?_eq_some_iff.mpr h)
  have hlevel : k = level := by
    split at hk
    · assumption
    · cases hk
  subst hlevel
  unfold reach
  split
  · cases hj
  · cases hj
  · cases hj
  · rw [hj]

/-- Nothing goes on with a power but what is a power itself. -/
theorem Symbol.unary_lt_reach (h : Phrase.power.rank < s.reach) : Phrase.unary.rank < s.reach := by
  cases s <;> revert h <;> decide

theorem Phrase.rank_lt_of_mem {level : Nat} {joint : Joint} (h : (s, joint) ∈ operatorRow level) :
    (Phrase.binary (level + 1)).rank < (Phrase.binary level).rank := by
  rcases Nat.lt_or_ge level binaryLevels with hl | hl
  · simp only [rank, binaryLevels] at hl ⊢
    omega
  · rw [operatorRow_eq_nil hl] at h
    cases h

/-- A phrase does not go on with the first of the tokens ahead. -/
def Phrase.EndsAt (p : Phrase) (rest : List Token) : Prop := ∀ s, leading? rest = some s → p.rank < s.reach

theorem Phrase.EndsAt.mono (h : q.EndsAt rest) (hr : p.rank ≤ q.rank) : p.EndsAt rest :=
  fun s hs => Nat.lt_of_le_of_lt hr (h s hs)

theorem Phrase.endsAt_nil (p : Phrase) : p.EndsAt [] := nofun

theorem Phrase.endsAt_cons {position : Nat} (h : p.rank < s.reach) : p.EndsAt (⟨.symbol s, position⟩ :: rest) := by
  intro s' hs
  cases hs
  exact h

/-- Nothing goes on with a mark that is between or behind phrases. -/
theorem Phrase.endsAt_mark {position : Nat} (hs : Phrase.conditional.rank < s.reach) :
    p.EndsAt (⟨.symbol s, position⟩ :: rest) :=
  endsAt_cons (Nat.lt_of_le_of_lt p.rank_le hs)

/-- A parser that is behind a complete phrase may stay in its loop there. -/
def Phrase.PausesAt : Phrase → List Token → Prop
  | .application, _ => True
  | .binary level, rest => (Phrase.binary (level + 1)).EndsAt rest
  | p, rest => p.EndsAt rest

/-- What is left to do for a parser behind a complete phrase. -/
def resume (n : Nat) : Phrase → Expr → List Token → Outcome Expr
  | .application, f, rest => calls (Phrase.parse n .conditional) rest.length f rest
  | .binary level, left, rest => chain level (Phrase.parse n (.binary (level + 1))) rest.length left rest
  | _, e, rest => .done e rest

theorem Phrase.EndsAt.pausesAt (h : p.EndsAt rest) : p.PausesAt rest := by
  cases p with
  | application => trivial
  | binary level => exact h.mono (by simp only [Phrase.rank]; omega)
  | _ => exact h

theorem Phrase.PausesAt.tighter (h : p.PausesAt rest) (hq : p.tighter? = some q) : q.EndsAt rest := by
  cases p <;> cases hq
  case application => exact fun s _ => by cases s <;> decide
  case binary level =>
    split
    · exact h.mono (by simp only [Phrase.rank, binaryLevels]; omega)
    · exact h
  all_goals exact Phrase.EndsAt.mono h (by decide)

/-- Behind a phrase that ends nothing is left to do. -/
theorem resume_of_endsAt (h : p.EndsAt rest) : resume n p e rest = .done e rest := by
  cases p with
  | application =>
    rw [resume, calls_eq e (Nat.le_refl _), if_neg]
    exact fun hs => absurd (h _ hs) (by decide)
  | binary level =>
    rw [resume, chain_eq e (Nat.le_refl _)]
    split
    · rfl
    · rename_i joint hj
      obtain ⟨s, hs, hj⟩ := Option.bind_eq_some_iff.mp hj
      have := h s hs
      rw [Symbol.reach_of_mem (jointAt?_eq_some_iff.mp hj)] at this
      omega
  | _ => rfl

/-! ## Where a phrase starts -/

/-- A symbol that a phrase starts with is an opening parenthesis or a sign. -/
theorem Derives.opening_or_sign (h : Derives p w e) (hus : lexemes us = w) (hs : leading? (us ++ rest) = some s) :
    s = .opening ∨ Phrase.unary.rank ≤ p.rank ∧ ∃ op, s.unary? = some op := by
  obtain ⟨l, w', rfl, hl⟩ := h.starts
  obtain ⟨position, vs, rfl, -⟩ := lexemes_eq_cons hus
  obtain ⟨position', rest', heq⟩ := leading?_eq_some_iff.mp hs
  cases heq
  exact hl.imp_right fun ⟨hp, op, hop⟩ => ⟨hp, op, unary?_eq_some_iff.mpr hop⟩

/-! ## Arguments -/

section Arguments

variable {argument : List Token → Outcome Expr} {position : Nat}

/-- A reader of arguments reads one of them whole. -/
def Completes (argument : List Token → Outcome Expr) (a : List Lexeme × Expr) : Prop :=
  ∀ us rest, lexemes us = a.1 → Phrase.conditional.EndsAt rest → argument (us ++ rest) = .done a.2 rest

theorem commaSeparated_cons (w : List Lexeme) (ws : List (List Lexeme)) :
    commaSeparated (w :: ws) = w ++ ws.flatMap (.symbol .comma :: ·) := by
  induction ws generalizing w with
  | nil => simp
  | cons v ws ih => rw [commaSeparated, List.intercalate_cons_cons, ← commaSeparated, ih]; simp

theorem length_le_commaSeparated {ws : List (List Lexeme)} (h : w ∈ ws) : w.length ≤ (commaSeparated ws).length := by
  cases ws with
  | nil => cases h
  | cons v ws =>
    rw [commaSeparated_cons]
    rcases List.mem_cons.mp h with rfl | h
    · simp
    · obtain ⟨xs, ys, rfl⟩ := List.append_of_mem h
      simp
      omega

/-- Behind an argument there is another one or the closing parenthesis. -/
theorem endsAt_more {as : List (List Lexeme × Expr)} (hus : lexemes us = (as.map (·.1)).flatMap (.symbol .comma :: ·)) :
    p.EndsAt (us ++ ⟨.symbol .closing, position⟩ :: rest) := by
  cases as with
  | nil =>
    cases List.map_eq_nil_iff.mp hus
    exact Phrase.endsAt_mark (by decide)
  | cons a as =>
    obtain ⟨position, us, rfl, -⟩ := lexemes_eq_cons hus
    exact Phrase.endsAt_mark (by decide)

theorem moreArgs_complete {as : List (List Lexeme × Expr)} (h : ∀ a ∈ as, Completes argument a) (fuel : Nat)
    (args : List Expr) (us : List Token) (hus : lexemes us = (as.map (·.1)).flatMap (.symbol .comma :: ·))
    (hf : (us ++ ⟨.symbol .closing, position⟩ :: rest).length ≤ fuel) :
    moreArgs argument fuel args (us ++ ⟨.symbol .closing, position⟩ :: rest) =
      .done (args.reverse ++ as.map (·.2)) (⟨.symbol .closing, position⟩ :: rest) := by
  induction as generalizing fuel args us with
  | nil =>
    cases List.map_eq_nil_iff.mp hus
    rw [moreArgs_eq args hf]
    simp [leading?, Token.symbol?]
  | cons a as ih =>
    rw [List.map_cons, List.flatMap_cons, List.cons_append] at hus
    obtain ⟨position', us', rfl, hus'⟩ := lexemes_eq_cons hus
    obtain ⟨us, vs, rfl, ha, hvs⟩ := List.map_eq_append_iff.mp hus'
    have hread := h a List.mem_cons_self us (vs ++ ⟨.symbol .closing, position⟩ :: rest) ha (endsAt_more hvs)
    rw [moreArgs_eq args hf, List.cons_append, leading?_symbol, if_pos rfl, List.tail_cons, List.append_assoc, hread]
    simp only [Outcome.andThen]
    have hf' : (vs ++ ⟨.symbol .closing, position⟩ :: rest).length ≤ fuel - 1 := by
      simp only [List.length_append, List.length_cons] at hf ⊢
      omega
    rw [ih (fun a ha => h a (List.mem_cons_of_mem _ ha)) _ _ vs hvs hf']
    simp

theorem arguments_complete {as : List (List Lexeme × Expr)} (h : ∀ a ∈ as, Completes argument a)
    (hs : ∀ a ∈ as, Derives .conditional a.1 a.2) (hus : lexemes us = commaSeparated (as.map (·.1))) :
    arguments argument (us ++ ⟨.symbol .closing, position⟩ :: rest) = .done (as.map (·.2)) rest := by
  cases as with
  | nil =>
    cases List.map_eq_nil_iff.mp hus
    rfl
  | cons a as =>
    rw [List.map_cons, commaSeparated_cons] at hus
    obtain ⟨us, vs, rfl, ha, hvs⟩ := List.map_eq_append_iff.mp hus
    have hread := h a List.mem_cons_self us (vs ++ ⟨.symbol .closing, position⟩ :: rest) ha (endsAt_more hvs)
    have hmore := moreArgs_complete (fun a ha => h a (List.mem_cons_of_mem _ ha)) _ [a.2] vs hvs
      (Nat.le_refl (vs ++ ⟨.symbol .closing, position⟩ :: rest).length)
    have hfirst : leading? (us ++ (vs ++ ⟨.symbol .closing, position⟩ :: rest)) ≠ some .closing := by
      intro hc
      rcases (hs a List.mem_cons_self).opening_or_sign ha hc with h | ⟨-, op, h⟩
      · cases h
      · cases h
    rw [arguments, List.append_assoc, if_neg hfirst, hread]
    simp only [Outcome.andThen, hmore]
    rfl

end Arguments

/-! ## Phrases -/

/-- With budget enough, the parser gets behind the lexemes of a phrase with its tree. -/
def Reached (p : Phrase) (w : List Lexeme) (e : Expr) : Prop :=
  ∀ (n : Nat) (us rest : List Token), lexemes us = w → 16 * w.length + p.rank ≤ n + 1 → p.PausesAt rest →
    p.parse (n + 1) (us ++ rest) = resume n p e rest

namespace Reached

/-- A phrase that ends is read whole. -/
theorem whole (h : Reached p w e) (rest : List Token) (hus : lexemes us = w) (hn : 16 * w.length + p.rank ≤ n)
    (hr : p.EndsAt rest) : p.parse n (us ++ rest) = .done e rest := by
  have := p.rank_pos
  obtain ⟨m, rfl⟩ := Nat.exists_eq_add_one_of_ne_zero (show n ≠ 0 by omega)
  rw [h m us rest hus hn hr.pausesAt, resume_of_endsAt hr]

/-- A phrase of any kind is read whole behind another lexeme. -/
theorem nested (h : Reached q v e) (rest : List Token) (hus : lexemes us = v) (hv : v.length < w.length)
    (hn : 16 * w.length + p.rank ≤ n + 1) (hr : q.EndsAt rest) : q.parse n (us ++ rest) = .done e rest := by
  have hq : q.rank ≤ 16 := q.rank_le
  have := p.rank_pos
  exact h.whole rest hus (by omega) hr

theorem tighter (hq : p.tighter? = some q) (hd : Derives q w e) (h : Reached q w e) : Reached p w e := by
  intro n us rest hus hn hr
  have hfirst : q.parse n (us ++ rest) = .done e rest :=
    h.whole rest hus (by rw [Phrase.rank_tighter hq] at hn; omega) (hr.tighter hq)
  cases p with
  | conditional =>
    cases hq
    have hs : leading? rest ≠ some .question := fun hs => absurd (hr _ hs) (by decide)
    simp only [Phrase.parse, hfirst, Outcome.andThen, if_neg hs]
    rfl
  | binary level =>
    rcases Nat.lt_or_ge level binaryLevels with hl | hl
    · rw [Phrase.tighter?, if_neg (Nat.not_le.mpr hl)] at hq
      cases hq
      rw [parse_binary_of_lt hl]
      simp only [hfirst]
      rfl
    · rw [Phrase.tighter?, if_pos hl] at hq
      cases hq
      have hend : (Phrase.binary level).EndsAt rest := Phrase.EndsAt.mono hr (by simp only [Phrase.rank]; omega)
      rw [parse_binary_of_le hl, hfirst, resume_of_endsAt hend]
  | unary =>
    cases hq
    have hs : (leading? (us ++ rest)).bind Symbol.unary? = none := by
      rw [Option.bind_eq_none_iff]
      intro s hs
      rcases hd.opening_or_sign hus hs with rfl | ⟨hrank, -⟩
      · rfl
      · exact absurd hrank (by decide)
    rw [parse_unary]
    simp only [hs]
    exact hfirst
  | power =>
    cases hq
    have hs : leading? rest ≠ some .power := fun hs => absurd (hr _ hs) (by decide)
    simp only [Phrase.parse, hfirst, Outcome.andThen, if_neg hs]
    rfl
  | application =>
    cases hq
    simp only [Phrase.parse, hfirst]
    rfl
  | primary => cases hq

theorem group (h : Reached .conditional w e) :
    Reached .primary (.symbol .opening :: (w ++ [.symbol .closing])) e := by
  intro n us rest hus hn _
  obtain ⟨position, us', rfl, hus'⟩ := lexemes_eq_cons hus
  obtain ⟨us, position', vs, rfl, hw, hvs⟩ := lexemes_eq_append_cons hus'
  cases List.map_eq_nil_iff.mp hvs
  have hlength : w.length < (.symbol .opening :: (w ++ [.symbol .closing]) : List Lexeme).length := by
    simp only [List.length_append, List.length_cons]
    omega
  have hinner := h.nested (⟨.symbol .closing, position'⟩ :: rest) hw hlength hn (Phrase.endsAt_mark (by decide))
  simp only [List.cons_append, List.append_assoc, List.nil_append]
  simp only [Phrase.parse, hinner, Outcome.andThen, expect, leading?_symbol, if_pos]
  rfl

theorem call {f : Expr} (args : List (List Lexeme × Expr)) (hf : Reached .application w f)
    (hargs : ∀ a ∈ args, Derives .conditional a.1 a.2) (h : ∀ a ∈ args, Reached .conditional a.1 a.2) :
    Reached .application (w ++ .symbol .opening :: (commaSeparated (args.map (·.1)) ++ [.symbol .closing]))
      (.call f (args.map (·.2))) := by
  intro n us rest hus hn _
  obtain ⟨us, position, us', rfl, hw, hus'⟩ := lexemes_eq_append_cons hus
  obtain ⟨vs, position', xs, rfl, hv, hxs⟩ := lexemes_eq_append_cons hus'
  cases List.map_eq_nil_iff.mp hxs
  have hcompletes : ∀ a ∈ args, Completes (Phrase.parse n .conditional) a := by
    intro a ha us rest hus hr
    have hle : a.1.length ≤ (commaSeparated (args.map (·.1))).length :=
      length_le_commaSeparated (List.mem_map_of_mem ha)
    exact (h a ha).nested rest hus (by simp only [List.length_append, List.length_cons]; omega) hn hr
  have hread := @arguments_complete _ rest _ position' _ hcompletes hargs hv
  simp only [List.append_assoc, List.cons_append, List.nil_append]
  have hn' : 16 * w.length + Phrase.application.rank ≤ n + 1 := by
    simp only [List.length_append] at hn
    omega
  rw [hf n us _ hw hn' trivial, resume, calls_eq f (Nat.le_refl _), leading?_symbol, if_pos rfl, List.tail_cons, hread]
  simp only [Outcome.andThen]
  exact calls_fuel _ (by simp only [List.length_append, List.length_cons]; omega)

theorem power {a b : Expr} (ha : Reached .application w a) (hb : Reached .unary v b) :
    Reached .power (w ++ .symbol .power :: v) (.binary .power a b) := by
  intro n us rest hus hn hr
  obtain ⟨us, position, vs, rfl, hw, hv⟩ := lexemes_eq_append_cons hus
  have hend : Phrase.unary.EndsAt rest := fun s hs => s.unary_lt_reach (hr s hs)
  have hbase := ha.nested (⟨.symbol .power, position⟩ :: (vs ++ rest)) hw (by simp) hn
    (Phrase.endsAt_cons (by decide))
  have hexponent := hb.nested rest hv (by simp only [List.length_append, List.length_cons]; omega) hn hend
  simp only [List.append_assoc, List.cons_append, Phrase.parse, hbase, Outcome.andThen, leading?_symbol, if_pos,
    List.tail_cons, hexponent]
  rfl

theorem signed {op : UnaryOp} (hs : (s, op) ∈ signs) (h : Reached .unary w e) :
    Reached .unary (.symbol s :: w) (.unary op e) := by
  intro n us rest hus hn hr
  obtain ⟨position, us', rfl, hus'⟩ := lexemes_eq_cons hus
  have hoperand := h.nested rest hus' (by simp) hn hr
  have hop := unary?_eq_some_iff.mpr hs
  rw [parse_unary]
  simp only [List.cons_append, leading?_symbol, Option.bind_some, hop, unaryBy, List.tail_cons, hoperand]
  rfl

theorem joined {level : Nat} {joint : Joint} {a b : Expr} (hs : (s, joint) ∈ operatorRow level)
    (ha : Reached (.binary level) w a) (hb : Reached (.binary (level + 1)) v b) :
    Reached (.binary level) (w ++ .symbol s :: v) (joint.build a b) := by
  intro n us rest hus hn hr
  obtain ⟨us, position, vs, rfl, hw, hv⟩ := lexemes_eq_append_cons hus
  have hpause : (Phrase.binary level).PausesAt (⟨.symbol s, position⟩ :: (vs ++ rest)) :=
    Phrase.endsAt_cons (by rw [Symbol.reach_of_mem hs]; exact Phrase.rank_lt_of_mem hs)
  have hoperand := hb.nested rest hv (by simp only [List.length_append, List.length_cons]; omega) hn hr
  have hj := jointAt?_eq_some_iff.mpr hs
  simp only [List.append_assoc, List.cons_append]
  have hn' : 16 * w.length + (Phrase.binary level).rank ≤ n + 1 := by
    simp only [List.length_append] at hn
    omega
  rw [ha n us _ hw hn' hpause, resume, chain_eq a (Nat.le_refl _)]
  simp only [leading?_symbol, Option.bind_some, hj, List.tail_cons, hoperand, Outcome.andThen]
  exact chain_fuel _ (by simp)

theorem choice {u v w : List Lexeme} {a b c : Expr} (ha : Reached (.binary 0) u a) (hb : Reached .conditional v b)
    (hc : Reached .conditional w c) :
    Reached .conditional (u ++ .symbol .question :: (v ++ .symbol .colon :: w)) (.conditional a b c) := by
  intro n us rest hus hn hr
  obtain ⟨us, position, us', rfl, hu, hus'⟩ := lexemes_eq_append_cons hus
  obtain ⟨vs, position', ws, rfl, hv, hw⟩ := lexemes_eq_append_cons hus'
  have htest := ha.nested (⟨.symbol .question, position⟩ :: (vs ++ ⟨.symbol .colon, position'⟩ :: (ws ++ rest)))
    hu (by simp) hn (Phrase.endsAt_cons (by decide))
  have hlength : v.length < (u ++ .symbol .question :: (v ++ .symbol .colon :: w)).length := by
    simp only [List.length_append, List.length_cons]
    omega
  have hthen := hb.nested (⟨.symbol .colon, position'⟩ :: (ws ++ rest)) hv hlength hn
    (Phrase.endsAt_mark (by decide))
  have helse := hc.nested rest hw (by simp only [List.length_append, List.length_cons]; omega) hn hr
  simp only [List.append_assoc, List.cons_append, Phrase.parse, htest, Outcome.andThen, leading?_symbol, if_pos,
    List.tail_cons, hthen, expect, helse]
  rfl

end Reached

/-- The parser gets behind every phrase of the grammar, with the tree that the grammar gives it. -/
theorem Derives.reached (h : Derives p w e) : Reached p w e := by
  induction h with
  | tighter hq hd ih => exact .tighter hq hd ih
  | number value =>
    intro n us rest hus _ _
    obtain ⟨position, us', rfl, hus'⟩ := lexemes_eq_cons hus
    cases List.map_eq_nil_iff.mp hus'
    rfl
  | name ident =>
    intro n us rest hus _ _
    obtain ⟨position, us', rfl, hus'⟩ := lexemes_eq_cons hus
    cases List.map_eq_nil_iff.mp hus'
    rfl
  | group _ ih => exact .group ih
  | call args _ hargs ihf ihargs => exact .call args ihf hargs ihargs
  | power _ _ iha ihb => exact .power iha ihb
  | signed hs _ ih => exact .signed hs ih
  | joined hs _ _ iha ihb => exact .joined hs iha ihb
  | choice _ _ _ iha ihb ihc => exact .choice iha ihb ihc

end DotGrid
