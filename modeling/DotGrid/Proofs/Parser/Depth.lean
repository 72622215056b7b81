import DotGrid.Evaluation.DotFunction
import DotGrid.Proofs.Grammar.Flat
import DotGrid.Proofs.Parser.Exactness

/-!
# The depth of the parser

A budget below the rank of a phrase is not enough for any tokens: a phrase of each kind first reads one of the next
tighter kind (`parse_shallow`). For a flat word a budget of the rank is enough, however long the word is
(`parse_flat`): what is read behind an operator is of a tighter kind than the chain that goes on behind it, and an
argument list has no arguments. So a flat word needs the sixteen kinds of phrases and no more, although its tree grows
with its length (`flat_depth`).
-/

namespace DotGrid

open Outcome

variable {p : Phrase} {n : Nat} {ts rest : List Token}

/-! ## Too little budget -/

theorem andThen_tooDeep {α β : Type} {o : Outcome α} (g : α → List Token → Outcome β)
    (h : ∃ rest, o = .stopped .tooDeep rest) : ∃ rest, o.andThen g = .stopped .tooDeep rest := by
  obtain ⟨rest, rfl⟩ := h
  exact ⟨rest, rfl⟩

/-- A budget below the rank of a phrase is used up before the first token is read. -/
theorem parse_shallow (h : n < p.rank) (ts : List Token) : ∃ rest, p.parse n ts = .stopped .tooDeep rest := by
  induction n generalizing p ts with
  | zero => exact ⟨ts, rfl⟩
  | succ n ih =>
    have tighter : ∀ {q : Phrase}, p.tighter? = some q → ∃ rest, q.parse n ts = .stopped .tooDeep rest := by
      intro q hq
      have := Phrase.rank_tighter hq
      exact ih (by omega) ts
    cases p with
    | conditional => exact andThen_tooDeep _ (tighter rfl)
    | binary level =>
      rcases Nat.lt_or_ge level binaryLevels with hl | hl
      · rw [parse_binary_of_lt hl]
        exact andThen_tooDeep _ (tighter (by rw [Phrase.tighter?, if_neg (by omega)]))
      · rw [parse_binary_of_le hl]
        exact tighter (by rw [Phrase.tighter?, if_pos hl])
    | unary =>
      rw [parse_unary]
      cases hsign : (leading? ts).bind Symbol.unary? with
      | none =>
        simp only [hsign]
        exact tighter rfl
      | some op =>
        have hrank : Phrase.unary.rank = 4 := rfl
        simp only [hsign]
        exact andThen_tooDeep _ (ih (by omega) ts.tail)
    | power => exact andThen_tooDeep _ (tighter rfl)
    | application => exact andThen_tooDeep _ (tighter rfl)
    | primary =>
      have hrank : Phrase.primary.rank = 1 := rfl
      omega

/-! ## Flat words -/

/-- The tokens ahead are a flat word, from an operand on or from behind one on. -/
abbrev FlatAhead (turn : Turn) (ts : List Token) : Prop := FlatWord turn (lexemes ts)

/-- A reader goes from an operand of a flat word to behind one, and it does not stop for its depth. -/
abbrev StaysFlat (o : Outcome Expr) : Prop :=
  o.Holds (fun _ rest => FlatAhead .behind rest) (fun reason _ => reason ≠ .tooDeep)

theorem leading_ne_of_behind {s : Symbol} (hopening : s ≠ .opening) (hjoint : s.joint? = none)
    (h : FlatAhead .behind rest) : leading? rest ≠ some s := by
  intro hs
  obtain ⟨position, rest, rfl⟩ := leading?_eq_some_iff.mp hs
  rcases h.behind_symbol with ⟨rfl, -⟩ | ⟨hj, -⟩
  · exact hopening rfl
  · rw [hjoint] at hj
    cases hj

theorem leading_of_operand (h : FlatAhead .operand ts) : leading? ts = none := by
  match ts, h with
  | ⟨.number _, _⟩ :: _, _ => rfl
  | ⟨.name _, _⟩ :: _, _ => rfl

theorem parse_primary_flat (h : FlatAhead .operand ts) : StaysFlat (Phrase.primary.parse (n + 1) ts) := by
  match ts, h with
  | ⟨.number _, _⟩ :: _, .number _ hbehind => exact hbehind
  | ⟨.name _, _⟩ :: _, .name _ hbehind => exact hbehind

/-- **Flat words do not nest.** A budget of the rank of a phrase is enough for the phrases of a flat word. -/
theorem parse_flat (hp : p.rank ≤ n) (h : FlatAhead .operand ts) : StaysFlat (p.parse n ts) := by
  induction n generalizing p ts with
  | zero => exact absurd p.rank_pos (by omega)
  | succ n ih =>
    have first : ∀ {q : Phrase}, p.tighter? = some q → StaysFlat (q.parse n ts) := by
      intro q hq
      have := Phrase.rank_tighter hq
      exact ih (by omega) h
    cases p with
    | conditional =>
      refine (first rfl).andThen fun test rest hrest => ?_
      rw [if_neg (leading_ne_of_behind (s := .question) (by decide) rfl hrest)]
      exact hrest
    | binary level =>
      rcases Nat.lt_or_ge level binaryLevels with hl | hl
      · have hq : (Phrase.binary level).tighter? = some (.binary (level + 1)) := by
          rw [Phrase.tighter?, if_neg (by omega)]
        have hrank := Phrase.rank_tighter hq
        rw [parse_binary_of_lt hl]
        refine (first hq).andThen fun left rest hrest => ?_
        refine chain_holds (fun _ rest => FlatAhead .behind rest) (fun _ _ => id) ?_ _ left rest hrest
        intro left s joint position ts hs hts
        -- an operand behind an operator of the chain is read with the budget of the first one
        exact ih (by omega) (hts.operand_of_joined (jointAt?_eq_some_iff.mp hs))
      · rw [parse_binary_of_le hl]
        exact first (by rw [Phrase.tighter?, if_pos hl])
    | unary =>
      have hsign : (leading? ts).bind Symbol.unary? = none := by rw [leading_of_operand h, Option.bind_none]
      rw [parse_unary]
      simp only [hsign]
      exact first rfl
    | power =>
      refine (first rfl).andThen fun base rest hrest => ?_
      rw [if_neg (leading_ne_of_behind (s := .power) (by decide) rfl hrest)]
      exact hrest
    | application =>
      refine (first rfl).andThen fun function rest hrest => ?_
      refine calls_holds (fun _ rest => FlatAhead .behind rest) (fun _ _ => id) ?_ _ function rest hrest
      intro function position ts hts
      rcases hts.behind_symbol with ⟨-, w, hw, hbehind⟩ | ⟨hj, -⟩
      · obtain ⟨position', rest, rfl, rfl⟩ := lexemes_eq_cons hw
        exact hbehind
      · cases hj
    | primary => exact parse_primary_flat h

/-- **Depth and length.** A flat word has a tree, which the parser gives within a limit if and only if the limit is
sixteen at least, so a source text with these tokens compiles. The length of the word is bounded by a power of the
height of its tree, so the trees of longer and longer words are higher and higher. -/
theorem flat_depth (h : FlatWord .operand (lexemes ts)) :
    ∃ e : Expr, (∀ limit, 16 ≤ limit → parseAllWithin limit ts = .done e []) ∧
      (∀ limit, limit < 16 → ∃ rest, parseAllWithin limit ts = .stopped .tooDeep rest) ∧
      (∀ source, scan source = .ok ts → DotFunction.compile? source = some ⟨e⟩) ∧
      ts.length + 1 ≤ 2 * e.height ^ 11 := by
  obtain ⟨e, he⟩ := h.exists_derives
  have hparse : ∀ limit, 16 ≤ limit → parseAllWithin limit ts = .done e [] := by
    intro limit hlimit
    refine he.parseAllWithin_eq fun rest hdeep => ?_
    have hlevel : StaysFlat (Phrase.conditional.parse limit ts) := parse_flat hlimit h
    rw [parseAllWithin_eq_tooDeep_iff.mp hdeep] at hlevel
    exact hlevel rfl
  refine ⟨e, hparse, fun limit hlimit => ?_, fun source hsource => ?_, ?_⟩
  · obtain ⟨rest, hrest⟩ := parse_shallow (p := .conditional) hlimit ts
    exact ⟨rest, parseAllWithin_eq_tooDeep_iff.mpr hrest⟩
  · have hall : parseAll ts = .done e [] := hparse nestingLimit (by decide)
    simp only [DotFunction.compile?, Expr.parse, hsource, hall]
    rfl
  · have hlength := he.length_lt_of_flat h
    rwa [List.length_map] at hlength

/-- A call and operators of three levels, tighter ones on both sides of the loosest. -/
theorem flat_depth_levels :
    let ts : List Token := [⟨.name "f", 0⟩, ⟨.symbol .opening, 1⟩, ⟨.symbol .closing, 2⟩, ⟨.symbol .times, 3⟩,
      ⟨.name "x", 4⟩, ⟨.symbol .less, 5⟩, ⟨.number (.zero false), 6⟩, ⟨.symbol .minus, 7⟩, ⟨.name "y", 8⟩]
    let tree : Expr := .binary .less (.binary .mul (.call (.name "f") []) (.name "x"))
      (.binary .sub (.number (.real (.zero false))) (.name "y"))
    FlatWord .operand (lexemes ts) ∧ (∀ limit, 16 ≤ limit → parseAllWithin limit ts = .done tree []) ∧
      ∀ limit, limit < 16 → ∃ rest, parseAllWithin limit ts = .stopped .tooDeep rest := by
  intro ts tree
  have htimes : (Symbol.times, Joint.binary .mul) ∈ operatorRow 9 := by decide
  have hless : (Symbol.less, Joint.binary .less) ∈ operatorRow 6 := by decide
  have hminus : (Symbol.minus, Joint.binary .sub) ∈ operatorRow 8 := by decide
  have hflat : FlatWord .operand (lexemes ts) :=
    .name "f" (.call (.joined htimes (.name "x" (.joined hless (.number _ (.joined hminus (.name "y" .finish)))))))
  obtain ⟨e, hparse, hdeep, -⟩ := flat_depth hflat
  have htree : parseAllWithin 16 ts = .done tree [] := rfl
  rw [hparse 16 (Nat.le_refl 16)] at htree
  obtain rfl : e = tree := by
    injection htree
  exact ⟨hflat, hparse, hdeep⟩

end DotGrid
