import DotGrid.Syntax.Source
import DotGrid.Proofs.Parser.Completeness

/-!
# The parser is exact

On whole texts the parser and the grammar agree: what is accepted has a derivation with the tree of the result
(`parseAllWithin_sound`), and a derived text is accepted with its tree (`Derives.parseAllWithin_eq`), so that it has
only one (`Derives.unique`). Only a text that is nested deeper than the limit is left out, and there is none for a
limit that is proportional to the length (`parseAllWithin_enough`).
-/

namespace DotGrid

open Outcome

variable {w : List Lexeme} {e e' : Expr} {m n : Nat} {ts rest : List Token}

theorem parseAllWithin_eq_done_iff :
    parseAllWithin n ts = .done e rest ↔ Phrase.conditional.parse n ts = .done e [] ∧ rest = [] := by
  rw [parseAllWithin]
  cases Phrase.conditional.parse n ts with
  | stopped reason rest' => simp [Outcome.andThen]
  | done e' rest' =>
    cases rest' with
    | nil => simp [Outcome.andThen, eq_comm]
    | cons t rest' => simp [Outcome.andThen]

theorem parseAllWithin_eq_tooDeep_iff :
    parseAllWithin n ts = .stopped .tooDeep rest ↔ Phrase.conditional.parse n ts = .stopped .tooDeep rest := by
  rw [parseAllWithin]
  cases Phrase.conditional.parse n ts with
  | stopped reason rest' => rfl
  | done e' rest' =>
    cases rest' with
    | nil => simp [Outcome.andThen]
    | cons t rest' => simp [Outcome.andThen]

theorem parseAllWithin_sound (h : parseAllWithin n ts = .done e rest) : Derives .conditional (lexemes ts) e := by
  have hread := parse_holds n .conditional ts
  rw [(parseAllWithin_eq_done_iff.mp h).1] at hread
  obtain ⟨us, rfl, hd⟩ := hread
  rwa [List.append_nil]

/-- A larger limit changes nothing but a stop for the depth. -/
theorem parseAllWithin_eq_of_le (h : m ≤ n) (hd : ∀ rest, parseAllWithin m ts ≠ .stopped .tooDeep rest) :
    parseAllWithin n ts = parseAllWithin m ts := by
  rw [parseAllWithin, parse_eq_of_le h fun rest => mt parseAllWithin_eq_tooDeep_iff.mpr (hd rest), ← parseAllWithin]

/-- A limit of sixteen for each token and the end is enough. -/
theorem parseAllWithin_enough (hn : 16 * (ts.length + 1) ≤ n) (rest : List Token) :
    parseAllWithin n ts ≠ .stopped .tooDeep rest := by
  intro h
  have hrank : Phrase.conditional.rank = 16 := rfl
  have hs := parse_enough n .conditional ts (by omega)
  rw [parseAllWithin_eq_tooDeep_iff.mp h] at hs
  exact hs rfl

/-- A derived text is accepted with its tree, unless it is too deep for the limit. -/
theorem Derives.parseAllWithin_eq (h : Derives .conditional (lexemes ts) e)
    (hd : ∀ rest, parseAllWithin n ts ≠ .stopped .tooDeep rest) : parseAllWithin n ts = .done e [] := by
  have hrank : Phrase.conditional.rank = 16 := rfl
  have hlength : (lexemes ts).length = ts.length := List.length_map ..
  have hparse := h.reached.whole (n := max n (16 * (ts.length + 1))) [] rfl (by omega) (Phrase.endsAt_nil _)
  rw [List.append_nil] at hparse
  rw [← parseAllWithin_eq_of_le (Nat.le_max_left n _) hd, parseAllWithin_eq_done_iff]
  exact ⟨hparse, rfl⟩

/-- No text has two trees. -/
theorem Derives.unique (h : Derives .conditional w e) (h' : Derives .conditional w e') : e = e' := by
  rw [← lexemes_placed w] at h h'
  have hd := @parseAllWithin_enough _ (w.map fun l => ⟨l, 0⟩) (Nat.le_refl _)
  have heq := (h.parseAllWithin_eq hd).symm.trans (h'.parseAllWithin_eq hd)
  cases heq
  rfl

theorem toExcept_eq_ok_iff {α : Type} {o : Outcome α} {a : α} {endOffset : Nat} :
    o.toExcept endOffset = .ok a ↔ ∃ rest, o = .done a rest := by
  cases o with
  | done b rest => simp [Outcome.toExcept]
  | stopped reason rest => cases reason <;> simp [Outcome.toExcept]

theorem toExcept_ne_tooDeep_iff {α : Type} {o : Outcome α} {endOffset : Nat} :
    o.toExcept endOffset ≠ .error .tooDeep ↔ ∀ rest, o ≠ .stopped .tooDeep rest := by
  cases o with
  | done b rest => simp [Outcome.toExcept]
  | stopped reason rest => cases reason <;> simp [Outcome.toExcept]

/-- **The parser is exact.** Within a limit that a text does not reach, the parser gives exactly the trees that the
grammar derives and a fault if there is none. The grammar gives no text two trees, and every text has a limit that it
does not reach. -/
theorem parseAllWithin_exact (limit endOffset : Nat) (ts : List Token) :
    ((parseAllWithin limit ts).toExcept endOffset ≠ .error .tooDeep →
      (∀ e, (parseAllWithin limit ts).toExcept endOffset = .ok e ↔ Derives .conditional (lexemes ts) e) ∧
      ((∃ fault, (parseAllWithin limit ts).toExcept endOffset = .error (.incorrect fault)) ↔
        ∀ e, ¬ Derives .conditional (lexemes ts) e)) ∧
    (∀ e e', Derives .conditional (lexemes ts) e → Derives .conditional (lexemes ts) e' → e = e') ∧
    (16 * (ts.length + 1) ≤ limit → (parseAllWithin limit ts).toExcept endOffset ≠ .error .tooDeep) := by
  refine ⟨fun hdeep => ?_, fun e e' => Derives.unique, fun hl => ?_⟩
  · have hd := toExcept_ne_tooDeep_iff.mp hdeep
    have hok : ∀ e, (parseAllWithin limit ts).toExcept endOffset = .ok e ↔ Derives .conditional (lexemes ts) e := by
      intro e
      rw [toExcept_eq_ok_iff]
      exact ⟨fun ⟨rest, h⟩ => parseAllWithin_sound h, fun h => ⟨[], h.parseAllWithin_eq hd⟩⟩
    refine ⟨hok, ?_⟩
    rw [forall_congr' fun e => not_congr (hok e).symm]
    cases ho : (parseAllWithin limit ts).toExcept endOffset with
    | ok e => exact ⟨fun ⟨_, h⟩ => (nomatch h), fun h => absurd rfl (h e)⟩
    | error fault =>
      cases fault with
      | incorrect fault => exact ⟨fun _ _ => nofun, fun _ => ⟨fault, rfl⟩⟩
      | tooDeep => exact absurd ho hdeep
  · exact toExcept_ne_tooDeep_iff.mpr (parseAllWithin_enough hl)

/-- Signs around a power, calls, a chain to the left and a choice in a choice, and the same text without its end. -/
theorem parseAllWithin_exact_choice :
    let text : List Lexeme :=
      [.symbol .minus, .name "f", .symbol .opening, .symbol .closing, .symbol .power, .symbol .tilde, .name "a",
        .symbol .minus, .name "b", .symbol .minus, .name "c", .symbol .question, .name "d", .symbol .colon, .name "e",
        .symbol .question, .name "g", .symbol .colon, .name "h"]
    let tree : Expr :=
      .conditional
        (.binary .sub
          (.binary .sub
            (.unary .negate (.binary .power (.call (.name "f") []) (.unary .complement (.name "a")))) (.name "b"))
          (.name "c"))
        (.name "d") (.conditional (.name "e") (.name "g") (.name "h"))
    Derives .conditional text tree ∧ ∀ e, ¬ Derives .conditional text.dropLast e := by
  intro text tree
  have hfull := (parseAllWithin_exact 60 0 (text.map fun l => ⟨l, 0⟩)).1 nofun
  have hcut := (parseAllWithin_exact 60 0 (text.dropLast.map fun l => ⟨l, 0⟩)).1 nofun
  rw [lexemes_placed] at hfull hcut
  exact ⟨(hfull.1 tree).mp rfl, hcut.2.mp ⟨_, rfl⟩⟩

end DotGrid
