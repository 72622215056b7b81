import DotGrid.Proofs.Parser.Exactness

/-!
# Faults are found at the earliest token

A fault is a stop before the rest of the tokens. What was taken is the start of a text that parses
(`parseAllWithin_completable`). The stop is the same whatever follows the first token that was left
(`parseAllWithin_local`), so no text that parses starts with the tokens up to that one.
-/

namespace DotGrid

open Outcome

variable {n : Nat} {ts us r rest : List Token} {t : Token} {reason : Stop} {complaint : Complaint}

/-- A text is accepted if the limit is high enough. -/
def Parses (ts : List Token) : Prop := ∃ limit e, parseAllWithin limit ts = .done e []

theorem parses_iff : Parses ts ↔ ∃ e, Derives .conditional (lexemes ts) e := by
  constructor
  · rintro ⟨limit, e, h⟩
    exact ⟨e, parseAllWithin_sound h⟩
  · rintro ⟨e, h⟩
    exact ⟨_, e, h.parseAllWithin_eq (parseAllWithin_enough (Nat.le_refl _))⟩

theorem not_parses (h : parseAllWithin n ts = .stopped (.unexpected complaint) rest) : ¬ Parses ts := by
  intro hp
  obtain ⟨e, he⟩ := parses_iff.mp hp
  have hdone := he.parseAllWithin_eq (n := n) fun _ hd => by rw [h] at hd; cases hd
  rw [h] at hdone
  cases hdone

/-- A stop of the whole parser is one of the phrase, or the phrase ends before the end of the text. -/
theorem parseAllWithin_stopped (h : parseAllWithin n ts = .stopped reason rest) :
    Phrase.conditional.parse n ts = .stopped reason rest ∨
      reason = .unexpected .finish ∧ rest ≠ [] ∧ ∃ e, Phrase.conditional.parse n ts = .done e rest := by
  rw [parseAllWithin] at h
  cases ho : Phrase.conditional.parse n ts with
  | stopped reason' rest' =>
    rw [ho] at h
    exact .inl h
  | done e rest' =>
    rw [ho] at h
    cases rest' with
    | nil => cases h
    | cons t rest' =>
      cases h
      exact .inr ⟨rfl, List.cons_ne_nil _ _, e, rfl⟩

/-- The tokens before a stop are the start of a text. -/
theorem parseAllWithin_completable (h : parseAllWithin n ts = .stopped reason rest) :
    Completable .conditional ts rest := by
  have hp := parse_holds n .conditional ts
  rcases parseAllWithin_stopped h with ho | ⟨-, -, e, ho⟩
  · rw [ho] at hp
    exact hp
  · rw [ho] at hp
    obtain ⟨us, rfl, hd⟩ := hp
    exact ⟨us, [], e, rfl, by rwa [List.append_nil]⟩

/-- A stop leaves the tokens from one of them on. -/
theorem parseAllWithin_suffix (n : Nat) (ts : List Token) : (parseAllWithin n ts).rest <:+ ts := by
  refine Outcome.rest_andThen_suffix (parse_suffix n .conditional ts) fun e rest => ?_
  split <;> exact List.suffix_rfl

/-- What is behind the token of a stop does not matter. -/
theorem parseAllWithin_local (h : parseAllWithin n (us ++ t :: r) = .stopped reason (t :: r)) (r' : List Token) :
    parseAllWithin n (us ++ t :: r') = .stopped reason (t :: r') := by
  rcases parseAllWithin_stopped h with ho | ⟨rfl, -, e, ho⟩
  · rw [parseAllWithin, parse_stopped_local ho r']
    rfl
  · rw [parseAllWithin, parse_done_local ho r']
    rfl

theorem toExcept_eq_incorrect_iff {α : Type} {o : Outcome α} {fault : SyntaxFault} {endOffset : Nat} :
    o.toExcept endOffset = .error (.incorrect fault) ↔
      ∃ complaint rest, o = .stopped (.unexpected complaint) rest ∧ fault = .about complaint endOffset rest := by
  constructor
  · intro h
    match o, h with
    | .stopped (.unexpected complaint) rest, h => cases h; exact ⟨complaint, rest, rfl, rfl⟩
  · rintro ⟨complaint, rest, rfl, rfl⟩
    rfl

/-- The place of a fault is that of the first token that is left, or the end of the text. -/
theorem position?_about (complaint : Complaint) (endOffset : Nat) (rest : List Token) :
    (SyntaxFault.about complaint endOffset rest).position? = some ((rest.head?.map Token.position).getD endOffset) := by
  cases rest <;> rfl

/-- **Faults are found at the earliest token.** A fault names the place of the token where the cursor stops. The tokens
before it are the start of a text that parses, and with it they are not; if the cursor stops at the end of the text, the
text itself does not parse. -/
theorem fault_at_earliest (limit endOffset : Nat) (ts : List Token) (fault : SyntaxFault) (stop : Cursor)
    (h : (Cursor.mk ts ts endOffset).follow (parseAllWithin limit ts) = (.error (.incorrect fault), stop)) :
    stop.index ≤ ts.length ∧
      fault.position? = some ((ts[stop.index]?.map Token.position).getD endOffset) ∧
      (∃ more, Parses (ts.take stop.index ++ more)) ∧
      (stop.index < ts.length → ∀ more, ¬ Parses (ts.take (stop.index + 1) ++ more)) ∧
      (stop.index = ts.length → ¬ Parses (ts.take stop.index)) := by
  obtain ⟨hfault, hstop⟩ := Prod.mk.inj h
  obtain ⟨complaint, rest, ho, rfl⟩ := toExcept_eq_incorrect_iff.mp hfault
  obtain ⟨us, more, e, rfl, hd⟩ := parseAllWithin_completable ho
  have hindex : stop.index = us.length := by
    subst hstop
    simp [Cursor.index, ho, Outcome.rest]
  rw [hindex]
  refine ⟨by simp, ?_, ⟨more.map fun l => ⟨l, 0⟩, ?_⟩, ?_, ?_⟩
  · rw [position?_about, List.getElem?_append_right (Nat.le_refl _), Nat.sub_self, List.head?_eq_getElem?]
  · have hlexemes : lexemes (us ++ more.map fun l => ⟨l, 0⟩) = lexemes us ++ more :=
      List.map_append.trans (congrArg _ (lexemes_placed more))
    rw [List.take_left' rfl, parses_iff]
    exact ⟨e, by rwa [hlexemes]⟩
  · intro hlt more
    cases rest with
    | nil => simp at hlt
    | cons t rest =>
      have hlocal := parseAllWithin_local ho more
      rw [List.append_cons, List.take_left' (by simp), List.append_assoc, List.singleton_append]
      exact not_parses hlocal
  · intro hlen
    rw [List.length_append] at hlen
    cases List.length_eq_zero_iff.mp (show rest.length = 0 by omega)
    rw [List.append_nil] at ho ⊢
    rw [List.take_length]
    exact not_parses ho

/-- A fault in the middle of a call, where a comma hides that an argument is missing, and one at the end of a text. -/
theorem fault_at_earliest_call :
    let call : List Token :=
      [⟨.name "f", 0⟩, ⟨.symbol .opening, 1⟩, ⟨.name "a", 2⟩, ⟨.symbol .comma, 3⟩, ⟨.symbol .closing, 4⟩,
        ⟨.symbol .closing, 5⟩]
    let test : List Token := [⟨.name "a", 0⟩, ⟨.symbol .question, 2⟩, ⟨.name "b", 4⟩]
    (∃ more, Parses (call.take 4 ++ more)) ∧ (∀ more, ¬ Parses (call.take 5 ++ more)) ∧
      (∃ more, Parses (test ++ more)) ∧ ¬ Parses test := by
  intro call test
  have hcall := fault_at_earliest 40 6 call (.unexpected .operand (some (.symbol .closing)) 4)
    ⟨call, call.drop 4, 6⟩ rfl
  have htest := fault_at_earliest 40 5 test (.unexpected (.symbol ":") none 5) ⟨test, [], 5⟩ rfl
  exact ⟨hcall.2.2.1, hcall.2.2.2.1 (by decide), htest.2.2.1, htest.2.2.2.2 rfl⟩

end DotGrid
