import DotGrid.Proofs.Parser.Prefix

/-!
# Runs of calls on a cursor

A `Cursor.Call` is one thing that a cursor is asked for, and a run is any list of calls, those after a call that failed
included. A call leaves a part of the tokens that were ahead (`Call.run_behind`), and so does a run (`after_behind`), so
that the cursor only moves forward and stays among the tokens of its text. A reader is local if what it gives depends on
the tokens up to and with the first one that it leaves (`LocalReader`). All phrases are read like this
(`parse_localReader`), and so all calls are local (`Call.run_local`). The end of a text counts as its last entry
(`Cursor.entries`), so that a call that stops there is a case of the same statement (`ValidCall`).
-/

namespace DotGrid

variable {α : Type} {p : Phrase} {n : Nat} {us ts rest rest' : List Token} {t : Token} {r : List Token}

/-! ## Readers -/

namespace Outcome

/-- The same outcome with other tokens left. -/
def leaving (rest : List Token) : Outcome α → Outcome α
  | .done a _ => .done a rest
  | .stopped reason _ => .stopped reason rest

@[simp] theorem rest_leaving (o : Outcome α) : (o.leaving rest).rest = rest := by
  cases o <;> rfl

/-- A result, or a fault about the first token that is left, does not depend on the tokens behind that one. -/
theorem toExcept_leaving {o : Outcome α} (h : o.rest = t :: r) (endOffset endOffset' : Nat) (r' : List Token) :
    (o.leaving (t :: r')).toExcept endOffset' = o.toExcept endOffset := by
  cases o with
  | done a rest => rfl
  | stopped reason rest =>
    cases reason with
    | tooDeep => rfl
    | unexpected complaint =>
      have hrest : rest = t :: r := h
      rw [hrest]
      rfl

end Outcome

/-- A reader whose outcome does not depend on the tokens behind the first one that it leaves. -/
structure LocalReader (read : List Token → Outcome α) : Prop where
  suffix : ∀ ts, (read ts).rest <:+ ts
  leaving : ∀ {us t r}, (read (us ++ t :: r)).rest = t :: r →
    ∀ r', read (us ++ t :: r') = (read (us ++ t :: r)).leaving (t :: r')

theorem parse_localReader (n : Nat) (p : Phrase) : LocalReader (p.parse n) where
  suffix := parse_suffix n p
  leaving := by
    intro us t r h r'
    cases ho : p.parse n (us ++ t :: r) with
    | done e rest =>
      rw [ho] at h
      cases h
      exact parse_done_local ho r'
    | stopped reason rest =>
      rw [ho] at h
      cases h
      exact parse_stopped_local ho r'

theorem parseAllWithin_localReader (n : Nat) : LocalReader (parseAllWithin n) where
  suffix := parseAllWithin_suffix n
  leaving := by
    intro us t r h r'
    cases ho : parseAllWithin n (us ++ t :: r) with
    | done e rest =>
      -- a result leaves nothing
      rw [ho, (parseAllWithin_eq_done_iff.mp ho).2] at h
      cases h
    | stopped reason rest =>
      rw [ho] at h
      cases h
      exact parseAllWithin_local ho r'

namespace Cursor

/-! ## Calls -/

/-- What a cursor is asked for: to show, to take or to test a token, to build a fault, or to read an expression or a
phrase with a limit for the nesting. -/
inductive Call where
  | peek
  | take
  | expect (text : String)
  | atSymbol (texts : List String)
  | complain (text : String)
  | read (limit : Nat) (p : Phrase)
  | readAll (limit : Nat)

/-- What a call gives. -/
inductive Answer where
  | token (t : Option Token)
  | truth (b : Bool)
  | fault (f : SyntaxFault)
  | tree (e : Expr)

/-- Tells a call that only looks. -/
def Call.Looks : Call → Prop
  | .peek | .atSymbol _ | .complain _ => True
  | _ => False

/-- The answer to a call and the cursor after it, also after a failure. -/
def Call.run (c : Cursor) : Call → Except ParseFault Answer × Cursor
  | .peek => (.ok (.token c.peek), c)
  | .take => (.ok (.token c.peek), c.advance)
  | .expect text => ((c.expect text).1.map .token, (c.expect text).2)
  | .atSymbol texts => (.ok (.truth (c.atSymbol texts)), c)
  | .complain text => (.ok (.fault (c.complain (.other text))), c)
  | .read limit p => ((c.follow (p.parse limit c.rest)).1.map .tree, (c.follow (p.parse limit c.rest)).2)
  | .readAll limit => ((c.follow (parseAllWithin limit c.rest)).1.map .tree, (c.follow (parseAllWithin limit c.rest)).2)

/-- The cursor after a run of calls. -/
def after (calls : List Call) (c : Cursor) : Cursor := calls.foldl (fun c call => (call.run c).2) c

/-! ## Cursors only move forward -/

/-- The second cursor is in the same text at the same place or further behind. -/
structure Behind (c c' : Cursor) : Prop where
  tokens : c'.tokens = c.tokens
  endOffset : c'.endOffset = c.endOffset
  rest : c'.rest <:+ c.rest

theorem Behind.refl (c : Cursor) : Behind c c := ⟨rfl, rfl, List.suffix_rfl⟩

theorem Behind.trans {c c' c'' : Cursor} (h : Behind c c') (h' : Behind c' c'') : Behind c c'' :=
  ⟨h'.tokens.trans h.tokens, h'.endOffset.trans h.endOffset, h'.rest.trans h.rest⟩

theorem Behind.index_le {c c' : Cursor} (h : Behind c c') : c.index ≤ c'.index := by
  have hrest := h.rest.length_le
  unfold index
  rw [h.tokens]
  omega

theorem expect_eq_advance {c : Cursor} {text : String} (h : c.atSymbol [text] = true) :
    c.expect text = (.ok c.peek, c.advance) :=
  if_pos h

theorem expect_eq_error {c : Cursor} {text : String} (h : c.atSymbol [text] = false) :
    c.expect text = (.error (.incorrect (c.complain (.symbol text))), c) :=
  if_neg (by rw [h]; exact Bool.false_ne_true)

/-- A call that only looks leaves the cursor where it is. -/
theorem Call.Looks.run_eq {call : Call} (h : call.Looks) (c : Cursor) : (call.run c).2 = c := by
  cases call with
  | peek => rfl
  | atSymbol => rfl
  | complain => rfl
  | take => exact h.elim
  | expect => exact h.elim
  | read => exact h.elim
  | readAll => exact h.elim

/-- A call leaves a part of the tokens that were ahead, whether it fails or not. -/
theorem Call.run_behind (c : Cursor) (call : Call) : Behind c (call.run c).2 := by
  cases call with
  | peek => exact .refl c
  | atSymbol texts => exact .refl c
  | complain text => exact .refl c
  | take => exact ⟨rfl, rfl, List.tail_suffix c.rest⟩
  | expect text =>
    rw [run]
    cases h : c.atSymbol [text] with
    | true =>
      rw [expect_eq_advance h]
      exact ⟨rfl, rfl, List.tail_suffix c.rest⟩
    | false =>
      rw [expect_eq_error h]
      exact .refl c
  | read limit p => exact ⟨rfl, rfl, (parse_localReader limit p).suffix c.rest⟩
  | readAll limit => exact ⟨rfl, rfl, (parseAllWithin_localReader limit).suffix c.rest⟩

theorem after_behind (calls : List Call) (c : Cursor) : Behind c (after calls c) := by
  induction calls generalizing c with
  | nil => exact .refl c
  | cons call calls ih => exact (call.run_behind c).trans (ih (call.run c).2)

/-- A cursor behind the start of a text is before the tokens from its index on. -/
theorem Behind.rest_eq_drop {ts : List Token} {endOffset : Nat} {c : Cursor} (h : Behind ⟨ts, ts, endOffset⟩ c) :
    c.rest = ts.drop c.index := by
  rw [index, h.tokens]
  exact List.suffix_iff_eq_drop.mp h.rest

theorem Behind.index_le_length {ts : List Token} {endOffset : Nat} {c : Cursor} (h : Behind ⟨ts, ts, endOffset⟩ c) :
    c.index ≤ ts.length := by
  rw [index, h.tokens]
  exact Nat.sub_le _ _

theorem Behind.eq_drop {ts : List Token} {endOffset : Nat} {c : Cursor} (h : Behind ⟨ts, ts, endOffset⟩ c) :
    c = ⟨ts, ts.drop c.index, endOffset⟩ := by
  rw [← h.rest_eq_drop]
  obtain ⟨tokens, rest, offset⟩ := c
  obtain ⟨rfl, rfl, -⟩ := h
  rfl

theorem index_eq_add {c : Cursor} {k : Nat} (hk : k ≤ c.tokens.length) (h : us ++ c.rest = c.tokens.drop k) :
    c.index = k + us.length := by
  have hlength := congrArg List.length h
  rw [List.length_append, List.length_drop] at hlength
  unfold index
  omega

/-! ## Entries -/

/-- What there is to read in a text: its lexemes with their places, and its end behind them. -/
def entries (ts : List Token) (endOffset : Nat) : List (Option Lexeme × Nat) :=
  ts.map (fun t => (some t.lexeme, t.position)) ++ [(none, endOffset)]

@[simp] theorem length_entries (ts : List Token) (endOffset : Nat) : (entries ts endOffset).length = ts.length + 1 := by
  simp [entries]

theorem getElem?_entries_add {ts : List Token} {k : Nat} (h : k ≤ ts.length) (endOffset j : Nat) :
    (entries ts endOffset)[k + j]? = (entries (ts.drop k) endOffset)[j]? := by
  have hdrop : (entries ts endOffset).drop k = entries (ts.drop k) endOffset := by
    unfold entries
    rw [List.drop_append_of_le_length (by rwa [List.length_map]), List.map_drop]
  rw [← hdrop, List.getElem?_drop]

/-- A fault is about the entry at its cursor. -/
theorem exists_about_eq (complaint : Complaint) (endOffset : Nat) (rest : List Token) :
    ∃ found position, (entries rest endOffset)[0]? = some (found, position) ∧
      SyntaxFault.about complaint endOffset rest = .unexpected complaint found position := by
  cases rest with
  | nil => exact ⟨none, endOffset, rfl, rfl⟩
  | cons t rest => exact ⟨some t.lexeme, t.position, rfl, rfl⟩

/-- A text with the entries `us` and one more has them as its tokens, and the next one as a token or as its end. -/
theorem eq_append_of_entries {us rest ts : List Token} {endOffset endOffset' : Nat}
    (h : ∀ j ≤ us.length, (entries ts endOffset')[j]? = (entries (us ++ rest) endOffset)[j]?) :
    (rest = [] ∧ ts = us ∧ endOffset' = endOffset) ∨ ∃ t r r', rest = t :: r ∧ ts = us ++ t :: r' := by
  induction us generalizing ts with
  | nil =>
    have hhead := h 0 (Nat.le_refl 0)
    match rest, ts with
    | [], [] =>
      cases hhead
      exact .inl ⟨rfl, rfl, rfl⟩
    | [], _ :: _ => nomatch hhead
    | _ :: _, [] => nomatch hhead
    | ⟨lexeme, position⟩ :: r, ⟨lexeme', position'⟩ :: r' =>
      cases hhead
      exact .inr ⟨⟨lexeme, position⟩, r, r', rfl, rfl⟩
  | cons u us ih =>
    have hhead := h 0 (Nat.zero_le _)
    match ts with
    | [] => nomatch hhead
    | ⟨lexeme', position'⟩ :: ts =>
      obtain ⟨lexeme, position⟩ := u
      cases hhead
      rcases ih fun j hj => h (j + 1) (Nat.succ_le_succ hj) with ⟨hrest, rfl, hend⟩ | ⟨t, r, r', hrest, rfl⟩
      · exact .inl ⟨hrest, rfl, hend⟩
      · exact .inr ⟨t, r, r', hrest, rfl⟩

/-! ## Calls are local -/

section Local

variable {c c' : Cursor}

theorem atSymbol_congr (h : c'.rest.head? = c.rest.head?) (texts : List String) :
    c'.atSymbol texts = c.atSymbol texts := by
  unfold atSymbol leading?
  rw [h]

theorem complain_congr (hrest : c'.rest = c.rest) (hend : c'.endOffset = c.endOffset) (complaint : Complaint) :
    c'.complain complaint = c.complain complaint := by
  rw [complain, complain, hrest, hend]

/-- A fault about a token does not depend on the end of the text. -/
theorem complain_congr_cons (hc : c.rest = t :: r) (hc' : c'.rest = t :: r') (complaint : Complaint) :
    c'.complain complaint = c.complain complaint := by
  rw [complain, complain, hc, hc']
  rfl

/-- Apart from the tokens ahead, a call needs the offset of the end only. -/
theorem Call.run_congr (hrest : c'.rest = c.rest) (hend : c'.endOffset = c.endOffset) (call : Call) :
    (call.run c').1 = (call.run c).1 ∧ (call.run c').2.rest = (call.run c).2.rest := by
  cases call with
  | peek => exact ⟨congrArg (Except.ok ∘ Answer.token ∘ List.head?) hrest, hrest⟩
  | take => exact ⟨congrArg (Except.ok ∘ Answer.token ∘ List.head?) hrest, congrArg List.tail hrest⟩
  | atSymbol texts =>
    exact ⟨congrArg (Except.ok ∘ Answer.truth) (atSymbol_congr (congrArg List.head? hrest) texts), hrest⟩
  | complain text => exact ⟨congrArg (Except.ok ∘ Answer.fault) (complain_congr hrest hend (.other text)), hrest⟩
  | expect text =>
    have hsame := atSymbol_congr (congrArg List.head? hrest) [text]
    simp only [run]
    cases hat : c.atSymbol [text] with
    | true =>
      rw [expect_eq_advance hat, expect_eq_advance (hsame.trans hat)]
      exact ⟨congrArg (Except.ok ∘ Answer.token ∘ List.head?) hrest, congrArg List.tail hrest⟩
    | false =>
      rw [expect_eq_error hat, expect_eq_error (hsame.trans hat), complain_congr hrest hend]
      exact ⟨rfl, hrest⟩
  | read limit p =>
    simp only [run, follow, hrest, hend, and_self]
  | readAll limit =>
    simp only [run, follow, hrest, hend, and_self]

theorem follow_local {read : List Token → Outcome Expr} (hread : LocalReader read) (hc : c.rest = us ++ t :: r)
    (hc' : c'.rest = us ++ t :: r') (hstop : (c.follow (read c.rest)).2.rest = t :: r) :
    (c'.follow (read c'.rest)).1 = (c.follow (read c.rest)).1 ∧ (c'.follow (read c'.rest)).2.rest = t :: r' := by
  have hstop : (read (us ++ t :: r)).rest = t :: r := by rwa [← hc]
  have hread' := hread.leaving hstop r'
  rw [hc, hc', follow, follow, hread']
  exact ⟨Outcome.toExcept_leaving hstop _ _ _, Outcome.rest_leaving _⟩

/-- What is behind the token where a call stops does not matter. -/
theorem Call.run_local {call : Call} (hc : c.rest = us ++ t :: r) (hc' : c'.rest = us ++ t :: r')
    (hstop : (call.run c).2.rest = t :: r) :
    (call.run c').1 = (call.run c).1 ∧ (call.run c').2.rest = t :: r' := by
  have hhead : c'.rest.head? = c.rest.head? := by
    rw [hc, hc']
    cases us <;> rfl
  have hpeek : c'.peek = c.peek := hhead
  -- a call that takes nothing stops at the first token, one that takes a token at the second
  have hstay : c.rest = t :: r → c.rest = t :: r ∧ c'.rest = t :: r' := by
    intro h
    rw [h] at hc
    cases List.append_left_eq_self.mp hc.symm
    exact ⟨h, hc'⟩
  have hmove : c.advance.rest = t :: r → c'.advance.rest = t :: r' := by
    intro h
    rw [advance, hc] at h
    rw [advance, hc']
    cases us with
    | nil => exact absurd h (List.cons_ne_self t r).symm
    | cons u us =>
      cases List.append_left_eq_self.mp h
      rfl
  cases call with
  | peek => exact ⟨congrArg (Except.ok ∘ Answer.token) hpeek, (hstay hstop).2⟩
  | take => exact ⟨congrArg (Except.ok ∘ Answer.token) hpeek, hmove hstop⟩
  | atSymbol texts => exact ⟨congrArg (Except.ok ∘ Answer.truth) (atSymbol_congr hhead texts), (hstay hstop).2⟩
  | complain text =>
    obtain ⟨hrest, hrest'⟩ := hstay hstop
    exact ⟨congrArg (Except.ok ∘ Answer.fault) (complain_congr_cons hrest hrest' (.other text)), hrest'⟩
  | expect text =>
    have hsame := atSymbol_congr hhead [text]
    simp only [run] at hstop ⊢
    cases hat : c.atSymbol [text] with
    | true =>
      rw [expect_eq_advance hat] at hstop ⊢
      rw [expect_eq_advance (hsame.trans hat)]
      exact ⟨congrArg (Except.ok ∘ Answer.token) hpeek, hmove hstop⟩
    | false =>
      rw [expect_eq_error hat] at hstop ⊢
      obtain ⟨hrest, hrest'⟩ := hstay hstop
      rw [expect_eq_error (hsame.trans hat), complain_congr_cons hrest hrest']
      exact ⟨rfl, hrest'⟩
  | read limit p =>
    have hread := follow_local (parse_localReader limit p) hc hc' hstop
    exact ⟨congrArg (Except.map Answer.tree) hread.1, hread.2⟩
  | readAll limit =>
    have hread := follow_local (parseAllWithin_localReader limit) hc hc' hstop
    exact ⟨congrArg (Except.map Answer.tree) hread.1, hread.2⟩

end Local

/-- A call from one place in two texts with the same entries up to where it stops in the first. -/
theorem Behind.run_eq_of_entries {ts ts' : List Token} {endOffset endOffset' : Nat} {c : Cursor} {call : Call}
    (h : Behind ⟨ts, ts, endOffset⟩ c)
    (hagree : ∀ j, c.index ≤ j → j ≤ (call.run c).2.index → (entries ts' endOffset')[j]? = (entries ts endOffset)[j]?) :
    (call.run ⟨ts', ts'.drop c.index, endOffset'⟩).1 = (call.run c).1 ∧
      (call.run ⟨ts', ts'.drop c.index, endOffset'⟩).2.index = (call.run c).2.index := by
  have hle := h.index_le_length
  have hcall := call.run_behind c
  obtain ⟨us, hus⟩ := hcall.rest
  have hindex : (call.run c).2.index = c.index + us.length := by
    have htokens := (h.trans hcall).tokens
    refine index_eq_add ?_ ?_
    · rwa [htokens]
    · rw [htokens, hus, h.rest_eq_drop]
  have hle' : c.index ≤ ts'.length := by
    have hentry := hagree c.index (Nat.le_refl _) hcall.index_le
    have hlt : c.index < (entries ts endOffset).length := by
      rw [length_entries]
      exact Nat.lt_succ_of_le hle
    rw [List.getElem?_eq_getElem hlt] at hentry
    obtain ⟨hlt', -⟩ := List.getElem?_eq_some_iff.mp hentry
    rw [length_entries] at hlt'
    exact Nat.le_of_lt_succ hlt'
  have hahead : ∀ j ≤ us.length,
      (entries (ts'.drop c.index) endOffset')[j]? = (entries (us ++ (call.run c).2.rest) endOffset)[j]? := by
    intro j hj
    have hentry := hagree (c.index + j) (Nat.le_add_right _ _) (by omega)
    rwa [getElem?_entries_add hle', getElem?_entries_add hle, ← h.rest_eq_drop, ← hus] at hentry
  generalize hc' : Cursor.mk ts' (ts'.drop c.index) endOffset' = c'
  have htokens' : (call.run c').2.tokens = ts' := by rw [(call.run_behind c').tokens, ← hc']
  have hindex' : us ++ (call.run c').2.rest = ts'.drop c.index → (call.run c').2.index = (call.run c).2.index := by
    intro hus'
    rw [hindex]
    refine index_eq_add ?_ ?_ <;> rwa [htokens']
  rcases eq_append_of_entries hahead with ⟨hrest, hdrop, hend⟩ | ⟨t, r, r', hrest, hdrop⟩
  · -- the first call goes up to the end, so that nothing is different
    rw [hrest, List.append_nil] at hus
    have hsame : c'.rest = c.rest := by rw [← hc', hdrop, hus]
    obtain ⟨hanswer, hstop⟩ := Call.run_congr hsame (by rw [← hc', hend, h.endOffset]) call
    exact ⟨hanswer, hindex' (by rw [hstop, hrest, List.append_nil, hdrop])⟩
  · have hc : c.rest = us ++ t :: r := by rw [← hus, hrest]
    have hc'' : c'.rest = us ++ t :: r' := by rw [← hc', hdrop]
    obtain ⟨hanswer, hstop⟩ := Call.run_local hc hc'' hrest
    exact ⟨hanswer, hindex' (by rw [hstop, hdrop])⟩

/-- A fault that a call fails with is about the entry where the call stops. -/
theorem Call.fault_eq {c : Cursor} {call : Call} {fault : SyntaxFault}
    (h : (call.run c).1 = .error (.incorrect fault)) :
    ∃ complaint, fault = .about complaint c.endOffset (call.run c).2.rest := by
  have hfollow : ∀ o : Outcome Expr, (c.follow o).1.map Answer.tree = .error (.incorrect fault) →
      ∃ complaint, fault = .about complaint c.endOffset o.rest := by
    intro o ho
    cases hexcept : o.toExcept c.endOffset with
    | ok e => rw [follow, hexcept] at ho; nomatch ho
    | error f =>
      rw [follow, hexcept] at ho
      cases ho
      obtain ⟨complaint, rest, rfl, rfl⟩ := toExcept_eq_incorrect_iff.mp hexcept
      exact ⟨complaint, rfl⟩
  cases call with
  | peek => nomatch h
  | take => nomatch h
  | atSymbol texts => nomatch h
  | complain text => nomatch h
  | expect text =>
    simp only [run] at h ⊢
    cases hat : c.atSymbol [text] with
    | true => rw [expect_eq_advance hat] at h; nomatch h
    | false =>
      rw [expect_eq_error hat] at h ⊢
      cases h
      exact ⟨_, rfl⟩
  | read limit p => exact hfollow _ h
  | readAll limit => exact hfollow _ h

/-- A call on a cursor of a text. Before and after it the cursor is in the text at its index, which does not become
smaller and does not pass the end; a call that only looks leaves the cursor where it is. A fault is about the entry
where the call stops. The answer and the place where the call stops are the same in every text with the same entries
from the cursor up to that place. -/
structure ValidCall (ts : List Token) (endOffset : Nat) (c : Cursor) (call : Call) : Prop where
  start_eq : c = ⟨ts, ts.drop c.index, endOffset⟩
  stop_eq : (call.run c).2 = ⟨ts, ts.drop (call.run c).2.index, endOffset⟩
  index_le : c.index ≤ (call.run c).2.index
  index_le_length : (call.run c).2.index ≤ ts.length
  looks : call.Looks → (call.run c).2 = c
  fault : ∀ fault, (call.run c).1 = .error (.incorrect fault) →
    ∃ complaint found position, fault = .unexpected complaint found position ∧
      (entries ts endOffset)[(call.run c).2.index]? = some (found, position)
  isLocal : ∀ ts' endOffset',
    (∀ j, c.index ≤ j → j ≤ (call.run c).2.index → (entries ts' endOffset')[j]? = (entries ts endOffset)[j]?) →
    let c' : Cursor := ⟨ts', ts'.drop c.index, endOffset'⟩
    (call.run c').1 = (call.run c).1 ∧ (call.run c').2.index = (call.run c).2.index

theorem validCall_of_behind {endOffset : Nat} {c : Cursor} (hc : Behind ⟨ts, ts, endOffset⟩ c) (call : Call) :
    ValidCall ts endOffset c call := by
  have hcall : Behind c (call.run c).2 := call.run_behind c
  have hstop := hc.trans hcall
  refine
    { start_eq := hc.eq_drop
      stop_eq := hstop.eq_drop
      index_le := hcall.index_le
      index_le_length := hstop.index_le_length
      looks := fun h => h.run_eq c
      fault := fun fault hfault => ?_
      isLocal := fun _ _ hagree => hc.run_eq_of_entries hagree }
  obtain ⟨complaint, rfl⟩ := Call.fault_eq hfault
  obtain ⟨found, position, hentry, habout⟩ := exists_about_eq complaint endOffset (ts.drop (call.run c).2.index)
  refine ⟨complaint, found, position, ?_, ?_⟩
  · rw [← habout, ← hstop.rest_eq_drop, hc.endOffset]
  · rw [← hentry, ← getElem?_entries_add hstop.index_le_length endOffset 0, Nat.add_zero]

/-- **A cursor stays valid**, after any run of calls, those that failed included. -/
theorem cursor_stays_valid (ts : List Token) (endOffset : Nat) (calls : List Call) (call : Call) :
    ValidCall ts endOffset (after calls ⟨ts, ts, endOffset⟩) call :=
  validCall_of_behind (after_behind calls _) call

/-- Calls on `) a + ( b`, two of which fail: an expression from `a` on is missing its end, and a prefix expression is
the same before anything else than `( b`. -/
theorem cursor_stays_valid_failed :
    let ts : List Token :=
      [⟨.symbol .closing, 0⟩, ⟨.name "a", 2⟩, ⟨.symbol .plus, 4⟩, ⟨.symbol .opening, 6⟩, ⟨.name "b", 8⟩]
    let ts' : List Token := [⟨.name "c", 0⟩, ⟨.name "a", 2⟩, ⟨.symbol .plus, 4⟩, ⟨.symbol .plus, 5⟩]
    let c := after [.read 60 .conditional, .expect "(", .take] ⟨ts, ts, 9⟩
    (∃ complaint found position, SyntaxFault.unexpected (.symbol ")") none 9 = .unexpected complaint found position ∧
        (entries ts 9)[5]? = some (found, position)) ∧
      (Call.run ⟨ts', ts'.drop 1, 6⟩ (.read 60 .unary)).1 = (Call.run c (.read 60 .unary)).1 ∧
      (Call.run c (.read 60 .unary)).1 = .ok (.tree (.name "a")) := by
  intro ts ts' c
  have hall := cursor_stays_valid ts 9 [.read 60 .conditional, .expect "(", .take] (.readAll 60)
  have hunary := cursor_stays_valid ts 9 [.read 60 .conditional, .expect "(", .take] (.read 60 .unary)
  refine ⟨hall.fault _ rfl, (hunary.isLocal ts' 6 fun j hj hj' => ?_).1, rfl⟩
  have hj : 1 ≤ j := hj
  have hj' : j ≤ 2 := hj'
  obtain rfl | rfl : j = 1 ∨ j = 2 := by omega
  · rfl
  · rfl

end Cursor

end DotGrid
