import DotGrid.Proofs.Scanner.Segmentation
import Mathlib.Logic.Relation

/-!
# Where scanning fails

`ScanState.Step` is one match of the scanner: a run of blanks as long as there are any, or the longest lexeme. Each
step goes on by a character at least and keeps what the scan will answer (`ScanState.Step.answer_eq`), so that a text
is scanned up to its end or up to a place where neither a blank nor a lexeme starts, and these places are known by
their next two characters (`first?_eq_none_iff`). What is scanned so far does not depend on what is behind it
(`ScanState.Run.cut`). So a text is stray at a place if and only if the scan comes to it and its characters are of
that kind (`scan_stray_iff`).
-/

namespace DotGrid

open Text

variable {c : Char} {cs text rest : List Char} {l : Lexeme}

/-! ## Where no lexeme starts -/

/-- A character of no class: it is no blank, starts no name, is no digit and starts no symbol. -/
structure IsForeign (c : Char) : Prop where
  isBlank : isBlank c = false
  isNameStart : isNameStart c = false
  isDigit : isDigit c = false
  startsNoSymbol : ∀ s : Symbol, s.chars.head? ≠ some c

/-- A place where neither a blank nor a lexeme starts: a single equals sign, a point without a digit behind it, or a
character of no class. -/
def Unreadable (c : Char) (cs : List Char) : Prop :=
  c = '=' ∧ cs.head? ≠ some '=' ∨ c = '.' ∧ (∀ d ∈ cs.head?, isDigit d = false) ∨ c ≠ '.' ∧ IsForeign c

theorem Unreadable.isBlank (h : Unreadable c cs) : isBlank c = false := by
  rcases h with ⟨rfl, -⟩ | ⟨rfl, -⟩ | ⟨-, h⟩
  · rfl
  · rfl
  · exact h.isBlank

/-- A first character of symbols is a symbol, the equals sign apart, which stands in front of another one. -/
theorem Symbol.exists_of_head? {s : Symbol} (h : s.chars.head? = some c) :
    (∃ s' : Symbol, s'.chars = [c]) ∨ c = '=' ∧ ∃ r, s.chars = '=' :: '=' :: r := by
  have hall : ∀ s ∈ all, (∃ s' ∈ all, s'.chars = s.chars.take 1) ∨ s.chars.take 2 = ['=', '='] := by decide
  obtain ⟨r, hr⟩ := List.head?_eq_some_iff.mp h
  rcases hall s s.mem_all with ⟨s', -, hs'⟩ | hs
  · exact .inl ⟨s', by rw [hs', hr]; rfl⟩
  · rw [hr] at hs ⊢
    cases r with
    | nil => cases hs
    | cons d r =>
      cases hs
      exact .inr ⟨rfl, r, rfl⟩

/-- A decimal numeral that starts with a point has a digit behind it. -/
theorem DecimalNumeral.digit_of_point (h : DecimalNumeral ('.' :: cs)) : ∃ d r, cs = d :: r ∧ isDigit d = true := by
  obtain ⟨m, x, hm, heq⟩ : ∃ m x, Mantissa m ∧ '.' :: cs = m ++ x := by
    generalize htext : '.' :: cs = text at h
    cases h with
    | plain hm => exact ⟨text, [], hm, (List.append_nil text).symm⟩
    | scaled hm _ => exact ⟨_, _, hm, rfl⟩
  cases hm with
  | whole hne hds =>
    obtain ⟨d, ds, rfl⟩ := List.exists_cons_of_ne_nil hne
    obtain ⟨rfl, -⟩ := List.cons.inj heq
    exact absurd (hds _ List.mem_cons_self) (by decide)
  | @point ds fs hne hds hfs =>
    cases ds with
    | cons d ds =>
      obtain ⟨rfl, -⟩ := List.cons.inj heq
      exact absurd (hds _ List.mem_cons_self) (by decide)
    | nil =>
      obtain ⟨d, fs, rfl⟩ := List.exists_cons_of_ne_nil (hne.resolve_left (· rfl))
      obtain ⟨-, rfl⟩ := List.cons.inj heq
      exact ⟨d, fs ++ x, rfl, hfs d List.mem_cons_self⟩

theorem Unreadable.not_spells (h : Unreadable c cs) (hs : Spells l text) : ¬ text <+: c :: cs := by
  intro hprefix
  obtain ⟨d, u, rfl, -⟩ := hs.start
  obtain ⟨rfl, hu⟩ := List.cons_prefix_cons.mp hprefix
  generalize htext : d :: u = text at hs
  have hnodigit : isDigit d = false := by
    rcases h with ⟨rfl, -⟩ | ⟨rfl, -⟩ | ⟨-, h⟩
    · rfl
    · rfl
    · exact h.isDigit
  cases hs with
  | hex hs =>
    obtain ⟨-, -, -⟩ := hs
    cases htext
    exact absurd hnodigit (by decide)
  | decimal hs =>
    subst htext
    obtain ⟨_, _, heq, hd⟩ := hs.start
    cases heq
    rcases hd with hd | rfl
    · rw [hnodigit] at hd
      cases hd
    · obtain ⟨d, r, rfl, hdigit⟩ := hs.digit_of_point
      obtain ⟨k, rfl⟩ := hu
      rcases h with ⟨heq, -⟩ | ⟨-, h⟩ | ⟨h, -⟩
      · cases heq
      · rw [h d rfl] at hdigit
        cases hdigit
      · exact h rfl
  | name hs =>
    obtain ⟨hd, -⟩ := hs
    cases htext
    rcases h with ⟨rfl, -⟩ | ⟨rfl, -⟩ | ⟨-, h⟩
    · cases hd
    · cases hd
    · rw [h.isNameStart] at hd
      cases hd
  | symbol s =>
    have hhead : s.chars.head? = some d := by rw [← htext, List.head?_cons]
    rcases h with ⟨rfl, h⟩ | ⟨rfl, -⟩ | ⟨-, h⟩
    · rcases Symbol.exists_of_head? hhead with ⟨s', hs'⟩ | ⟨-, r, hr⟩
      · cases s' <;> cases hs'
      · obtain ⟨-, rfl⟩ := List.cons.inj (htext.trans hr)
        obtain ⟨k, rfl⟩ := hu
        exact h rfl
    · cases s <;> cases hhead
    · exact h.startsNoSymbol s hhead

/-- No lexeme starts at a character that is no blank just where the text cannot be read. -/
theorem first?_eq_none_iff (hc : isBlank c = false) : Lexeme.first? (c :: cs) = none ↔ Unreadable c cs := by
  constructor
  · intro h
    have hno : ∀ {l : Lexeme} {u : List Char}, Spells l u → ¬ u <+: c :: cs := first?_eq_none h
    have hsingle : ∀ {l : Lexeme}, ¬ Spells l [c] := fun hs =>
      hno hs (List.cons_prefix_cons.mpr ⟨rfl, List.nil_prefix⟩)
    have hdigit : isDigit c = false := by
      refine Bool.eq_false_iff.mpr fun hd => hsingle (.decimal (.plain (.whole (List.cons_ne_nil c []) ?_)))
      exact List.forall_mem_singleton.mpr hd
    have hname : isNameStart c = false :=
      Bool.eq_false_iff.mpr fun hd => hsingle (.name (.mk hd nofun))
    by_cases hpoint : c = '.'
    · subst hpoint
      refine .inr (.inl ⟨rfl, fun d hd => Bool.eq_false_iff.mpr fun hdigit => ?_⟩)
      obtain ⟨r, rfl⟩ := List.head?_eq_some_iff.mp hd
      have hmantissa : Mantissa ([] ++ '.' :: [d]) :=
        .point (.inr (List.cons_ne_nil d [])) nofun (List.forall_mem_singleton.mpr hdigit)
      have hnumeral : DecimalNumeral ['.', d] := .plain hmantissa
      exact hno (.decimal hnumeral) (by simp)
    · by_cases hequals : c = '='
      · subst hequals
        refine .inl ⟨rfl, fun hhead => ?_⟩
        obtain ⟨r, rfl⟩ := List.head?_eq_some_iff.mp hhead
        exact hno (.symbol .equal) (by simp [Symbol.chars])
      · refine .inr (.inr ⟨hpoint, hc, hname, hdigit, fun s hs => ?_⟩)
        rcases Symbol.exists_of_head? hs with ⟨s', hs'⟩ | ⟨heq, -⟩
        · have hspells := Spells.symbol s'
          rw [hs'] at hspells
          exact hsingle hspells
        · exact hequals heq
  · intro h
    cases hfirst : Lexeme.first? (c :: cs) with
    | none => rfl
    | some found =>
      have hl := first?_eq_some hfirst
      exact absurd hl.starts (h.not_spells hl.spells)

/-- A text that is cut behind its first lexeme has the same first lexeme. -/
theorem LongestLexeme.of_prefix {cs' : List Char} (h : LongestLexeme cs l text) (hcs : cs' <+: cs)
    (hstarts : text <+: cs') : LongestLexeme cs' l text :=
  ⟨h.spells, hstarts, fun l' u hu hu' => h.longest l' u hu (hu'.trans hcs)⟩

/-! ## Steps of a scan -/

/-- Where a scan stands: the offset, the tokens so far and the text that is left. -/
structure ScanState where
  position : Nat
  tokens : List Token
  rest : List Char

namespace ScanState

/-- The state before a text. -/
def start (source : String) : ScanState := ⟨0, [], source.toList⟩

/-- One match: all blanks up to the next character that is none, or the longest lexeme. -/
inductive Step : ScanState → ScanState → Prop
  | blanks {position : Nat} {tokens : List Token} {gap rest : List Char} : gap ≠ [] → Run isBlank gap →
      (∀ c ∈ rest.head?, isBlank c = false) →
      Step ⟨position, tokens, gap ++ rest⟩ ⟨position + gap.length, tokens, rest⟩
  | lexeme {position : Nat} {tokens : List Token} {l : Lexeme} {text rest : List Char} :
      LongestLexeme (text ++ rest) l text →
      Step ⟨position, tokens, text ++ rest⟩ ⟨position + text.length, tokens ++ [⟨l, position⟩], rest⟩

/-- Any number of matches. -/
abbrev Run : ScanState → ScanState → Prop := Relation.ReflTransGen Step

/-- The states that a scan of a text comes to. -/
def ScansTo (source : String) (s : ScanState) : Prop := Run (start source) s

/-- What a scan will answer from a state on. -/
def answer (s : ScanState) : Except Stray (List Token) := (scanFrom s.position s.rest).map (s.tokens ++ ·)

variable {s s' : ScanState}

/-! ### Progress -/

/-- A match takes a character at least from the front of the text that is left. -/
theorem Step.exists_taken (h : Step s s') :
    ∃ u, u ≠ [] ∧ s.rest = u ++ s'.rest ∧ s'.position = s.position + u.length := by
  cases h with
  | blanks hne _ _ => exact ⟨_, hne, rfl, rfl⟩
  | lexeme hl => exact ⟨_, hl.spells.ne_nil, rfl, rfl⟩

theorem Step.length_lt (h : Step s s') : s'.rest.length < s.rest.length ∧ s.position < s'.position := by
  obtain ⟨u, hne, hrest, hposition⟩ := h.exists_taken
  have hpos := List.length_pos_iff.mpr hne
  rw [hrest, List.length_append]
  omega

/-- Some match is there if the text goes on and can be read. -/
theorem exists_step (position : Nat) (tokens : List Token) (h : ¬ Unreadable c cs) :
    ∃ s', Step ⟨position, tokens, c :: cs⟩ s' := by
  cases hc : isBlank c with
  | true =>
    have hsplit : (c :: cs).takeWhile isBlank ++ (c :: cs).dropWhile isBlank = c :: cs :=
      List.takeWhile_append_dropWhile
    have hne : (c :: cs).takeWhile isBlank ≠ [] := by simp [hc]
    have hnext : ∀ d ∈ ((c :: cs).dropWhile isBlank).head?, isBlank d = false := by
      intro d hd
      have := List.head?_dropWhile_not isBlank (c :: cs)
      rw [Option.mem_def.mp hd] at this
      simpa using this
    rw [← hsplit]
    exact ⟨_, .blanks hne (run_takeWhile isBlank _) hnext⟩
  | false =>
    cases hfirst : Lexeme.first? (c :: cs) with
    | none => exact absurd ((first?_eq_none_iff hc).mp hfirst) h
    | some found =>
      obtain ⟨l, text⟩ := found
      have hl := first?_eq_some hfirst
      obtain ⟨r, hr⟩ := hl.starts
      rw [← hr] at hl ⊢
      exact ⟨_, .lexeme hl⟩

theorem Step.not_unreadable (h : Step s s') (hrest : s.rest = c :: cs) : ¬ Unreadable c cs := by
  intro hu
  cases h with
  | @blanks _ _ gap rest hne hgap _ =>
    obtain ⟨d, gap, rfl⟩ := List.exists_cons_of_ne_nil hne
    obtain ⟨rfl, -⟩ := List.cons.inj hrest
    have hblank := hgap _ List.mem_cons_self
    rw [hu.isBlank] at hblank
    cases hblank
  | @lexeme _ _ l text rest hl =>
    have hprefix : text <+: c :: cs := hrest ▸ hl.starts
    exact hu.not_spells hl.spells hprefix

/-- A scan goes on up to the end of the text or to a place that cannot be read. -/
theorem exists_last (s : ScanState) :
    ∃ last, Run s last ∧ (last.rest = [] ∨ ∃ c cs, last.rest = c :: cs ∧ Unreadable c cs) := by
  induction hn : s.rest.length using Nat.strongRecOn generalizing s with
  | _ n ih =>
    obtain ⟨position, tokens, rest⟩ := s
    cases rest with
    | nil => exact ⟨_, .refl, .inl rfl⟩
    | cons c cs =>
      by_cases hu : Unreadable c cs
      · exact ⟨_, .refl, .inr ⟨c, cs, rfl, hu⟩⟩
      · obtain ⟨s', hstep⟩ := exists_step position tokens hu
        obtain ⟨last, hrun, hlast⟩ := ih s'.rest.length (hn ▸ hstep.length_lt.1) s' rfl
        exact ⟨last, .head hstep hrun, hlast⟩

/-! ### The answer -/

/-- A match keeps the answer. -/
theorem Step.answer_eq (h : Step s s') : s.answer = s'.answer := by
  cases h with
  | blanks _ hgap _ => rw [answer, answer, scanFrom_gap hgap]
  | @lexeme position tokens l text rest hl =>
    have hfirst := first?_eq_some_iff.mpr hl
    obtain ⟨c, text, rfl, -⟩ := hl.spells.start
    have hdrop : (text ++ rest).drop ((c :: text).length - 1) = rest := List.drop_left
    rw [List.cons_append] at hfirst
    have hscan : scanFrom position (c :: text ++ rest) =
        (scanFrom (position + (c :: text).length) rest).map (⟨l, position⟩ :: ·) := by
      rw [List.cons_append, scanFrom, if_neg (not_isBlank_of_spells hl.spells)]
      simp only [hfirst, hdrop]
      cases scanFrom (position + (c :: text).length) rest <;> rfl
    rw [answer, answer, hscan]
    cases scanFrom (position + (c :: text).length) rest with
    | error stray => rfl
    | ok ts => simp [Except.map]

theorem Run.answer_eq (h : Run s s') : s.answer = s'.answer := by
  induction h with
  | refl => rfl
  | tail _ hstep ih => exact ih.trans hstep.answer_eq

theorem ScansTo.scan_eq {source : String} (h : ScansTo source s) : scan source = s.answer := by
  have hstart : (start source).answer = scan source := by
    rw [answer, start, scan]
    cases scanFrom 0 source.toList <;> rfl
  exact hstart.symm.trans (Run.answer_eq h)

theorem answer_of_nil (h : s.rest = []) : s.answer = .ok s.tokens := by
  rw [answer, h, scanFrom]
  simp [Except.map]

theorem answer_of_unreadable (h : s.rest = c :: cs) (hu : Unreadable c cs) : s.answer = .error ⟨c, s.position⟩ := by
  have hc := hu.isBlank
  rw [answer, h, scanFrom, if_neg (by simp [hc])]
  simp only [(first?_eq_none_iff hc).mpr hu]
  rfl

/-! ### What is scanned so far -/

/-- A match does not depend on the text behind what is left after it. -/
theorem Step.cut {u more : List Char} (h : Step s s') (hrest : s'.rest = u ++ more) :
    ∃ v, s.rest = v ++ more ∧ Step ⟨s.position, s.tokens, v⟩ ⟨s'.position, s'.tokens, u⟩ := by
  cases h with
  | @blanks position tokens gap rest hne hgap hnext =>
    have hrest : rest = u ++ more := hrest
    subst hrest
    refine ⟨gap ++ u, (List.append_assoc ..).symm, .blanks hne hgap fun c hc => hnext c ?_⟩
    obtain ⟨r, rfl⟩ := List.head?_eq_some_iff.mp hc
    rfl
  | @lexeme position tokens l text rest hl =>
    have hrest : rest = u ++ more := hrest
    subst hrest
    refine ⟨text ++ u, (List.append_assoc ..).symm, .lexeme (hl.of_prefix ?_ (List.prefix_append text u))⟩
    rw [← List.append_assoc]
    exact List.prefix_append _ more

theorem Run.cut {more : List Char} (h : Run s s') (hrest : s'.rest = more) :
    ∃ v, s.rest = v ++ more ∧ Run ⟨s.position, s.tokens, v⟩ ⟨s'.position, s'.tokens, []⟩ := by
  subst hrest
  induction h using Relation.ReflTransGen.head_induction_on with
  | refl => exact ⟨[], rfl, .refl⟩
  | head hstep _ ih =>
    obtain ⟨u, hu, hrun⟩ := ih
    obtain ⟨v, hv, hfirst⟩ := hstep.cut hu
    exact ⟨v, hv, .head hfirst hrun⟩

theorem Run.position_eq (h : Run s s') : s'.position + s'.rest.length = s.position + s.rest.length := by
  induction h with
  | refl => rfl
  | tail _ hstep ih =>
    obtain ⟨u, -, hrest, hposition⟩ := hstep.exists_taken
    rw [hrest, List.length_append] at ih
    omega

/-- The text before a place that a scan comes to is scanned on its own, with the same tokens. -/
theorem ScansTo.scan_take {source : String} (h : ScansTo source s) :
    s.rest = source.toList.drop s.position ∧ scan (String.ofList (source.toList.take s.position)) = .ok s.tokens := by
  obtain ⟨v, hv, hrun⟩ := Run.cut h rfl
  have hv : source.toList = v ++ s.rest := hv
  have hrun : Run ⟨0, [], v⟩ ⟨s.position, s.tokens, []⟩ := hrun
  have hlength : s.position = v.length := by
    have := hrun.position_eq
    simpa using this
  have htake : source.toList.take s.position = v := by rw [hv, hlength, List.take_left]
  refine ⟨by rw [hlength, hv, List.drop_left], ?_⟩
  have hreached : ScansTo (String.ofList v) ⟨s.position, s.tokens, []⟩ := by
    rw [ScansTo, start, String.toList_ofList]
    exact hrun
  rw [htake, hreached.scan_eq, answer_of_nil rfl]

end ScanState

open ScanState (ScansTo)

/-- **A scan fails where it has to and at the first such place.** A text is stray at a place if and only if the scan
comes to the place, where the text before is scanned with the tokens so far, and the characters there are a single
equals sign, a point without a digit behind it or another one of no class. The stray character is the one at that
place. In all other cases the text is scanned: its tokens are those of the scan when it comes to the end of the text.
Each match takes a character at least, and some last match there is. -/
theorem scan_stray_iff (source : String) :
    (∀ p : Nat, (∃ c, scan source = .error ⟨c, p⟩) ↔
      ∃ s, ScansTo source s ∧ s.position = p ∧ scan (String.ofList (source.toList.take p)) = .ok s.tokens ∧
        ∃ c cs, source.toList.drop p = c :: cs ∧ Unreadable c cs) ∧
    (∀ stray, scan source = .error stray → source.toList[stray.position]? = some stray.char) ∧
    (∀ ts, scan source = .ok ts ↔ ScansTo source ⟨source.length, ts, []⟩) ∧
    (∀ s next, ScansTo source s → s.Step next → s.position < next.position ∧ next.position ≤ source.length) ∧
    ∃ last, ScansTo source last ∧ ∀ next, ¬ last.Step next := by
  have hposition : ∀ s, ScansTo source s → s.position + s.rest.length = source.length := by
    intro s hs
    rw [ScanState.Run.position_eq hs, ScanState.start, Nat.zero_add, String.length_toList]
  have hstray : ∀ s c cs, ScansTo source s → s.rest = c :: cs → Unreadable c cs →
      scan source = .error ⟨c, s.position⟩ := fun s c cs hs hrest hu =>
    hs.scan_eq.trans (ScanState.answer_of_unreadable hrest hu)
  obtain ⟨last, hlast, hend⟩ := (ScanState.start source).exists_last
  have hlast : ScansTo source last := hlast
  have hlastrest := hlast.scan_take.1
  have hanswer : (∃ c cs, last.rest = c :: cs ∧ Unreadable c cs ∧ scan source = .error ⟨c, last.position⟩) ∨
      (last.rest = [] ∧ scan source = .ok last.tokens) := by
    rcases hend with hnil | ⟨c, cs, hrest, hu⟩
    · exact .inr ⟨hnil, hlast.scan_eq.trans (ScanState.answer_of_nil hnil)⟩
    · exact .inl ⟨c, cs, hrest, hu, hstray last c cs hlast hrest hu⟩
  refine ⟨fun p => ⟨?_, ?_⟩, fun stray h => ?_, fun ts => ⟨fun h => ?_, fun h => ?_⟩, fun s next hs hstep => ?_,
    last, hlast, fun next hstep => ?_⟩
  · rintro ⟨c, h⟩
    rcases hanswer with ⟨c', cs, hrest, hu, hscan⟩ | ⟨-, hscan⟩
    · cases h.symm.trans hscan
      exact ⟨last, hlast, rfl, hlast.scan_take.2, c, cs, hlastrest ▸ hrest, hu⟩
    · cases h.symm.trans hscan
  · rintro ⟨s, hs, rfl, -, c, cs, hrest, hu⟩
    exact ⟨c, hstray s c cs hs (hs.scan_take.1.trans hrest) hu⟩
  · rcases hanswer with ⟨c, cs, hrest, hu, hscan⟩ | ⟨-, hscan⟩
    · cases h.symm.trans hscan
      have hhead := List.head?_drop (l := source.toList) (i := last.position)
      rw [← hlastrest, hrest] at hhead
      exact hhead.symm
    · cases h.symm.trans hscan
  · rcases hanswer with ⟨c, cs, -, -, hscan⟩ | ⟨hnil, hscan⟩
    · cases h.symm.trans hscan
    · cases h.symm.trans hscan
      have hlength := hposition last hlast
      rw [hnil, List.length_nil, Nat.add_zero] at hlength
      obtain ⟨position, tokens, rest⟩ := last
      cases hnil
      cases hlength
      exact hlast
  · exact h.scan_eq.trans (ScanState.answer_of_nil rfl)
  · have := hposition next (hs.tail hstep)
    exact ⟨hstep.length_lt.2, by omega⟩
  · rcases hend with hnil | ⟨c, cs, hrest, hu⟩
    · have := hstep.length_lt.1
      rw [hnil] at this
      cases this
    · exact hstep.not_unreadable hrest hu

/-- A point is stray behind a symbol of two characters if a letter follows it. -/
theorem scan_stray_iff_point :
    let source := "a<=.e"
    let ts : List Token := [⟨.name "a", 0⟩, ⟨.symbol .atMost, 1⟩]
    ScansTo source ⟨3, ts, ['.', 'e']⟩ ∧ scan "a<=" = .ok ts ∧ Unreadable '.' ['e'] ∧
      (∃ c, scan source = .error ⟨c, 3⟩) ∧ ∀ ts, scan source ≠ .ok ts := by
  intro source ts
  have hsource : ScanState.start source = ⟨0, [], ['a', '<', '=', '.', 'e']⟩ := by simp [ScanState.start, source]
  have hname : ScanState.Step ⟨0, [], ['a', '<', '=', '.', 'e']⟩ ⟨1, [⟨.name "a", 0⟩], ['<', '=', '.', 'e']⟩ :=
    @ScanState.Step.lexeme _ _ _ ['a'] _ (first?_eq_some rfl)
  have hsymbol : ScanState.Step ⟨1, [⟨.name "a", 0⟩], ['<', '=', '.', 'e']⟩ ⟨3, ts, ['.', 'e']⟩ :=
    @ScanState.Step.lexeme _ _ _ ['<', '='] _ (first?_eq_some rfl)
  have hreached : ScansTo source ⟨3, ts, ['.', 'e']⟩ := by
    rw [ScansTo, hsource]
    exact .tail (.single hname) hsymbol
  have hu : Unreadable '.' ['e'] := .inr (.inl ⟨rfl, by simp [isDigit]⟩)
  obtain ⟨hiff, -, hdone, -, -⟩ := scan_stray_iff source
  have hstray : ∃ c, scan source = .error ⟨c, 3⟩ :=
    (hiff 3).mpr ⟨_, hreached, rfl, hreached.scan_take.2, '.', ['e'], by simp [source], hu⟩
  refine ⟨hreached, by simpa [source] using hreached.scan_take.2, hu, hstray, fun ts h => ?_⟩
  obtain ⟨c, hc⟩ := hstray
  cases hc.symm.trans h

/-- A point is a character of no class, but it is not stray if a digit follows it. -/
theorem foreign_point_not_stray :
    ¬ ∀ (source : String) (p : Nat), (∃ c, scan source = .error ⟨c, p⟩) ↔
      ∃ s, ScansTo source s ∧ s.position = p ∧ scan (String.ofList (source.toList.take p)) = .ok s.tokens ∧
        ∃ c cs, source.toList.drop p = c :: cs ∧
          (c = '=' ∧ cs.head? ≠ some '=' ∨ c = '.' ∧ (∀ d ∈ cs.head?, isDigit d = false) ∨ IsForeign c) := by
  intro h
  have hforeign : IsForeign '.' := by
    refine ⟨rfl, rfl, rfl, fun s => ?_⟩
    cases s <;> decide
  have htext : (".5" : String).toList = ['.', '5'] := by simp
  have hscan : scan ".5" = .ok [⟨.number (decimalValue ['.', '5']), 0⟩] := by
    rw [scan, htext]
    have hfirst : Lexeme.first? ['.', '5'] = some (.number (decimalValue ['.', '5']), ['.', '5']) := rfl
    exact scanFrom_cons 0 (by decide) hfirst (by simp [scanFrom])
  obtain ⟨c, hc⟩ := (h ".5" 0).mpr
    ⟨.start ".5", .refl, rfl, by simp [scan, scanFrom, ScanState.start], '.', ['5'], htext, .inr (.inr hforeign)⟩
  cases hc.symm.trans hscan

end DotGrid
