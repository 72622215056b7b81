import DotGrid.Syntax.Token

/-!
# How lexemes are spelled

`Spells l text` says that a text is a lexeme, by the rules of its class: a hexadecimal numeral, a decimal numeral, a
name or a symbol. Each function that takes a lexeme of one class takes the longest one (`Longest`). No character can
start lexemes of two classes, but for the numerals, of which a hexadecimal one is the longer. So the first class that
has a lexeme at the start of a text has the longest one of all classes (`first?_eq_some_iff`).
-/

namespace DotGrid

open Text

variable {p : Char → Bool} {c : Char} {cs u v text : List Char} {l l' : Lexeme}

/-! ## Classes of lexemes -/

/-- All characters of a text satisfy a test. -/
abbrev Run (p : Char → Bool) (cs : List Char) : Prop := ∀ c ∈ cs, p c

/-- A hexadecimal numeral: its mark and digits. -/
inductive HexNumeral : List Char → Prop
  | mk {x : Char} {ds : List Char} : x = 'x' ∨ x = 'X' → ds ≠ [] → Run isHexDigit ds → HexNumeral ('0' :: x :: ds)

/-- A decimal numeral without an exponent: digits, or digits around a point, on one side of it at least. -/
inductive Mantissa : List Char → Prop
  | whole {ds : List Char} : ds ≠ [] → Run isDigit ds → Mantissa ds
  | point {ds fs : List Char} : ds ≠ [] ∨ fs ≠ [] → Run isDigit ds → Run isDigit fs → Mantissa (ds ++ '.' :: fs)

/-- An exponent: its mark, an optional sign and digits. -/
inductive Exponent : List Char → Prop
  | mk {mark : Char} {sign ds : List Char} : mark = 'e' ∨ mark = 'E' → sign = [] ∨ sign = ['+'] ∨ sign = ['-'] →
      ds ≠ [] → Run isDigit ds → Exponent (mark :: (sign ++ ds))

/-- A decimal numeral. -/
inductive DecimalNumeral : List Char → Prop
  | plain {m : List Char} : Mantissa m → DecimalNumeral m
  | scaled {m x : List Char} : Mantissa m → Exponent x → DecimalNumeral (m ++ x)

/-- The text of a name. -/
inductive NameText : List Char → Prop
  | mk {c : Char} {cs : List Char} : isNameStart c → Run isNamePart cs → NameText (c :: cs)

/-- How a lexeme is written. -/
inductive Spells : Lexeme → List Char → Prop
  | hex {text : List Char} : HexNumeral text → Spells (.number (hexValue text)) text
  | decimal {text : List Char} : DecimalNumeral text → Spells (.number (decimalValue text)) text
  | name {text : List Char} : NameText text → Spells (.name (String.ofList text)) text
  | symbol (s : Symbol) : Spells (.symbol s) s.chars

/-! ## Longest texts of a class -/

/-- The longest text of a class at the start of a text, or nothing if there is none. -/
structure Longest (P : List Char → Prop) (cs v : List Char) : Prop where
  starts : v <+: cs
  member : v ≠ [] → P v
  longest : ∀ u, P u → u <+: cs → u.length ≤ v.length

/-- Nothing is the longest text of a class that has none at the start of a text. -/
theorem Longest.nil {P : List Char → Prop} (h : ∀ u, P u → ¬ u <+: cs) : Longest P cs [] :=
  ⟨List.nil_prefix, fun hne => absurd rfl hne, fun u hu hcs => absurd hcs (h u hu)⟩

theorem Longest.not_starts {P : List Char → Prop} (h : Longest P cs []) (hu : P u) (hne : u ≠ []) : ¬ u <+: cs :=
  fun hcs => hne (List.length_eq_zero_iff.mp (Nat.le_zero.mp (h.longest u hu hcs)))

theorem run_takeWhile (p : Char → Bool) (cs : List Char) : Run p (cs.takeWhile p) :=
  List.all_eq_true.mp List.all_takeWhile

theorem takeWhile_longest (p : Char → Bool) (cs : List Char) : Longest (Run p) cs (cs.takeWhile p) := by
  refine ⟨List.takeWhile_prefix p, fun _ => run_takeWhile p cs, ?_⟩
  rintro u hu ⟨r, rfl⟩
  rw [List.takeWhile_append_of_pos hu, List.length_append]
  omega

/-- A run that is not empty makes the longest one not empty. -/
theorem takeWhile_ne_nil (hu : Run p u) (hne : u ≠ []) (h : u <+: cs) : cs.takeWhile p ≠ [] :=
  fun hnil => (hnil ▸ takeWhile_longest p cs).not_starts hu hne h

theorem hexPrefix_longest (cs : List Char) : Longest HexNumeral cs (hexPrefix cs) := by
  unfold hexPrefix
  split
  · rename_i x cs
    dsimp only
    have hlongest := takeWhile_longest isHexDigit cs
    split
    · rename_i hx
      obtain ⟨hmark, hne⟩ := hx
      refine ⟨?_, fun _ => .mk hmark (by simpa using hne) (hlongest.member (by simpa using hne)), ?_⟩
      · exact List.cons_prefix_cons.mpr ⟨rfl, List.cons_prefix_cons.mpr ⟨rfl, hlongest.starts⟩⟩
      · rintro _ ⟨-, -, hds⟩ hu
        obtain ⟨-, hu⟩ := List.cons_prefix_cons.mp hu
        obtain ⟨-, hu⟩ := List.cons_prefix_cons.mp hu
        have hle := hlongest.longest _ hds hu
        simpa using hle
    · rename_i hx
      refine .nil ?_
      rintro _ ⟨hmark, hne, hds⟩ hu
      obtain ⟨-, hu⟩ := List.cons_prefix_cons.mp hu
      obtain ⟨rfl, hu'⟩ := List.cons_prefix_cons.mp hu
      exact hx ⟨hmark, by simpa using takeWhile_ne_nil hds hne hu'⟩
  · rename_i hcs
    refine .nil ?_
    rintro _ ⟨-, -, -⟩ ⟨r, rfl⟩
    exact hcs _ _ rfl

theorem isDigit_ne {d : Char} (h : isDigit c) (hd : isDigit d = false) : c ≠ d := by
  rintro rfl
  rw [h] at hd
  cases hd

/-- The exponent of a text goes on with all digits behind its sign. -/
theorem exponentPrefix_append {mark : Char} {sign ds : List Char} (hm : mark = 'e' ∨ mark = 'E')
    (hs : sign = [] ∨ sign = ['+'] ∨ sign = ['-']) (hne : ds ≠ []) (hds : Run isDigit ds) (r : List Char) :
    exponentPrefix (mark :: (sign ++ (ds ++ r))) = mark :: (sign ++ (ds ++ r).takeWhile isDigit) := by
  have htake : (ds ++ r).takeWhile isDigit ≠ [] := takeWhile_ne_nil hds hne (List.prefix_append ds r)
  rcases hs with rfl | rfl | rfl
  · obtain ⟨d, ds, rfl⟩ := List.exists_cons_of_ne_nil hne
    have hd := hds d List.mem_cons_self
    unfold exponentPrefix
    split
    · rename_i heq
      cases heq
      split
      · rename_i heq
        exact absurd (List.cons.inj heq).1 (isDigit_ne hd rfl)
      · rename_i heq
        exact absurd (List.cons.inj heq).1 (isDigit_ne hd rfl)
      · exact if_pos ⟨hm, by simpa using htake⟩
    · rename_i heq
      cases heq
  · exact if_pos ⟨hm, by simpa using htake⟩
  · exact if_pos ⟨hm, by simpa using htake⟩

theorem exponentPrefix_cons (c : Char) (cs : List Char) :
    ∃ sign rest, cs = sign ++ rest ∧ (sign = [] ∨ sign = ['+'] ∨ sign = ['-']) ∧
      exponentPrefix (c :: cs) =
        if (c = 'e' ∨ c = 'E') ∧ !(rest.takeWhile isDigit).isEmpty then c :: (sign ++ rest.takeWhile isDigit)
        else [] := by
  unfold exponentPrefix
  dsimp only
  split
  · rename_i rest
    exact ⟨['+'], rest, rfl, .inr (.inl rfl), rfl⟩
  · rename_i rest
    exact ⟨['-'], rest, rfl, .inr (.inr rfl), rfl⟩
  · exact ⟨[], cs, rfl, .inl rfl, rfl⟩

theorem exponentPrefix_longest (cs : List Char) : Longest Exponent cs (exponentPrefix cs) := by
  cases cs with
  | nil => exact .nil fun u ⟨_, _, _, _⟩ hu => absurd (List.prefix_nil.mp hu) (List.cons_ne_nil _ _)
  | cons c cs =>
    obtain ⟨sign, rest, rfl, hs, heq⟩ := exponentPrefix_cons c cs
    refine ⟨?_, ?_, ?_⟩
    · rw [heq]
      split
      · refine List.cons_prefix_cons.mpr ⟨rfl, (List.prefix_append_right_inj sign).mpr ?_⟩
        exact List.takeWhile_prefix isDigit
      · exact List.nil_prefix
    · rw [heq]
      split
      · rename_i hc
        exact fun _ => .mk hc.1 hs (by simpa using hc.2) (run_takeWhile isDigit rest)
      · exact fun hne => absurd rfl hne
    · rintro u ⟨hm, hs, hne, hds⟩ ⟨r, hu⟩
      rw [← hu, List.cons_append, List.append_assoc, exponentPrefix_append hm hs hne hds]
      have hle := (takeWhile_longest isDigit _).longest _ hds (List.prefix_append _ r)
      simpa using hle

/-- A numeral with a point takes all digits behind it. -/
theorem mantissaPrefix_point {ds : List Char} (hds : Run isDigit ds) (r : List Char) :
    mantissaPrefix (ds ++ '.' :: r) =
      if ds.isEmpty && (r.takeWhile isDigit).isEmpty then [] else ds ++ '.' :: r.takeWhile isDigit := by
  have htake : (ds ++ '.' :: r).takeWhile isDigit = ds := by
    rw [List.takeWhile_append_of_pos hds, List.takeWhile_cons_of_neg (by decide), List.append_nil]
  have hdrop : (ds ++ '.' :: r).dropWhile isDigit = '.' :: r := by
    rw [List.dropWhile_append_of_pos hds, List.dropWhile_cons_of_neg (by decide)]
  simp only [mantissaPrefix, htake, hdrop]

theorem takeWhile_le_mantissaPrefix (cs : List Char) :
    (cs.takeWhile isDigit).length ≤ (mantissaPrefix cs).length := by
  unfold mantissaPrefix
  dsimp only
  split
  · split
    · rename_i h
      rw [Bool.and_eq_true, List.isEmpty_iff] at h
      exact Nat.le_of_eq (congrArg List.length h.1)
    · simp
  · exact Nat.le_refl _

theorem mantissaPrefix_longest (cs : List Char) : Longest Mantissa cs (mantissaPrefix cs) := by
  have hsound : mantissaPrefix cs <+: cs ∧ (mantissaPrefix cs ≠ [] → Mantissa (mantissaPrefix cs)) := by
    have hwhole := run_takeWhile isDigit cs
    have hcs : cs.takeWhile isDigit ++ cs.dropWhile isDigit = cs := List.takeWhile_append_dropWhile
    unfold mantissaPrefix
    dsimp only
    split
    · rename_i r hdrop
      rw [hdrop] at hcs
      split
      · exact ⟨List.nil_prefix, fun hne => absurd rfl hne⟩
      · rename_i hne
        rw [Bool.and_eq_true, List.isEmpty_iff, List.isEmpty_iff, Classical.not_and_iff_not_or_not] at hne
        refine ⟨?_, fun _ => .point hne hwhole (run_takeWhile isDigit r)⟩
        conv => rhs; rw [← hcs]
        refine (List.prefix_append_right_inj _).mpr (List.cons_prefix_cons.mpr ⟨rfl, ?_⟩)
        exact List.takeWhile_prefix isDigit
    · exact ⟨List.takeWhile_prefix isDigit, fun hne => .whole hne hwhole⟩
  refine ⟨hsound.1, hsound.2, ?_⟩
  · rintro u (⟨-, hds⟩ | ⟨hne, hds, hfs⟩) hu
    · exact Nat.le_trans ((takeWhile_longest isDigit cs).longest _ hds hu) (takeWhile_le_mantissaPrefix cs)
    · obtain ⟨r, rfl⟩ := hu
      rename_i ds fs
      have hle := (takeWhile_longest isDigit _).longest _ hfs (List.prefix_append _ r)
      rw [List.append_assoc, List.cons_append, mantissaPrefix_point hds, if_neg]
      · simpa using hle
      · rw [Bool.and_eq_true, List.isEmpty_iff, List.isEmpty_iff]
        rintro ⟨rfl, hnil⟩
        rcases hne with hne | hne
        · exact hne rfl
        · exact takeWhile_ne_nil hfs hne (List.prefix_append _ r) hnil

theorem Mantissa.isDigit_or (h : Mantissa u) : ∀ c ∈ u, isDigit c ∨ c = '.' := by
  cases h with
  | whole _ hds => exact fun c hc => .inl (hds c hc)
  | point _ hds hfs =>
    intro c hc
    rcases List.mem_append.mp hc with hc | hc
    · exact .inl (hds c hc)
    · rcases List.mem_cons.mp hc with rfl | hc
      · exact .inr rfl
      · exact .inl (hfs c hc)

theorem Mantissa.ne_nil (h : Mantissa u) : u ≠ [] := by
  cases h with
  | whole hne _ => exact hne
  | point _ _ _ => simp

/-- A mantissa before an exponent cannot be longer. -/
theorem Mantissa.eq_of_exponent {m x : List Char} (hm : Mantissa m) (hx : Exponent x) (hux : u ++ x <+: cs)
    (hmcs : m <+: cs) (hle : u.length ≤ m.length) : u = m := by
  obtain ⟨k, rfl⟩ := List.prefix_of_prefix_length_le ((List.prefix_append u x).trans hux) hmcs hle
  cases k with
  | nil => exact (List.append_nil u).symm
  | cons c k =>
    obtain ⟨hmark, -, -, -⟩ := hx
    obtain ⟨r, hr⟩ := hux
    obtain ⟨r', hr'⟩ := hmcs
    rw [List.append_assoc] at hr hr'
    have heq := List.append_cancel_left (hr.trans hr'.symm)
    have hc := hm.isDigit_or c (by simp)
    rw [← (List.cons.inj heq).1] at hc
    rcases hmark with rfl | rfl
    · exact absurd hc (by decide)
    · exact absurd hc (by decide)

theorem decimalPrefix_longest (cs : List Char) : Longest DecimalNumeral cs (decimalPrefix cs) := by
  have hm := mantissaPrefix_longest cs
  have hx := exponentPrefix_longest (cs.drop (mantissaPrefix cs).length)
  have hcs : mantissaPrefix cs ++ cs.drop (mantissaPrefix cs).length = cs := List.prefix_iff_eq_append.mp hm.starts
  unfold decimalPrefix
  dsimp only
  split
  · rename_i hnil
    rw [List.isEmpty_iff] at hnil
    rw [hnil] at hm
    refine .nil ?_
    rintro u (h | ⟨h, -⟩) hu
    · exact hm.not_starts h h.ne_nil hu
    · exact hm.not_starts h h.ne_nil ((List.prefix_append _ _).trans hu)
  · rename_i hne
    rw [List.isEmpty_iff] at hne
    refine ⟨?_, fun _ => ?_, ?_⟩
    · conv => rhs; rw [← hcs]
      exact (List.prefix_append_right_inj _).mpr hx.starts
    · by_cases hxn : exponentPrefix (cs.drop (mantissaPrefix cs).length) = []
      · rw [hxn, List.append_nil]
        exact .plain (hm.member hne)
      · exact .scaled (hm.member hne) (hx.member hxn)
    · rintro u (h | @⟨m, x, h, hexp⟩) hu
      · have := hm.longest u h hu
        rw [List.length_append]
        omega
      · have hmcs : m <+: cs := (List.prefix_append m x).trans hu
        have heq := (hm.member hne).eq_of_exponent hexp hu hm.starts (hm.longest m h hmcs)
        have hxcs : mantissaPrefix cs ++ x <+: mantissaPrefix cs ++ cs.drop (mantissaPrefix cs).length := by
          rw [hcs]
          exact heq ▸ hu
        have := hx.longest x hexp ((List.prefix_append_right_inj _).mp hxcs)
        rw [heq, List.length_append, List.length_append]
        omega

theorem namePrefix_longest (cs : List Char) : Longest NameText cs (namePrefix cs) := by
  unfold namePrefix
  split
  · rename_i c cs
    have hlongest := takeWhile_longest isNamePart cs
    split
    · rename_i hc
      refine ⟨List.cons_prefix_cons.mpr ⟨rfl, hlongest.starts⟩, fun _ => .mk hc (run_takeWhile isNamePart cs), ?_⟩
      rintro _ ⟨-, hcs⟩ hu
      have hle := hlongest.longest _ hcs (List.cons_prefix_cons.mp hu).2
      simpa using hle
    · rename_i hc
      refine .nil ?_
      rintro _ ⟨hc', -⟩ hu
      obtain ⟨rfl, -⟩ := List.cons_prefix_cons.mp hu
      exact hc hc'
  · refine .nil ?_
    rintro _ ⟨-, -⟩ hu
    exact absurd (List.prefix_nil.mp hu) (List.cons_ne_nil _ _)

/-- Longer symbols come first, so the first symbol of a text is the longest one. -/
theorem Symbol.first?_eq_some {s : Symbol} (h : Symbol.first? cs = some s) :
    s.chars <+: cs ∧ ∀ s' : Symbol, s'.chars <+: cs → s'.chars.length ≤ s.chars.length := by
  have hsorted : Symbol.all.Pairwise fun s s' => s'.chars.length ≤ s.chars.length := by decide
  obtain ⟨hs, before, behind, hall, hbefore⟩ := List.find?_eq_some_iff_append.mp h
  refine ⟨List.isPrefixOf_iff_prefix.mp hs, fun s' hs' => ?_⟩
  have hmem := s'.mem_all
  rw [hall] at hmem hsorted
  rcases List.mem_append.mp hmem with hmem | hmem
  · have hno := hbefore s' hmem
    rw [List.isPrefixOf_iff_prefix.mpr hs'] at hno
    cases hno
  · rcases List.mem_cons.mp hmem with rfl | hmem
    · exact Nat.le_refl _
    · exact (List.pairwise_cons.mp (List.pairwise_append.mp hsorted).2.1).1 s' hmem

theorem Symbol.first?_eq_none (h : Symbol.first? cs = none) (s : Symbol) : ¬ s.chars <+: cs := by
  intro hs
  have hno := List.find?_eq_none.mp h s s.mem_all
  rw [List.isPrefixOf_iff_prefix.mpr hs] at hno
  exact hno rfl

/-! ## Kinds of lexemes -/

/-- The kinds of lexemes. -/
inductive LexemeKind where
  | number
  | name
  | symbol

def Lexeme.kind : Lexeme → LexemeKind
  | .number _ => .number
  | .name _ => .name
  | .symbol _ => .symbol

/-- The kind of lexemes that a character can start. -/
def LexemeKind.ofStart (c : Char) : LexemeKind :=
  if isDigit c ∨ c = '.' then .number else if isNameStart c then .name else .symbol

theorem not_isDigit_of_isNameStart (h : isNameStart c) : ¬ isDigit c := by
  intro hd
  simp only [isNameStart, isDigit, Bool.or_eq_true, Bool.and_eq_true, decide_eq_true_eq] at h hd
  rcases h with ((⟨h, -⟩ | ⟨h, -⟩) | rfl) | rfl
  · exact absurd (Char.le_trans h hd.2) (by decide)
  · exact absurd (Char.le_trans h hd.2) (by decide)
  · exact absurd hd (by decide)
  · exact absurd hd (by decide)

theorem DecimalNumeral.start (h : DecimalNumeral text) : ∃ c cs, text = c :: cs ∧ (isDigit c ∨ c = '.') := by
  obtain ⟨m, r, hm, rfl⟩ : ∃ m r, Mantissa m ∧ text = m ++ r := by
    cases h with
    | plain h => exact ⟨text, [], h, (List.append_nil text).symm⟩
    | scaled h _ => exact ⟨_, _, h, rfl⟩
  obtain ⟨c, cs, rfl⟩ := List.exists_cons_of_ne_nil hm.ne_nil
  exact ⟨c, cs ++ r, rfl, hm.isDigit_or c List.mem_cons_self⟩

/-- The first character of a lexeme tells its kind. -/
theorem Spells.start (h : Spells l text) : ∃ c cs, text = c :: cs ∧ LexemeKind.ofStart c = l.kind := by
  cases h with
  | hex h =>
    obtain ⟨-, -, -⟩ := h
    exact ⟨_, _, rfl, rfl⟩
  | decimal h =>
    obtain ⟨c, cs, rfl, hc⟩ := h.start
    exact ⟨c, cs, rfl, if_pos hc⟩
  | name h =>
    obtain ⟨hc, -⟩ := h
    refine ⟨_, _, rfl, ?_⟩
    rw [LexemeKind.ofStart, if_neg, if_pos hc]
    · rfl
    · rintro (hd | rfl)
      · exact not_isDigit_of_isNameStart hc hd
      · cases hc
  | symbol s => cases s <;> exact ⟨_, _, rfl, rfl⟩

theorem Spells.ne_nil (h : Spells l text) : text ≠ [] := by
  obtain ⟨c, cs, rfl, -⟩ := h.start
  exact List.cons_ne_nil c cs

/-- Lexemes at the start of one text are of one kind. -/
theorem Spells.kind_eq (h : Spells l u) (h' : Spells l' v) (hu : u <+: cs) (hv : v <+: cs) : l.kind = l'.kind := by
  obtain ⟨c, u, rfl, hc⟩ := h.start
  obtain ⟨d, v, rfl, hd⟩ := h'.start
  obtain ⟨r, rfl⟩ := hu
  obtain ⟨rfl, -⟩ := List.cons_prefix_cons.mp hv
  exact hc.symm.trans hd

/-! ## The longest lexeme -/

/-- A hexadecimal numeral is longer than the decimal one at its start. -/
theorem HexNumeral.decimalPrefix_lt (h : HexNumeral u) (hu : u <+: cs) : (decimalPrefix cs).length < u.length := by
  obtain ⟨r, rfl⟩ := hu
  obtain @⟨x, ds, hmark, -, -⟩ := h
  have hone : decimalPrefix ('0' :: x :: (ds ++ r)) = ['0'] := by
    rcases hmark with rfl | rfl
    · rfl
    · rfl
  rw [List.cons_append, List.cons_append, hone]
  simp

/-- The longest lexeme of any class at the start of a text. -/
structure LongestLexeme (cs : List Char) (l : Lexeme) (text : List Char) : Prop where
  spells : Spells l text
  starts : text <+: cs
  longest : ∀ l' u, Spells l' u → u <+: cs → u.length ≤ text.length

theorem LongestLexeme.number {value : Double} (h : Spells (.number value) text) (hs : text <+: cs)
    (hhex : ∀ u, HexNumeral u → u <+: cs → u.length ≤ text.length)
    (hdecimal : ∀ u, DecimalNumeral u → u <+: cs → u.length ≤ text.length) :
    LongestLexeme cs (.number value) text := by
  refine ⟨h, hs, fun l' u hu hcs => ?_⟩
  have hkind := hu.kind_eq h hcs hs
  cases hu with
  | hex hu => exact hhex u hu hcs
  | decimal hu => exact hdecimal u hu hcs
  | name => cases hkind
  | symbol => cases hkind

theorem LongestLexeme.name (h : Longest NameText cs text) (hne : text ≠ []) :
    LongestLexeme cs (.name (String.ofList text)) text := by
  have hname := Spells.name (h.member hne)
  refine ⟨hname, h.starts, fun l' u hu hcs => ?_⟩
  have hkind := hu.kind_eq hname hcs h.starts
  cases hu with
  | hex => cases hkind
  | decimal => cases hkind
  | name hu => exact h.longest u hu hcs
  | symbol => cases hkind

theorem LongestLexeme.symbol {s : Symbol} (hs : s.chars <+: cs)
    (h : ∀ s' : Symbol, s'.chars <+: cs → s'.chars.length ≤ s.chars.length) :
    LongestLexeme cs (.symbol s) s.chars := by
  refine ⟨.symbol s, hs, fun l' u hu hcs => ?_⟩
  have hkind := hu.kind_eq (.symbol s) hcs hs
  cases hu with
  | hex => cases hkind
  | decimal => cases hkind
  | name => cases hkind
  | symbol s' => exact h s' hcs

/-- The first class that has a lexeme has the longest one of all. -/
theorem first?_eq_some (h : Lexeme.first? cs = some (l, text)) : LongestLexeme cs l text := by
  have hhex := hexPrefix_longest cs
  have hdecimal := decimalPrefix_longest cs
  simp only [Lexeme.first?, Bool.not_eq_true', List.isEmpty_eq_false_iff] at h
  split at h
  · rename_i hne
    cases h
    have hnumeral := hhex.member hne
    have hlt := hnumeral.decimalPrefix_lt hhex.starts
    refine .number (.hex hnumeral) hhex.starts hhex.longest fun u hu hcs => ?_
    exact Nat.le_trans (hdecimal.longest u hu hcs) (Nat.le_of_lt hlt)
  · rename_i hnohex
    rw [Classical.not_not] at hnohex
    split at h
    · rename_i hne
      cases h
      refine .number (.decimal (hdecimal.member hne)) hdecimal.starts (fun u hu hcs => ?_) hdecimal.longest
      exact absurd hcs ((hnohex ▸ hhex).not_starts hu (Spells.hex hu).ne_nil)
    · split at h
      · rename_i hne
        cases h
        exact .name (namePrefix_longest cs) hne
      · obtain ⟨s, hs, heq⟩ := Option.map_eq_some_iff.mp h
        cases heq
        have hsymbol := Symbol.first?_eq_some hs
        exact .symbol hsymbol.1 hsymbol.2

theorem first?_eq_none (h : Lexeme.first? cs = none) (hs : Spells l u) : ¬ u <+: cs := by
  simp only [Lexeme.first?, Bool.not_eq_true', List.isEmpty_eq_false_iff] at h
  split at h
  · cases h
  split at h
  · cases h
  split at h
  · cases h
  rename_i hnohex hnodecimal hnoname
  rw [Classical.not_not] at hnohex hnodecimal hnoname
  cases hs with
  | hex h => exact (hnohex ▸ hexPrefix_longest cs).not_starts h (Spells.hex h).ne_nil
  | decimal h => exact (hnodecimal ▸ decimalPrefix_longest cs).not_starts h (Spells.decimal h).ne_nil
  | name h => exact (hnoname ▸ namePrefix_longest cs).not_starts h (Spells.name h).ne_nil
  | symbol s => exact Symbol.first?_eq_none (Option.map_eq_none_iff.mp h) s

theorem Symbol.chars_inj {s s' : Symbol} (h : s.chars = s'.chars) : s = s' := by
  have hall : ∀ s ∈ Symbol.all, ∀ s' ∈ Symbol.all, s.chars = s'.chars → s = s' := by decide
  exact hall s s.mem_all s' s'.mem_all h

theorem HexNumeral.not_decimal (h : HexNumeral text) : ¬ DecimalNumeral text := by
  intro h'
  have hlt := h.decimalPrefix_lt List.prefix_rfl
  have hle := (decimalPrefix_longest text).longest text h' List.prefix_rfl
  omega

/-- A text is the text of one lexeme at most. -/
theorem Spells.unique (h : Spells l text) (h' : Spells l' text) : l = l' := by
  have hkind := h.kind_eq h' (List.prefix_rfl) (List.prefix_rfl)
  cases h with
  | hex h =>
    cases h' with
    | hex => rfl
    | decimal h' => exact absurd h' h.not_decimal
    | name => cases hkind
    | symbol => cases hkind
  | decimal h =>
    cases h' with
    | hex h' => exact absurd h h'.not_decimal
    | decimal => rfl
    | name => cases hkind
    | symbol => cases hkind
  | name =>
    cases h' with
    | hex => cases hkind
    | decimal => cases hkind
    | name => rfl
    | symbol => cases hkind
  | symbol s =>
    generalize htext : s.chars = text at h'
    cases h' with
    | hex => cases hkind
    | decimal => cases hkind
    | name => cases hkind
    | symbol s' => rw [Symbol.chars_inj htext]

/-- The scanner takes the longest lexeme. -/
theorem first?_eq_some_iff : Lexeme.first? cs = some (l, text) ↔ LongestLexeme cs l text := by
  refine ⟨first?_eq_some, fun h => ?_⟩
  cases hfirst : Lexeme.first? cs with
  | none => exact absurd h.starts (first?_eq_none hfirst h.spells)
  | some found =>
    obtain ⟨l', u⟩ := found
    have hu := first?_eq_some hfirst
    have hlength : text.length = u.length :=
      Nat.le_antisymm (hu.longest l text h.spells h.starts) (h.longest l' u hu.spells hu.starts)
    cases (List.prefix_of_prefix_length_le h.starts hu.starts (Nat.le_of_eq hlength)).eq_of_length hlength
    rw [h.spells.unique hu.spells]

end DotGrid
