import DotGrid.Proofs.Parser.Prefix
import DotGrid.Proofs.Scanner.Segmentation
import Mathlib.Data.List.Forall2

/-!
# Blanks between lexemes

A `Spacing` puts blanks around the texts of lexemes, between each two of them at least one. No lexeme has a blank in it
(`Spells.not_isBlank`), so each text is the longest lexeme at its place (`Spells.longest_before_blank`), and a spaced
text is scanned with one token for each lexeme (`Spacing.scan_source`). The parser reads the lexemes of tokens and not
their places (`parseAllWithin_placed`). So all spacings of the same texts have the same tree, or they are refused at the
same lexeme for the same reason (`spacing_insignificant`).
-/

namespace DotGrid

open Text

variable {c : Char} {l : Lexeme} {text rest gap : List Char} {ts ts' : List Token} {n : Nat}

/-! ## Lexemes before a blank -/

theorem not_isBlank_of_isHexDigit (h : isHexDigit c) : ¬ isBlank c := by
  by_cases hd : isDigit c
  · exact not_isBlank_of_isDigit hd
  · have hname : isNameStart c := by
      unfold isHexDigit valueIn? at h
      simp only [hd, Bool.false_eq_true, if_false] at h
      simp only [isNameStart, Bool.or_eq_true]
      split at h
      · rename_i hlow
        exact .inl (.inl (.inr hlow))
      · split at h
        · rename_i hhigh
          exact .inl (.inl (.inl hhigh))
        · cases h
    exact not_isBlank_of_isNameStart hname

theorem Mantissa.not_isBlank (h : Mantissa text) : ∀ c ∈ text, ¬ isBlank c := by
  intro c hc
  rcases h.isDigit_or c hc with hd | rfl
  · exact not_isBlank_of_isDigit hd
  · decide

theorem Exponent.not_isBlank (h : Exponent text) : ∀ c ∈ text, ¬ isBlank c := by
  obtain ⟨hmark, hsign, -, hds⟩ := h
  refine List.forall_mem_cons.mpr ⟨?_, fun c hc => ?_⟩
  · rcases hmark with rfl | rfl <;> decide
  · rcases List.mem_append.mp hc with hc | hc
    · rcases hsign with rfl | rfl | rfl
      · cases hc
      · rw [List.mem_singleton.mp hc]
        decide
      · rw [List.mem_singleton.mp hc]
        decide
    · exact not_isBlank_of_isDigit (hds c hc)

/-- No lexeme has a blank in it. -/
theorem Spells.not_isBlank (h : Spells l text) : ∀ c ∈ text, ¬ isBlank c := by
  cases h with
  | hex h =>
    obtain ⟨hmark, -, hds⟩ := h
    refine List.forall_mem_cons.mpr ⟨by decide, List.forall_mem_cons.mpr ⟨?_, fun c hc => ?_⟩⟩
    · rcases hmark with rfl | rfl <;> decide
    · exact not_isBlank_of_isHexDigit (hds c hc)
  | decimal h =>
    cases h with
    | plain hm => exact hm.not_isBlank
    | scaled hm hx => exact List.forall_mem_append.mpr ⟨hm.not_isBlank, hx.not_isBlank⟩
  | name h =>
    obtain ⟨hc, hcs⟩ := h
    refine List.forall_mem_cons.mpr ⟨not_isBlank_of_isNameStart hc, fun c hc => ?_⟩
    rcases Bool.or_eq_true_iff.mp (hcs c hc) with hc | hc
    · exact not_isBlank_of_isNameStart hc
    · exact not_isBlank_of_isDigit hc
  | symbol s =>
    have hall : s.chars.all (!isBlank ·) = true := by cases s <;> rfl
    exact fun c hc => by simpa using List.all_eq_true.mp hall c hc

/-- The text of a lexeme before a blank is the longest lexeme there. -/
theorem Spells.longest_before_blank (h : Spells l text) (hrest : ∀ c ∈ rest.head?, isBlank c) :
    LongestLexeme (text ++ rest) l text := by
  refine ⟨h, List.prefix_append text rest, fun l' u hu hprefix => Nat.le_of_not_lt fun hlt => ?_⟩
  obtain ⟨k, rfl⟩ := List.prefix_of_prefix_length_le (List.prefix_append text rest) hprefix (Nat.le_of_lt hlt)
  cases k with
  | nil => simp at hlt
  | cons c k =>
    -- the longer one would go on with the blank
    obtain ⟨r, hr⟩ := (List.prefix_append_right_inj text).mp hprefix
    have hblank : isBlank c := hrest c (by rw [← hr]; rfl)
    exact hu.not_isBlank c (by simp) hblank

/-! ## Spaced texts -/

/-- Texts with blanks around them: those before the first text, and each text with those behind it. Behind each text
but the last one there is a blank at least. -/
structure Spacing where
  lead : List Char
  words : List (List Char × List Char)
  lead_blank : Run isBlank lead
  blank : ∀ w ∈ words, Run isBlank w.2
  apart : ∀ w ∈ words.dropLast, w.2 ≠ []

namespace Spacing

variable {position : Nat} {words : List (List Char × List Char)} {ls : List Lexeme}

/-- Texts with the blanks behind them, after the blanks before the first one. -/
def joined : List Char → List (List Char × List Char) → List Char
  | gap, [] => gap
  | gap, (text, next) :: words => gap ++ (text ++ joined next words)

/-- The offsets of the texts, if the blanks before the first one have a given offset. -/
def offsetsFrom : Nat → List Char → List (List Char × List Char) → List Nat
  | _, _, [] => []
  | position, gap, (text, next) :: words =>
    (position + gap.length) :: offsetsFrom (position + gap.length + text.length) next words

/-- The texts that are spaced. -/
def texts (s : Spacing) : List (List Char) := s.words.map Prod.fst

/-- The source text of a spacing. -/
def source (s : Spacing) : String := String.ofList (joined s.lead s.words)

/-- The offsets of the texts. -/
def offsets (s : Spacing) : List Nat := offsetsFrom 0 s.lead s.words

/-- The tokens of a spacing: one for each lexeme, at its offset. -/
def tokens (s : Spacing) (ls : List Lexeme) : List Token := (ls.zip s.offsets).map fun p => ⟨p.1, p.2⟩

/-- The offset of one of the texts, or the end of the source text if there are no more. -/
def place (s : Spacing) (k : Nat) : Nat := s.offsets[k]?.getD s.source.length

theorem length_offsetsFrom (position : Nat) (gap : List Char) (words : List (List Char × List Char)) :
    (offsetsFrom position gap words).length = words.length := by
  induction words generalizing position gap with
  | nil => rfl
  | cons w words ih => rw [offsetsFrom, List.length_cons, ih, List.length_cons]

/-- At its offset stands each text. -/
theorem offsetsFrom_stand (position : Nat) (gap : List Char) (words : List (List Char × List Char)) :
    List.Forall₂ (fun text offset => position ≤ offset ∧ text <+: (joined gap words).drop (offset - position))
      (words.map Prod.fst) (offsetsFrom position gap words) := by
  induction words generalizing position gap with
  | nil => exact .nil
  | cons w words ih =>
    obtain ⟨text, next⟩ := w
    refine .cons ⟨Nat.le_add_right _ _, ?_⟩ ((ih _ next).imp fun t offset ⟨hle, hprefix⟩ => ⟨by omega, ?_⟩)
    · rw [Nat.add_sub_cancel_left, joined, List.drop_left]
      exact List.prefix_append _ _
    · have hlength : offset - position =
          (gap ++ text).length + (offset - (position + gap.length + text.length)) := by
        rw [List.length_append]
        omega
      rw [joined, ← List.append_assoc, hlength, List.drop_length_add_append]
      exact hprefix

/-- What is behind a text is nothing or starts with a blank. -/
theorem head?_joined (hgap : Run isBlank gap) (hne : words ≠ [] → gap ≠ []) :
    ∀ c ∈ (joined gap words).head?, isBlank c := by
  intro c hc
  cases gap with
  | cons d gap =>
    have hd : (joined (d :: gap) words).head? = some d := by cases words <;> rfl
    rw [hd] at hc
    exact Option.some_inj.mp hc ▸ hgap d List.mem_cons_self
  | nil =>
    cases words with
    | nil => cases hc
    | cons w words => exact absurd rfl (hne (List.cons_ne_nil _ _))

theorem segmented_joined (hgap : Run isBlank gap) (hblank : ∀ w ∈ words, Run isBlank w.2)
    (hapart : ∀ w ∈ words.dropLast, w.2 ≠ []) (h : List.Forall₂ Spells ls (words.map Prod.fst)) :
    Segmented position (joined gap words) ((ls.zip (offsetsFrom position gap words)).map fun p => ⟨p.1, p.2⟩) := by
  induction words generalizing position gap ls with
  | nil =>
    cases h
    exact .finish hgap
  | cons w words ih =>
    obtain ⟨text, next⟩ := w
    obtain ⟨hnext, hblank⟩ := List.forall_mem_cons.mp hblank
    cases h with
    | cons hl h =>
      have hapart' : ∀ w ∈ words.dropLast, w.2 ≠ [] := by
        intro w hw
        refine hapart w ?_
        cases words with
        | nil => cases hw
        | cons v words => exact List.mem_cons_of_mem _ hw
      have hne : words ≠ [] → next ≠ [] := by
        intro hwords
        refine hapart (text, next) ?_
        rw [List.dropLast_cons_of_ne_nil hwords]
        exact List.mem_cons_self
      exact .token hgap (hl.longest_before_blank (head?_joined hnext hne)) (ih hnext hblank hapart' h)

/-- A spaced text is scanned with one token for each lexeme. -/
theorem scan_source (s : Spacing) (h : List.Forall₂ Spells ls s.texts) :
    scan s.source = .ok (s.tokens ls) := by
  rw [scan, source, String.toList_ofList]
  exact (segmented_joined s.lead_blank s.blank s.apart h).scanFrom_eq

end Spacing

/-! ## The parser reads lexemes -/

/-- The tokens have the same lexemes. -/
def Coupling.placed : Coupling where
  ahead ts ts' := lexemes ts = lexemes ts'
  past _ := False
  lenient := False
  past_of_suffix _ h := h
  look := by
    intro ts ts' h
    have hhead := congrArg List.head? h
    have htail := congrArg List.tail h
    rw [List.head?_map, List.head?_map] at hhead
    rw [← List.map_tail, ← List.map_tail] at htail
    exact .inr ⟨hhead, htail⟩

theorem parseAllWithin_agree (n : Nat) (h : lexemes ts = lexemes ts') :
    Coupling.placed.Agree (parseAllWithin n ts) (parseAllWithin n ts') := by
  refine ((Coupling.Related.parse (c := .placed) n n .conditional (.inl rfl)).agree ts ts' h).andThen ?_ ?_
  · intro e rest rest' _ _ hrest
    have hrest : lexemes rest = lexemes rest' := hrest
    cases rest with
    | nil =>
      cases List.map_eq_nil_iff.mp hrest.symm
      exact .done rfl
    | cons t rest =>
      obtain ⟨position, us, rfl, hus⟩ := lexemes_eq_cons hrest.symm
      exact .stopped hrest
  · intro e rest
    split <;> exact List.suffix_rfl

/-- Tokens with the same lexemes have the same tree, or the parser stops at the same of them for the same reason. -/
theorem parseAllWithin_placed (n : Nat) (h : lexemes ts = lexemes ts') :
    (∃ e rest rest', parseAllWithin n ts = .done e rest ∧ parseAllWithin n ts' = .done e rest') ∨
      ∃ reason k, k ≤ ts.length ∧ parseAllWithin n ts = .stopped reason (ts.drop k) ∧
        parseAllWithin n ts' = .stopped reason (ts'.drop k) := by
  have hagree := parseAllWithin_agree n h
  have hsuffix := parseAllWithin_suffix n ts
  have hsuffix' := parseAllWithin_suffix n ts'
  have hlength : ts.length = ts'.length := by
    have := congrArg List.length h
    rwa [List.length_map, List.length_map] at this
  generalize parseAllWithin n ts = o at hagree hsuffix
  generalize parseAllWithin n ts' = o' at hagree hsuffix'
  cases hagree with
  | done hrest => exact .inl ⟨_, _, _, rfl, rfl⟩
  | @stopped reason rest rest' hrest =>
    have hrest : lexemes rest = lexemes rest' := hrest
    have hlength' : rest.length = rest'.length := by
      have := congrArg List.length hrest
      rwa [List.length_map, List.length_map] at this
    refine .inr ⟨reason, ts.length - rest.length, Nat.sub_le _ _, ?_, ?_⟩
    · exact congrArg _ (List.suffix_iff_eq_drop.mp hsuffix)
    · rw [hlength, hlength']
      exact congrArg _ (List.suffix_iff_eq_drop.mp hsuffix')
  | past h => exact h.elim
  | deep h => exact h.elim

theorem SyntaxFault.about_drop (complaint : Complaint) (endOffset : Nat) (ts : List Token) (k : Nat) :
    about complaint endOffset (ts.drop k) =
      .unexpected complaint (lexemes ts)[k]? ((ts.map Token.position)[k]?.getD endOffset) := by
  rw [List.getElem?_map, List.getElem?_map, ← List.head?_drop]
  cases ts.drop k <;> rfl

namespace Spacing

variable {ls : List Lexeme} (s : Spacing)

theorem length_offsets (h : List.Forall₂ Spells ls s.texts) : ls.length = s.offsets.length := by
  rw [h.length_eq, texts, List.length_map, offsets, length_offsetsFrom]

theorem lexemes_tokens (h : List.Forall₂ Spells ls s.texts) : lexemes (s.tokens ls) = ls := by
  rw [lexemes, tokens, List.map_map]
  exact List.map_fst_zip (Nat.le_of_eq (s.length_offsets h))

theorem positions_tokens (h : List.Forall₂ Spells ls s.texts) :
    (s.tokens ls).map Token.position = s.offsets := by
  rw [tokens, List.map_map]
  exact List.map_snd_zip (Nat.le_of_eq (s.length_offsets h).symm)

theorem offsets_stand : List.Forall₂ (fun text offset => text <+: s.source.toList.drop offset) s.texts s.offsets := by
  rw [source, String.toList_ofList]
  exact (offsetsFrom_stand 0 s.lead s.words).imp fun text offset ⟨_, hprefix⟩ => hprefix

/-- A stop at one of the lexemes is a fault at its place. -/
theorem fault_eq (h : List.Forall₂ Spells ls s.texts) (complaint : Complaint) (k : Nat) :
    SyntaxFault.about complaint s.source.length ((s.tokens ls).drop k) =
      .unexpected complaint ls[k]? (s.place k) := by
  rw [SyntaxFault.about_drop, s.lexemes_tokens h, s.positions_tokens h, place]

end Spacing

/-- **Blanks do not matter.** If each of some texts is a lexeme, then every spacing of them is scanned, with one token
for each text: the lexemes are the same for all spacings, and the tokens stand where the texts do. Either all spacings
have the same tree, or all are nested too deeply, or all of them are refused at the same lexeme or at the end, with
messages that differ in the column only. -/
theorem spacing_insignificant {texts : List (List Char)} (h : ∀ text ∈ texts, ∃ l, Spells l text) :
    ∃ ls : List Lexeme, List.Forall₂ Spells ls texts ∧
      (∀ s : Spacing, s.texts = texts → scan s.source = .ok (s.tokens ls) ∧ lexemes (s.tokens ls) = ls ∧
        (s.tokens ls).map Token.position = s.offsets ∧
        List.Forall₂ (fun text offset => text <+: s.source.toList.drop offset) texts s.offsets) ∧
      ((∃ e, ∀ s : Spacing, s.texts = texts → Expr.parse s.source = .ok e) ∨
        (∀ s : Spacing, s.texts = texts → Expr.parse s.source = .error .tooDeep) ∨
        ∃ k text, k ≤ texts.length ∧ ∀ s : Spacing, s.texts = texts → ∃ fault,
          Expr.parse s.source = .error (.incorrect fault) ∧ fault.position? = some (s.place k) ∧
            fault.message = text ++ " (at column " ++ Nat.repr (s.place k + 1) ++ ")") := by
  obtain ⟨ls, hls⟩ : ∃ ls : List Lexeme, List.Forall₂ Spells ls texts := by
    induction texts with
    | nil => exact ⟨[], .nil⟩
    | cons text texts ih =>
      obtain ⟨⟨l, hl⟩, htexts⟩ := List.forall_mem_cons.mp h
      obtain ⟨ls, hls⟩ := ih htexts
      exact ⟨l :: ls, .cons hl hls⟩
  -- all spacings are compared with the same lexemes without places
  let placeless : List Token := ls.map fun l => ⟨l, 0⟩
  have hspells : ∀ s : Spacing, s.texts = texts → List.Forall₂ Spells ls s.texts := fun s hs => hs ▸ hls
  have hparse : ∀ s : Spacing, s.texts = texts →
      Expr.parse s.source = (parseAll (s.tokens ls)).toExcept s.source.length := by
    intro s hs
    rw [Expr.parse, s.scan_source (hspells s hs)]
  have hplaced : ∀ s : Spacing, s.texts = texts → lexemes placeless = lexemes (s.tokens ls) := fun s hs =>
    (lexemes_placed ls).trans (s.lexemes_tokens (hspells s hs)).symm
  refine ⟨ls, hls, fun s hs => ⟨s.scan_source (hspells s hs), s.lexemes_tokens (hspells s hs),
    s.positions_tokens (hspells s hs), hs ▸ s.offsets_stand⟩, ?_⟩
  cases ho : parseAll placeless with
  | done e rest =>
    refine .inl ⟨e, fun s hs => ?_⟩
    rcases parseAllWithin_placed nestingLimit (hplaced s hs) with ⟨e', r, r', hd, hd'⟩ | ⟨reason, k, -, hd, -⟩
    · cases ho.symm.trans hd
      rw [hparse s hs, parseAll, hd']
      rfl
    · cases ho.symm.trans hd
  | stopped reason rest =>
    refine .inr ?_
    have hstop : ∀ s : Spacing, s.texts = texts → ∃ k, k ≤ placeless.length ∧ rest = placeless.drop k ∧
        parseAll (s.tokens ls) = .stopped reason ((s.tokens ls).drop k) := by
      intro s hs
      rcases parseAllWithin_placed nestingLimit (hplaced s hs) with ⟨e', r, r', hd, -⟩ | ⟨reason', k, hk, hd, hd'⟩
      · cases ho.symm.trans hd
      · cases ho.symm.trans hd
        exact ⟨k, hk, rfl, hd'⟩
    cases reason with
    | tooDeep =>
      refine .inl fun s hs => ?_
      obtain ⟨k, -, -, hd⟩ := hstop s hs
      rw [hparse s hs, hd]
      rfl
    | unexpected complaint =>
      have hcount : placeless.length = texts.length := (List.length_map _).trans hls.length_eq
      let fault : SyntaxFault := .unexpected complaint ls[placeless.length - rest.length]? 0
      refine .inr ⟨placeless.length - rest.length, fault.summary, by omega, fun s hs => ?_⟩
      obtain ⟨k, hk, hrest, hd⟩ := hstop s hs
      have hindex : placeless.length - rest.length = k := by
        rw [hrest, List.length_drop]
        omega
      rw [← hindex] at hd
      rw [hparse s hs, hd]
      exact ⟨_, rfl, by rw [s.fault_eq (hspells s hs)]; rfl, by rw [s.fault_eq (hspells s hs)]; rfl⟩

/-- A numeral that ends with a point stays apart from what would be its exponent, and is missing a parenthesis behind it
wherever it stands. -/
theorem spacing_insignificant_point :
    let texts : List (List Char) := [['('], ['1', '.'], ['e', '5']]
    ∃ s s' : Spacing, s.source = "( 1. e5" ∧ s'.source = "\t(\n1.  e5 " ∧ s.texts = texts ∧ s'.texts = texts ∧
      (∀ text ∈ texts, ∃ l, Spells l text) ∧ s.offsets = [0, 2, 5] ∧ s'.offsets = [1, 3, 7] ∧
      ∃ ls, scan s.source = .ok (s.tokens ls) ∧ scan s'.source = .ok (s'.tokens ls) := by
  intro texts
  have hblank : ∀ words : List (List Char × List Char), words.all (·.2.all isBlank) = true →
      ∀ w ∈ words, Run isBlank w.2 := fun words h w hw => List.all_eq_true.mp (List.all_eq_true.mp h w hw)
  let s : Spacing := ⟨[], [(['('], [' ']), (['1', '.'], [' ']), (['e', '5'], [])], nofun, hblank _ rfl, by decide⟩
  let s' : Spacing :=
    ⟨['\t'], [(['('], ['\n']), (['1', '.'], [' ', ' ']), (['e', '5'], [' '])], List.all_eq_true.mp rfl, hblank _ rfl,
      by decide⟩
  have htexts : ∀ text ∈ texts, ∃ l, Spells l text := by
    intro text htext
    simp only [texts, List.mem_cons, List.not_mem_nil, or_false] at htext
    rcases htext with rfl | rfl | rfl
    · exact ⟨_, .symbol .opening⟩
    · have hmantissa : Mantissa (['1'] ++ '.' :: []) :=
        .point (.inl (List.cons_ne_nil _ _)) (List.all_eq_true.mp rfl) nofun
      exact ⟨_, .decimal (.plain hmantissa)⟩
    · exact ⟨_, .name (.mk rfl (List.all_eq_true.mp rfl))⟩
  obtain ⟨ls, -, hscan, -⟩ := spacing_insignificant htexts
  exact ⟨s, s', rfl, rfl, rfl, rfl, htexts, rfl, rfl, ls, (hscan s rfl).1, (hscan s' rfl).1⟩

end DotGrid
