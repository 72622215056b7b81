import DotGrid.Syntax.Source
import DotGrid.Proofs.Scanner.Spelling

/-!
# Scanning is a segmentation

`Segmented position cs ts` says that a text is a sequence of blanks and lexemes, each of them the longest one at its
place, and that `ts` are the lexemes with their offsets. The scanner finds just that (`scanFrom_eq_ok_iff`): no
character is lost or read twice, and the offsets grow up to the length of the text (`scan_segmented`).
-/

namespace DotGrid

open Text

variable {c : Char} {cs gap text : List Char} {l : Lexeme} {position : Nat} {ts : List Token}

/-- A text, the first character of which has a given offset, and its tokens. -/
inductive Segmented : Nat → List Char → List Token → Prop
  | finish {position : Nat} {gap : List Char} : Run isBlank gap → Segmented position gap []
  | token {position : Nat} {gap text rest : List Char} {l : Lexeme} {ts : List Token} : Run isBlank gap →
      LongestLexeme (text ++ rest) l text → Segmented (position + gap.length + text.length) rest ts →
      Segmented position (gap ++ (text ++ rest)) (⟨l, position + gap.length⟩ :: ts)

/-! ## What the scanner finds -/

theorem Segmented.blank (hc : isBlank c) (h : Segmented (position + 1) cs ts) : Segmented position (c :: cs) ts := by
  cases h with
  | finish hgap => exact .finish (List.forall_mem_cons.mpr ⟨hc, hgap⟩)
  | @token _ gap text rest l ts hgap hl h =>
    have hlength : position + 1 + gap.length = position + (c :: gap).length := by rw [List.length_cons]; omega
    rw [hlength] at h ⊢
    exact .token (List.forall_mem_cons.mpr ⟨hc, hgap⟩) hl h

theorem scanFrom_blank (hc : isBlank c) (position : Nat) (cs : List Char) :
    scanFrom position (c :: cs) = scanFrom (position + 1) cs := by
  rw [scanFrom, if_pos hc]

theorem scanFrom_gap (hgap : Run isBlank gap) (position : Nat) (cs : List Char) :
    scanFrom position (gap ++ cs) = scanFrom (position + gap.length) cs := by
  induction gap generalizing position with
  | nil => rfl
  | cons c gap ih =>
    obtain ⟨hc, hgap⟩ := List.forall_mem_cons.mp hgap
    rw [List.cons_append, scanFrom_blank hc, ih hgap, List.length_cons]
    congr 1
    omega

/-- The visible characters of the basic alphabet are no blanks. -/
theorem not_isBlank_of_le (h : '!' ≤ c) (h' : c ≤ '~') : ¬ isBlank c := by
  have hlow : 0x21 ≤ c.toNat := UInt32.le_iff_toNat_le.mp h
  have hhigh : c.toNat ≤ 0x7e := UInt32.le_iff_toNat_le.mp h'
  simp [isBlank, blanks]
  omega

theorem not_isBlank_of_isDigit (h : isDigit c) : ¬ isBlank c := by
  simp only [isDigit, Bool.and_eq_true, decide_eq_true_eq] at h
  exact not_isBlank_of_le (Char.le_trans (by decide) h.1) (Char.le_trans h.2 (by decide))

theorem not_isBlank_of_isNameStart (h : isNameStart c) : ¬ isBlank c := by
  simp only [isNameStart, Bool.or_eq_true, Bool.and_eq_true, decide_eq_true_eq] at h
  rcases h with ((⟨h, h'⟩ | ⟨h, h'⟩) | rfl) | rfl
  · exact not_isBlank_of_le (Char.le_trans (by decide) h) (Char.le_trans h' (by decide))
  · exact not_isBlank_of_le (Char.le_trans (by decide) h) (Char.le_trans h' (by decide))
  · decide
  · decide

/-- No lexeme starts with a blank. -/
theorem not_isBlank_of_spells (h : Spells l (c :: cs)) : ¬ isBlank c := by
  generalize htext : c :: cs = text at h
  cases h with
  | hex h =>
    obtain ⟨-, -, -⟩ := h
    cases htext
    decide
  | decimal h =>
    obtain ⟨d, ds, rfl, hd⟩ := h.start
    cases htext
    rcases hd with hd | rfl
    · exact not_isBlank_of_isDigit hd
    · decide
  | name h =>
    obtain ⟨hd, -⟩ := h
    cases htext
    exact not_isBlank_of_isNameStart hd
  | symbol s => cases s <;> cases htext <;> decide

theorem scanFrom_cons (position : Nat) (hc : ¬ isBlank c) (hfirst : Lexeme.first? (c :: cs) = some (l, text))
    (hrest : scanFrom (position + text.length) (cs.drop (text.length - 1)) = .ok ts) :
    scanFrom position (c :: cs) = .ok (⟨l, position⟩ :: ts) := by
  rw [scanFrom, if_neg hc]
  simp only [hfirst, hrest]

theorem Segmented.scanFrom_eq (h : Segmented position cs ts) : scanFrom position cs = .ok ts := by
  induction h with
  | @finish position gap hgap =>
    rw [← List.append_nil gap, scanFrom_gap hgap, scanFrom]
  | token hgap hl _ ih =>
    have hfirst := first?_eq_some_iff.mpr hl
    obtain ⟨c, text, rfl, -⟩ := hl.spells.start
    rw [List.cons_append] at hfirst
    rw [scanFrom_gap hgap, List.cons_append]
    refine scanFrom_cons _ (not_isBlank_of_spells hl.spells) hfirst ?_
    rwa [List.length_cons, Nat.add_sub_cancel, List.drop_left]

theorem segmented_of_scanFrom (h : scanFrom position cs = .ok ts) : Segmented position cs ts := by
  fun_induction scanFrom position cs generalizing ts with
  | case1 position =>
    cases h
    exact .finish nofun
  | case2 position c cs hc ih => exact (ih h).blank hc
  | case3 position c cs hc hfirst => cases h
  | case4 position c cs hc l text hfirst tokens hscan ih =>
    cases h
    have hl := first?_eq_some hfirst
    obtain ⟨rest, hrest⟩ := hl.starts
    obtain ⟨d, text, rfl, -⟩ := hl.spells.start
    rw [List.cons_append] at hrest
    obtain ⟨rfl, rfl⟩ := List.cons.inj hrest
    have hdrop : (text ++ rest).drop ((d :: text).length - 1) = rest := List.drop_left
    have htail := ih hscan
    rw [hdrop] at htail
    exact @Segmented.token position [] (d :: text) rest l tokens nofun hl htail
  | case5 position c cs hc l text hfirst stray hscan ih => cases h

theorem scanFrom_eq_ok_iff : scanFrom position cs = .ok ts ↔ Segmented position cs ts :=
  ⟨segmented_of_scanFrom, Segmented.scanFrom_eq⟩

/-! ## What a segmentation says of each token -/

namespace Segmented

/-- Offsets grow, and the last one is before the end of the text. -/
theorem positions (h : Segmented position cs ts) :
    (ts.map Token.position ++ [position + cs.length]).Pairwise (· < ·) ∧
      ∀ q ∈ ts.map Token.position ++ [position + cs.length], position ≤ q := by
  induction h with
  | finish hgap => simp
  | @token position gap text rest l ts hgap hl _ ih =>
    obtain ⟨hsorted, hle⟩ := ih
    have hpos : 0 < text.length := List.length_pos_iff.mpr hl.spells.ne_nil
    have hend : position + (gap ++ (text ++ rest)).length = position + gap.length + text.length + rest.length := by
      simp only [List.length_append]
      omega
    rw [hend, List.map_cons, List.cons_append]
    refine ⟨List.pairwise_cons.mpr ⟨fun q hq => ?_, hsorted⟩, List.forall_mem_cons.mpr ⟨?_, fun q hq => ?_⟩⟩
    · have := hle q hq
      show position + gap.length < q
      omega
    · exact Nat.le_add_right _ _
    · have := hle q hq
      omega

/-- At the offset of each token stands its lexeme, the longest one there. -/
theorem longest (h : Segmented position cs ts) :
    ∀ t ∈ ts, ∃ text, position ≤ t.position ∧ LongestLexeme (cs.drop (t.position - position)) t.lexeme text := by
  induction h with
  | finish _ => exact nofun
  | @token position gap text rest l ts _ hl _ ih =>
    refine List.forall_mem_cons.mpr ⟨⟨text, Nat.le_add_right _ _, ?_⟩, fun t ht => ?_⟩
    · rw [Nat.add_sub_cancel_left, List.drop_left]
      exact hl
    · obtain ⟨u, hle, hu⟩ := ih t ht
      have hlength : t.position - position =
          (gap ++ text).length + (t.position - (position + gap.length + text.length)) := by
        rw [List.length_append]
        omega
      refine ⟨u, by omega, ?_⟩
      rw [hlength, ← List.append_assoc, List.drop_length_add_append]
      exact hu

end Segmented

/-- **Scanning is a segmentation with longest lexemes.** A text that is scanned is the sequence of its blanks and the
lexemes of its tokens. Each token stands at its offset and has the longest lexeme of any class there. The offsets grow,
and the end of the tokens is the end of the text. -/
theorem scan_segmented {source : String} {ts : List Token} (h : scan source = .ok ts) :
    Segmented 0 source.toList ts ∧
      (∀ t ∈ ts, ∃ text, LongestLexeme (source.toList.drop t.position) t.lexeme text) ∧
      (ts.map Token.position ++ [source.length]).Pairwise (· < ·) ∧
      Cursor.ofSource source = .ok ⟨ts, ts, source.length⟩ := by
  have hs : Segmented 0 source.toList ts := segmented_of_scanFrom h
  refine ⟨hs, fun t ht => ?_, ?_, ?_⟩
  · obtain ⟨text, -, hl⟩ := hs.longest t ht
    exact ⟨text, hl⟩
  · have hsorted := hs.positions.1
    rwa [Nat.zero_add, String.length_toList] at hsorted
  · rw [Cursor.ofSource, h]

/-- A hexadecimal numeral, the symbols of three and of one character, and a numeral whose point has no digits behind it
before a mark that is no exponent. -/
theorem scan_segmented_numerals :
    let source := " 0x1F>>>>1.e "
    let ts : List Token :=
      [⟨.number (hexValue ['0', 'x', '1', 'F']), 1⟩, ⟨.symbol .unsignedRight, 5⟩, ⟨.symbol .greater, 8⟩,
        ⟨.number (decimalValue ['1', '.']), 9⟩, ⟨.name "e", 11⟩]
    scan source = .ok ts ∧ Segmented 0 source.toList ts := by
  intro source ts
  have hscan : scan source = .ok ts := by
    have htext : source.toList = [' ', '0', 'x', '1', 'F', '>', '>', '>', '>', '1', '.', 'e', ' '] := by simp [source]
    rw [scan, htext, scanFrom_blank rfl]
    refine scanFrom_cons 1 (by decide) rfl ?_
    refine scanFrom_cons 5 (by decide) rfl ?_
    refine scanFrom_cons 8 (by decide) rfl ?_
    refine scanFrom_cons 9 (by decide) rfl ?_
    refine scanFrom_cons 11 (by decide) rfl ?_
    have hgap : Run isBlank [' '] := List.forall_mem_singleton.mpr rfl
    exact (Segmented.finish hgap).scanFrom_eq
  exact ⟨hscan, (scan_segmented hscan).1⟩

end DotGrid
