import DotGrid.Proofs.Decimal.Shortest
import DotGrid.Proofs.Scanner.Literals
import DotGrid.Proofs.Text.Numeral
import DotGrid.Value.Number

/-!
# The text of a number reads back

Digits of which the first one stands at some place denote a number (`placedValue`). Both layouts of a decimal are read
with this number (`readsAs_positional`, `readsAs_scientific`), so what is written has the value of the decimal
(`readsAs_write`). As the shortest decimal reads back, so does the text of every double
(`Double.parse?_text`), and so does the text of every number (`Number.parse?_text`): numbers with the same text are
the same (`Number.text_injective`).
-/

namespace DotGrid

open Text

variable {cs ds : List Char} {d : Decimal}

/-! ## Digits -/

theorem isDigit_eq (c : Char) : isDigit c = c.isDigit := by
  simp only [isDigit, Char.isDigit, Char.le_def, ge_iff_le]

theorem run_toDigits (n : Nat) : Run isDigit (Nat.toDigits 10 n) := by
  intro c hc
  rw [isDigit_eq]
  exact Nat.isDigit_of_mem_toDigits (by decide) (by decide) hc

theorem run_zeros (n : Nat) : Run isDigit (List.replicate n '0') := by
  intro c hc
  rw [List.eq_of_mem_replicate hc]
  rfl

theorem numeral_ten_zeros (n : Nat) : numeral 10 (List.replicate n '0') = 0 := numeral_zeros (by decide) n

theorem numeral_ten_toDigits (n : Nat) : numeral 10 (Nat.toDigits 10 n) = n :=
  numeral_toDigits (by decide) (by decide) n

/-- The zeros at the end of digits are left out. -/
theorem exists_zeros (cs : List Char) :
    ∃ k, cs = (cs.reverse.dropWhile (· = '0')).reverse ++ List.replicate k '0' := by
  have hsplit := List.takeWhile_append_dropWhile (p := (· = '0')) (l := cs.reverse)
  have hzeros : cs.reverse.takeWhile (· = '0') = List.replicate (cs.reverse.takeWhile (· = '0')).length '0' := by
    refine List.eq_replicate_of_mem fun c hc => ?_
    simpa using run_takeWhile (· = '0') _ c hc
  refine ⟨(cs.reverse.takeWhile (· = '0')).length, ?_⟩
  rw [← List.reverse_inj, List.reverse_append, List.reverse_reverse, List.reverse_replicate, ← hzeros, hsplit]

/-! ## Layouts -/

/-- The number that digits denote if the first of them stands at the place of `10^place`. -/
def placedValue (ds : List Char) (place : ℤ) : ℚ := numeral 10 ds * 10 ^ (place + 1 - ds.length)

/-- A text that is read as a decimal of some value. -/
def ReadsAs (cs : List Char) (q : ℚ) : Prop := ∃ d, Decimal.parse? cs = some d ∧ d.value = q

/-- Digits around a point denote the number of all of them, made smaller by those behind the point. -/
theorem readsAs_point {fs : List Char} (hne : ds ≠ [] ∨ fs ≠ []) (hds : Run isDigit ds) (hfs : Run isDigit fs) :
    ReadsAs (ds ++ '.' :: fs) (numeral 10 (ds ++ fs) * 10 ^ (-fs.length : ℤ)) := by
  have hparse : Decimal.parse? (ds ++ '.' :: (fs ++ [])) = some ⟨numeral 10 (ds ++ fs), 0 - fs.length⟩ :=
    parse?_point (.inl rfl) rfl hne hds hfs
  rw [List.append_nil, Int.zero_sub] at hparse
  exact ⟨_, hparse, rfl⟩

section

variable (hds : Run isDigit ds) (hne : ds ≠ [])
include hds

theorem readsAs_positional (place : ℤ) : ReadsAs (NumberLayout.positional ds place) (placedValue ds place) := by
  have hzero : numeral 10 ['0'] = 0 := rfl
  simp only [NumberLayout.positional]
  split
  · generalize hzeros : (-place - 1).toNat = k
    have hexponent : place + 1 - ds.length = -(List.replicate k '0' ++ ds).length := by
      rw [List.length_append, List.length_replicate]
      omega
    have hdigits : numeral 10 ds = numeral 10 (['0'] ++ (List.replicate k '0' ++ ds)) := by
      rw [numeral_append, numeral_append, numeral_ten_zeros, hzero]
      omega
    rw [placedValue, hexponent, hdigits]
    exact readsAs_point (.inl (List.cons_ne_nil _ _)) (List.forall_mem_singleton.mpr rfl)
      (List.forall_mem_append.mpr ⟨run_zeros k, hds⟩)
  · generalize hwhole : place.toNat + 1 = whole
    by_cases hlength : ds.length ≤ whole
    · -- the point stands behind all digits
      rw [List.take_of_length_le hlength, List.drop_eq_nil_of_le hlength]
      generalize hzeros : whole - ds.length = k
      have hvalue : placedValue ds place = numeral 10 (ds ++ List.replicate k '0' ++ ['0']) * 10 ^ (-1 : ℤ) := by
        have hexponent : place + 1 - ds.length = k := by omega
        have hdigits : numeral 10 (ds ++ List.replicate k '0' ++ ['0']) = numeral 10 ds * 10 ^ k * 10 := by
          rw [numeral_append, numeral_append, numeral_ten_zeros, hzero, List.length_replicate, List.length_singleton,
            Nat.add_zero, Nat.add_zero, Nat.pow_one]
        rw [placedValue, hexponent, hdigits, zpow_natCast]
        push_cast
        rw [zpow_neg_one, mul_inv_cancel_right₀ (by norm_num)]
      rw [hvalue]
      exact readsAs_point (.inr (List.cons_ne_nil _ _)) (List.forall_mem_append.mpr ⟨hds, run_zeros k⟩)
        (List.forall_mem_singleton.mpr rfl)
    · -- the point stands between the digits
      have hdrop : ds.drop whole ≠ [] := by
        rw [Ne, List.drop_eq_nil_iff]
        exact hlength
      have hzeros : whole - ds.length = 0 := by omega
      have hexponent : place + 1 - ds.length = -(ds.drop whole).length := by
        rw [List.length_drop]
        omega
      have hvalue : placedValue ds place =
          numeral 10 (ds.take whole ++ ds.drop whole) * 10 ^ (-(ds.drop whole).length : ℤ) := by
        rw [placedValue, hexponent, List.take_append_drop]
      rw [hvalue, hzeros, List.replicate_zero, List.append_nil, if_neg (by simpa using hdrop)]
      exact readsAs_point (.inr hdrop) (fun c hc => hds c (List.mem_of_mem_take hc))
        fun c hc => hds c (List.mem_of_mem_drop hc)

include hne in
theorem readsAs_scientific (layout : NumberLayout) (place : ℤ) :
    ReadsAs (layout.scientific ds place) (placedValue ds place) := by
  obtain ⟨c, fs, rfl⟩ := List.exists_cons_of_ne_nil hne
  obtain ⟨hc, hfs⟩ := List.forall_mem_cons.mp hds
  generalize hexponent : NumberLayout.padded layout.exponentDigits (Nat.toDigits 10 place.natAbs) = es
  have hes : Run isDigit es := by
    rw [← hexponent]
    exact List.forall_mem_append.mpr ⟨run_zeros _, run_toDigits _⟩
  have hes_ne : es ≠ [] := by
    rw [← hexponent]
    exact List.append_ne_nil_of_right_ne_nil _ Nat.toDigits_ne_nil
  have hnumeral : numeral 10 es = place.natAbs := by
    rw [← hexponent, NumberLayout.padded, numeral_append, numeral_ten_zeros, Nat.zero_mul, Nat.zero_add,
      numeral_ten_toDigits]
  have hsign : [if place < 0 then '-' else '+'] = [] ∨ [if place < 0 then '-' else '+'] = ['+'] ∨
      [if place < 0 then '-' else '+'] = ['-'] := by
    split
    · exact .inr (.inr rfl)
    · exact .inr (.inl rfl)
  have hscaling : Scaling ('e' :: ([if place < 0 then '-' else '+'] ++ es)) := .inr (.mk (.inl rfl) hsign hes_ne hes)
  have hn : exponentPart? ('e' :: ([if place < 0 then '-' else '+'] ++ es)) = some place := by
    rw [exponentPart?_append (.inl rfl) hsign hes_ne hes, hnumeral]
    congr 1
    by_cases hplace : place < 0
    · simp only [if_pos hplace]
      rw [if_pos trivial]
      omega
    · simp only [if_neg hplace]
      rw [if_neg (by decide)]
      omega
  simp only [NumberLayout.scientific, hexponent]
  cases fs with
  | nil =>
    have hparse : Decimal.parse? ([c] ++ 'e' :: ([if place < 0 then '-' else '+'] ++ es)) = some _ :=
      parse?_whole hscaling hn (List.cons_ne_nil _ _) hds
    refine ⟨_, hparse, ?_⟩
    rw [Decimal.value, placedValue, List.length_singleton, Nat.cast_one, add_sub_cancel_right]
  | cons f fs =>
    have hparse : Decimal.parse?
        ([c] ++ '.' :: ((f :: fs) ++ 'e' :: ([if place < 0 then '-' else '+'] ++ es))) = some _ :=
      parse?_point hscaling hn (.inl (List.cons_ne_nil _ _)) (List.forall_mem_singleton.mpr hc) hfs
    refine ⟨_, hparse, ?_⟩
    have hplace : place - ((f :: fs).length : ℤ) = place + 1 - ([c] ++ f :: fs).length := by
      rw [List.length_append, List.length_singleton]
      omega
    rw [Decimal.value, hplace]
    rfl

end

namespace Decimal

/-- The digits of a decimal without the zeros at their end. -/
def significant (d : Decimal) : List Char := ((Nat.toDigits 10 d.digits).reverse.dropWhile (· = '0')).reverse

/-- The exponent of the place of the first digit. -/
def firstPlace (d : Decimal) : ℤ := d.exponent + (Nat.toDigits 10 d.digits).length - 1

theorem write_eq (layout : NumberLayout) (d : Decimal) : layout.write d =
    if layout.positionalFrom ≤ d.firstPlace ∧ d.firstPlace < layout.positionalBelow then
      NumberLayout.positional d.significant d.firstPlace
    else layout.scientific d.significant d.firstPlace := rfl

theorem run_significant (d : Decimal) : Run isDigit d.significant := by
  obtain ⟨k, hk⟩ := exists_zeros (Nat.toDigits 10 d.digits)
  exact fun c hc => run_toDigits d.digits c (hk ▸ List.mem_append_left _ hc)

theorem placedValue_significant (d : Decimal) : placedValue d.significant d.firstPlace = d.value := by
  obtain ⟨k, hk⟩ := exists_zeros (Nat.toDigits 10 d.digits)
  have hk : Nat.toDigits 10 d.digits = d.significant ++ List.replicate k '0' := hk
  have hdigits : d.digits = numeral 10 d.significant * 10 ^ k := by
    rw [← numeral_ten_toDigits d.digits, hk, numeral_append, numeral_ten_zeros, List.length_replicate, Nat.add_zero]
  have hexponent : d.firstPlace + 1 - d.significant.length = k + d.exponent := by
    rw [firstPlace, hk, List.length_append, List.length_replicate]
    push_cast
    ring
  rw [placedValue, value, hexponent, hdigits, zpow_add₀ (by norm_num), zpow_natCast, ← mul_assoc]
  push_cast
  rfl

theorem significant_ne_nil (h : d.digits ≠ 0) : d.significant ≠ [] := by
  obtain ⟨k, hk⟩ := exists_zeros (Nat.toDigits 10 d.digits)
  intro hnil
  have hk : Nat.toDigits 10 d.digits = d.significant ++ List.replicate k '0' := hk
  rw [hnil, List.nil_append] at hk
  exact h (by rw [← numeral_ten_toDigits d.digits, hk, numeral_ten_zeros])

end Decimal

/-- What is written of a decimal is read with its value. -/
theorem readsAs_write (layout : NumberLayout) (h : d.digits ≠ 0) : ReadsAs (layout.write d) d.value := by
  rw [Decimal.write_eq, ← d.placedValue_significant]
  split
  · exact readsAs_positional d.run_significant d.firstPlace
  · exact readsAs_scientific d.run_significant (Decimal.significant_ne_nil h) layout d.firstPlace

/-! ## Characters of a numeral -/

/-- The characters that are no digit and may stand in the text of a finite double. -/
def marks : List Char := ['.', 'e', '+', '-']

/-- Tells the characters that may stand in the text of a finite double. -/
def isPlain (c : Char) : Bool := isDigit c || marks.contains c

theorem isPlain_of_isDigit {c : Char} (h : isDigit c = true) : isPlain c = true := by rw [isPlain, h, Bool.true_or]

theorem run_plain (h : Run isDigit cs) : Run isPlain cs := fun c hc => isPlain_of_isDigit (h c hc)

/-- The ten digits. -/
def digits : List Char := ['0', '1', '2', '3', '4', '5', '6', '7', '8', '9']

theorem mem_of_isDigit {c : Char} (h : isDigit c = true) : c ∈ digits := by
  have hall : ∀ n < 58, 48 ≤ n → Char.ofNat n ∈ digits := by decide
  simp only [isDigit, Bool.and_eq_true, decide_eq_true_eq] at h
  have hlow : 48 ≤ c.toNat := h.1
  have hhigh : c.toNat ≤ 57 := h.2
  rw [← Char.ofNat_toNat c]
  exact hall c.toNat (by omega) hlow

/-- A plain character is not changed when a number is read, and it is no padding and no low line. -/
theorem isPlain_read {c : Char} (h : isPlain c = true) : plainDigit c = c ∧ isPadding c = false ∧ c ≠ '_' := by
  have hall : (digits ++ marks).all (fun c => plainDigit c = c ∧ isPadding c = false ∧ c ≠ '_') = true := by decide
  refine of_decide_eq_true (List.all_eq_true.mp hall c (List.mem_append.mpr ?_))
  simp only [isPlain, Bool.or_eq_true] at h
  exact h.imp mem_of_isDigit (by simp)

/-- Plain characters with a digit in front. -/
structure IsNumeral (cs : List Char) : Prop where
  starts : ∃ c r, cs = c :: r ∧ isDigit c = true
  plain : Run isPlain cs

theorem isNumeral_of_digits (hds : Run isDigit ds) (hne : ds ≠ []) (hcs : Run isPlain cs) : IsNumeral (ds ++ cs) := by
  obtain ⟨d, ds, rfl⟩ := List.exists_cons_of_ne_nil hne
  exact ⟨⟨d, _, rfl, hds d List.mem_cons_self⟩, List.forall_mem_append.mpr ⟨run_plain hds, hcs⟩⟩

theorem trim_plain (h : Run isPlain cs) : trim cs = cs := by
  have hdrop : ∀ l : List Char, Run isPlain l → l.dropWhile isPadding = l := by
    intro l hl
    cases l with
    | nil => rfl
    | cons c l => exact List.dropWhile_cons_of_neg (by simp [(isPlain_read (hl c List.mem_cons_self)).2.1])
  have hreverse : Run isPlain cs.reverse := fun c hc => h c (List.mem_reverse.mp hc)
  rw [trim, hdrop cs h, hdrop _ hreverse, List.reverse_reverse]

theorem ungrouped?_plain (p : Char → Bool) (h : Run isPlain cs) : ungrouped? p cs = some cs := by
  induction cs with
  | nil => rfl
  | cons c cs ih =>
    obtain ⟨hc, hcs⟩ := List.forall_mem_cons.mp h
    unfold ungrouped?
    split
    · rename_i heq
      cases heq
    · rename_i heq
      exact absurd (List.cons.inj heq).1 (isPlain_read hc).2.2
    · rename_i heq
      obtain ⟨-, rfl⟩ := List.cons.inj heq
      exact absurd rfl (isPlain_read (hcs '_' List.mem_cons_self)).2.2
    · rename_i heq
      obtain ⟨rfl, rfl⟩ := List.cons.inj heq
      rw [ih hcs, Option.map_some]

/-- A numeral is read with a minus in front or without one. -/
theorem userNumeral_numeral (negative : Bool) (h : IsNumeral cs) :
    userNumeral (String.ofList (if negative then '-' :: cs else cs)) = (negative, cs) := by
  have hplain : Run isPlain (if negative then '-' :: cs else cs) := by
    cases negative with
    | false => exact h.plain
    | true => exact List.forall_mem_cons.mpr ⟨rfl, h.plain⟩
  have hsame : ∀ l : List Char, Run isPlain l → l.map plainDigit = l := fun l hl =>
    (List.map_congr_left fun c hc => (isPlain_read (hl c hc)).1).trans (List.map_id l)
  rw [userNumeral, String.toList_ofList, trim_plain hplain, hsame _ hplain]
  cases negative with
  | true => rfl
  | false =>
    obtain ⟨c, r, rfl, hc⟩ := h.starts
    exact splitSign_cons hc r

theorem Double.parse?_numeral (negative : Bool) (h : IsNumeral cs) (hd : Decimal.parse? cs = some d) :
    Double.parse? (String.ofList (if negative then '-' :: cs else cs)) = some (ofDecimal negative d) := by
  have hdigits : digits.all (fun c => c.toLower ≠ 'i' ∧ c.toLower ≠ 'n') = true := by decide
  -- a word would start with a letter
  have hword : ∀ w : String, w.toList.head? = some 'i' ∨ w.toList.head? = some 'n' →
      cs.map Char.toLower ≠ w.toList := by
    rintro w hw heq
    obtain ⟨c, r, rfl, hc⟩ := h.starts
    rw [← heq, List.map_cons, List.head?_cons, Option.some_inj, Option.some_inj] at hw
    obtain ⟨hi, hn⟩ := of_decide_eq_true (List.all_eq_true.mp hdigits c (mem_of_isDigit hc))
    exact hw.elim hi hn
  have hinf := hword "inf" (.inl rfl)
  have hinfinity := hword "infinity" (.inl rfl)
  have hnan := hword "nan" (.inr rfl)
  unfold Double.parse?
  rw [userNumeral_numeral negative h]
  simp only [ungrouped?_plain _ h.plain, Option.bind_eq_bind, Option.bind_some]
  rw [if_neg (not_or.mpr ⟨hinf, hinfinity⟩), if_neg hnan, hd, Option.map_some]

/-! ## Texts of numbers -/

section

variable (hds : Run isDigit ds) (hne : ds ≠ [])
include hds hne

theorem isNumeral_positional (place : ℤ) : IsNumeral (NumberLayout.positional ds place) := by
  simp only [NumberLayout.positional]
  split
  · have hfraction : Run isPlain (List.replicate (-place - 1).toNat '0' ++ ds) :=
      run_plain (List.forall_mem_append.mpr ⟨run_zeros _, hds⟩)
    exact isNumeral_of_digits (List.forall_mem_singleton.mpr rfl) (List.cons_ne_nil _ _)
      (List.forall_mem_cons.mpr ⟨rfl, hfraction⟩)
  · have hfraction :
        Run isPlain (if (ds.drop (place.toNat + 1)).isEmpty then ['0'] else ds.drop (place.toNat + 1)) := by
      split
      · exact List.forall_mem_singleton.mpr rfl
      · exact run_plain fun c hc => hds c (List.mem_of_mem_drop hc)
    rw [List.append_assoc]
    refine isNumeral_of_digits (fun c hc => hds c (List.mem_of_mem_take hc)) ?_ ?_
    · obtain ⟨d, ds, rfl⟩ := List.exists_cons_of_ne_nil hne
      exact List.cons_ne_nil _ _
    · exact List.forall_mem_append.mpr ⟨run_plain (run_zeros _), List.forall_mem_cons.mpr ⟨rfl, hfraction⟩⟩

theorem isNumeral_scientific (layout : NumberLayout) (place : ℤ) : IsNumeral (layout.scientific ds place) := by
  obtain ⟨c, fs, rfl⟩ := List.exists_cons_of_ne_nil hne
  obtain ⟨hc, hfs⟩ := List.forall_mem_cons.mp hds
  have hexponent : Run isPlain (NumberLayout.padded layout.exponentDigits (Nat.toDigits 10 place.natAbs)) :=
    run_plain (List.forall_mem_append.mpr ⟨run_zeros _, run_toDigits _⟩)
  have hsign : isPlain (if place < 0 then '-' else '+') = true := by split <;> rfl
  have hfraction : Run isPlain (if (c :: fs).length ≤ 1 then [] else '.' :: (c :: fs).drop 1) := by
    split
    · exact nofun
    · exact List.forall_mem_cons.mpr ⟨rfl, run_plain hfs⟩
  simp only [NumberLayout.scientific, List.append_assoc]
  refine isNumeral_of_digits (List.forall_mem_singleton.mpr hc) (List.cons_ne_nil _ _) ?_
  exact List.forall_mem_append.mpr
    ⟨hfraction, List.forall_mem_cons.mpr ⟨rfl, List.forall_mem_cons.mpr ⟨hsign, hexponent⟩⟩⟩

end

/-- What is written is a numeral that has a point or the mark of an exponent. -/
theorem write_numeral (layout : NumberLayout) (h : d.digits ≠ 0) :
    IsNumeral (layout.write d) ∧ ∃ c ∈ layout.write d, isDigit c = false := by
  have hds := d.run_significant
  have hne := Decimal.significant_ne_nil h
  rw [Decimal.write_eq]
  split
  · refine ⟨isNumeral_positional hds hne d.firstPlace, '.', ?_, rfl⟩
    simp only [NumberLayout.positional]
    split <;> simp
  · exact ⟨isNumeral_scientific hds hne layout d.firstPlace, 'e', by simp [NumberLayout.scientific], rfl⟩

/-- The text of a finite double is a numeral that is no integer, with a minus in front or without one. -/
theorem text_finite (s : Bool) (m : Magnitude) :
    ∃ cs e, Double.text (.finite s m) = String.ofList (if s then '-' :: cs else cs) ∧ IsNumeral cs ∧
      (∃ c ∈ cs, isDigit c = false) ∧ Decimal.parse? cs = some e ∧ Double.ofDecimal s e = .finite s m := by
  by_cases hzero : m.units = 0
  · refine ⟨['0', '.', '0'], ⟨0, -1⟩, ?_, ⟨⟨_, _, rfl, rfl⟩, List.all_eq_true.mp rfl⟩, ⟨'.', by simp, rfl⟩, rfl, ?_⟩
    · simp only [Double.text, if_pos hzero]
    · have hm : m = .zero := Magnitude.eq_of_units_eq hzero
      rw [hm]
      rfl
  · have hpos : 0 < m.units := Nat.pos_of_ne_zero hzero
    have hdigits := Decimal.digits_ne_zero_of_readsBack (Decimal.readsBack_shortest m hpos) hpos
    obtain ⟨e, hparse, hvalue⟩ := readsAs_write .standard hdigits
    obtain ⟨hnumeral, hmark⟩ := write_numeral .standard hdigits
    refine ⟨_, e, ?_, hnumeral, hmark, hparse, ?_⟩
    · simp only [Double.text, if_neg hzero]
    · rw [Double.ofDecimal_congr s hvalue, Double.ofDecimal_shortest s hpos]

/-- **The text of a double reads back.** -/
theorem Double.parse?_text (d : Double) : Double.parse? d.text = some d := by
  cases d with
  | nan => decide
  | infinite s => cases s <;> decide
  | finite s m =>
    obtain ⟨cs, e, htext, hcs, -, hparse, hvalue⟩ := text_finite s m
    rw [htext, parse?_numeral s hcs hparse, hvalue]

namespace Number

theorem plainInteger?_cons {c : Char} (hc : isDigit c = true) (cs : List Char) :
    plainInteger? (c :: cs) = if (c :: cs).all isDigit then some (numeral 10 (c :: cs) : Int) else none := by
  unfold plainInteger?
  split
  · rename_i heq
    exact absurd (List.cons.inj heq).1 (isDigit_ne hc rfl)
  · rfl

/-- The text of a double is no integer. -/
theorem plainInteger?_text (d : Double) : plainInteger? d.text.toList = none := by
  cases d with
  | nan => decide
  | infinite s => cases s <;> decide
  | finite s m =>
    obtain ⟨cs, -, htext, hcs, ⟨c, hmem, hc⟩, -⟩ := text_finite s m
    have hall : cs.all isDigit = false := List.all_eq_false.mpr ⟨c, hmem, by simp [hc]⟩
    rw [htext, String.toList_ofList]
    cases s with
    | true => simp [plainInteger?, hall]
    | false =>
      obtain ⟨d, r, rfl, hd⟩ := hcs.starts
      rw [if_neg Bool.false_ne_true, plainInteger?_cons hd, hall, if_neg Bool.false_ne_true]

theorem plainInteger?_text_integer (n : Int) : plainInteger? (integer n).text.toList = some n := by
  have hrun := run_toDigits n.natAbs
  have hall : (Nat.toDigits 10 n.natAbs).all isDigit = true := List.all_eq_true.mpr hrun
  obtain ⟨c, r, hcr⟩ := List.exists_cons_of_ne_nil (@Nat.toDigits_ne_nil n.natAbs 10)
  have hnumeral := numeral_ten_toDigits n.natAbs
  rw [text, String.toList_ofList, hcr]
  rw [hcr] at hall hnumeral hrun
  split
  · simp only [plainInteger?, List.isEmpty_cons, hall, hnumeral, Bool.not_false, Bool.and_self, if_true,
      Option.some_inj]
    rw [Int.ofNat_natAbs_of_nonpos (by omega), Int.neg_neg]
  · rw [plainInteger?_cons (hrun c List.mem_cons_self), if_pos hall, hnumeral]
    congr 1
    omega

/-- **The text of a number reads back**, with its kind. -/
theorem parse?_text (n : Number) : Number.parse? n.text = some n := by
  cases n with
  | boolean b => cases b <;> decide
  | integer n =>
    have hread := plainInteger?_text_integer n
    have hne : ∀ w, plainInteger? w.toList = none → (integer n).text ≠ w := by
      rintro w hw rfl
      cases hread.symm.trans hw
    rw [Number.parse?, if_neg (hne "True" (by decide)), if_neg (hne "False" (by decide)), hread]
  | real d =>
    have hread := Double.parse?_text d
    have hne : ∀ w, Double.parse? w = none → d.text ≠ w := by
      rintro w hw rfl
      cases hread.symm.trans hw
    rw [Number.parse?, text, if_neg (hne "True" (by decide)), if_neg (hne "False" (by decide)), plainInteger?_text,
      hread, Option.map_some]

/-- Numbers with the same text are the same. -/
theorem text_injective : Function.Injective Number.text := by
  intro a b h
  have hread := congrArg Number.parse? h
  rw [parse?_text, parse?_text] at hread
  exact Option.some_inj.mp hread

end Number

end DotGrid
