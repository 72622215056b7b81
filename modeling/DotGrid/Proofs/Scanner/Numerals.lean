import DotGrid.Proofs.Decimal.Value
import DotGrid.Proofs.Double.Nearest
import DotGrid.Proofs.Scanner.Literals
import DotGrid.Proofs.Scanner.Spacing
import DotGrid.Value.Conversion

/-!
# Numerals of integers

A natural number has numerals of two kinds, decimal and hexadecimal ones, each with any number of zeros in front. The
two kinds are read in different ways, but both become the double of the number (`IntegerNumeral.spells`). This is the
nearest one, and it is infinite just for the numbers that are not below the middle between the greatest double and
`2^1024` (`scan_integer_numerals`).
-/

namespace DotGrid

open Text

variable {ds text : List Char} {l : Lexeme} {n : Nat}

/-- The text of a lexeme is scanned as this lexeme only. -/
theorem scan_of_spells {source : String} (h : Spells l source.toList) : scan source = .ok [⟨l, 0⟩] := by
  have hlongest : LongestLexeme (source.toList ++ []) l source.toList := h.longest_before_blank nofun
  have hsegmented : Segmented 0 ([] ++ (source.toList ++ [])) [⟨l, 0⟩] := .token nofun hlongest (.finish nofun)
  rw [List.nil_append, List.append_nil] at hsegmented
  exact hsegmented.scanFrom_eq

/-- The numerals of a natural number: digits, or a mark and hexadecimal digits. -/
inductive IntegerNumeral (n : Nat) : List Char → Prop
  | decimal {ds : List Char} : ds ≠ [] → Run isDigit ds → numeral 10 ds = n → IntegerNumeral n ds
  | hex {mark : Char} {ds : List Char} : mark = 'x' ∨ mark = 'X' → ds ≠ [] → Run isHexDigit ds →
      numeral 16 ds = n → IntegerNumeral n ('0' :: mark :: ds)

/-- A decimal numeral without a point and an exponent has the double of the integer that it denotes. -/
theorem decimalValue_of_isDigit (hne : ds ≠ []) (hds : Run isDigit ds) :
    decimalValue ds = .ofInt (numeral 10 ds) := by
  have hparse : Decimal.parse? (ds ++ []) = some ⟨numeral 10 ds, 0⟩ := parse?_whole (.inl rfl) rfl hne hds
  have hratio : (⟨numeral 10 ds, 0⟩ : Decimal).ratio = (numeral 10 ds, 1) := by simp [Decimal.ratio]
  rw [List.append_nil] at hparse
  have hvalue : decimalValue ds = .ofDecimal false ⟨numeral 10 ds, 0⟩ := by rw [decimalValue, hparse]
  rw [hvalue, Double.ofDecimal_eq_ofRatio, hratio, Double.ofInt_natCast]

/-- A hexadecimal numeral has the double of the integer that its digits denote. -/
theorem hexValue_cons (mark : Char) (ds : List Char) : hexValue ('0' :: mark :: ds) = .ofInt (numeral 16 ds) := by
  rw [hexValue, List.drop_succ_cons, List.drop_succ_cons, List.drop_zero]

/-- Each numeral of a number is read as the double of this number. -/
theorem IntegerNumeral.spells (h : IntegerNumeral n text) : Spells (.number (.ofInt n)) text := by
  cases h with
  | decimal hne hds hn =>
    rw [← hn, ← decimalValue_of_isDigit hne hds]
    exact .decimal (.plain (.whole hne hds))
  | @hex mark ds hmark hne hds hn =>
    rw [← hn, ← hexValue_cons mark]
    exact .hex (.mk hmark hne hds)

/-- The conversion of a natural number fails just where its double is infinite. -/
theorem toOption_integerToDouble_getD (n : Nat) :
    (integerToDouble n).toOption.getD (.infinite false) = .ofInt n := by
  unfold integerToDouble
  split
  · rename_i hinfinite
    obtain ⟨s, hs⟩ := Double.exists_of_isInfinite hinfinite
    have hsign := (Double.isLiteral_ofNat n).isNegative
    rw [hs] at hsign
    have hpositive : s = false := hsign
    rw [hs, hpositive, Except.toOption, Option.getD_none]
  · rw [Except.toOption, Option.getD_some]

/-- **Numerals of one number are one literal.** All decimal and hexadecimal numerals of a natural number are scanned as
one token with the same double. It is that of the conversion of the integer, or an infinity where the conversion fails.
It is the nearest double, ties to even, and it is infinite just for the numbers from `2^1024 - 2^970` on. -/
theorem scan_integer_numerals (n : Nat) :
    ∃ d : Double, (∀ source : String, IntegerNumeral n source.toList → scan source = .ok [⟨.number d, 0⟩]) ∧
      (integerToDouble n).toOption.getD (.infinite false) = d ∧ d.isNegative = false ∧
      (n < 2 ^ 1024 - 2 ^ 970 → d.NearestTo n) ∧ (d = .infinite false ↔ 2 ^ 1024 - 2 ^ 970 ≤ n) :=
  ⟨.ofInt n, fun _ h => scan_of_spells h.spells, toOption_integerToDouble_getD n,
    (Double.isLiteral_ofNat n).isNegative, Double.nearestTo_ofInt, Double.ofInt_eq_infinite_iff⟩

/-- Numerals of `2^53 + 1`, which is in the middle between two doubles. -/
theorem scan_integer_numerals_middle :
    ∃ d : Double, scan "009007199254740993" = .ok [⟨.number d, 0⟩] ∧ scan "0X20000000000001" = .ok [⟨.number d, 0⟩] ∧
      d.NearestTo (2 ^ 53 + 1 : Nat) := by
  obtain ⟨d, hscan, -, -, hnearest, -⟩ := scan_integer_numerals (2 ^ 53 + 1)
  have hsmall : 2 ^ 54 ≤ 2 ^ 970 := pow_le_pow_right₀ one_le_two (show 54 ≤ 970 by decide)
  have hhalf := Double.two_pow_le_sub (show 970 < 1024 by decide)
  refine ⟨d, hscan _ (.decimal (by decide) ?_ (by decide)), hscan _ (.hex (.inr rfl) (by decide) ?_ (by decide)), ?_⟩
  · exact List.all_eq_true.mp (by decide)
  · exact List.all_eq_true.mp (by decide)
  · exact hnearest (Nat.lt_of_lt_of_le (show 2 ^ 53 + 1 < 2 ^ 54 by decide) (hsmall.trans hhalf))

end DotGrid
