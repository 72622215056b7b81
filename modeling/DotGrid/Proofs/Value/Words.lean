import DotGrid.Proofs.Double.Exact
import DotGrid.Value.Functions
import Mathlib.Data.Int.Bitwise
import Mathlib.Data.Int.ModEq

/-!
# Words of 32 bits

The word of a double is the residue modulo `2^32` of the integer toward zero of its exact value (`Double.toNat_word`),
and its signed reading is the integer from `-2^31` on, below `2^31`, that is congruent to it.

The bit operators work on unbounded integers, and their results are those of operations on residues of 32 bits
(`bit_operators`). Digits are combined place by place, where a negative integer has ones without end, so the first 32
places are those of the words and all others follow the sign (`digitwise_toInt`). A shift to the left makes an integer
of up to 63 bits, which goes through a double. It is the word and zeros behind it, so it has a double and nothing is
lost (`toInt_word_shiftLeft`).

The product of two words goes through a double as well, but it has up to 62 bits of its own. So it becomes the word of
the exact product just where this is a double (`imul_modEq_iff`).
-/

namespace DotGrid

/-! ## Residues and signed readings -/

/-- The residue modulo `2^32` of the integer toward zero of a finite double; zero for NaN and the infinities. -/
def Double.residue (x : Double) : Nat :=
  if x.isFinite then (towardZero x.toRat % 2 ^ 32).toNat else 0

/-- A residue modulo `2^32` as the integer that the word with these bits is in two's complement. -/
def signedReading (r : Nat) : Int := if r < 2 ^ 31 then r else r - 2 ^ 32

theorem signedReading_bounds {r : Nat} (h : r < 2 ^ 32) : -2 ^ 31 ≤ signedReading r ∧ signedReading r < 2 ^ 31 := by
  unfold signedReading
  split <;> omega

theorem signedReading_modEq (r : Nat) : signedReading r ≡ r [ZMOD 2 ^ 32] := by
  unfold signedReading Int.ModEq
  split <;> omega

theorem toInt_eq_signedReading (w : BitVec 32) : w.toInt = signedReading w.toNat := by
  rw [BitVec.toInt_eq_toNat_cond, signedReading]
  split <;> split <;> omega

theorem natAbs_toInt_le (w : BitVec 32) : w.toInt.natAbs ≤ 2 ^ 31 := by
  have hlow := w.le_toInt
  have hhigh := w.toInt_lt
  omega

namespace Double

theorem toNat_word (x : Double) : x.word.toNat = x.residue := by
  unfold word residue
  cases hx : x.isFinite with
  | false =>
    rw [truncate?_eq_none hx]
    rfl
  | true =>
    rw [truncate?_eq hx, if_pos rfl]
    exact BitVec.toNat_ofInt _

theorem toInt_word (x : Double) : x.word.toInt = signedReading x.residue := by
  rw [toInt_eq_signedReading, toNat_word]

theorem residue_lt (x : Double) : x.residue < 2 ^ 32 :=
  x.toNat_word ▸ x.word.isLt

/-- NaN and the infinities have the exact value zero here, so the congruence holds for them, too. -/
theorem residue_modEq (x : Double) : x.residue ≡ towardZero x.toRat [ZMOD 2 ^ 32] := by
  unfold residue Int.ModEq
  cases hx : x.isFinite with
  | false =>
    have hzero : towardZero (0 : ℚ) = 0 := towardZero_intCast 0
    rw [toRat_of_not_isFinite hx, hzero]
    rfl
  | true =>
    rw [if_pos rfl]
    omega

theorem residue_ofInt {n : ℤ} (h : Holds n) : (ofInt n).residue = (n % 2 ^ 32).toNat := by
  rw [residue, if_pos (isFinite_ofInt_of_holds h), toRat_ofInt h, towardZero_intCast]

end Double

/-! ## Digits -/

theorem digitwise_eq_bitwise (f : Bool → Bool → Bool) (m n : ℤ) : digitwise f m n = Int.bitwise f m n := by
  cases m <;> cases n <;> simp only [digitwise, naturalDigitwise, Int.bitwise, Int.natBitwise] <;> split <;> simp_all

/-- The digits of the integer of a word are those of the word, and beyond them its sign. -/
theorem testBit_toInt (w : BitVec 32) (i : Nat) : w.toInt.testBit i = if i < 32 then w.getLsbD i else w.msb := by
  have hbeyond : ¬i < 32 → w.getLsbD i = false := fun hi => BitVec.getLsbD_of_ge w i (Nat.le_of_not_lt hi)
  cases hmsb : w.msb with
  | false =>
    have htoInt : w.toInt = Int.ofNat w.toNat := by
      rw [BitVec.toInt_eq_msb_cond, hmsb]
      rfl
    rw [htoInt, Int.testBit, BitVec.testBit_toNat]
    split
    · rfl
    · exact hbeyond ‹_›
  | true =>
    have htoInt : w.toInt = Int.negSucc (~~~w).toNat := by
      have hlt := w.isLt
      rw [BitVec.toInt_eq_msb_cond, if_pos hmsb, BitVec.toNat_not]
      omega
    rw [htoInt, Int.testBit, BitVec.testBit_toNat, BitVec.getLsbD_not]
    split
    · simp [*]
    · simp [*]

theorem testBit_of_le {n i : Nat} (h : n ≤ i) : n.testBit i = false :=
  Nat.testBit_lt_two_pow (Nat.lt_of_lt_of_le Nat.lt_two_pow_self (Nat.pow_le_pow_right (by decide) h))

/-- The digits of two natural numbers are zeros from some place on, so they do not differ everywhere. -/
theorem not_forall_testBit_eq_not (a b : Nat) : ¬∀ i, a.testBit i = !b.testBit i := by
  intro h
  have hdiffer := h (a + b)
  rw [testBit_of_le (Nat.le_add_right a b), testBit_of_le (Nat.le_add_left b a)] at hdiffer
  cases hdiffer

theorem eq_of_testBit_eq {m n : ℤ} (h : ∀ i, m.testBit i = n.testBit i) : m = n := by
  cases m with
  | ofNat a =>
    cases n with
    | ofNat b => exact congrArg Int.ofNat (Nat.eq_of_testBit_eq h)
    | negSucc b => exact absurd h (not_forall_testBit_eq_not a b)
  | negSucc a =>
    cases n with
    | ofNat b => exact absurd (fun i => (h i).symm) (not_forall_testBit_eq_not b a)
    | negSucc b => exact congrArg Int.negSucc (Nat.eq_of_testBit_eq fun i => Bool.not_inj (h i))

theorem digitwise_toInt {f : Bool → Bool → Bool} {u v w : BitVec 32}
    (h : ∀ i < 32, u.getLsbD i = f (v.getLsbD i) (w.getLsbD i)) : digitwise f v.toInt w.toInt = u.toInt := by
  refine eq_of_testBit_eq fun i => ?_
  rw [digitwise_eq_bitwise, Int.testBit_bitwise, testBit_toInt, testBit_toInt, testBit_toInt]
  split
  · exact (h i ‹_›).symm
  · simp only [BitVec.msb_eq_getLsbD_last]
    exact (h 31 (by decide)).symm

theorem toInt_complement (w : BitVec 32) : ~~~w.toInt = signedReading (2 ^ 32 - 1 - w.toNat) := by
  have hlt := w.isLt
  have hcomplement : ∀ m : ℤ, ~~~m = -m - 1 := by
    intro m
    cases m with
    | ofNat n => exact (by omega : Int.negSucc n = -(n : ℤ) - 1)
    | negSucc n => exact (by omega : (n : ℤ) = -Int.negSucc n - 1)
  rw [hcomplement, toInt_eq_signedReading]
  unfold signedReading
  split <;> split <;> omega

/-! ## Shifts -/

/-- A word with zeros behind it is an integer of the format. -/
theorem holds_shiftLeft (v : BitVec 32) {c : Nat} (hc : c < 32) : Double.Holds (v.toInt <<< c) := by
  refine ⟨v.toInt.natAbs, c + 1074, ?_, Nat.lt_of_le_of_lt (natAbs_toInt_le v) (by decide), by omega⟩
  rw [Int.shiftLeft_eq, Int.natAbs_mul, Int.natAbs_pow, Nat.mul_assoc, ← Double.two_pow_mul_one]
  rfl

theorem toInt_word_shiftLeft (v : BitVec 32) {c : Nat} (hc : c < 32) :
    (Double.ofInt (v.toInt <<< c)).word.toInt = signedReading (v.toNat * 2 ^ c % 2 ^ 32) := by
  have hreading : v.toInt * 2 ^ c ≡ (v.toNat * 2 ^ c : Nat) [ZMOD 2 ^ 32] := by
    rw [toInt_eq_signedReading, Nat.cast_mul, Nat.cast_pow]
    exact (signedReading_modEq _).mul_right _
  rw [Double.toInt_word, Double.residue_ofInt (holds_shiftLeft v hc), Int.shiftLeft_eq, hreading]
  congr 1

theorem toInt_shiftRight (v : BitVec 32) (c : Nat) :
    v.toInt >>> c = v.toInt / 2 ^ c ∧ -2 ^ 31 ≤ v.toInt >>> c ∧ v.toInt >>> c < 2 ^ 31 := by
  have hlow := v.le_toInt
  have hhigh := v.toInt_lt
  have hpos : (0 : ℤ) < 2 ^ c := Int.pow_pos (by decide)
  have heq : v.toInt >>> c = v.toInt / 2 ^ c := by
    rw [Int.shiftRight_eq_div_pow, Nat.cast_pow]
    rfl
  rw [heq, Int.le_ediv_iff_mul_le hpos, Int.ediv_lt_iff_lt_mul hpos]
  exact ⟨rfl, by omega, by omega⟩

/-! ## Operators -/

/-- A result is an integer of 32 bits in two's complement. -/
def GivesSigned (result : Except Fault Value) (n : Int) : Prop :=
  result = .ok (.number (.integer n)) ∧ -2 ^ 31 ≤ n ∧ n < 2 ^ 31

section

variable {a b : Number} {x y : Double}

theorem word_eq (ha : a.toDouble = .ok x) : (Value.number a).word = .ok x.word := by
  rw [Value.word, Value.converted, ha]
  rfl

theorem onWords_eq (ha : a.toDouble = .ok x) (hb : b.toDouble = .ok y) (f : BitVec 32 → BitVec 32 → Int) :
    onWords f (.number a) (.number b) = .ok (.number (.integer (f x.word y.word))) := by
  rw [onWords, word_eq ha, word_eq hb]
  rfl

/-- An operation that combines the digits of two words gives the word with these digits. -/
theorem givesSigned_digitwise (ha : a.toDouble = .ok x) (hb : b.toDouble = .ok y) {f : Bool → Bool → Bool}
    {u : BitVec 32} (h : ∀ i < 32, u.getLsbD i = f (x.word.getLsbD i) (y.word.getLsbD i)) :
    GivesSigned (onWords (fun v w => digitwise f v.toInt w.toInt) (.number a) (.number b)) (signedReading u.toNat) := by
  refine ⟨?_, signedReading_bounds u.isLt⟩
  rw [onWords_eq ha hb, digitwise_toInt h, toInt_eq_signedReading]

/-- **The bit operators are operations on words.** Let two numbers have doubles. The operators that combine digits give
the signed readings of the combined residues of these doubles, and the complement that of the residue from the greatest
one. A shift is by the second residue modulo 32. To the left it keeps 32 bits, to the right it divides the signed
reading, rounding down, and the unsigned shift divides the residue itself. -/
theorem bit_operators (ha : a.toDouble = .ok x) (hb : b.toDouble = .ok y) :
    GivesSigned (BinaryOp.bitAnd.apply (.number a) (.number b)) (signedReading (x.residue &&& y.residue)) ∧
    GivesSigned (BinaryOp.bitOr.apply (.number a) (.number b)) (signedReading (x.residue ||| y.residue)) ∧
    GivesSigned (BinaryOp.bitXor.apply (.number a) (.number b)) (signedReading (x.residue ^^^ y.residue)) ∧
    GivesSigned (UnaryOp.complement.apply (.number a)) (signedReading (2 ^ 32 - 1 - x.residue)) ∧
    GivesSigned (BinaryOp.shiftLeft.apply (.number a) (.number b))
      (signedReading (x.residue * 2 ^ (y.residue % 32) % 2 ^ 32)) ∧
    GivesSigned (BinaryOp.shiftRight.apply (.number a) (.number b)) (signedReading x.residue / 2 ^ (y.residue % 32)) ∧
    ∃ n : Nat, BinaryOp.unsignedRight.apply (.number a) (.number b) = .ok (.number (.integer n)) ∧
      n = x.residue / 2 ^ (y.residue % 32) ∧ n < 2 ^ 32 := by
  have hcount : y.residue % 32 < 32 := Nat.mod_lt _ (by decide)
  refine ⟨?_, ?_, ?_, ?_, ?_, ?_, ?_⟩
  · rw [← x.toNat_word, ← y.toNat_word, ← BitVec.toNat_and]
    exact givesSigned_digitwise ha hb fun i _ => BitVec.getLsbD_and
  · rw [← x.toNat_word, ← y.toNat_word, ← BitVec.toNat_or]
    exact givesSigned_digitwise ha hb fun i _ => BitVec.getLsbD_or
  · rw [← x.toNat_word, ← y.toNat_word, ← BitVec.toNat_xor]
    exact givesSigned_digitwise ha hb fun i _ => BitVec.getLsbD_xor
  · have hlt := x.residue_lt
    refine ⟨?_, signedReading_bounds (by omega)⟩
    rw [← x.toNat_word, ← toInt_complement, UnaryOp.apply, word_eq ha]
    rfl
  · refine ⟨?_, signedReading_bounds (Nat.mod_lt _ (by decide))⟩
    rw [← x.toNat_word, ← toInt_word_shiftLeft x.word hcount, ← y.toNat_word]
    exact onWords_eq ha hb _
  · obtain ⟨heq, hbounds⟩ := toInt_shiftRight x.word (y.residue % 32)
    rw [← x.toInt_word, ← heq]
    refine ⟨?_, hbounds⟩
    rw [← y.toNat_word]
    exact onWords_eq ha hb _
  · rw [← x.toNat_word, ← y.toNat_word]
    exact ⟨_, onWords_eq ha hb _, Nat.shiftRight_eq_div_pow .., Nat.lt_of_le_of_lt (Nat.shiftRight_le ..) x.word.isLt⟩

end

theorem bit_operators_negative :
    (Number.real (.ofInt (-5))).toDouble = .ok (.ofInt (-5)) ∧ (Number.boolean true).toDouble = .ok (.ofInt 1) ∧
      BinaryOp.shiftRight.apply (.number (.real (.ofInt (-5)))) (.number (.boolean true)) =
        .ok (.number (.integer (-3))) ∧
      BinaryOp.unsignedRight.apply (.number (.real (.ofInt (-5)))) (.number (.boolean true)) =
        .ok (.number (.integer 2147483645)) := by
  have hleft : (Double.ofInt (-5)).residue = 4294967291 := by
    rw [Double.residue_ofInt (n := -5) (Double.holds_of_natAbs_le (by decide))]
    rfl
  have hright : (Double.ofInt 1).residue = 1 := by
    rw [Double.residue_ofInt (n := 1) (Double.holds_of_natAbs_le (by decide))]
    rfl
  have hb : (Number.boolean true).toDouble = .ok (.ofInt 1) := by rw [Number.toDouble, if_pos rfl]
  obtain ⟨-, -, -, -, -, ⟨hsigned, -⟩, n, hunsigned, hn, -⟩ :=
    bit_operators (a := .real (.ofInt (-5))) (x := .ofInt (-5)) rfl hb
  rw [hleft, hright] at hsigned hn
  rw [hn] at hunsigned
  exact ⟨rfl, hb, hsigned, hunsigned⟩

/-! ## Products -/

theorem natAbs_toInt_mul_le (v w : BitVec 32) : (v.toInt * w.toInt).natAbs ≤ 2 ^ 62 :=
  calc (v.toInt * w.toInt).natAbs = v.toInt.natAbs * w.toInt.natAbs := Int.natAbs_mul ..
    _ ≤ 2 ^ 31 * 2 ^ 31 := Nat.mul_le_mul (natAbs_toInt_le v) (natAbs_toInt_le w)

/-- The word of an integer is congruent to the double it becomes. -/
theorem toInt_word_modEq {p r : ℤ} (h : (Double.ofInt p).toRat = r) :
    (Double.ofInt p).word.toInt ≡ r [ZMOD 2 ^ 32] := by
  have hresidue := (Double.ofInt p).residue_modEq
  rw [h, towardZero_intCast] at hresidue
  rw [Double.toInt_word]
  exact (signedReading_modEq _).trans hresidue

/-- **The product of words is right just where the exact one is a double.** For all doubles the function gives an
integer `n` of 32 bits. It is congruent to the double `r` of the exact product `p` of the signed readings, so it is
congruent to the product of the truncated arguments if and only if `r` is `p`, which products of 53 bits are. -/
theorem imul_modEq_iff (a b : Double) :
    ∃ (d : Double) (p r n : ℤ), Builtin.imul.apply [.real a, .real b] = .ok (.real d) ∧
      p = signedReading a.residue * signedReading b.residue ∧ (Double.ofInt p).toRat = r ∧
      d.isFinite = true ∧ d.toRat = n ∧ -2 ^ 31 ≤ n ∧ n < 2 ^ 31 ∧ n ≡ r [ZMOD 2 ^ 32] ∧
      (n ≡ towardZero a.toRat * towardZero b.toRat [ZMOD 2 ^ 32] ↔ r = p) ∧ (p.natAbs ≤ 2 ^ 53 → r = p) := by
  have hproduct : wordProduct a.word b.word =
      (Double.ofInt (signedReading a.residue * signedReading b.residue)).word.toInt := by
    rw [wordProduct, Double.toInt_word a, Double.toInt_word b]
  have hsize := natAbs_toInt_mul_le a.word b.word
  rw [Double.toInt_word, Double.toInt_word] at hsize
  have hexact : signedReading a.residue * signedReading b.residue ≡
      towardZero a.toRat * towardZero b.toRat [ZMOD 2 ^ 32] :=
    ((signedReading_modEq _).trans a.residue_modEq).mul ((signedReading_modEq _).trans b.residue_modEq)
  generalize signedReading a.residue * signedReading b.residue = p at *
  -- the double is an integer that is less than 2^32 away, so it is congruent just if it is the product
  obtain ⟨r, hr, hnear⟩ := Double.exists_toRat_ofInt hsize (by decide)
  have hiff : r ≡ p [ZMOD 2 ^ 32] ↔ r = p := by
    unfold Int.ModEq
    omega
  have hlow := (Double.ofInt p).word.le_toInt
  have hhigh := (Double.ofInt p).word.toInt_lt
  have hmod := toInt_word_modEq hr
  rw [← hproduct] at hlow hhigh hmod
  have hholds : Double.Holds (wordProduct a.word b.word) := Double.holds_of_natAbs_le (by omega)
  refine ⟨.ofInt (wordProduct a.word b.word), p, r, wordProduct a.word b.word, rfl, rfl, hr,
    Double.isFinite_ofInt_of_holds hholds, Double.toRat_ofInt hholds, hlow, hhigh, hmod, ?_, ?_⟩
  · rw [← hiff]
    exact ⟨fun h => hmod.symm.trans (h.trans hexact.symm), fun h => hmod.trans (h.trans hexact)⟩
  · intro hsmall
    have heq := hr.symm.trans (Double.toRat_ofInt (Double.holds_of_natAbs_le hsmall))
    exact_mod_cast heq

/-- The square of the greatest word has 62 bits, of which its double loses the last ones: the function gives zero and
the square is congruent to one. -/
theorem imul_inexact :
    (Double.ofInt 2147483647).isFinite = true ∧
      Builtin.imul.apply [.real (.ofInt 2147483647), .real (.ofInt 2147483647)] = .ok (.real (.ofInt 0)) ∧
      ¬∃ n : ℤ, (Double.ofInt 0).toRat = n ∧
        n ≡ towardZero (Double.ofInt 2147483647).toRat * towardZero (Double.ofInt 2147483647).toRat [ZMOD 2 ^ 32] := by
  have hholds : Double.Holds 2147483647 := Double.holds_of_natAbs_le (by decide)
  have hproduct : wordProduct (Double.ofInt 2147483647).word (Double.ofInt 2147483647).word = 0 := by
    decide +kernel
  refine ⟨Double.isFinite_ofInt_of_holds hholds, ?_, ?_⟩
  · have happly : Builtin.imul.apply [.real (.ofInt 2147483647), .real (.ofInt 2147483647)] =
        .ok (whole (wordProduct (Double.ofInt 2147483647).word (Double.ofInt 2147483647).word)) := rfl
    rw [happly, hproduct]
    rfl
  · rintro ⟨n, hn, hmod⟩
    rw [Double.toRat_ofInt (Double.holds_of_natAbs_le (by decide))] at hn
    rw [Double.toRat_ofInt hholds, towardZero_intCast, ← Int.cast_injective hn] at hmod
    exact absurd hmod (by decide)

end DotGrid
