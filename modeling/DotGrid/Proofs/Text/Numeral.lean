import DotGrid.Text.Digit
import Mathlib.Algebra.Order.Ring.Nat
import Mathlib.Data.List.Induction

/-!
# Digits and the numbers they denote

The digits of a number in a base of the basic alphabet denote this number (`numeral_toDigits`). Digits behind others
make the number of those greater by a power of the base (`numeral_append`).
-/

namespace DotGrid.Text

theorem numeral_append (base : Nat) (cs ds : List Char) :
    numeral base (cs ++ ds) = numeral base cs * base ^ ds.length + numeral base ds := by
  induction ds using List.reverseRecOn with
  | nil => simp [numeral]
  | append_singleton ds d ih =>
    simp only [numeral, List.foldl_append, List.foldl_cons, List.foldl_nil, List.length_append, List.length_singleton]
      at ih ⊢
    rw [ih, Nat.add_mul, Nat.mul_assoc, ← Nat.pow_succ, Nat.add_assoc]

theorem numeral_zeros {base : Nat} (hbase : 0 < base) (n : Nat) : numeral base (List.replicate n '0') = 0 := by
  have hzero : numeral base ['0'] = 0 := by simp [numeral, valueIn?, isDigit, hbase]
  induction n with
  | zero => rfl
  | succ n ih => rw [List.replicate_succ', numeral_append, ih, Nat.zero_mul, hzero]

theorem valueIn?_digitChar {base v : Nat} (hbase : base ≤ 16) (hv : v < base) :
    valueIn? base (Nat.digitChar v) = some v := by
  have hall : ∀ b ≤ 16, ∀ v < b, valueIn? b (Nat.digitChar v) = some v := by decide
  exact hall base hbase v hv

theorem numeral_toDigits {base : Nat} (hlow : 1 < base) (hhigh : base ≤ 16) (n : Nat) :
    numeral base (Nat.toDigits base n) = n := by
  have hdigit : ∀ v < base, numeral base [Nat.digitChar v] = v := by
    intro v hv
    simp [numeral, valueIn?_digitChar hhigh hv]
  induction n using Nat.strongRecOn with
  | ind n ih =>
    rw [Nat.toDigits_eq_if hlow]
    split
    · exact hdigit n ‹_›
    · have hlt : n / base < n := Nat.div_lt_self (by omega) hlow
      rw [numeral_append, ih _ hlt, hdigit _ (Nat.mod_lt n (by omega)), List.length_singleton, Nat.pow_one,
        Nat.div_add_mod']

theorem toDigits_injective {base : Nat} (hlow : 1 < base) (hhigh : base ≤ 16) :
    Function.Injective (Nat.toDigits base) := by
  intro m n h
  rw [← numeral_toDigits hlow hhigh m, h, numeral_toDigits hlow hhigh]

end DotGrid.Text
