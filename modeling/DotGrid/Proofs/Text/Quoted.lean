import DotGrid.Proofs.Text.Numeral
import DotGrid.Text.Quoted

/-!
# Quoted texts differ

What is shown inside of quotes is read character by character (`shownChar?`), and each character is read as what it
was shown for (`shownChar?_escaped`): an escape tells by its mark how many hexadecimal digits follow. So different
texts are quoted differently (`quoted_injective`).
-/

namespace DotGrid.Text

variable {quote c : Char} {n width : Nat}

/-! ## Hexadecimal digits -/

theorem length_hexadecimal (hwidth : 0 < width) (hn : n < 16 ^ width) : (hexadecimal width n).length = width := by
  have hle : (Nat.toDigits 16 n).length ≤ width := (Nat.length_toDigits_le_iff (by decide) hwidth).mpr hn
  simp only [hexadecimal, List.length_append, List.length_replicate]
  omega

theorem numeral_hexadecimal (width n : Nat) : numeral 16 (hexadecimal width n) = n := by
  simp only [hexadecimal]
  rw [numeral_append, numeral_zeros (by decide), Nat.zero_mul, Nat.zero_add, numeral_toDigits (by decide) (by decide)]

/-- The character of a code point that is written with a number of digits, and the text behind it. -/
def ofHexadecimal? (width : Nat) (cs : List Char) : Option (Char × List Char) :=
  (ofCodePoint? (numeral 16 (cs.take width))).map fun c => (c, cs.drop width)

/-- A character is kept for a half of a surrogate pair, or it stands for itself. -/
theorem half?_cases (c : Char) :
    (∃ n, half? c = some n ∧ c.toNat = halfPlane + n ∧ 0xd800 ≤ n ∧ n ≤ 0xdfff) ∨ half? c = none := by
  by_cases h : halfPlane + 0xd800 ≤ c.toNat ∧ c.toNat ≤ halfPlane + 0xdfff
  · exact .inl ⟨c.toNat - halfPlane, if_pos h, by omega, by omega, by omega⟩
  · exact .inr (if_neg h)

/-- The code point that a character is shown with gives this character. -/
theorem ofCodePoint?_half? (c : Char) : ofCodePoint? ((half? c).getD c.toNat) = some c := by
  rcases half?_cases c with ⟨n, hn, hchar, hlow, hhigh⟩ | hn
  · have hinvalid : ¬ n.isValidChar := by
      rw [Nat.isValidChar]
      omega
    rw [hn, Option.getD_some, ofCodePoint?, if_neg hinvalid, if_pos ⟨hlow, hhigh⟩, ← hchar, Char.ofNat_toNat]
  · have hvalid : c.toNat.isValidChar := c.valid
    rw [hn, Option.getD_none, ofCodePoint?, if_pos hvalid, Char.ofNat_toNat]

theorem code_lt (c : Char) : (half? c).getD c.toNat < 16 ^ 8 := by
  rcases half?_cases c with ⟨n, hn, -, -, hhigh⟩ | hn
  · rw [hn, Option.getD_some]
    omega
  · have hvalid : c.toNat.isValidChar := c.valid
    rw [Nat.isValidChar] at hvalid
    rw [hn, Option.getD_none]
    omega

theorem ofHexadecimal?_append (hwidth : 0 < width) (hn : (half? c).getD c.toNat < 16 ^ width) (cs : List Char) :
    ofHexadecimal? width (hexadecimal width ((half? c).getD c.toNat) ++ cs) = some (c, cs) := by
  have hlength := length_hexadecimal hwidth hn
  rw [ofHexadecimal?, List.take_left' hlength, List.drop_left' hlength, numeral_hexadecimal, ofCodePoint?_half?]
  rfl

/-! ## Characters inside of quotes -/

/-- The character that is shown behind a backslash, and the text behind it. -/
def escapedChar? : List Char → Option (Char × List Char)
  | 'n' :: cs => some ('\n', cs)
  | 'r' :: cs => some ('\r', cs)
  | 't' :: cs => some ('\t', cs)
  | 'x' :: cs => ofHexadecimal? 2 cs
  | 'u' :: cs => ofHexadecimal? 4 cs
  | 'U' :: cs => ofHexadecimal? 8 cs
  | c :: cs => some (c, cs)
  | [] => none

/-- The first character that a text inside of quotes shows, and the text behind it. -/
def shownChar? : List Char → Option (Char × List Char)
  | [] => none
  | c :: cs => if c = '\\' then escapedChar? cs else some (c, cs)

/-- A character is read as what it is shown for. -/
theorem shownChar?_escaped (hquote : quote = '\'' ∨ quote = '"') (c : Char) (cs : List Char) :
    shownChar? (escaped quote c ++ cs) = some (c, cs) := by
  unfold escaped
  split
  · rename_i h
    rcases h with rfl | rfl
    · rcases hquote with rfl | rfl <;> rfl
    · rfl
  · rename_i h
    obtain ⟨-, hbackslash⟩ := not_or.mp h
    split
    · subst c
      rfl
    · split
      · subst c
        rfl
      · split
        · subst c
          rfl
        · split
          · exact if_neg hbackslash
          · dsimp only
            split
            · exact ofHexadecimal?_append (by decide) (by omega) cs
            · split
              · exact ofHexadecimal?_append (by decide) (by omega) cs
              · exact ofHexadecimal?_append (by decide) (code_lt c) cs

theorem flatMap_escaped_injective (hquote : quote = '\'' ∨ quote = '"') {cs ds : List Char}
    (h : cs.flatMap (escaped quote) = ds.flatMap (escaped quote)) : cs = ds := by
  have hempty : shownChar? [] = none := rfl
  induction cs generalizing ds with
  | nil =>
    cases ds with
    | nil => rfl
    | cons d ds =>
      rw [List.flatMap_nil, List.flatMap_cons] at h
      cases (h ▸ hempty).symm.trans (shownChar?_escaped hquote d _)
  | cons c cs ih =>
    rw [List.flatMap_cons] at h
    have hc := shownChar?_escaped hquote c (cs.flatMap (escaped quote))
    cases ds with
    | nil =>
      rw [h] at hc
      cases hc
    | cons d ds =>
      rw [h, List.flatMap_cons, shownChar?_escaped hquote d] at hc
      obtain ⟨rfl, hrest⟩ := Prod.mk.inj (Option.some_inj.mp hc)
      rw [ih hrest.symm]

theorem quoteFor_mem (cs : List Char) : quoteFor cs = '\'' ∨ quoteFor cs = '"' := by
  unfold quoteFor
  split
  · exact .inr rfl
  · exact .inl rfl

/-- **Different texts are quoted differently.** -/
theorem quoted_injective : Function.Injective quoted := by
  intro s t h
  have hchars := congrArg String.toList h
  simp only [quoted, String.toList_ofList] at hchars
  obtain ⟨hquote, hrest⟩ := List.cons.inj hchars
  rw [← hquote] at hrest
  have hflat := List.append_cancel_right hrest
  exact String.toList_inj.mp (flatMap_escaped_injective (quoteFor_mem _) hflat)

end DotGrid.Text
