import DotGrid.Proofs.Double.Rounding
import DotGrid.Proofs.Leaves

/-!
# Values of literals

The value of a numeral is neither NaN nor negative. For a hexadecimal numeral this is so because it is a natural number;
a decimal numeral is read because its text is just what `Decimal.parse?` takes apart (`parse?_numeral`). So every
literal of a text that is read is a double from zero on, the infinity included (`parse_literal`).
-/

namespace DotGrid

open Text

variable {text m x ds : List Char}

/-! ## Reading decimal numerals -/

theorem takeWhile_run_append {p : Char → Bool} (hds : Run p ds) (hx : x.takeWhile p = []) :
    (ds ++ x).takeWhile p = ds ∧ (ds ++ x).dropWhile p = x := by
  constructor
  · rw [List.takeWhile_append_of_pos hds, hx, List.append_nil]
  · rw [List.dropWhile_append_of_pos hds]
    have hsplit := List.takeWhile_append_dropWhile (p := p) (l := x)
    rwa [hx, List.nil_append] at hsplit

theorem splitSign_cons {d : Char} (hd : isDigit d) (cs : List Char) : splitSign (d :: cs) = (false, d :: cs) := by
  unfold splitSign
  split
  · rename_i heq
    exact absurd (List.cons.inj heq).1 (isDigit_ne hd rfl)
  · rename_i heq
    exact absurd (List.cons.inj heq).1 (isDigit_ne hd rfl)
  · rfl

/-- A sign is split from the digits behind it. -/
theorem splitSign_append {sign : List Char} (hsign : sign = [] ∨ sign = ['+'] ∨ sign = ['-']) (hne : ds ≠ [])
    (hds : Run isDigit ds) : splitSign (sign ++ ds) = (decide (sign = ['-']), ds) := by
  rcases hsign with rfl | rfl | rfl
  · obtain ⟨d, ds, rfl⟩ := List.exists_cons_of_ne_nil hne
    exact splitSign_cons (hds d List.mem_cons_self) ds
  · rfl
  · rfl

theorem exponentPart?_append {mark : Char} {sign : List Char} (hmark : mark = 'e' ∨ mark = 'E')
    (hsign : sign = [] ∨ sign = ['+'] ∨ sign = ['-']) (hne : ds ≠ []) (hds : Run isDigit ds) :
    exponentPart? (mark :: (sign ++ ds)) =
      some (if sign = ['-'] then -(numeral 10 ds : Int) else numeral 10 ds) := by
  have hall : ds.all isDigit = true := List.all_eq_true.mpr hds
  simp [exponentPart?, splitSign_append hsign hne hds, hall, hmark, hne]

/-- What may follow a mantissa: nothing or an exponent. -/
def Scaling (x : List Char) : Prop := x = [] ∨ Exponent x

theorem Scaling.exponentPart? (h : Scaling x) : ∃ n, exponentPart? x = some n := by
  rcases h with rfl | ⟨hmark, hsign, hne, hds⟩
  · exact ⟨0, rfl⟩
  · exact ⟨_, exponentPart?_append hmark hsign hne hds⟩

theorem Scaling.start (h : Scaling x) : x.takeWhile isDigit = [] ∧ ∀ r, x ≠ '.' :: r := by
  rcases h with rfl | ⟨hmark, -, -, -⟩
  · exact ⟨rfl, nofun⟩
  · rcases hmark with rfl | rfl
    · exact ⟨rfl, nofun⟩
    · exact ⟨rfl, nofun⟩

/-- Digits and what scales them are read. -/
theorem parse?_whole {n : Int} (hx : Scaling x) (hn : exponentPart? x = some n) (hne : ds ≠ []) (hds : Run isDigit ds) :
    Decimal.parse? (ds ++ x) = some ⟨numeral 10 ds, n⟩ := by
  obtain ⟨hstart, hpoint⟩ := hx.start
  obtain ⟨hwhole, hrest⟩ := takeWhile_run_append hds hstart
  have hempty : ds.isEmpty = false := by simpa using hne
  unfold Decimal.parse?
  rw [hwhole, hrest]
  split
  rename_i fraction rest heq
  have hsplit : (fraction, rest) = ([], x) := by
    rw [← heq]
    split
    · exact (hpoint _ rfl).elim
    · rfl
  cases hsplit
  simp [hn, hempty]

/-- Digits around a point and what scales them are read. -/
theorem parse?_point {n : Int} {fs : List Char} (hx : Scaling x) (hn : exponentPart? x = some n)
    (hne : ds ≠ [] ∨ fs ≠ []) (hds : Run isDigit ds) (hfs : Run isDigit fs) :
    Decimal.parse? (ds ++ '.' :: (fs ++ x)) = some ⟨numeral 10 (ds ++ fs), n - fs.length⟩ := by
  have hdot : ('.' :: (fs ++ x)).takeWhile isDigit = [] := rfl
  obtain ⟨hwhole, hrest⟩ := takeWhile_run_append hds hdot
  obtain ⟨hfraction, hend⟩ := takeWhile_run_append hfs hx.start.1
  have hempty : (ds.isEmpty && fs.isEmpty) = false := by
    rcases hne with hne | hne <;> simp [hne]
  unfold Decimal.parse?
  rw [hwhole, hrest]
  simp [hfraction, hend, hn, hempty]

/-- A mantissa and what scales it are read. -/
theorem parse?_append (hm : Mantissa m) (hx : Scaling x) : ∃ d, Decimal.parse? (m ++ x) = some d := by
  obtain ⟨n, hn⟩ := hx.exponentPart?
  cases hm with
  | whole hne hds => exact ⟨_, parse?_whole hx hn hne hds⟩
  | @point ds fs hne hds hfs =>
    have htext : ds ++ '.' :: fs ++ x = ds ++ '.' :: (fs ++ x) := by simp
    exact ⟨_, htext ▸ parse?_point hx hn hne hds hfs⟩

theorem parse?_numeral (h : DecimalNumeral text) : ∃ d, Decimal.parse? text = some d := by
  cases h with
  | plain hm =>
    have hparse := parse?_append hm (.inl rfl)
    rwa [List.append_nil] at hparse
  | scaled hm hx => exact parse?_append hm (.inr hx)

/-! ## Literals -/

/-- A double from zero on, the infinity included. -/
structure Double.IsLiteral (d : Double) : Prop where
  isNaN : d.isNaN = false
  isNegative : d.isNegative = false

theorem Double.isLiteral_ofUnits (p q : Nat) : (ofUnits false p q).IsLiteral :=
  ⟨isNaN_ofUnits .., isNegative_ofUnits ..⟩

theorem Double.isLiteral_ofDecimal (d : Decimal) : (ofDecimal false d).IsLiteral := by
  unfold ofDecimal
  split
  · exact ⟨rfl, rfl⟩
  · split
    · exact ⟨rfl, rfl⟩
    · exact isLiteral_ofUnits ..

theorem Double.isLiteral_ofNat (n : Nat) : (ofInt n).IsLiteral := by
  have hsign : decide ((n : Int) < 0) = false := by simp
  rw [ofInt, hsign, ofRatio]
  exact isLiteral_ofUnits ..

theorem Spells.isLiteral {value : Double} (h : Spells (.number value) text) : value.IsLiteral := by
  generalize hl : Lexeme.number value = l at h
  cases h with
  | hex _ =>
    rw [Lexeme.number.inj hl, hexValue]
    exact Double.isLiteral_ofNat _
  | decimal h =>
    obtain ⟨d, hd⟩ := parse?_numeral h
    rw [Lexeme.number.inj hl, decimalValue, hd]
    exact Double.isLiteral_ofDecimal d
  | name _ => cases hl
  | symbol s => cases hl

/-- A literal of a text that is read is a double that is neither NaN nor negative. -/
theorem parse_literal {source : String} {e : Expr} (h : Expr.parse source = .ok e) {value : Number}
    (hmem : Expr.number value ∈ e.leaves) : ∃ d : Double, value = .real d ∧ d.IsLiteral := by
  obtain ⟨ts, hscan, hd⟩ := parse_eq_ok h
  rw [hd.leaves_eq, leavesIn, List.mem_filterMap] at hmem
  obtain ⟨l, hl, hleaf⟩ := hmem
  obtain ⟨t, ht, rfl⟩ := List.mem_map.mp hl
  obtain ⟨text, -, hlongest⟩ := (segmented_of_scanFrom hscan).longest t ht
  cases hlexeme : t.lexeme with
  | number d =>
    rw [hlexeme] at hleaf hlongest
    cases hleaf
    exact ⟨d, rfl, hlongest.spells.isLiteral⟩
  | name ident =>
    rw [hlexeme] at hleaf
    cases hleaf
  | symbol s =>
    rw [hlexeme] at hleaf
    cases hleaf

end DotGrid
