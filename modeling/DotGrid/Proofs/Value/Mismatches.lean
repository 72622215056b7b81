import DotGrid.Value.Fault
import Mathlib

/-!
# Descriptions of mismatches differ

The description of a mismatch begins with an opening that depends on the operation or the function (`Mismatch.blank`),
and the kinds of the operands or the number of arguments follow. The openings in alphabetical order
(`Mismatch.isChain_openings`) differ from each other before one of them ends (`Text.Before`), so that a description
tells its opening (`Mismatch.blank_eq_of_opening_append`), and what follows tells the rest
(`Mismatch.eq_of_blank_eq`).
-/

namespace DotGrid

/-! ## Order of texts -/

namespace Text

variable {as bs cs : List Char}

/-- Tells that two lists differ before either ends, and the first one has the lesser character there. -/
def isAhead : List Char → List Char → Bool
  | a :: as, b :: bs => a < b || (a == b && isAhead as bs)
  | _, _ => false

theorem isAhead_trans (h : isAhead as bs = true) (h' : isAhead bs cs = true) : isAhead as cs = true := by
  induction as generalizing bs cs with
  | nil => cases h
  | cons a as ih =>
    cases bs with
    | nil => cases h
    | cons b bs =>
      cases cs with
      | nil => cases h'
      | cons c cs =>
        simp only [isAhead, Bool.or_eq_true, Bool.and_eq_true, decide_eq_true_eq, beq_iff_eq] at h h' ⊢
        rcases h with hab | ⟨rfl, hab⟩
        · rcases h' with hbc | ⟨rfl, -⟩
          · exact .inl (Char.lt_trans hab hbc)
          · exact .inl hab
        · rcases h' with hbc | ⟨rfl, hbc⟩
          · exact .inl hbc
          · exact .inr ⟨rfl, ih hab hbc⟩

theorem append_ne_of_isAhead (h : isAhead as bs = true) (more more' : List Char) : as ++ more ≠ bs ++ more' := by
  induction as generalizing bs with
  | nil => cases h
  | cons a as ih =>
    cases bs with
    | nil => cases h
    | cons b bs =>
      simp only [isAhead, Bool.or_eq_true, Bool.and_eq_true, decide_eq_true_eq, beq_iff_eq] at h
      intro heq
      obtain ⟨hab, hrest⟩ := List.cons.inj heq
      rcases h with hlt | ⟨-, hahead⟩
      · exact absurd hlt (hab ▸ Char.lt_irrefl a)
      · exact ih hahead hrest

/-- The first text has the lesser character where the two differ, which they do before either ends. -/
def Before (s t : String) : Prop := isAhead s.toList t.toList = true

instance : DecidableRel Before := fun s t => inferInstanceAs (Decidable (isAhead s.toList t.toList = true))

instance : Trans Before Before Before := ⟨isAhead_trans⟩

/-- Whatever follows, the texts differ. -/
theorem Before.append_ne {s t : String} (h : Before s t) (more more' : String) : s ++ more ≠ t ++ more' := by
  intro heq
  have hlists := congrArg String.toList heq
  rw [String.toList_append, String.toList_append] at hlists
  exact append_ne_of_isAhead h _ _ hlists

/-- A text ends at the first mark that it does not have in it. -/
theorem eq_of_marked {mark : Char} {s t more more' : String} (hs : mark ∉ s.toList) (ht : mark ∉ t.toList)
    (h : s ++ String.singleton mark ++ more = t ++ String.singleton mark ++ more') : s = t ∧ more = more' := by
  have hfront : ∀ {cs : List Char} (ds : List Char), mark ∉ cs → (cs ++ mark :: ds).takeWhile (· ≠ mark) = cs := by
    intro cs ds hcs
    have hall : ∀ c ∈ cs, decide (c ≠ mark) = true := fun c hc => decide_eq_true fun heq => hcs (heq ▸ hc)
    rw [List.takeWhile_append_of_pos hall, List.takeWhile_cons_of_neg (by simp), List.append_nil]
  have hlists : s.toList ++ mark :: more.toList = t.toList ++ mark :: more'.toList := by
    simpa only [String.toList_append, String.toList_singleton, List.append_assoc, List.singleton_append]
      using congrArg String.toList h
  have hst : s = t := String.toList_inj.mp (by rw [← hfront more.toList hs, hlists, hfront _ ht])
  exact ⟨hst, (String.append_right_inj _).mp (hst ▸ h)⟩

end Text

open Text

/-! ## Kinds -/

namespace ValueKind

theorem typeName_injective : Function.Injective typeName := by
  intro k l h
  cases k <;> cases l <;> first | rfl | exact absurd h (by decide)

/-- No name of a type has a quote in it. -/
theorem quote_not_mem (k : ValueKind) : '\'' ∉ k.typeName.toList := by
  cases k <;> decide

end ValueKind

/-! ## Numbers of arguments -/

theorem missingOrSurplus_of_length_le {parameters : List String} {n : Nat} (h : parameters.length ≤ n) :
    missingOrSurplus parameters n =
      "takes " ++ counted parameters.length "positional argument" ++ " but " ++ Nat.repr n ++ " were given" := by
  rw [missingOrSurplus, List.drop_eq_nil_of_le h]

theorem missingOrSurplus_of_lt {parameters : List String} {n : Nat} (h : n < parameters.length) :
    ∃ s, missingOrSurplus parameters n = "missing " ++ s := by
  obtain ⟨p, missing, hdrop⟩ := List.exists_cons_of_ne_nil (mt List.drop_eq_nil_iff.mp (Nat.not_le_of_lt h))
  refine ⟨counted (missing.length + 1) "required positional argument" ++ (": " ++
    String.intercalate " and " ((p :: missing).map fun p => "'" ++ p ++ "'")), ?_⟩
  rw [missingOrSurplus, hdrop, ← String.append_assoc, ← String.append_assoc]
  rfl

theorem missing_ne_surplus {parameters : List String} {m n : Nat} (hm : m < parameters.length)
    (hn : parameters.length ≤ n) : missingOrSurplus parameters m ≠ missingOrSurplus parameters n := by
  obtain ⟨s, hs⟩ := missingOrSurplus_of_lt hm
  rw [hs, missingOrSurplus_of_length_le hn, String.append_assoc, String.append_assoc, String.append_assoc]
  exact Before.append_ne (by decide) _ _

namespace Builtin

theorem missing_injective (f : Builtin) : ∀ m < f.parameters.length, ∀ n < f.parameters.length,
    missingOrSurplus f.parameters m = missingOrSurplus f.parameters n → m = n := by
  cases f <;> decide

theorem missingOrSurplus_injective (f : Builtin) : Function.Injective (missingOrSurplus f.parameters) := by
  intro m n h
  by_cases hm : m < f.parameters.length <;> by_cases hn : n < f.parameters.length
  · exact f.missing_injective m hm n hn h
  · exact absurd h (missing_ne_surplus hm (Nat.le_of_not_lt hn))
  · exact absurd h.symm (missing_ne_surplus hn (Nat.le_of_not_lt hm))
  · rw [missingOrSurplus_of_length_le (Nat.le_of_not_lt hm), missingOrSurplus_of_length_le (Nat.le_of_not_lt hn),
      String.append_left_inj, String.append_right_inj] at h
    exact Nat.repr_injective h

end Builtin

namespace Miscount

variable {m m' : Miscount}

/-- Of one family, what the report says of the number of arguments tells the number. -/
theorem eq_of_ending_eq (hfamily : m.family = m'.family) (h : m.ending = m'.ending) : m = m' := by
  obtain ⟨family, given, isFirst, isHidden⟩ := m
  obtain ⟨family', given', isFirst', isHidden'⟩ := m'
  cases hfamily
  suffices hgiven : given = given' by
    subst hgiven
    rfl
  unfold ending at h
  dsimp only at h
  split at h
  · exact (isHidden rfl).trans (isHidden' rfl).symm
  · exact Nat.repr_injective h
  · exact Nat.repr_injective h
  · split at h
    · exact Nat.repr_injective ((String.append_left_inj _).mp h)
    · exact Builtin.missingOrSurplus_injective _ h

end Miscount

/-! ## Openings -/

namespace Mismatch

variable {a b m : Mismatch}

/-- A mismatch with as much as its opening shows. -/
def blank : Mismatch → Mismatch
  | .operands op _ _ => .operands op .integer .integer
  | .negation _ => .negation .integer
  | .realNumber _ => .realNumber .integer
  | .conversion _ => .conversion .integer
  | .absolute _ => .absolute .integer
  | .cubeRoot _ => .cubeRoot .integer
  | .arguments m => .arguments (m.family.miscount 0)
  | .count => .count
  | .order => .order

/-- The blanks of some operators. -/
def ofOperators (ops : List BinaryOp) : List Mismatch := ops.map fun op => .operands op .integer .integer

/-- The blanks of some functions. -/
def ofFunctions (fs : List Builtin) : List Mismatch := fs.map fun f => .arguments (f.miscount 0)

/-- The mismatches with different openings, those whose openings are before the ones of `functionOpenings`. -/
def blanksInFront : List Mismatch :=
  ofOperators [.less, .atMost, .greater, .atLeast] ++ [.count] ++
    ofFunctions [.cbrt, .clz32, .imul, .floor, .max, .min, .sign, .abs, .atan2] ++
    [.absolute .integer, .negation .integer]

/-- The openings of the reports on a function in place of a number. -/
def functionOpenings : List String := ["cannot convert a function to a number", "expression evaluated to "]

/-- The other mismatches with different openings. -/
def blanksBehind : List Mismatch :=
  [.conversion .integer, .cubeRoot .integer] ++
    ofFunctions [.acos, .acosh, .asin, .asinh, .atan, .atanh, .cos, .cosh, .exp, .expm1, .hypot, .log, .log10, .log1p,
      .log2, .sin, .sinh, .sqrt, .tan, .tanh] ++
    [.realNumber .integer] ++ ofFunctions [.pow] ++
    ofOperators [.notEqual, .remainder, .bitAnd, .power, .mul, .add, .sub, .div, .shiftLeft, .equal, .shiftRight,
      .unsignedRight, .bitXor, .bitOr]

/-- All openings in alphabetical order. -/
theorem isChain_openings :
    (blanksInFront.map opening ++ (functionOpenings ++ blanksBehind.map opening)).IsChain Before := by
  simp only [blanksInFront, functionOpenings, blanksBehind, ofOperators, ofFunctions, Before, opening, Miscount.opening,
    Builtin.miscount, Builtin.family, Builtin.definedName, Builtin.name, Builtin.isPrimitive, BinaryOp.isOrder, BinaryOp.text,
    List.map_cons, List.map_nil, List.cons_append, List.nil_append, List.isChain_cons_cons, List.isChain_singleton,
    String.toList_append, if_true, -String.reduceToList]
  -- a literal is a list of characters by definition, and to decode its bytes instead takes long
  repeat rw [String.toList_ofList]
  decide +kernel

theorem pairwise_openings :
    (blanksInFront.map opening ++ (functionOpenings ++ blanksBehind.map opening)).Pairwise Before :=
  List.isChain_iff_pairwise.mp isChain_openings

/-- Mismatches with all openings. -/
def blanks : List Mismatch := blanksInFront ++ blanksBehind

theorem pairwise_blanks : blanks.Pairwise fun a b => Before a.opening b.opening := by
  have hsublist : (blanks.map opening).Sublist
      (blanksInFront.map opening ++ (functionOpenings ++ blanksBehind.map opening)) := by
    rw [blanks, List.map_append]
    exact (List.Sublist.refl _).append (List.sublist_append_right _ _)
  exact List.pairwise_map.mp (pairwise_openings.sublist hsublist)

theorem functionOpening_apart {a : Mismatch} {s : String} (ha : a ∈ blanks) (hs : s ∈ functionOpenings) :
    Before a.opening s ∨ Before s a.opening := by
  obtain ⟨-, hrest, hinFront⟩ := List.pairwise_append.mp pairwise_openings
  obtain ⟨-, -, hbehind⟩ := List.pairwise_append.mp hrest
  rcases List.mem_append.mp ha with hmem | hmem
  · exact .inl (hinFront _ (List.mem_map_of_mem hmem) s (List.mem_append_left _ hs))
  · exact .inr (hbehind s hs _ (List.mem_map_of_mem hmem))

theorem opening_blank (m : Mismatch) : m.blank.opening = m.opening := by
  cases m with
  | arguments m =>
    have hfamily : (m.family.miscount 0).family = m.family := m.isFirst
    simp only [blank, opening, Miscount.opening, hfamily]
  | _ => rfl

theorem description?_eq (h : m ≠ .order) : m.description? = some (m.opening ++ m.ending) := by
  cases m <;> first | rfl | exact absurd rfl h

theorem blank_mem (h : m ≠ .order) : m.blank ∈ blanks := by
  have hoperands : ∀ op, Mismatch.operands op .integer .integer ∈ blanks := by
    intro op
    cases op <;> decide
  have harguments : ∀ f ∈ Builtin.all, f.family = f → Mismatch.arguments (f.miscount 0) ∈ blanks := by decide
  cases m with
  | operands op => exact hoperands op
  | arguments m => exact harguments _ m.family.mem_all m.isFirst
  | order => exact absurd rfl h
  | negation => exact (by decide : Mismatch.negation .integer ∈ blanks)
  | realNumber => exact (by decide : Mismatch.realNumber .integer ∈ blanks)
  | conversion => exact (by decide : Mismatch.conversion .integer ∈ blanks)
  | absolute => exact (by decide : Mismatch.absolute .integer ∈ blanks)
  | cubeRoot => exact (by decide : Mismatch.cubeRoot .integer ∈ blanks)
  | count => decide

/-- Two mismatches with openings that are continued to one text have the same blank. -/
theorem blank_eq_of_opening_append (ha : a ≠ .order) (hb : b ≠ .order) {more more' : String}
    (h : a.opening ++ more = b.opening ++ more') : a.blank = b.blank := by
  rw [← opening_blank a, ← opening_blank b] at h
  have hsymm : Std.Symm fun a b : Mismatch => Before a.opening b.opening ∨ Before b.opening a.opening :=
    ⟨fun _ _ => Or.symm⟩
  have happart : blanks.Pairwise fun a b => Before a.opening b.opening ∨ Before b.opening a.opening :=
    pairwise_blanks.imp .inl
  by_contra hne
  rcases happart.forall (blank_mem ha) (blank_mem hb) hne with hab | hba
  · exact hab.append_ne _ _ h
  · exact hba.append_ne _ _ h.symm

theorem description?_ne_functionOpening_append {s : String} (hs : s ∈ functionOpenings) (more : String) :
    m.description? ≠ some (s ++ more) := by
  intro h
  by_cases hm : m = .order
  · subst hm
    cases h
  rw [description?_eq hm, Option.some_inj, ← opening_blank m] at h
  rcases functionOpening_apart (blank_mem hm) hs with hfront | hbehind
  · exact hfront.append_ne _ _ h
  · exact hbehind.append_ne _ _ h.symm

/-- The blank of a mismatch and what follows its opening are all of it. -/
theorem eq_of_blank_eq (hblank : a.blank = b.blank) (hending : a.ending = b.ending) : a = b := by
  cases a <;> cases b <;> try cases hblank
  case operands.operands.refl op l r l' r' =>
    have hmarked : ∀ l r : ValueKind, (operands op l r).ending =
        l.typeName ++ String.singleton '\'' ++ (" and '" ++ r.typeName ++ "'") := by
      intro l r
      simp only [ending, String.append_assoc]
      rfl
    rw [hmarked, hmarked] at hending
    obtain ⟨hl, hr⟩ := eq_of_marked l.quote_not_mem l'.quote_not_mem hending
    rw [String.append_left_inj, String.append_right_inj] at hr
    rw [ValueKind.typeName_injective hl, ValueKind.typeName_injective hr]
  case arguments.arguments m m' =>
    have hfamily : m.family = m'.family := by
      rw [← m.isFirst, ← m'.isFirst]
      exact congrArg Miscount.family (Mismatch.arguments.inj hblank)
    exact congrArg _ (Miscount.eq_of_ending_eq hfamily hending)
  case realNumber.realNumber.refl => exact congrArg _ (ValueKind.typeName_injective hending)
  all_goals first | rfl | exact congrArg _ (ValueKind.typeName_injective ((String.append_left_inj _).mp hending))

/-- **Mismatches with the same description are the same.** -/
theorem eq_of_description_eq (h : a.description? = b.description?) : a = b := by
  by_cases ha : a = .order
  · subst ha
    cases b <;> first | rfl | cases h
  by_cases hb : b = .order
  · subst hb
    cases a <;> first | rfl | cases h
  rw [description?_eq ha, description?_eq hb, Option.some_inj] at h
  have hblank : a.blank = b.blank := blank_eq_of_opening_append ha hb h
  have hopening : a.opening = b.opening := by rw [← opening_blank, hblank, opening_blank]
  rw [hopening, String.append_right_inj] at h
  exact eq_of_blank_eq hblank h

-- functions that are defined together are told from the others only
example : (arguments (Builtin.round.miscount 2)).description? =
    some "_integral.<locals>.rounded() takes 1 positional argument but 2 were given" := by decide

end Mismatch

end DotGrid
