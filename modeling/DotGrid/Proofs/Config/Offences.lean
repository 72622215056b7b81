import DotGrid.Proofs.Config.Reporting
import Mathlib.Data.List.Pairwise

/-!
# Entries that break a rule

`FieldOffends` says for an entry of a `render` mapping, and `Offends` for an entry of a document, that its key is
unknown or that its value cannot be read as the field demands. The offending fields are those with which something is
found to be wrong (`renderTrouble?_eq_none_iff`): they break a rule, or there is a reason why they are not converted
(`rule_or_reason`). Keys that are the same are equal where a mapping has no key twice (`DistinctKeys.eq_of_sameKey`).
-/

namespace DotGrid

/-! ## Keys -/

theorem Measure.compare?_eq_comm {a b : Measure} : compare? a b = some .eq ↔ compare? b a = some .eq := by
  have hunits : ∀ m n : Int, some (compare m n) = some .eq ↔ some (compare n m) = some .eq := by
    intro m n
    rw [Option.some_inj, Option.some_inj, Int.compare_eq_eq, Int.compare_eq_eq, eq_comm]
  cases a <;> cases b <;> first | exact hunits _ _ | simp [compare?]

theorem Date.isSame_comm (d e : Date) : d.isSame e = e.isSame d := by
  have hclock : decide (d.clock.isSome = e.clock.isSome) = decide (e.clock.isSome = d.clock.isSome) :=
    decide_eq_decide.mpr eq_comm
  have hzone : decide (d.zone.isSome = e.zone.isSome) = decide (e.zone.isSome = d.zone.isSome) :=
    decide_eq_decide.mpr eq_comm
  have hinstant : decide (d.instant = e.instant) = decide (e.instant = d.instant) := decide_eq_decide.mpr eq_comm
  rw [isSame, isSame, isComparable, isComparable, hclock, hzone, hinstant]

namespace Datum

variable {a b : Datum} {name : String} {entries : List (Datum × Datum)} {v : Datum}

theorem sameKey_text_iff : a.sameKey (.text name) = true ↔ a = .text name := by
  cases a <;> simp [sameKey, number?]

theorem sameKey_comm (a b : Datum) : a.sameKey b = b.sameKey a := by
  -- two keys of one kind are compared by an equality, and two numbers by their measures
  cases a <;> cases b <;> first
    | rfl
    | exact decide_eq_decide.mpr eq_comm
    | exact decide_eq_decide.mpr Measure.compare?_eq_comm
    | exact Date.isSame_comm _ _

/-- Two keys of which one can be put before the other, or which are the same. -/
def Ranks (a b : Datum) : Prop := a.sameKey b = true ∨ ∃ answer, a.before? b = some answer

/-- A key can be compared with itself, or it comes before no key and is the same as another one only if it is as
itself. -/
theorem before?_self_or_none (a : Datum) :
    (∃ answer, a.before? a = some answer) ∨
      ∀ b, a.before? b = none ∧ (a.sameKey b = true → a.sameKey a = true) := by
  cases a with
  | null => exact .inr fun b => ⟨by cases b <;> rfl, fun _ => rfl⟩
  | boolean b => exact .inl ⟨_, rfl⟩
  | integer n => exact .inl ⟨_, rfl⟩
  | real d => exact .inl ⟨_, rfl⟩
  | text s => exact .inl ⟨_, rfl⟩
  | bytes bs => exact .inl ⟨_, rfl⟩
  | date d => exact .inl ⟨_, if_pos (by simp [Date.isComparable])⟩
  | list items => exact .inr fun b => ⟨by cases b <;> rfl, fun h => by cases b <;> cases h⟩
  | mapping entries => exact .inr fun b => ⟨by cases b <;> rfl, fun h => by cases b <;> cases h⟩
  | set members => exact .inr fun b => ⟨by cases b <;> rfl, fun h => by cases b <;> cases h⟩

/-- A key that can be put before any other can be compared with itself. -/
theorem before?_self (h : ∃ answer, a.before? b = some answer) : ∃ answer, a.before? a = some answer := by
  refine a.before?_self_or_none.resolve_right fun hnone => ?_
  obtain ⟨answer, hanswer⟩ := h
  rw [(hnone b).1] at hanswer
  cases hanswer

/-- A key that ranks with any other also ranks with itself. -/
theorem Ranks.self (h : a.Ranks b) : a.Ranks a := by
  rcases h with hsame | hbefore
  · rcases a.before?_self_or_none with hself | hnone
    · exact .inr hself
    · exact .inl ((hnone b).2 hsame)
  · exact .inr (before?_self hbefore)

/-- Entries of which no two have the same key. -/
def DistinctKeys (entries : List (Datum × Datum)) : Prop := entries.Pairwise fun e f => e.1.sameKey f.1 = false

instance : DecidablePred DistinctKeys := fun entries =>
  inferInstanceAs (Decidable (entries.Pairwise fun e f => e.1.sameKey f.1 = false))

theorem distinctKeys_iff : DistinctKeys entries ↔ (entries.map (·.1)).Pairwise fun a b => a.sameKey b = false := by
  rw [DistinctKeys, List.pairwise_map]

theorem DistinctKeys.eq_of_sameKey (h : DistinctKeys entries) {e f : Datum × Datum} (he : e ∈ entries)
    (hf : f ∈ entries) (hkey : e.1.sameKey f.1 = true) : e = f := by
  by_contra hne
  have hsymm : Std.Symm fun e f : Datum × Datum => e.1.sameKey f.1 = false :=
    ⟨fun e f hef => (sameKey_comm f.1 e.1).trans hef⟩
  have hdiff := List.Pairwise.forall h he hf hne
  rw [hkey] at hdiff
  cases hdiff

theorem mem_of_lookup? (h : lookup? name entries = some v) : (.text name, v) ∈ entries := by
  obtain ⟨e, he, rfl⟩ := Option.map_eq_some_iff.mp h
  have hkey : e.1 = .text name := sameKey_text_iff.mp (by simpa using List.find?_some he)
  rw [← hkey]
  exact List.mem_of_find?_eq_some he

theorem lookup?_of_mem (h : DistinctKeys entries) (hv : (.text name, v) ∈ entries) :
    lookup? name entries = some v := by
  unfold lookup?
  cases hfind : entries.find? fun e => e.1.sameKey (.text name) with
  | none =>
    have hnone := List.find?_eq_none.mp hfind _ hv
    exact absurd (sameKey_text_iff.mpr rfl) hnone
  | some e =>
    have hkey : e.1.sameKey (.text name) = true := by simpa using List.find?_some hfind
    rw [h.eq_of_sameKey (List.mem_of_find?_eq_some hfind) hv hkey]
    rfl

end Datum

/-- A trouble with a rule or a reason to tell. -/
def Trouble.IsTold (t : Trouble) : Prop := t.rule.isSome = true ∨ t.reason.isSome = true

namespace RenderConfig

variable {key value : Datum} {entries fields : List (Datum × Datum)} {c : RenderConfig}

/-! ## Offences -/

/-- The names of the fields of a `render` mapping. -/
def fieldNames : List String := ["size", "start", "fps", "frames", "clamp", "workers"]

/-- A value of a field that is given and cannot be read as the field demands. -/
def Refuses {α : Type} (reads : Datum → α → Prop) (value : Datum) : Prop := value ≠ .null ∧ ∀ a, ¬ reads value a

/-- An entry of a `render` mapping that breaks a rule: the key is none of the fields, or the value cannot be read as the
field demands. -/
inductive FieldOffends (key value : Datum) : Prop
  | unknown (h : ∀ name ∈ fieldNames, key ≠ .text name)
  | count (hkey : key = .text "size" ∨ key = .text "frames" ∨ key = .text "workers") (h : Refuses ReadsCount value)
  | start (hkey : key = .text "start") (h : Refuses ReadsReal value)
  | rate (hkey : key = .text "fps") (h : Refuses ReadsRate value)
  | truth (hkey : key = .text "clamp") (h : Refuses ReadsTruth value)

/-- An entry of a document that breaks a rule: the key is unknown, the expression is neither a text nor null, or a field
of the `render` mapping breaks a rule. -/
inductive Offends (key value : Datum) : Prop
  | unknown (h : key ≠ .text "expression") (h' : key ≠ .text "render")
  | expression (hkey : key = .text "expression") (h : Refuses ReadsExpression value)
  | render (hkey : key = .text "render") {fields : List (Datum × Datum)} (hvalue : value = .mapping fields)
      {e : Datum × Datum} (he : e ∈ fields) (h : FieldOffends e.1 e.2)

theorem fieldOffends_count_iff (hkey : key = .text "size" ∨ key = .text "frames" ∨ key = .text "workers") :
    FieldOffends key value ↔ Refuses ReadsCount value := by
  refine ⟨fun h => ?_, .count hkey⟩
  cases h with
  | unknown h => rcases hkey with rfl | rfl | rfl <;> simp [fieldNames] at h
  | count _ h => exact h
  | start hkey' _ => simp [hkey'] at hkey
  | rate hkey' _ => simp [hkey'] at hkey
  | truth hkey' _ => simp [hkey'] at hkey

theorem fieldOffends_start_iff : FieldOffends (.text "start") value ↔ Refuses ReadsReal value := by
  refine ⟨fun h => ?_, .start rfl⟩
  cases h with
  | unknown h => simp [fieldNames] at h
  | count hkey _ => simp at hkey
  | start _ h => exact h
  | rate hkey _ => simp at hkey
  | truth hkey _ => simp at hkey

theorem fieldOffends_rate_iff : FieldOffends (.text "fps") value ↔ Refuses ReadsRate value := by
  refine ⟨fun h => ?_, .rate rfl⟩
  cases h with
  | unknown h => simp [fieldNames] at h
  | count hkey _ => simp at hkey
  | start hkey _ => simp at hkey
  | rate _ h => exact h
  | truth hkey _ => simp at hkey

theorem fieldOffends_truth_iff : FieldOffends (.text "clamp") value ↔ Refuses ReadsTruth value := by
  refine ⟨fun h => ?_, .truth rfl⟩
  cases h with
  | unknown h => simp [fieldNames] at h
  | count hkey _ => simp at hkey
  | start hkey _ => simp at hkey
  | rate hkey _ => simp at hkey
  | truth _ h => exact h

theorem not_refuses_iff {α : Type} {reads : Datum → α → Prop} :
    ¬ Refuses reads value ↔ value = .null ∨ ∃ a, reads value a := by
  simp only [Refuses, not_and_or, not_forall, not_not]

theorem trouble?_valueOr_eq_none_iff {α : Type} {default : α} {check : Datum → Checked α} {reads : Datum → α → Prop}
    (hreads : ∀ d a, check d = .ok a ↔ reads d a) :
    trouble? (valueOr default check (some value)) = none ↔ ¬ Refuses reads value := by
  rw [not_refuses_iff]
  by_cases hnull : value = .null
  · rw [hnull]
    exact ⟨fun _ => .inl rfl, fun _ => rfl⟩
  · rw [valueOr_of_ne_null hnull]
    simp only [hnull, false_or, ← hreads]
    cases check value with
    | ok a => exact ⟨fun _ => ⟨a, rfl⟩, fun _ => rfl⟩
    | error t => exact ⟨nofun, nofun⟩

/-- Something is found to be wrong with a field if and only if it offends. -/
theorem renderTrouble?_eq_none_iff : renderTrouble? key value = none ↔ ¬ FieldOffends key value := by
  have hcount : (key = .text "size" ∨ key = .text "frames" ∨ key = .text "workers") →
      (trouble? (valueOr 1 positiveInteger (some value)) = none ↔ ¬ FieldOffends key value) := fun hkey =>
    (trouble?_valueOr_eq_none_iff fun _ _ => positiveInteger_eq_ok_iff).trans (fieldOffends_count_iff hkey).not.symm
  unfold renderTrouble?
  split
  · exact hcount (.inl rfl)
  · exact hcount (.inr (.inl rfl))
  · exact hcount (.inr (.inr rfl))
  · exact (trouble?_valueOr_eq_none_iff fun _ _ => realField_eq_ok_iff).trans fieldOffends_start_iff.not.symm
  · exact (trouble?_valueOr_eq_none_iff fun _ _ => rateField_eq_ok_iff).trans fieldOffends_rate_iff.not.symm
  · exact (trouble?_valueOr_eq_none_iff fun _ _ => truthField_eq_ok_iff).trans fieldOffends_truth_iff.not.symm
  · refine ⟨nofun, fun h => absurd (.unknown fun name hname hkey => ?_) h⟩
    subst hkey
    simp only [fieldNames, List.mem_cons, List.not_mem_nil, or_false] at hname
    rcases hname with rfl | rfl | rfl | rfl | rfl | rfl <;> simp_all

/-! ## What is told of an offence -/

theorem positiveInteger_isTold {d : Datum} {t : Trouble} (h : positiveInteger d = .error t) : t.IsTold := by
  unfold positiveInteger at h
  split at h
  · split at h
    · cases h
      exact .inl rfl
    · cases h
  · cases h
    exact .inl rfl

theorem realField_isTold {d : Datum} {t : Trouble} (h : realField d = .error t) : t.IsTold := by
  unfold realField at h
  cases hreal : d.toReal with
  | ok x => rw [hreal] at h; cases h
  | error reason =>
    rw [hreal] at h
    cases h
    exact .inr rfl

theorem rateField_isTold {d : Datum} {t : Trouble} (h : rateField d = .error t) : t.IsTold := by
  unfold rateField at h
  cases hreal : realField d with
  | ok x =>
    simp only [hreal] at h
    split at h
    · cases h
      exact .inl rfl
    · cases h
  | error u =>
    simp only [hreal] at h
    cases h
    rcases realField_isTold hreal with hrule | hreason
    · refine .inl ?_
      dsimp only
      split
      · rfl
      · exact hrule
    · exact .inr hreason

theorem truthField_isTold {d : Datum} {t : Trouble} (h : truthField d = .error t) : t.IsTold := by
  unfold truthField at h
  split at h
  · cases h
  · cases h
    exact .inl rfl

theorem error_of_trouble?_valueOr {α : Type} {default : α} {check : Datum → Checked α} {t : Trouble}
    (h : trouble? (valueOr default check (some value)) = some t) : check value = .error t := by
  by_cases hnull : value = .null
  · rw [hnull] at h
    cases h
  · rw [valueOr_of_ne_null hnull] at h
    cases hcheck : check value with
    | ok a => rw [hcheck] at h; cases h
    | error u =>
      rw [hcheck] at h
      cases h
      rfl

/-- What is wrong with a field breaks a rule, or it has a reason and the field is one of those that are known. -/
theorem rule_or_reason {t : Trouble} (h : renderTrouble? key value = some t) :
    (∃ rule, t.rule = some rule) ∨ ∃ name reason, key = .text name ∧ t.reason = some reason := by
  have htold : t.IsTold → ∀ {name : String}, key = .text name →
      (∃ rule, t.rule = some rule) ∨ ∃ name reason, key = .text name ∧ t.reason = some reason := by
    intro ht name hkey
    rcases ht with ht | ht
    · exact .inl (Option.isSome_iff_exists.mp ht)
    · obtain ⟨reason, hreason⟩ := Option.isSome_iff_exists.mp ht
      exact .inr ⟨name, reason, hkey, hreason⟩
  unfold renderTrouble? at h
  split at h
  · exact htold (positiveInteger_isTold (error_of_trouble?_valueOr h)) rfl
  · exact htold (positiveInteger_isTold (error_of_trouble?_valueOr h)) rfl
  · exact htold (positiveInteger_isTold (error_of_trouble?_valueOr h)) rfl
  · exact htold (realField_isTold (error_of_trouble?_valueOr h)) rfl
  · exact htold (rateField_isTold (error_of_trouble?_valueOr h)) rfl
  · exact htold (truthField_isTold (error_of_trouble?_valueOr h)) rfl
  · cases h
    exact .inl ⟨_, rfl⟩

end RenderConfig

end DotGrid
