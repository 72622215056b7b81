import DotGrid.Proofs.Config.Subjects

/-!
# What a report names

The entries of a report are entered one by one, each under the key that its finding is about, so a report has each of
these keys once (`Finding.keys_foldl_reported`, `Datum.mem_foldl_addedKey_iff`). The findings about a document tell
which of its entries and fields offend, so a report names these and no others (`reportNames_of_tells`).
-/

namespace DotGrid

open Datum (DistinctKeys sameKey_comm sameKey_text_iff)

variable {key value k v : Datum} {es : List (Datum × Datum)} {keys ks : List Datum}

/-! ## Keys of a report -/

namespace Datum

/-- Keys of a mapping with one more, unless it is there already. -/
def addedKey (keys : List Datum) (key : Datum) : List Datum :=
  if keys.any (·.sameKey key) then keys else keys ++ [key]

theorem addedKey_cons (k : Datum) (keys : List Datum) (key : Datum) :
    addedKey (k :: keys) key = if k.sameKey key then k :: keys else k :: addedKey keys key := by
  unfold addedKey
  rw [List.any_cons]
  cases k.sameKey key with
  | true => rfl
  | false => simp only [Bool.false_or, Bool.false_eq_true, if_false]; split <;> rfl

theorem mem_addedKey_iff (h : ∀ k ∈ keys, k.sameKey key = true → k = key) :
    k ∈ addedKey keys key ↔ k ∈ keys ∨ k = key := by
  unfold addedKey
  split
  · rename_i hany
    obtain ⟨k', hk', hsame⟩ := List.any_eq_true.mp hany
    refine ⟨.inl, fun hk => hk.elim id fun hk => ?_⟩
    rw [hk, ← h k' hk' hsame]
    exact hk'
  · rw [List.mem_append, List.mem_singleton]

theorem addedKey_pairwise (h : keys.Pairwise fun a b => a.sameKey b = false) (key : Datum) :
    (addedKey keys key).Pairwise fun a b => a.sameKey b = false := by
  unfold addedKey
  split
  · exact h
  · rename_i hany
    refine List.pairwise_append.mpr ⟨h, List.pairwise_singleton _ _, fun a ha b hb => ?_⟩
    cases List.mem_singleton.mp hb
    simpa using fun hsame => hany (List.any_eq_true.mpr ⟨a, ha, hsame⟩)

theorem mem_foldl_addedKey_iff (h : ∀ a ∈ keys ++ ks, ∀ b ∈ keys ++ ks, a.sameKey b = true → a = b) :
    k ∈ ks.foldl addedKey keys ↔ k ∈ keys ++ ks := by
  induction ks generalizing keys with
  | nil => rw [List.append_nil]; rfl
  | cons key ks ih =>
    have hadded : ∀ a, a ∈ addedKey keys key ↔ a ∈ keys ∨ a = key := fun a =>
      mem_addedKey_iff fun k hk => h k (List.mem_append_left _ hk) key (by simp)
    have hmem : ∀ a, a ∈ addedKey keys key ++ ks ↔ a ∈ keys ++ key :: ks := by
      intro a
      rw [List.mem_append, List.mem_append, hadded, List.mem_cons, or_assoc]
    rw [List.foldl_cons, ih fun a ha b hb => h a ((hmem a).mp ha) b ((hmem b).mp hb), hmem]

theorem foldl_addedKey_pairwise (h : keys.Pairwise fun a b => a.sameKey b = false) (ks : List Datum) :
    (ks.foldl addedKey keys).Pairwise fun a b => a.sameKey b = false := by
  induction ks generalizing keys with
  | nil => exact h
  | cons key ks ih => exact ih (addedKey_pairwise h key)

theorem keys_insertEntry (key value : Datum) (es : List (Datum × Datum)) :
    (insertEntry key value es).map (·.1) = addedKey (es.map (·.1)) key := by
  induction es with
  | nil => rfl
  | cons e es ih =>
    rw [insertEntry, List.map_cons, addedKey_cons, ← ih]
    split <;> rfl

end Datum

namespace Finding

open Datum (addedKey addedKey_cons keys_insertEntry foldl_addedKey_pairwise mem_foldl_addedKey_iff)

theorem keys_withText (key : Datum) (text : String) (es : List (Datum × Datum)) :
    (withText key text es).map (·.1) = addedKey (es.map (·.1)) key := by
  induction es with
  | nil => rfl
  | cons e es ih =>
    obtain ⟨k, v⟩ := e
    rw [List.map_cons, addedKey_cons, ← ih]
    cases hkey : k.sameKey key with
    | true => simp [withText, hkey]
    | false => simp [withText, hkey]

theorem keys_collected (problems : List (Datum × Problem)) :
    (collected problems).map (·.1) = (problems.map (·.1)).foldl addedKey [] := by
  have hfold : ∀ es : List (Datum × Datum),
      (problems.foldl (fun es p => withText p.1 p.2.text es) es).map (·.1) =
        (problems.map (·.1)).foldl addedKey (es.map (·.1)) := by
    induction problems with
    | nil => exact fun es => rfl
    | cons p problems ih =>
      intro es
      rw [List.foldl_cons, List.map_cons, List.foldl_cons, ih, keys_withText]
  exact hfold []

/-- The entries of a report. -/
def reported (render : Datum) (es : List (Datum × Datum)) (f : Finding) : List (Datum × Datum) :=
  match f with
  | .field key problem => withText key problem.text es
  | _ => Datum.insertEntry renderKey render es

theorem keys_reported (render : Datum) (es : List (Datum × Datum)) (f : Finding) :
    (reported render es f).map (·.1) = addedKey (es.map (·.1)) f.head := by
  cases f with
  | field key problem => exact keys_withText key problem.text es
  | inside problems => exact keys_insertEntry renderKey render es
  | conversion name reason => exact keys_insertEntry renderKey render es

theorem keys_foldl_reported (render : Datum) (fs : List Finding) (es : List (Datum × Datum)) :
    (fs.foldl (reported render) es).map (·.1) = (fs.map head).foldl addedKey (es.map (·.1)) := by
  induction fs generalizing es with
  | nil => rfl
  | cons f fs ih => rw [List.foldl_cons, List.map_cons, List.foldl_cons, ih, keys_reported]

/-- What is inside of the `render` mapping of a report. -/
def nested (fs : List Finding) : List (Datum × Datum) := collected (fs.flatMap problems)

theorem report_eq (fs : List Finding) :
    report fs = .mapping (fs.foldl (reported (.list [.mapping (nested fs)])) []) := by
  unfold report
  rfl

theorem mem_withText {text : String} (h : (k, v) ∈ withText key text es) :
    (k, v) ∈ es ∨ k = key ∨ k.sameKey key = true := by
  induction es with
  | nil => exact .inr (.inl (congrArg Prod.fst (List.mem_singleton.mp h)))
  | cons e es ih =>
    obtain ⟨k', v'⟩ := e
    cases hkey : k'.sameKey key with
    | true =>
      simp only [withText, hkey, if_true, List.mem_cons, Prod.mk.injEq] at h ⊢
      rcases h with ⟨rfl, -⟩ | h
      · exact .inr (.inr hkey)
      · exact .inl (.inr h)
    | false =>
      simp only [withText, hkey, Bool.false_eq_true, if_false, List.mem_cons] at h ⊢
      rcases h with h | h
      · exact .inl (.inl h)
      · exact (ih h).imp .inr id

theorem mem_insertEntry (h : (k, v) ∈ Datum.insertEntry key value es) : (k, v) ∈ es ∨ v = value := by
  induction es with
  | nil => exact .inr (congrArg Prod.snd (List.mem_singleton.mp h))
  | cons e es ih =>
    rw [Datum.insertEntry] at h
    split at h
    · rcases List.mem_cons.mp h with h | h
      · exact .inr (congrArg Prod.snd h)
      · exact .inl (List.mem_cons_of_mem _ h)
    · rcases List.mem_cons.mp h with h | h
      · exact .inl (List.mem_cons.mpr (.inl h))
      · exact (ih h).imp (List.mem_cons_of_mem _) id

/-- The value of the `render` mapping in a report is what is inside of it. -/
theorem eq_of_mem_foldl_reported {render : Datum} {fs : List Finding}
    (hapart : ∀ key problem, .field key problem ∈ fs → key ≠ renderKey) (hes : ∀ v, (renderKey, v) ∈ es → v = render)
    (h : (renderKey, v) ∈ fs.foldl (reported render) es) : v = render := by
  induction fs generalizing es with
  | nil => exact hes v h
  | cons f fs ih =>
    refine ih (fun key problem hf => hapart key problem (List.mem_cons_of_mem _ hf)) (fun v hv => ?_) h
    cases f with
    | field key problem =>
      rcases mem_withText hv with hv | hkey | hkey
      · exact hes v hv
      · exact absurd hkey.symm (hapart key problem List.mem_cons_self)
      · exact absurd (sameKey_text_iff.mp ((sameKey_comm key renderKey).trans hkey))
          (hapart key problem List.mem_cons_self)
    | inside problems => exact (mem_insertEntry hv).elim (hes v) id
    | conversion name reason => exact (mem_insertEntry hv).elim (hes v) id

end Finding

namespace RenderConfig

variable {entries fields : List (Datum × Datum)} {fs : List Finding}

/-- A report, and what is inside of its `render` mapping, in which the entries and the fields that offend are named and
no others. -/
structure ReportNames (entries es nested : List (Datum × Datum)) : Prop where
  distinct : DistinctKeys es
  keys : ∀ k, (∃ v, (k, v) ∈ es) ↔ ∃ v, (k, v) ∈ entries ∧ Offends k v
  render : ∀ v, (.text "render", v) ∈ es → v = .list [.mapping nested]
  distinctFields : DistinctKeys nested
  fields : ∀ k, (∃ v, (k, v) ∈ nested) ↔ ∃ v, (k, v) ∈ renderFields entries ∧ FieldOffends k v

theorem exists_mem_iff_mem_keys {es : List (Datum × Datum)} : (∃ v, (k, v) ∈ es) ↔ k ∈ es.map (·.1) := by
  rw [List.mem_map]
  exact ⟨fun ⟨v, hv⟩ => ⟨(k, v), hv, rfl⟩, fun ⟨e, he, hk⟩ => ⟨e.2, by rwa [← hk]⟩⟩

/-- Keys of entries that are the same are equal. -/
theorem eq_of_sameKey_of_mem (hdistinct : DistinctKeys entries) {P : Datum → Datum → Prop} {ks : List Datum}
    (hks : ∀ k ∈ ks, ∃ v, (k, v) ∈ entries ∧ P k v) : ∀ a ∈ ks, ∀ b ∈ ks, a.sameKey b = true → a = b := by
  intro a ha b hb hsame
  obtain ⟨v, hv, -⟩ := hks a ha
  obtain ⟨w, hw, -⟩ := hks b hb
  exact congrArg Prod.fst (hdistinct.eq_of_sameKey hv hw hsame)

theorem IsDocument.renderFields_distinct (hdoc : IsDocument entries) : DistinctKeys (renderFields entries) := by
  unfold renderFields
  split
  · rename_i fields hlookup
    rcases hdoc.render _ hlookup with hnull | ⟨fields', heq, hdistinct⟩
    · cases hnull
    · cases heq
      exact hdistinct
  · exact List.Pairwise.nil

theorem reportNames_of_tells (hdoc : IsDocument entries) (h : Tells entries fs) :
    ∃ es nested, Finding.report fs = .mapping es ∧ ReportNames entries es nested := by
  refine ⟨_, Finding.nested fs, Finding.report_eq fs, ?_⟩
  have hheads : ∀ k, k ∈ fs.map Finding.head ↔ ∃ v, (k, v) ∈ entries ∧ Offends k v := fun k => by
    rw [← h.keys, List.mem_map]
  have hproblems : ∀ k, k ∈ (fs.flatMap Finding.problems).map (·.1) ↔
      ∃ v, (k, v) ∈ renderFields entries ∧ FieldOffends k v := fun k => by
    rw [← h.fields, List.mem_map]
    simp only [List.mem_flatMap]
    exact ⟨fun ⟨p, ⟨f, hf, hp⟩, hk⟩ => ⟨f, hf, p, hp, hk⟩, fun ⟨f, hf, p, hp, hk⟩ => ⟨p, ⟨f, hf, hp⟩, hk⟩⟩
  have hkeys := Finding.keys_foldl_reported (.list [.mapping (Finding.nested fs)]) fs []
  have hnested : (Finding.nested fs).map (·.1) = _ := Finding.keys_collected (fs.flatMap Finding.problems)
  constructor
  · rw [Datum.distinctKeys_iff, hkeys]
    exact Datum.foldl_addedKey_pairwise List.Pairwise.nil _
  · intro k
    rw [exists_mem_iff_mem_keys, hkeys, List.map_nil, ← hheads, Datum.mem_foldl_addedKey_iff, List.nil_append]
    exact eq_of_sameKey_of_mem hdoc.distinct fun k hk => (hheads k).mp hk
  · exact fun v hv => Finding.eq_of_mem_foldl_reported h.apart (fun v hv => absurd hv List.not_mem_nil) hv
  · rw [Datum.distinctKeys_iff, hnested]
    exact Datum.foldl_addedKey_pairwise List.Pairwise.nil _
  · intro k
    rw [exists_mem_iff_mem_keys, hnested, ← hproblems, Datum.mem_foldl_addedKey_iff, List.nil_append]
    exact eq_of_sameKey_of_mem hdoc.renderFields_distinct fun k hk => (hproblems k).mp hk

end RenderConfig

end DotGrid
