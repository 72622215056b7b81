import DotGrid.Distinct

/-!
# The order of first occurrences

`InFirstOrder found as` says that `found` has the members of `as`, each of them once, in the order in which they occur
first. A list is read from the left: what is found so far is in first order for the part that is read
(`InFirstOrder.snoc`), and so it is for the whole list at the end (`inFirstOrder_firstOccurrences`).
-/

namespace DotGrid

variable {α β : Type} [DecidableEq α] {a b : α} {found as : List α}

/-- The members of a list in the order of their first occurrences. -/
structure InFirstOrder (found as : List α) : Prop where
  mem_iff : ∀ a, a ∈ found ↔ a ∈ as
  ordered : found.Pairwise fun a b => as.idxOf a < as.idxOf b

/-- To leave out other members does not change which of two members comes first. -/
theorem idxOf_lt_of_filter {p : α → Bool} (ha : a ∈ as.filter p) (hb : b ∈ as.filter p)
    (h : (as.filter p).idxOf a < (as.filter p).idxOf b) : as.idxOf a < as.idxOf b := by
  induction as with
  | nil => cases ha
  | cons c as ih =>
    cases hc : p c with
    | true =>
      -- the member in front is the first one of both lists
      rw [List.filter_cons_of_pos hc] at ha hb h
      grind
    | false =>
      have hne : ∀ d ∈ as.filter p, c ≠ d := by
        rintro d hd rfl
        simp [hc] at hd
      rw [List.filter_cons_of_neg (by simp [hc])] at ha hb h
      have hlt := ih ha hb h
      grind

theorem idxOf_map [DecidableEq β] {g : α → β} (hg : Function.Injective g) (a : α) (as : List α) :
    (as.map g).idxOf (g a) = as.idxOf a := by
  induction as with
  | nil => rfl
  | cons b as ih =>
    have hne : b ≠ a → g b ≠ g a := fun hne heq => hne (hg heq)
    grind

namespace InFirstOrder

theorem nodup (h : InFirstOrder found as) : found.Nodup := by
  refine h.ordered.imp fun {a b} hlt heq => ?_
  rw [heq] at hlt
  exact Nat.lt_irrefl _ hlt

/-- One more member is found if it is new. -/
theorem snoc (h : InFirstOrder found as) (a : α) :
    InFirstOrder (if a ∈ found then found else found ++ [a]) (as ++ [a]) := by
  have hold : ∀ b ∈ found, (as ++ [a]).idxOf b = as.idxOf b := by
    intro b hb
    rw [List.idxOf_append, if_pos ((h.mem_iff b).mp hb)]
  have hkept : found.Pairwise fun b c => (as ++ [a]).idxOf b < (as ++ [a]).idxOf c := by
    refine h.ordered.imp_of_mem fun hb hc hlt => ?_
    rwa [hold _ hb, hold _ hc]
  split
  · rename_i ha
    refine ⟨fun b => ?_, hkept⟩
    have hab : b = a → b ∈ as := fun heq => heq ▸ (h.mem_iff a).mp ha
    simpa [h.mem_iff] using hab
  · rename_i ha
    refine ⟨fun b => by simp [h.mem_iff], List.pairwise_append.mpr ⟨hkept, List.pairwise_singleton .., ?_⟩⟩
    intro b hb c hc
    obtain rfl := List.mem_singleton.mp hc
    have hnew : c ∉ as := fun hc => ha ((h.mem_iff c).mpr hc)
    -- a new member stands behind the whole part that was read before
    rw [hold b hb, List.idxOf_append, if_neg hnew]
    have hlt := List.idxOf_lt_length_iff.mpr ((h.mem_iff b).mp hb)
    omega

theorem occurrencesAfter (h : InFirstOrder found as) (more : List α) :
    InFirstOrder (occurrencesAfter found more) (as ++ more) := by
  induction more generalizing found as with
  | nil => rwa [List.append_nil]
  | cons a more ih =>
    rw [List.append_cons]
    exact ih (h.snoc a)

/-- Members that are chosen from a list stand in the order of the whole list. -/
theorem ordered_of_filter {p : α → Bool} (h : InFirstOrder found (as.filter p)) :
    found.Pairwise fun a b => as.idxOf a < as.idxOf b :=
  h.ordered.imp_of_mem fun ha hb hlt => idxOf_lt_of_filter ((h.mem_iff _).mp ha) ((h.mem_iff _).mp hb) hlt

/-- Where a list is mapped so that different members stay different, the members that were found are. -/
theorem map [DecidableEq β] {g : α → β} (hg : Function.Injective g) (h : InFirstOrder found as) :
    InFirstOrder (found.map g) (as.map g) := by
  refine ⟨fun b => ?_, List.pairwise_map.mpr (h.ordered.imp fun hlt => ?_)⟩
  · simp only [List.mem_map, h.mem_iff]
  · rwa [idxOf_map hg, idxOf_map hg]

end InFirstOrder

theorem inFirstOrder_firstOccurrences (as : List α) : InFirstOrder (firstOccurrences as) as := by
  have hstart : InFirstOrder ([] : List α) [] := ⟨fun _ => Iff.rfl, .nil⟩
  exact hstart.occurrencesAfter as

theorem occurrencesAfter_append (found as more : List α) :
    occurrencesAfter found (as ++ more) = occurrencesAfter (occurrencesAfter found as) more := by
  induction as generalizing found with
  | nil => rfl
  | cons a as ih => exact ih _

theorem firstOccurrences_snoc (as : List α) (a : α) :
    firstOccurrences (as ++ [a]) =
      if a ∈ firstOccurrences as then firstOccurrences as else firstOccurrences as ++ [a] :=
  occurrencesAfter_append [] as [a]

theorem firstOccurrences_replicate (a : α) (n : Nat) :
    firstOccurrences (List.replicate n a) = if n = 0 then [] else [a] := by
  have hrest : ∀ m, occurrencesAfter [a] (List.replicate m a) = [a] := by
    intro m
    induction m with
    | zero => rfl
    | succ m ih => simpa [List.replicate_succ, occurrencesAfter] using ih
  cases n with
  | zero => rfl
  | succ m => exact hrest m

end DotGrid
