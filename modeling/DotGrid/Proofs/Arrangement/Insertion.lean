import DotGrid.Arrangement.Basic
import Mathlib.Data.List.InsertIdx

/-!
# Elements of an arrangement

An arrangement has the elements of the list, whatever the comparison does, and it is complete if the comparison has an
answer for all of them (`Arrangement.Of`). Both are shown here for the start of a list as one run: for bisection, for
insertion and for the run that is there.
-/

namespace DotGrid

variable {α : Type} {before : Comparison α} {xs ys : List α}

/-- Tells that a comparison has an answer for any two elements of a list. -/
def Comparison.Compares (before : Comparison α) (xs : List α) : Prop :=
  ∀ a ∈ xs, ∀ b ∈ xs, ∃ answer, before a b = some answer

/-- An arrangement of the elements of a list, complete if they can be compared. -/
structure Arrangement.Of (before : Comparison α) (xs : List α) (r : Arrangement α) : Prop where
  perm : r.items.Perm xs
  complete : before.Compares xs → r.complete = true

namespace Comparison

theorem Compares.of_subset (h : before.Compares xs) (hsub : ys ⊆ xs) : before.Compares ys :=
  fun a ha b hb => h a (hsub ha) b (hsub hb)

theorem Compares.isNotAfter (h : before.Compares xs) {a b : α} (ha : a ∈ xs) (hb : b ∈ xs) :
    ∃ answer, before.isNotAfter a b = some answer := by
  obtain ⟨answer, hanswer⟩ := h a ha b hb
  exact ⟨!answer, by rw [Comparison.isNotAfter, hanswer, Option.map_some]⟩

end Comparison

/-! ## Bisection -/

theorem boundary?_eq_some {isLeft : α → Option Bool} (h : ∀ x ∈ xs, ∃ answer, isLeft x = some answer)
    (low high : Nat) : ∃ place, boundary? isLeft xs low high = some place := by
  fun_induction boundary? isLeft xs low high with
  | case1 => exact ⟨_, rfl⟩
  | case2 low high _ middle y hy hnone =>
    obtain ⟨answer, hanswer⟩ := h y (List.mem_of_getElem? hy)
    rw [hnone] at hanswer
    cases hanswer
  | case3 low high _ middle y hy _ ih => exact ih
  | case4 low high _ middle y hy _ ih => exact ih
  | case5 => exact ⟨_, rfl⟩

theorem boundary?_le {isLeft : α → Option Bool} {low high place : Nat}
    (h : boundary? isLeft xs low high = some place) (hlow : low ≤ high) : place ≤ high := by
  fun_induction boundary? isLeft xs low high with
  | case1 => cases h; exact hlow
  | case2 => cases h
  | case3 low high _ middle y hy _ ih => exact ih h (by omega)
  | case4 low high _ middle y hy _ ih => exact Nat.le_trans (ih h (by omega)) (by omega)
  | case5 => cases h; exact hlow

namespace Comparison

/-! ## Insertion -/

theorem insertedAll_of (before : Comparison α) (done xs : List α) :
    (before.insertedAll done xs).Of before (done ++ xs) := by
  induction xs generalizing done with
  | nil => exact ⟨by rw [List.append_nil]; exact .refl _, fun _ => rfl⟩
  | cons x xs ih =>
    rw [insertedAll]
    cases hplace : boundary? (before.isNotAfter x) done 0 done.length with
    | none =>
      refine ⟨.refl _, fun h => ?_⟩
      have hanswers : ∀ y ∈ done, ∃ answer, before.isNotAfter x y = some answer := fun y hy =>
        h.isNotAfter (List.mem_append_right _ List.mem_cons_self) (List.mem_append_left _ hy)
      obtain ⟨place, hsome⟩ := boundary?_eq_some hanswers 0 done.length
      rw [hplace] at hsome
      cases hsome
    | some place =>
      have hperm : (done.insertIdx place x ++ xs).Perm (done ++ x :: xs) :=
        ((List.perm_insertIdx x done (boundary?_le hplace (Nat.zero_le _))).append_right xs).trans
          List.perm_middle.symm
      exact ⟨(ih _).perm.trans hperm, fun h => (ih _).complete (h.of_subset hperm.subset)⟩

/-! ## Runs -/

theorem runLength?_eq_some (descending : Bool) {a : α} (h : before.Compares (a :: xs)) :
    ∃ n, before.runLength? descending a xs = some n := by
  induction xs generalizing a with
  | nil => exact ⟨0, rfl⟩
  | cons b bs ih =>
    obtain ⟨answer, hanswer⟩ := h b (List.mem_cons_of_mem _ List.mem_cons_self) a List.mem_cons_self
    obtain ⟨n, hn⟩ := ih (h.of_subset (List.subset_cons_self _ _))
    rw [runLength?, hanswer]
    simp only [hn]
    split
    · exact ⟨n + 1, rfl⟩
    · exact ⟨0, rfl⟩

/-- The first run and the rest have the elements of the list, and the run is not empty if the list is not. -/
theorem firstRun_of {least : Nat} {run : Arrangement α} {rest : List α} (h : before.firstRun least xs = (run, rest)) :
    (run.items ++ rest).Perm xs ∧ (before.Compares xs → run.complete = true) ∧
      (xs ≠ [] → rest.length < xs.length) := by
  revert h
  fun_cases firstRun before least xs <;> rintro ⟨⟩
  case case1 a b xs hnone =>
    refine ⟨by rw [List.append_nil], fun h => ?_, fun _ => Nat.succ_pos _⟩
    obtain ⟨answer, hanswer⟩ := h b (by simp) a (by simp)
    rw [hnone] at hanswer
    cases hanswer
  case case2 a b xs descending hsome hnone =>
    refine ⟨by rw [List.append_nil], fun h => ?_, fun _ => Nat.succ_pos _⟩
    obtain ⟨n, hn⟩ := runLength?_eq_some descending (h.of_subset (List.subset_cons_self a _))
    rw [hnone] at hn
    cases hn
  case case3 a b xs descending hsome n hn run further turned =>
    have hturned : turned.Perm run := by
      simp only [turned]
      split
      · exact List.reverse_perm run
      · exact .refl run
    have hperm : ((turned ++ (xs.drop n).take further) ++ (xs.drop n).drop further).Perm (a :: b :: xs) := by
      rw [List.append_assoc, List.take_append_drop]
      refine (hturned.append_right _).trans (.of_eq ?_)
      rw [List.cons_append, List.cons_append, List.take_append_drop]
    have hof := before.insertedAll_of turned ((xs.drop n).take further)
    refine ⟨(hof.perm.append_right _).trans hperm, fun h => hof.complete (h.of_subset ?_), fun _ => ?_⟩
    · exact fun c hc => hperm.subset (List.mem_append_left _ hc)
    · simp only [List.length_drop, List.length_cons]
      omega
  case case4 hshort =>
    exact ⟨by rw [List.append_nil], fun _ => rfl, List.length_pos_iff.mpr⟩

end Comparison

end DotGrid
