import DotGrid.Arrangement.Runs
import DotGrid.Proofs.Arrangement.Merge

/-!
# Elements of an arranged list

Whatever a comparison does, a list that is arranged by it has the same elements, and all of the list is arranged if the
comparison has an answer for any two of them (`Comparison.arranged_of`). The runs that wait and the rest of the list
have the elements of the list at any time, because each step only merges two runs that are side by side.
-/

namespace DotGrid

variable {α : Type} {before : Comparison α} {xs : List α}

namespace Waiting

variable {w : Waiting α} {rest rest' : List α}

/-- What comes of runs that wait before a rest: runs with the same elements, and the end only if there are elements that
cannot be compared. -/
inductive Comes (before : Comparison α) (rest xs : List α) : Except (Waiting α) (Waiting α) → Prop
  | ok {w : Waiting α} (perm : (w.content rest).Perm xs) : Comes before rest xs (.ok w)
  | ended {w : Waiting α} (perm : (w.content rest).Perm xs) (h : ¬before.Compares xs) : Comes before rest xs (.error w)

theorem Comes.bind {r : Except (Waiting α) (Waiting α)} {k : Waiting α → Except (Waiting α) (Waiting α)}
    (h : Comes before rest xs r) (hk : ∀ w : Waiting α, (w.content rest).Perm xs → Comes before rest xs (k w)) :
    Comes before rest xs (r.bind k) := by
  cases h with
  | ok perm => exact hk _ perm
  | ended perm h => exact .ended perm h

theorem Comes.of_perm {ys : List α} {r : Except (Waiting α) (Waiting α)} (h : Comes before rest xs r)
    (hperm : xs.Perm ys) : Comes before rest ys r := by
  cases h with
  | ok perm => exact .ok (perm.trans hperm)
  | ended perm h => exact .ended (perm.trans hperm) fun hys => h (hys.of_subset hperm.subset)

/-! ## Elements of the runs -/

theorem content_eq_append (w : Waiting α) (rest : List α) : w.content rest = w.content [] ++ rest := by
  obtain ⟨runs, patience⟩ := w
  simp only [content]
  induction runs generalizing rest with
  | nil => rfl
  | cons run runs ih =>
    rw [List.foldl_cons, List.foldl_cons, ih, ih (run.items ++ []), List.append_nil, List.append_assoc]

theorem content_perm (w : Waiting α) (h : rest.Perm rest') : (w.content rest).Perm (w.content rest') := by
  rw [content_eq_append, content_eq_append w rest']
  exact h.append_left _

theorem rest_subset_content (w : Waiting α) (rest : List α) : rest ⊆ w.content rest := by
  rw [content_eq_append]
  exact List.subset_append_right _ _

/-! ## Steps -/

theorem mergeLast_comes (before : Comparison α) (w : Waiting α) (rest : List α) :
    Comes before rest (w.content rest) (w.mergeLast before) := by
  obtain ⟨runs, patience⟩ := w
  unfold mergeLast
  dsimp only
  split
  · rename_i right left more
    have hmerged := before.merged_of patience left.items right.items
    have hperm : ((before.merged patience left.items right.items).items ++ rest).Perm
        (left.items ++ (right.items ++ rest)) := by
      rw [← List.append_assoc]
      exact hmerged.perm.append_right rest
    have hcontent := content_perm ⟨more, patience⟩ hperm
    split
    · exact .ok hcontent
    · rename_i hcomplete
      refine .ended hcontent fun h => hcomplete (hmerged.complete (h.of_subset fun a ha => ?_))
      have hmem : a ∈ left.items ++ (right.items ++ rest) := by
        rw [← List.append_assoc]
        exact List.mem_append_left _ ha
      exact rest_subset_content ⟨more, patience⟩ _ hmem
  · exact .ok (.refl _)

theorem mergeBeforeLast_comes (before : Comparison α) (w : Waiting α) (rest : List α) :
    Comes before rest (w.content rest) (w.mergeBeforeLast before) := by
  obtain ⟨runs, patience⟩ := w
  unfold mergeBeforeLast
  cases runs with
  | nil => exact .ok (.refl _)
  | cons last more =>
    dsimp only
    have hstep := mergeLast_comes before ⟨more, patience⟩ (last.items ++ rest)
    generalize mergeLast before ⟨more, patience⟩ = next at hstep
    cases hstep with
    | ok perm => exact .ok perm
    | ended perm h => exact .ended perm h

theorem settle_comes (before : Comparison α) (power fuel : Nat) (w : Waiting α) (rest : List α) :
    Comes before rest (w.content rest) (w.settle before power fuel) := by
  induction fuel generalizing w with
  | zero => exact .ok (.refl _)
  | succ fuel ih =>
    rw [settle]
    split
    · split
      · exact (mergeLast_comes before w rest).bind fun v hv => (ih v).of_perm hv
      · exact .ok (.refl _)
    · exact .ok (.refl _)

theorem mergeAll_comes (before : Comparison α) (fuel : Nat) (w : Waiting α) (rest : List α) :
    Comes before rest (w.content rest) (w.mergeAll before fuel) := by
  induction fuel generalizing w with
  | zero => exact .ok (.refl _)
  | succ fuel ih =>
    rw [mergeAll]
    split
    · split
      · exact (mergeBeforeLast_comes before w rest).bind fun v hv => (ih v).of_perm hv
      · exact (mergeLast_comes before w rest).bind fun v hv => (ih v).of_perm hv
    · exact mergeLast_comes before w rest
    · exact .ok (.refl _)

/-- A new run goes from the rest to the runs that wait. -/
theorem push_of (before : Comparison α) (length : Nat) (w : Waiting α) (items rest : List α) :
    (∀ v, w.push before length items = .ok v → (v.content rest).Perm (w.content (items ++ rest))) ∧
      ∀ v, w.push before length items = .error v → (v.content (items ++ rest)).Perm (w.content (items ++ rest)) ∧
        ¬before.Compares (w.content (items ++ rest)) := by
  obtain ⟨runs, patience⟩ := w
  unfold push
  cases runs with
  | nil => exact ⟨fun v h => by cases h; exact .refl _, nofun⟩
  | cons last more =>
    dsimp only
    generalize halvings _ _ _ _ = power
    have hstep := settle_comes before power (more.length + 1) ⟨last :: more, patience⟩ (items ++ rest)
    generalize settle before power (more.length + 1) ⟨last :: more, patience⟩ = next at hstep
    cases hstep with
    | @ok v perm =>
      refine ⟨fun u h => ?_, fun u h => ?_⟩
      · obtain ⟨runs, _⟩ := v
        cases runs with
        | nil => cases h; exact perm
        | cons last more => cases h; exact perm
      · dsimp only at h
        split at h <;> cases h
    | ended perm hfails => exact ⟨nofun, fun u h => by cases h; exact ⟨perm, hfails⟩⟩

end Waiting

namespace Comparison

open Waiting (content_perm rest_subset_content)

theorem arrangementOf_of {r : Except (Waiting α) (Waiting α)} (h : Waiting.Comes before [] xs r) :
    (arrangementOf [] r).Of before xs := by
  cases h with
  | ok perm => exact ⟨perm, fun _ => rfl⟩
  | ended perm h => exact ⟨perm, fun hxs => absurd hxs h⟩

/-- The rest gets shorter by each run, so the budget is enough for all of it. -/
theorem arrangedBehind_of (length least : Nat) {fuel : Nat} {rest : List α} (hfuel : rest.length < fuel)
    (w : Waiting α) : (before.arrangedBehind length least fuel w rest).Of before (w.content rest) := by
  induction fuel generalizing rest w with
  | zero => cases hfuel
  | succ fuel ih =>
    rw [arrangedBehind]
    split
    · rename_i hempty
      rw [List.isEmpty_iff.mp hempty]
      exact arrangementOf_of (Waiting.mergeAll_comes before _ w [])
    · rename_i hrest
      rcases hstart : before.firstRun least rest with ⟨run, more⟩
      obtain ⟨hperm, hcomplete, hless⟩ := firstRun_of hstart
      have hcontent : (w.content (run.items ++ more)).Perm (w.content rest) := content_perm w hperm
      dsimp only
      split
      · rename_i hincomplete
        refine ⟨hcontent, fun h => ?_⟩
        simp [hcomplete (h.of_subset (rest_subset_content w rest))] at hincomplete
      · obtain ⟨hok, herror⟩ := Waiting.push_of before length w run.items more
        cases hpush : w.push before length run.items with
        | error v =>
          obtain ⟨hv, hfails⟩ := herror v hpush
          exact ⟨hv.trans hcontent, fun h => absurd (h.of_subset hcontent.subset) hfails⟩
        | ok v =>
          have hshorter : more.length < fuel := by
            have := hless (by simpa using hrest)
            omega
          have hv := (hok v hpush).trans hcontent
          have hof := ih hshorter v
          exact ⟨hof.perm.trans hv, fun h => hof.complete (h.of_subset hv.subset)⟩

/-- An arranged list has the elements of the list, and it is arranged to its end if any two of them can be compared. -/
theorem arranged_of (xs : List α) : (before.arranged xs).Of before xs :=
  arrangedBehind_of xs.length _ (Nat.lt_succ_self _) {}

end Comparison

end DotGrid
