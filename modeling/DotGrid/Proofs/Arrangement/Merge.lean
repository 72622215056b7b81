import DotGrid.Arrangement.Merge
import DotGrid.Proofs.Arrangement.Insertion

/-!
# Elements of a merge

A merge has the elements of both runs, whatever the comparison does, and it is complete if the comparison has an answer
for all of them (`Comparison.merged_of`). A step takes elements from the front of a run to what is merged, so that the
elements stay the same and fewer are left in the runs (`Merging.Comes`); the budget of a merge is the number of elements
that are left, and no merge comes to its end.
-/

namespace DotGrid

variable {α : Type} {before : Comparison α} {xs ys : List α}

/-! ## Strides -/

theorem strides?_eq_some {goesOn : Nat → Option Bool} (h : ∀ d, ∃ answer, goesOn d = some answer)
    (bound last next : Nat) : ∃ places, strides? goesOn bound last next = some places := by
  fun_induction strides? goesOn bound last next with
  | case1 last next _ hnone =>
    obtain ⟨answer, hanswer⟩ := h next
    rw [hnone] at hanswer
    cases hanswer
  | case2 last next _ _ ih => exact ih
  | case3 => exact ⟨_, rfl⟩
  | case4 => exact ⟨_, rfl⟩

theorem probe?_eq_some {isLeft : α → Option Bool} (h : ∀ x ∈ xs, ∃ answer, isLeft x = some answer) (i : Nat) :
    ∃ answer, probe? isLeft xs i = some answer := by
  rw [probe?]
  cases hi : xs[i]? with
  | none => exact ⟨false, rfl⟩
  | some x => exact h x (List.mem_of_getElem? hi)

theorem gallop?_eq_some {isLeft : α → Option Bool} (h : ∀ x ∈ xs, ∃ answer, isLeft x = some answer) (start : Nat) :
    ∃ place, gallop? isLeft xs start = some place := by
  have hnot : ∀ d, ∃ answer, (probe? isLeft xs (start - d)).map not = some answer := by
    intro d
    obtain ⟨answer, hanswer⟩ := probe?_eq_some h (start - d)
    exact ⟨!answer, by rw [hanswer, Option.map_some]⟩
  obtain ⟨answer, hanswer⟩ := probe?_eq_some h start
  unfold gallop?
  cases answer with
  | true =>
    obtain ⟨places, hplaces⟩ := strides?_eq_some (fun d => probe?_eq_some h (start + d)) (xs.length - start) 0 1
    obtain ⟨place, hplace⟩ := boundary?_eq_some h (start + places.1 + 1) (start + places.2)
    exact ⟨place, by simp [hanswer, hplaces, hplace]⟩
  | false =>
    obtain ⟨places, hplaces⟩ := strides?_eq_some hnot (start + 1) 0 1
    obtain ⟨place, hplace⟩ := boundary?_eq_some h (start + 1 - places.2) (start - places.1)
    exact ⟨place, by simp [hanswer, hplaces, hplace]⟩

/-! ## Steps of a merge -/

/-- Tells that the questions of a merge have answers for the elements of a list. -/
structure Merge.Answers (m : Merge α) (xs : List α) : Prop where
  heads : ∀ a ∈ xs, ∀ b ∈ xs, ∃ answer, m.takesSecond a b = some answer
  first : ∀ key ∈ xs, ∀ ys ⊆ xs, ∃ n, m.countFirst key ys = some n
  second : ∀ key ∈ xs, ∀ ys ⊆ xs, ∃ n, m.countSecond key ys = some n

/-- A merge of the elements of a list, complete if they are able to be merged. -/
structure Merged.Of (able : Prop) (xs : List α) (r : Merged α) : Prop where
  perm : r.items.Perm xs
  complete : able → r.complete = true

namespace Merging

variable {s : Merging α} {m : Merge α} {able : Prop}

/-- All elements, those that are merged in front. -/
def content (s : Merging α) : List α := s.merged.reverse ++ s.first ++ s.second

/-- The number of elements that are left in the runs. -/
def size (s : Merging α) : Nat := s.first.length + s.second.length

/-- Two runs with the elements of a list, neither of which has ended. -/
structure Within (xs : List α) (s : Merging α) : Prop where
  perm : s.content.Perm xs
  first : s.first ≠ []
  second : s.second ≠ []

/-- What comes of a step: the end of the merge, or runs of which no more than a number of elements are left. -/
inductive Comes (able : Prop) (xs : List α) (left : Nat) {β : Type} (state : β → Merging α) :
    Except (Merged α) β → Prop
  | ended {r : Merged α} (h : r.Of able xs) : Comes able xs left state (.error r)
  | ok {b : β} (h : (state b).Within xs) (hleft : (state b).size ≤ left) : Comes able xs left state (.ok b)

theorem Comes.bind {β γ : Type} {state : β → Merging α} {state' : γ → Merging α} {left left' : Nat}
    {r : Except (Merged α) β} {k : β → Except (Merged α) γ} (h : Comes able xs left state r)
    (hk : ∀ b, (state b).Within xs → (state b).size ≤ left → Comes able xs left' state' (k b)) :
    Comes able xs left' state' (r >>= k) := by
  cases h with
  | ended h => exact .ended h
  | ok h hleft => exact hk _ h hleft

theorem Within.first_subset (h : s.Within xs) : s.first ⊆ xs :=
  fun _ ha => h.perm.subset (List.mem_append_left _ (List.mem_append_right _ ha))

theorem Within.second_subset (h : s.Within xs) : s.second ⊆ xs :=
  fun _ ha => h.perm.subset (List.mem_append_right _ ha)

theorem ended_of {complete : Bool} (hperm : s.content.Perm xs) (hcomplete : able → complete = true) :
    (s.ended complete).Of able xs := ⟨hperm, hcomplete⟩

theorem endedBySecond_of (hperm : s.content.Perm xs) : s.endedBySecond.Of able xs := by
  refine ⟨List.Perm.trans ?_ hperm, fun _ => rfl⟩
  simp only [endedBySecond, content, List.append_assoc]
  exact List.perm_append_comm.append_left _

theorem takeFirst_comes (h : s.Within xs) (n : Nat) : Comes able xs (s.size - n) id (s.takeFirst n) := by
  have hcontent : content { s with first := s.first.drop n, merged := (s.first.take n).reverse ++ s.merged } =
      s.content := by
    simp [content]
  unfold takeFirst
  dsimp only
  split
  · exact .ended (ended_of (hcontent ▸ h.perm) fun _ => rfl)
  · exact .ended (endedBySecond_of (hcontent ▸ h.perm))
  · rename_i hne _
    refine .ok ⟨hcontent ▸ h.perm, hne, h.second⟩ ?_
    have hlength : 0 < (s.first.drop n).length := List.length_pos_iff.mpr hne
    simp only [size, id, List.length_drop] at hlength ⊢
    omega

theorem takeSecond_comes (h : s.Within xs) (n : Nat) : Comes able xs (s.size - n) id (s.takeSecond n) := by
  have hperm : (content { s with second := s.second.drop n, merged := (s.second.take n).reverse ++ s.merged }).Perm
      s.content := by
    simp only [content, List.reverse_append, List.reverse_reverse, List.append_assoc]
    -- the elements that are taken pass the first run
    calc (s.merged.reverse ++ (s.second.take n ++ (s.first ++ s.second.drop n)))
      _ = s.merged.reverse ++ ((s.second.take n ++ s.first) ++ s.second.drop n) := by rw [List.append_assoc]
      _ |>.Perm (s.merged.reverse ++ ((s.first ++ s.second.take n) ++ s.second.drop n)) :=
        (List.perm_append_comm.append_right _).append_left _
      _ = s.merged.reverse ++ (s.first ++ s.second) := by rw [List.append_assoc, List.take_append_drop]
  unfold takeSecond
  dsimp only
  split
  · exact .ended (ended_of (hperm.trans h.perm) fun _ => rfl)
  · rename_i hne
    have hne : s.second.drop n ≠ [] := by simpa using hne
    refine .ok ⟨hperm.trans h.perm, h.first, hne⟩ ?_
    have hlength : 0 < (s.second.drop n).length := List.length_pos_iff.mpr hne
    simp only [size, id, List.length_drop] at hlength ⊢
    omega

/-! ## Groups -/

theorem groupOfFirst_comes (h : s.Within xs) :
    Comes (m.Answers xs) xs (s.size - 1) Prod.snd (s.groupOfFirst m) := by
  unfold groupOfFirst
  cases hcount : s.second.head?.bind fun key => m.countFirst key s.first with
  | none =>
    refine .ended (ended_of h.perm fun hm => ?_)
    obtain ⟨n, hn⟩ := hm.first (s.second.head h.second) (h.second_subset (List.head_mem _)) s.first h.first_subset
    rw [List.head?_eq_some_head h.second, Option.bind_some, hn] at hcount
    cases hcount
  | some n =>
    have hhead : ∀ t : Merging α, t.Within xs → t.size ≤ s.size →
        Comes (m.Answers xs) xs (s.size - 1) Prod.snd (t.takeSecond 1 >>= fun u => .ok (n, u)) := fun t ht hleft =>
      (takeSecond_comes ht 1).bind fun u hu hless => .ok hu (Nat.le_trans hless (Nat.sub_le_sub_right hleft 1))
    dsimp only
    split
    · exact hhead s h (Nat.le_refl _)
    · exact (takeFirst_comes h n).bind fun t ht hleft => hhead t ht (Nat.le_trans hleft (Nat.sub_le _ _))

theorem groupOfSecond_comes (h : s.Within xs) :
    Comes (m.Answers xs) xs (s.size - 1) Prod.snd (s.groupOfSecond m) := by
  unfold groupOfSecond
  cases hcount : s.first.head?.bind fun key => m.countSecond key s.second with
  | none =>
    refine .ended (ended_of h.perm fun hm => ?_)
    obtain ⟨n, hn⟩ := hm.second (s.first.head h.first) (h.first_subset (List.head_mem _)) s.second h.second_subset
    rw [List.head?_eq_some_head h.first, Option.bind_some, hn] at hcount
    cases hcount
  | some n =>
    have hhead : ∀ t : Merging α, t.Within xs → t.size ≤ s.size →
        Comes (m.Answers xs) xs (s.size - 1) Prod.snd (t.takeFirst 1 >>= fun u => .ok (n, u)) := fun t ht hleft =>
      (takeFirst_comes ht 1).bind fun u hu hless => .ok hu (Nat.le_trans hless (Nat.sub_le_sub_right hleft 1))
    dsimp only
    split
    · exact hhead s h (Nat.le_refl _)
    · exact (takeSecond_comes h n).bind fun t ht hleft => hhead t ht (Nat.le_trans hleft (Nat.sub_le _ _))

theorem groups_comes (h : s.Within xs) : Comes (m.Answers xs) xs (s.size - 1) Prod.snd (s.groups m) := by
  unfold groups
  split
  · refine (groupOfFirst_comes h).bind fun t ht hleft => ?_
    refine (groupOfSecond_comes ht).bind fun u hu hless => ?_
    exact .ok hu (Nat.le_trans hless (Nat.le_trans (Nat.sub_le _ _) hleft))
  · refine (groupOfSecond_comes h).bind fun t ht hleft => ?_
    refine (groupOfFirst_comes ht).bind fun u hu hless => ?_
    exact .ok hu (Nat.le_trans hless (Nat.le_trans (Nat.sub_le _ _) hleft))

/-! ## Whole merges -/

theorem size_pos (h : s.Within xs) : 0 < s.size :=
  Nat.lt_of_lt_of_le (List.length_pos_iff.mpr h.first) (Nat.le_add_right _ _)

/-- Both ways to merge go on with fewer elements than before, so the budget is enough. -/
theorem oneByOne_byGroups_of (m : Merge α) (fuel : Nat) :
    (∀ wins bySecond s, s.Within xs → s.size ≤ fuel → (oneByOne m fuel wins bySecond s).Of (m.Answers xs) xs) ∧
      ∀ s, s.Within xs → s.size ≤ fuel → (byGroups m fuel s).Of (m.Answers xs) xs := by
  induction fuel with
  | zero =>
    have hnone : ∀ s : Merging α, s.Within xs → ¬s.size ≤ 0 := fun s h => Nat.not_le_of_lt (size_pos h)
    exact ⟨fun _ _ s h hsize => absurd hsize (hnone s h), fun s h hsize => absurd hsize (hnone s h)⟩
  | succ fuel ih =>
    obtain ⟨hone, hgroups⟩ := ih
    refine ⟨fun wins bySecond s h hsize => ?_, fun s h hsize => ?_⟩
    · obtain ⟨a, as, hfirst⟩ := List.exists_cons_of_ne_nil h.first
      obtain ⟨b, bs, hsecond⟩ := List.exists_cons_of_ne_nil h.second
      rw [oneByOne, hfirst, hsecond]
      dsimp only
      cases hheads : m.takesSecond a b with
      | none =>
        refine ended_of h.perm fun hm => ?_
        have ha : a ∈ xs := h.first_subset (by simp [hfirst])
        obtain ⟨answer, hanswer⟩ := hm.heads a ha b (h.second_subset (by simp [hsecond]))
        rw [hheads] at hanswer
        cases hanswer
      | some second =>
        have hstep : Comes (m.Answers xs) xs (s.size - 1) id (if second then s.takeSecond 1 else s.takeFirst 1) := by
          split
          · exact takeSecond_comes h 1
          · exact takeFirst_comes h 1
        dsimp only
        generalize (if second = bySecond then wins + 1 else 1) = wins
        generalize (if second then s.takeSecond 1 else s.takeFirst 1) = next at hstep
        cases hstep with
        | ended hr => exact hr
        | @ok t ht hleft =>
          have hbudget : t.size ≤ fuel := Nat.le_trans hleft (Nat.sub_le_of_le_add hsize)
          dsimp only
          split
          · exact hgroups t ht hbudget
          · exact hone _ _ t ht hbudget
    · have hstep := groups_comes (m := m) h
      rw [byGroups]
      generalize s.groups m = next at hstep
      cases hstep with
      | ended hr => exact hr
      | @ok t ht hleft =>
        obtain ⟨longest, t⟩ := t
        have hbudget : t.size ≤ fuel := Nat.le_trans hleft (Nat.sub_le_of_le_add hsize)
        dsimp only
        split
        · exact hgroups _ ⟨ht.perm, ht.first, ht.second⟩ hbudget
        · exact hone _ _ _ ⟨ht.perm, ht.first, ht.second⟩ hbudget

theorem run_of (m : Merge α) (h : s.Within xs) : (run m s).Of (m.Answers xs) xs := by
  have hstep : Comes (m.Answers xs) xs (s.size - 1) id (s.takeSecond 1) := takeSecond_comes h 1
  rw [run]
  generalize s.takeSecond 1 = next at hstep
  cases hstep with
  | ended hr => exact hr
  | @ok t ht hleft =>
    dsimp only
    split
    · exact endedBySecond_of ht.perm
    · exact (oneByOne_byGroups_of m _).1 _ _ t ht (Nat.le_refl _)

end Merging

namespace Comparison

theorem fromLeft_answers (h : before.Compares xs) : before.fromLeft.Answers xs where
  heads a ha b hb := h b hb a ha
  first _ hkey _ hys := gallop?_eq_some (fun _ hx => h.isNotAfter hkey (hys hx)) 0
  second key hkey _ hys := gallop?_eq_some (fun x hx => h x (hys hx) key hkey) 0

theorem countRight_eq_some {isLeft : α → Option Bool} (h : ∀ x ∈ xs, ∃ answer, isLeft x = some answer) :
    ∃ n, countRight isLeft xs = some n := by
  obtain ⟨place, hplace⟩ := gallop?_eq_some (fun x hx => h x (List.mem_reverse.mp hx)) (xs.length - 1)
  exact ⟨xs.length - place, by rw [countRight, hplace, Option.map_some]⟩

theorem fromRight_answers (h : before.Compares xs) : before.fromRight.Answers xs where
  heads b hb a ha := h b hb a ha
  first key hkey _ hys := countRight_eq_some fun x hx => h x (hys hx) key hkey
  second _ hkey _ hys := countRight_eq_some fun _ hx => h.isNotAfter hkey (hys hx)

theorem run_fromLeft_of (patience : Nat) (hxs : xs ≠ []) (hys : ys ≠ []) :
    (Merging.run before.fromLeft ⟨xs, ys, [], patience⟩).Of (before.Compares (xs ++ ys)) (xs ++ ys) := by
  have hwithin : Merging.Within (xs ++ ys) ⟨xs, ys, [], patience⟩ := ⟨.refl _, hxs, hys⟩
  have hrun := Merging.run_of before.fromLeft hwithin
  exact ⟨hrun.perm, fun h => hrun.complete (fromLeft_answers h)⟩

theorem run_fromRight_of (patience : Nat) (hxs : xs ≠ []) (hys : ys ≠ []) :
    let r := Merging.run before.fromRight ⟨ys.reverse, xs.reverse, [], patience⟩
    Merged.Of (before.Compares (xs ++ ys)) (xs ++ ys) { r with items := r.items.reverse } := by
  intro r
  have hreverse : (ys.reverse ++ xs.reverse).Perm (xs ++ ys) := List.reverse_append ▸ List.reverse_perm (xs ++ ys)
  have hrun : r.Of (before.fromRight.Answers (ys.reverse ++ xs.reverse)) (ys.reverse ++ xs.reverse) :=
    Merging.run_of _ ⟨.refl _, by simpa using hys, by simpa using hxs⟩
  exact ⟨(List.reverse_perm _).trans (hrun.perm.trans hreverse), fun h =>
    hrun.complete (fromRight_answers (h.of_subset hreverse.subset))⟩

/-- A merge of two runs has the elements of both, and it is complete if they can be compared. -/
theorem merged_of (patience : Nat) (left right : List α) :
    (before.merged patience left right).Of (before.Compares (left ++ right)) (left ++ right) := by
  have hall : ∀ {complete : Bool}, (before.Compares (left ++ right) → complete = true) →
      (⟨left ++ right, complete, patience⟩ : Merged α).Of (before.Compares (left ++ right)) (left ++ right) :=
    fun hcomplete => ⟨.refl _, hcomplete⟩
  fun_cases merged before patience left right with
  | case1 head last hlast hhead hnone =>
    refine hall fun h => ?_
    have hanswers : ∀ x ∈ left, ∃ answer, before.isNotAfter head x = some answer := fun x hx =>
      h.isNotAfter (List.mem_append_right _ (List.mem_of_head? hhead)) (List.mem_append_left _ hx)
    obtain ⟨k, hk⟩ := gallop?_eq_some hanswers 0
    rw [hnone] at hk
    cases hk
  | case2 => exact hall fun _ => rfl
  | case3 head last hlast hhead k hk first hfirst hnone =>
    refine hall fun h => ?_
    have hanswers : ∀ x ∈ right, ∃ answer, before x last = some answer := fun x hx =>
      h x (List.mem_append_right _ hx) last (List.mem_append_left _ (List.mem_of_getLast? hlast))
    obtain ⟨n, hn⟩ := gallop?_eq_some hanswers (right.length - 1)
    rw [hnone] at hn
    cases hn
  | case4 => exact hall fun _ => rfl
  | case5 head last hlast hhead k hk first hfirst n hn hgallop second inner =>
    have hinner : inner.Of (before.Compares (first ++ second)) (first ++ second) := by
      have hfirst : first ≠ [] := by simpa using hfirst
      have hsecond : second ≠ [] := by
        have hright : right ≠ [] := List.ne_nil_of_mem (List.mem_of_head? hhead)
        simpa [second, hright] using hn
      simp only [inner]
      split
      · exact run_fromLeft_of patience hfirst hsecond
      · exact run_fromRight_of patience hfirst hsecond
    have hperm : (left.take k ++ (first ++ second) ++ right.drop n).Perm (left ++ right) := .of_eq (by
      simp only [first, second, List.append_assoc, List.take_append_drop]
      rw [← List.append_assoc, List.take_append_drop])
    refine ⟨((hinner.perm.append_left _).append_right _).trans hperm, fun h => hinner.complete (h.of_subset ?_)⟩
    exact fun a ha => hperm.subset (List.mem_append_left _ (List.mem_append_right _ ha))
  | case6 => exact hall fun _ => rfl

end Comparison

end DotGrid
