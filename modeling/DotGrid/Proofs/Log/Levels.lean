import DotGrid.Log.Setup

/-!
# Effective levels

The names above a logger are the names before the dots of its own name, unless two dots are one behind the other
(`namesAbove_nameOf`). If all loggers that are there and have such names are above it (`Setup.Adopts`), its effective
level is the first level that is set on its name and on the names before the dots, and else that of the root
(`effectiveLevel_eq`): the loggers that are passed over on the way to the root are not there.
-/

namespace DotGrid.Log

variable {s : Setup} {name : String} {r : List Char}

/-! ## Names before dots -/

/-- What is behind the dots of a text, the longest first; an empty rest is left out. -/
def behindDots : List Char → List (List Char)
  | [] => []
  | c :: cs => if c = '.' ∧ cs ≠ [] then cs :: behindDots cs else behindDots cs

/-- The name of some characters in reverse. -/
def nameOf (r : List Char) : String := String.ofList r.reverse

/-- The names before the dots of a name, the nearest one first. -/
def namesBeforeDots (name : String) : List String := (behindDots name.toList.reverse).map nameOf

theorem nameOf_toList (name : String) : nameOf name.toList.reverse = name := by
  simp [nameOf]

theorem toList_nameOf (r : List Char) : (nameOf r).toList.reverse = r := by
  simp [nameOf]

theorem namesBeforeDots_nameOf (r : List Char) : namesBeforeDots (nameOf r) = (behindDots r).map nameOf := by
  rw [namesBeforeDots, toList_nameOf]

theorem behindDots_eq (r : List Char) :
    behindDots r = if beforeDot r = [] then [] else beforeDot r :: behindDots (beforeDot r) := by
  induction r with
  | nil => rfl
  | cons c cs ih =>
    by_cases hc : c = '.'
    · by_cases hcs : cs = []
      · simp [behindDots, beforeDot, hc, hcs]
      · simp [behindDots, beforeDot, hc, hcs]
    · rw [behindDots, if_neg fun h => hc h.1, ih]
      simp [beforeDot, hc]

theorem suffix_of_mem_behindDots {u : List Char} (h : u ∈ behindDots r) : u <:+ r := by
  induction r with
  | nil => cases h
  | cons c cs ih =>
    rw [behindDots] at h
    split at h
    · rcases List.mem_cons.mp h with rfl | h
      · exact List.suffix_cons c u
      · exact (ih h).trans (List.suffix_cons c cs)
    · exact (ih h).trans (List.suffix_cons c cs)

theorem length_behindDots_le (r : List Char) : (behindDots r).length ≤ r.length := by
  induction r with
  | nil => exact Nat.le_refl 0
  | cons c cs ih =>
    rw [behindDots]
    split <;> simp only [List.length_cons] <;> omega

/-- The dot before which a name ends is still there in front of its characters. -/
theorem dot_cons_beforeDot_suffix (h : beforeDot r ≠ []) : '.' :: beforeDot r <:+ r := by
  induction r with
  | nil => exact absurd rfl h
  | cons c cs ih =>
    by_cases hc : c = '.'
    · rw [hc]
      exact List.suffix_rfl
    · have heq : beforeDot (c :: cs) = beforeDot cs := by simp [beforeDot, hc]
      rw [heq] at h ⊢
      exact (ih h).trans (List.suffix_cons c cs)

/-- Where no two dots are one behind the other, all names before dots are above a name. -/
theorem ancestors_beforeDot (h : ¬ ['.', '.'] <:+: r) : ancestors (beforeDot r) = behindDots r := by
  induction hn : r.length using Nat.strongRecOn generalizing r with
  | _ n ih =>
    rw [behindDots_eq]
    cases hb : beforeDot r with
    | nil => rw [if_pos rfl, ancestors]
    | cons c cs =>
      have hsuffix : '.' :: c :: cs <:+ r := hb ▸ dot_cons_beforeDot_suffix (by rw [hb]; exact List.cons_ne_nil c cs)
      have hc : c ≠ '.' := by
        rintro rfl
        exact h ⟨_, cs, by simpa using hsuffix.choose_spec⟩
      have hrest : beforeDot cs = beforeDot (c :: cs) := by simp [beforeDot, hc]
      have hlength := hsuffix.length_le
      rw [if_neg (List.cons_ne_nil c cs), ancestors, hrest]
      congr 1
      refine ih (c :: cs).length ?_ (fun hdots => h ?_) rfl
      · simp only [List.length_cons] at hlength ⊢
        omega
      · exact hdots.trans ((List.suffix_cons _ _).trans hsuffix).isInfix

theorem namesAbove_nameOf (h : ¬ ['.', '.'] <:+: r) : namesAbove (nameOf r) = (behindDots r).map nameOf := by
  rw [namesAbove, toList_nameOf, ancestors_beforeDot h]
  rfl

/-- Behind one of the rests come the rests of that one. -/
theorem behindDots_of_mem {u : List Char} {pre post : List (List Char)} (h : behindDots r = pre ++ u :: post) :
    behindDots u = post := by
  induction r generalizing pre with
  | nil => simp [behindDots] at h
  | cons c cs ih =>
    rw [behindDots] at h
    split at h
    · cases pre with
      | nil => cases h; rfl
      | cons p pre => exact ih (List.cons.inj h).2
    · exact ih h

/-! ## Levels along a name -/

namespace Setup

/-- Tells whether a logger is there. -/
def has (s : Setup) (name : String) : Bool := s.loggers.any (·.name = name)

/-- The level of a logger other than the root; zero if it is not there. -/
def levelOf (s : Setup) (name : String) : Int := ((s.loggers.find? (·.name = name)).map (·.level)).getD 0

/-- Loggers that are there are above all names before whose dots they are, for a name and for the names above it. -/
def Adopts (s : Setup) (name : String) : Prop :=
  ∀ v ∈ name :: namesBeforeDots name, ∀ u ∈ namesBeforeDots v, s.has u = true → s.isAbove u v = true

theorem levelOf_eq_zero (h : s.has name = false) : s.levelOf name = 0 := by
  have hnone : s.loggers.find? (·.name = name) = none := by
    simpa [has] using h
  rw [levelOf, hnone]
  rfl

theorem has_of_isAbove {u v : String} (h : s.isAbove u v = true) : s.has u = true := by
  rw [has, ← List.findIdx?_isSome]
  unfold isAbove at h
  split at h
  · cases h
  · rename_i hu _; rw [hu]; rfl
  · rename_i hu _; rw [hu]; rfl

theorem ownLevel_eq_levelOf (h : isRoot name = false) : s.ownLevel name = s.levelOf name := by
  rw [ownLevel, if_neg (by simp [h])]
  rfl

theorem Adopts.of_mem {u : List Char} {pre post : List (List Char)} (h : s.Adopts (nameOf r))
    (hr : behindDots r = pre ++ u :: post) : s.Adopts (nameOf u) := by
  intro v hv w hw hhas
  refine h v ?_ w hw hhas
  have hmem : nameOf u :: namesBeforeDots (nameOf u) ⊆ namesBeforeDots (nameOf r) := by
    rw [namesBeforeDots_nameOf, namesBeforeDots_nameOf, behindDots_of_mem hr, hr, List.map_append, List.map_cons]
    exact List.subset_append_right _ _
  exact List.mem_cons_of_mem _ (hmem hv)

theorem find?_level_eq_none {us : List String} (h : ∀ u ∈ us, s.has u = false) :
    (us.map s.levelOf).find? (· ≠ 0) = none := by
  rw [List.find?_eq_none]
  intro level hlevel
  obtain ⟨u, hu, rfl⟩ := List.mem_map.mp hlevel
  simp [levelOf_eq_zero (h u hu)]

/-- The levels that a logger can have are found along its name: loggers that are passed over are not there. The
induction is on the number of steps that are left. -/
theorem levelsFrom_find? (hroot : ∀ name, s.has name = true → isRoot name = false) {k : Nat}
    (hk : (behindDots r).length < k) (hdots : ¬ ['.', '.'] <:+: r) (hname : isRoot (nameOf r) = false)
    (hadopts : s.Adopts (nameOf r)) :
    (s.levelsFrom k (nameOf r)).find? (· ≠ 0) =
      ((nameOf r :: namesBeforeDots (nameOf r)).map s.levelOf).find? (· ≠ 0) := by
  induction k generalizing r with
  | zero => cases hk
  | succ k ih =>
    have hpassed : ∀ u ∈ (behindDots r).map nameOf, s.isAbove u (nameOf r) ≠ true → s.has u = false := by
      intro u hu hnot
      refine Bool.eq_false_iff.mpr fun hhas => hnot ?_
      exact hadopts _ List.mem_cons_self u (by rwa [namesBeforeDots_nameOf]) hhas
    rw [levelsFrom, namesAbove_nameOf hdots, ownLevel_eq_levelOf hname, namesBeforeDots_nameOf, List.map_cons,
      List.find?_cons, List.find?_cons]
    -- the levels behind the first one are those of the next logger that is there
    refine congrArg (fun rest => match decide (s.levelOf (nameOf r) ≠ 0) with
      | true => some (s.levelOf (nameOf r))
      | false => rest) ?_
    cases hfind : ((behindDots r).map nameOf).find? (s.isAbove · (nameOf r)) with
    | none =>
      rw [find?_level_eq_none fun u hu => hpassed u hu (List.find?_eq_none.mp hfind u hu)]
      rfl
    | some upper =>
      obtain ⟨habove, pre, post, heq, hpre⟩ := List.find?_eq_some_iff_append.mp hfind
      obtain ⟨pre, rest, hr, rfl, hrest⟩ := List.map_eq_append_iff.mp heq
      obtain ⟨u, post, rfl, rfl, rfl⟩ := List.map_eq_cons_iff.mp hrest
      have hu : u ∈ behindDots r := by rw [hr]; exact List.mem_append_right _ List.mem_cons_self
      have hnone := find?_level_eq_none fun v hv =>
        hpassed v (by rw [hr]; exact List.map_append ▸ List.mem_append_left _ hv) (by simpa using hpre v hv)
      have hlength : (behindDots u).length < k := by
        rw [behindDots_of_mem hr]
        rw [hr, List.length_append, List.length_cons] at hk
        omega
      rw [hr, List.map_append, List.map_append, List.find?_append, hnone, Option.none_or]
      refine (ih hlength (fun h => hdots (h.trans (suffix_of_mem_behindDots hu).isInfix))
        (hroot _ (has_of_isAbove habove)) (hadopts.of_mem hr)).trans ?_
      rw [namesBeforeDots_nameOf, behindDots_of_mem hr]
      rfl

end Setup

/-- A name and the names before its dots, without those of the root behind it. -/
def wayUp (name : String) : List String := name :: (namesBeforeDots name).filter fun u => !isRoot u

theorem wayUp_of_isRoot (h : isRoot name = true) : wayUp name = [name] := by
  have hname : name = "" ∨ name = rootName := by simpa [isRoot] using h
  rcases hname with rfl | rfl <;> rfl

/-- The effective level is the first one that is set on the way up to the root. -/
theorem effectiveLevel_eq (hroot : ∀ name, s.has name = true → isRoot name = false)
    (hdots : ¬ ['.', '.'] <:+: name.toList) (hadopts : s.Adopts name) :
    s.effectiveLevel name = (((wayUp name).map s.ownLevel).find? (· ≠ 0)).getD s.rootLevel := by
  cases hname : isRoot name with
  | true =>
    have hown : s.ownLevel name = s.rootLevel := if_pos hname
    rw [wayUp_of_isRoot hname, Setup.effectiveLevel, if_pos hname, List.map_singleton, hown, List.find?_singleton]
    split <;> rfl
  | false =>
    have hfilter : ∀ us : List String,
        (us.map s.levelOf).find? (· ≠ 0) = ((us.filter fun u => !isRoot u).map s.ownLevel).find? (· ≠ 0) := by
      intro us
      induction us with
      | nil => rfl
      | cons u us ih =>
        cases hu : isRoot u with
        | true =>
          have hnot : s.has u = false := Bool.eq_false_iff.mpr fun hhas => by simp [hroot u hhas] at hu
          simpa [Setup.levelOf_eq_zero hnot, hu] using ih
        | false =>
          simp only [List.map_cons, List.find?_cons, hu, Bool.not_false, List.filter_cons_of_pos, ih,
            Setup.ownLevel_eq_levelOf hu]
    rw [← nameOf_toList name] at hname hadopts
    have hlength : (behindDots name.toList.reverse).length < name.length + 1 := by
      have := length_behindDots_le name.toList.reverse
      rw [List.length_reverse, String.length_toList] at this
      omega
    have hfound := Setup.levelsFrom_find? hroot hlength (fun h => hdots (by simpa using List.reverse_infix.mpr h))
      hname hadopts
    rw [nameOf_toList] at hname hfound
    rw [Setup.effectiveLevel, if_neg (by simp [hname]), hfound, hfilter, List.filter_cons_of_pos (by simp [hname])]
    rfl

/-- Without loggers, all records have the level of the root to reach. -/
theorem effectiveLevel_of_loggers_eq_nil (h : s.loggers = []) (name : String) :
    s.effectiveLevel name = s.rootLevel := by
  cases hname : isRoot name with
  | true => simp [Setup.effectiveLevel, hname]
  | false =>
    have hown : s.ownLevel name = 0 := by simp [Setup.ownLevel, hname, h]
    have habove : (namesAbove name).find? (s.isAbove · name) = none := by simp [Setup.isAbove, h]
    simp [Setup.effectiveLevel, hname, Setup.levelsFrom, hown, habove]

end DotGrid.Log
