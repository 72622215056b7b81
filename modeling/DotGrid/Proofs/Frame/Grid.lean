import DotGrid.Frame.Basic

/-!
# Square grids

A grid is given by what stands in each column of each row. Its members, row by row, have the numbers from zero on
(`flatten_gridOf`), and each of them is found by its row and its column (`gridOf_getElem?`).
-/

namespace DotGrid

variable {α : Type} {size y x : Nat}

/-! ## Numbers of places -/

theorem place_div (y : Nat) (hx : x < size) : (y * size + x) / size = y := by
  rw [Nat.mul_comm, Nat.mul_add_div (by omega), Nat.div_eq_of_lt hx, Nat.add_zero]

theorem place_mod (y : Nat) (hx : x < size) : (y * size + x) % size = x := by
  rw [Nat.mul_add_mod_self_right, Nat.mod_eq_of_lt hx]

theorem place_lt (hy : y < size) (hx : x < size) : y * size + x < size * size := by
  have hrow : (y + 1) * size ≤ size * size := Nat.mul_le_mul_right size hy
  rw [Nat.succ_mul] at hrow
  omega

/-- The places up to one of them are those before it and itself. -/
theorem place_lt_succ_iff {v u : Nat} (hx : x < size) (hu : u < size) :
    v * size + u < y * size + x + 1 ↔ v * size + u < y * size + x ∨ v = y ∧ u = x := by
  constructor
  · intro hle
    rcases Nat.lt_succ_iff_lt_or_eq.mp hle with hlt | heq
    · exact .inl hlt
    · refine .inr ⟨?_, ?_⟩
      · rw [← place_div v hu, heq, place_div y hx]
      · rw [← place_mod v hu, heq, place_mod y hx]
  · rintro (hlt | ⟨rfl, rfl⟩)
    · exact Nat.lt_succ_of_lt hlt
    · exact Nat.lt_succ_self _

/-! ## Members -/

theorem gridOf_const (size : Nat) (a : α) :
    gridOf size (fun _ _ => a) = List.replicate size (List.replicate size a) := by
  simp [gridOf, List.map_const']

theorem map_gridOf {β : Type} (size : Nat) (k : α → β) (g : Nat → Nat → α) :
    (gridOf size g).map (·.map k) = gridOf size fun y x => k (g y x) := by
  simp only [gridOf, List.map_map, Function.comp_def]

theorem gridOf_congr {g h : Nat → Nat → α} (heq : ∀ y < size, ∀ x < size, g y x = h y x) :
    gridOf size g = gridOf size h := by
  refine List.map_congr_left fun y hy => List.map_congr_left fun x hx => ?_
  exact heq y (List.mem_range.mp hy) x (List.mem_range.mp hx)

theorem gridOf_getElem? (hy : y < size) (hx : x < size) (g : Nat → Nat → α) :
    ∃ row, (gridOf size g)[y]? = some row ∧ row[x]? = some (g y x) := by
  refine ⟨(List.range size).map (g y), ?_, ?_⟩
  · rw [gridOf, List.getElem?_map, List.getElem?_range hy, Option.map_some]
  · rw [List.getElem?_map, List.getElem?_range hx, Option.map_some]

theorem exists_of_mem_gridOf {g : Nat → Nat → α} {row : List α} {a : α} (hrow : row ∈ gridOf size g) (ha : a ∈ row) :
    ∃ y x, a = g y x := by
  obtain ⟨y, -, rfl⟩ := List.mem_map.mp hrow
  obtain ⟨x, -, rfl⟩ := List.mem_map.mp ha
  exact ⟨y, x, rfl⟩

/-- One member of a grid is replaced. -/
theorem gridOf_modify (size y x : Nat) (g : Nat → Nat → α) (a : α) :
    (gridOf size g).modify y (·.set x a) = gridOf size fun v u => if v = y ∧ u = x then a else g v u := by
  refine List.ext_getElem (by simp [gridOf]) fun v hv hv' => ?_
  have hrow (h : v < (gridOf size g).length) : (gridOf size g)[v] = (List.range size).map (g v) := by simp [gridOf]
  rw [List.getElem_modify, hrow]
  simp only [gridOf, List.getElem_map, List.getElem_range]
  by_cases hvy : v = y
  · subst hvy
    rw [if_pos rfl]
    refine List.ext_getElem (by simp) fun u hu hu' => ?_
    simp only [List.getElem_set, List.getElem_map, List.getElem_range, true_and, eq_comm]
  · simp only [Ne.symm hvy, hvy, if_false, false_and]

/-- Rows that are put behind each other are the members of a grid by their numbers. -/
theorem flatten_gridOf (size : Nat) (g : Nat → Nat → α) :
    (gridOf size g).flatten = (List.range (size * size)).map fun i => g (i / size) (i % size) := by
  suffices hrows : ∀ n, ((List.range n).map fun y => (List.range size).map fun x => g y x).flatten =
      (List.range (n * size)).map fun i => g (i / size) (i % size) from hrows size
  intro n
  induction n with
  | zero => simp
  | succ n ih =>
    have hrow : (List.range size).map (g n) =
        ((List.range size).map (n * size + ·)).map fun i => g (i / size) (i % size) := by
      rw [List.map_map]
      refine List.map_congr_left fun x hx => ?_
      have hx := List.mem_range.mp hx
      rw [Function.comp_apply, place_div n hx, place_mod n hx]
    rw [List.range_succ, List.map_append, List.flatten_append, ih, Nat.succ_mul, List.range_add, List.map_append,
      ← hrow, List.map_singleton, List.flatten_singleton]

end DotGrid
