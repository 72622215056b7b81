import DotGrid.Yaml.Load

/-!
# The depth of loaded data

Only scalars have a plain meaning, and a scalar is no collection (`Builder.Flat`). So all collections of a datum that is
loaded come from the nodes of its document, and to cut them off at a depth bounds the depth of the datum
(`Loaded.datum_depth_le`).
-/

namespace DotGrid

/-! ## Depths of collections -/

namespace Datum

theorem depthOfItems_le {ds : List Datum} {n : Nat} (h : ∀ d ∈ ds, d.depth ≤ n) : depthOfItems ds ≤ n := by
  induction ds with
  | nil => exact Nat.zero_le n
  | cons d ds ih =>
    obtain ⟨hd, hds⟩ := List.forall_mem_cons.mp h
    exact Nat.max_le.mpr ⟨hd, ih hds⟩

theorem depthOfEntries_le {es : List (Datum × Datum)} {n : Nat} (h : ∀ e ∈ es, e.2.depth ≤ n) :
    depthOfEntries es ≤ n := by
  induction es with
  | nil => exact Nat.zero_le n
  | cons e es ih =>
    obtain ⟨he, hes⟩ := List.forall_mem_cons.mp h
    exact Nat.max_le.mpr ⟨he, ih hes⟩

theorem depth_le_of_mem {e : Datum × Datum} {es : List (Datum × Datum)} (h : e ∈ es) :
    e.2.depth ≤ depthOfEntries es := by
  induction es with
  | nil => cases h
  | cons f es ih =>
    rcases List.mem_cons.mp h with rfl | h
    · exact Nat.le_max_left _ _
    · exact Nat.le_trans (ih h) (Nat.le_max_right _ _)

end Datum

namespace Yaml

/-! ## Scalars -/

theorem Tag.datum?_depth {tag : Tag} {s : String} {d : Datum} (h : tag.datum? s = some d) : d.depth = 0 := by
  cases tag <;> simp only [Tag.datum?, Option.some.injEq, Option.map_eq_some_iff, reduceCtorEq] at h
  case null => rw [← h]; rfl
  case text => rw [← h]; rfl
  all_goals
    obtain ⟨_, -, rfl⟩ := h
    rfl

namespace Builder

variable {b b' : Builder} {id : Nat} {d : Datum}

/-- No plain meaning is a collection. -/
def Flat (meanings : Array (Option Meaning)) : Prop :=
  ∀ (id : Nat) (d : Datum), meanings[id]? = some (some (.plain d)) → d.depth = 0

theorem firstMeaning?_depth (h : b.firstMeaning? id = some (.plain d)) : d.depth = 0 := by
  simp only [firstMeaning?, Option.bind_eq_bind, Option.bind_eq_some_iff] at h
  obtain ⟨node, -, h⟩ := h
  split at h
  iterate 5 cases h
  obtain ⟨text, -, hdatum⟩ := Option.bind_eq_some_iff.mp h
  obtain ⟨e, he, heq⟩ := Option.map_eq_some_iff.mp hdatum
  cases heq
  exact Tag.datum?_depth he

namespace Flat

theorem set {meanings : Array (Option Meaning)} (h : Flat meanings) {m : Meaning}
    (hm : ∀ d, m = .plain d → d.depth = 0) : Flat (meanings.set! id (some m)) := by
  intro i d hi
  rw [Array.set!_eq_setIfInBounds, Array.getElem?_setIfInBounds] at hi
  split at hi
  · split at hi
    · exact hm d (by simpa using hi)
    · cases hi
  · exact h i d hi

theorem visit (h : Flat b.meanings) (hb : b.visit id = some b') : Flat b'.meanings := by
  unfold Builder.visit at hb
  split at hb
  · obtain ⟨m, hm, hb⟩ := Option.bind_eq_some_iff.mp hb
    cases hb
    refine h.set fun d hd => ?_
    rw [hd] at hm
    exact firstMeaning?_depth hm
  · cases hb
    exact h
  · cases hb

theorem visitAll (h : Flat b.meanings) {ids : List Nat} (hb : ids.foldlM Builder.visit b = some b') :
    Flat b'.meanings := by
  induction ids generalizing b with
  | nil =>
    cases hb
    exact h
  | cons id ids ih =>
    rw [List.foldlM_cons] at hb
    obtain ⟨c, hc, hb⟩ := Option.bind_eq_some_iff.mp hb
    exact ih (h.visit hc) hb

theorem visitEntries (h : Flat b.meanings) {done es es' : List (Nat × Nat)}
    (hb : b.visitEntries done es = some (b', es')) : Flat b'.meanings := by
  induction es generalizing b done with
  | nil =>
    cases hb
    exact h
  | cons e es ih =>
    obtain ⟨c, hc, hb⟩ := Option.bind_eq_some_iff.mp hb
    split at hb
    · cases hb
    · obtain ⟨c', hc', hb⟩ := Option.bind_eq_some_iff.mp hb
      exact ih ((h.visit hc).visit hc') hb

theorem visitPairs (h : Flat b.meanings) {ids : List Nat} {pairs : List (Nat × Nat)}
    (hb : b.visitPairs ids = some (b', pairs)) : Flat b'.meanings := by
  induction ids generalizing b pairs with
  | nil =>
    cases hb
    exact h
  | cons id ids ih =>
    obtain ⟨es, -, hb⟩ := Option.bind_eq_some_iff.mp hb
    split at hb
    · obtain ⟨c, hc, hb⟩ := Option.bind_eq_some_iff.mp hb
      obtain ⟨c', hc', hb⟩ := Option.bind_eq_some_iff.mp hb
      obtain ⟨⟨c'', rest⟩, hc'', hb⟩ := Option.bind_eq_some_iff.mp hb
      cases hb
      exact ih ((h.visit hc).visit hc') hc''
    · cases hb

theorem mergedEntries (h : Flat b.meanings) {es : List (Nat × Nat)} (hb : b.mergedEntries? id = some (b', es)) :
    Flat b'.meanings := by
  obtain ⟨g, -, hb⟩ := Option.bind_eq_some_iff.mp hb
  obtain ⟨entries, -, hb⟩ := Option.bind_eq_some_iff.mp hb
  exact visitEntries (b := { b with graph := g }) h hb

theorem opened (h : Flat b.meanings) (hb : b.open? id = some b') : Flat b'.meanings := by
  obtain ⟨node, -, hb⟩ := Option.bind_eq_some_iff.mp hb
  split at hb
  case h_1 =>
    obtain ⟨items, -, hb⟩ := Option.bind_eq_some_iff.mp hb
    obtain ⟨c, hc, hb⟩ := Option.bind_eq_some_iff.mp hb
    cases hb
    exact (h.visitAll hc).set nofun
  case h_2 | h_3 =>
    obtain ⟨items, -, hb⟩ := Option.bind_eq_some_iff.mp hb
    obtain ⟨⟨c, pairs⟩, hc, hb⟩ := Option.bind_eq_some_iff.mp hb
    cases hb
    exact (h.visitPairs hc).set nofun
  case h_4 | h_5 =>
    obtain ⟨⟨c, entries⟩, hc, hb⟩ := Option.bind_eq_some_iff.mp hb
    cases hb
    exact (h.mergedEntries hc).set nofun

theorem openedAll (h : Flat b.meanings) {n : Nat} (hb : b.openAll? n = some b') : Flat b'.meanings := by
  induction n generalizing b with
  | zero =>
    rw [openAll?] at hb
    split at hb
    · cases hb
      exact h
    · cases hb
  | succ n ih =>
    rw [openAll?] at hb
    split at hb
    · cases hb
      exact h
    · rename_i rest _
      obtain ⟨c, hc, hb⟩ := Option.bind_eq_some_iff.mp hb
      exact ih (opened (b := { b with waiting := rest }) h hc) hb

end Flat

theorem ofDocument?_flat {document : Document} (h : ofDocument? document = some b) : Flat b.meanings := by
  obtain ⟨c, hc, hb⟩ := Option.bind_eq_some_iff.mp h
  refine Flat.openedAll (Flat.visit ?_ hc) hb
  intro i d hi
  rw [Array.getElem?_replicate] at hi
  split at hi <;> cases hi

/-- Two collections at most come from one node: a list of pairs is a list of lists. -/
theorem datum_depth_le (h : Flat b.meanings) (n id : Nat) : (b.datum n id).depth ≤ 2 * n + 1 := by
  have hplain : ∀ {id : Nat} {d : Datum}, (b.meanings[id]?).join = some (.plain d) → d.depth = 0 := fun hd =>
    h _ _ (Option.join_eq_some_iff.mp hd)
  induction n generalizing id with
  | zero =>
    unfold datum
    rcases hm : (b.meanings[id]?).join with _ | ⟨d⟩ | _ | _ | _ | _
    case some.plain => exact Nat.le_succ_of_le (Nat.le_of_eq (hplain hm))
    case none => exact Nat.zero_le _
    all_goals exact Nat.le_refl 1
  | succ n ih =>
    have hitems : ∀ ids : List Nat, Datum.depthOfItems (ids.map (b.datum n)) ≤ 2 * n + 1 := fun ids =>
      Datum.depthOfItems_le (List.forall_mem_map.mpr fun i _ => ih i)
    unfold datum
    cases hm : (b.meanings[id]?).join with
    | none => exact Nat.zero_le _
    | some m =>
      cases m with
      | plain d => exact Nat.le_trans (Nat.le_of_eq (hplain hm)) (Nat.zero_le _)
      | list items =>
        have := hitems items
        simp only [Datum.depth]
        omega
      | pairs items =>
        have hpairs : Datum.depthOfItems (items.map fun p => .list [b.datum n p.1, b.datum n p.2]) ≤ 2 * n + 2 := by
          refine Datum.depthOfItems_le (List.forall_mem_map.mpr fun p _ => Nat.succ_le_succ ?_)
          exact hitems [p.1, p.2]
        simp only [Datum.depth]
        omega
      | mapping entries =>
        have hentries : Datum.depthOfEntries (entries.map fun e => (b.datum n e.1, b.datum n e.2)) ≤ 2 * n + 1 :=
          Datum.depthOfEntries_le (List.forall_mem_map.mpr fun e _ => ih e.2)
        simp only [Datum.depth]
        omega
      | set members =>
        have := hitems members
        simp only [Datum.depth]
        omega

end Builder

theorem Loaded.datum_depth_le {text : String} {l : Loaded} (h : load? text = some (some l)) (depth : Nat) :
    (l.datum depth).depth ≤ 2 * depth + 1 := by
  obtain ⟨ts, -, h⟩ := Option.bind_eq_some_iff.mp h
  obtain ⟨document, -, h⟩ := Option.bind_eq_some_iff.mp h
  split at h
  · cases h
  · obtain ⟨b, hb, h⟩ := Option.bind_eq_some_iff.mp h
    cases h
    exact Builder.datum_depth_le (Builder.ofDocument?_flat hb) depth _

end Yaml

end DotGrid
