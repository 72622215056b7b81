import DotGrid.Frame.Sequence
import DotGrid.Proofs.Pool

/-!
# Batches of frames

The instants of a configuration are cut into consecutive batches, none of them empty and no more than there are workers
(`pieces_getElem?`, `length_pieces_batchLength_le`). The frames of the batches, put together in the order of the
batches, are the frames of all instants one after the other (`batches_eq`), and so they are in whatever order the
workers of a pool finish the batches. So the number of workers changes neither the frames nor the records about them
(`frames_workers`), as long as a pool of these workers can be opened and the function can be sent to one of them
(`DotFunction.FitsPool`). Otherwise there are no frames (`workers_without_frames`).
-/

namespace DotGrid

/-! ## Pieces of a list -/

section

variable {α : Type} {length : Nat}

theorem flatten_pieces (length : Nat) (as : List α) : (pieces length as).flatten = as := by
  fun_induction pieces length as with
  | case1 => rfl
  | case2 a as ih => rw [List.flatten_cons, ih, List.cons_append, List.take_append_drop]

theorem nil_not_mem_pieces (length : Nat) (as : List α) : [] ∉ pieces length as := by
  fun_induction pieces length as with
  | case1 => exact List.not_mem_nil
  | case2 a as ih =>
    intro h
    rcases List.mem_cons.mp h with heq | hrest
    · cases heq
    · exact ih hrest

/-- Piece `k` is the part of a given length from its `k`-fold on. -/
theorem pieces_getElem? (hlength : 0 < length) (as : List α) (k : Nat) :
    (pieces length as)[k]? =
      if k * length < as.length then some ((as.drop (k * length)).take length) else none := by
  fun_induction pieces length as generalizing k with
  | case1 => simp
  | case2 a as ih =>
    cases k with
    | zero =>
      obtain ⟨n, rfl⟩ := Nat.exists_eq_succ_of_ne_zero (Nat.ne_of_gt hlength)
      simp
    | succ k =>
      have hskip : (k + 1) * length = (length - 1 + k * length) + 1 := by rw [Nat.succ_mul]; omega
      rw [List.getElem?_cons_succ, ih, hskip, List.drop_succ_cons, List.drop_drop, List.length_drop, List.length_cons]
      congr 1
      exact propext (by omega)

/-- Pieces that are long enough are few. -/
theorem length_pieces_le {count : Nat} {as : List α} (h : as.length ≤ length * count) :
    (pieces length as).length ≤ count := by
  fun_induction pieces length as generalizing count with
  | case1 => exact Nat.zero_le _
  | case2 a as ih =>
    cases count with
    | zero => cases h
    | succ count =>
      have hrest : (as.drop (length - 1)).length ≤ length * count := by
        rw [List.length_cons, Nat.mul_succ] at h
        rw [List.length_drop]
        omega
      exact Nat.succ_le_succ (ih hrest)

/-- Batches of the length that is a worker's share are no more than there are workers. -/
theorem length_pieces_batchLength_le {workers : Nat} (hworkers : 0 < workers) (as : List α) :
    (pieces (batchLength as.length workers) as).length ≤ workers := by
  refine length_pieces_le ?_
  have hshare : as.length ≤ (as.length + workers - 1) / workers * workers := by
    have hsplit := Nat.div_add_mod (as.length + workers - 1) workers
    have hmod := Nat.mod_lt (as.length + workers - 1) hworkers
    rw [Nat.mul_comm]
    omega
  exact Nat.le_trans hshare (Nat.mul_le_mul_right _ (Nat.le_max_right _ _))

theorem mapM_eq_ok {β : Type} {g : α → Except Fault β} {k : α → β} {as : List α} (h : ∀ a ∈ as, g a = .ok (k a)) :
    as.mapM g = .ok (as.map k) := by
  induction as with
  | nil => rfl
  | cons a as ih =>
    obtain ⟨ha, has⟩ := List.forall_mem_cons.mp h
    rw [List.mapM_cons, ha, ih has]
    rfl

theorem length_of_mapM {β : Type} {g : α → Except Fault β} {as : List α} {bs : List β} (h : as.mapM g = .ok bs) :
    bs.length = as.length := by
  induction as generalizing bs with
  | nil =>
    cases h
    rfl
  | cons a as ih =>
    rw [List.mapM_cons] at h
    cases hb : g a with
    | error fault =>
      rw [hb] at h
      cases h
    | ok b =>
      cases hrest : as.mapM g with
      | error fault =>
        rw [hb, hrest] at h
        cases h
      | ok rest =>
        rw [hb, hrest] at h
        rw [← Except.ok.inj h, List.length_cons, List.length_cons, ih hrest]

theorem mapM_flatten {β : Type} (g : α → Except Fault β) (parts : List (List α)) :
    (parts.mapM (List.mapM g)).map List.flatten = parts.flatten.mapM g := by
  induction parts with
  | nil => rfl
  | cons part parts ih =>
    rw [List.flatten_cons, List.mapM_append, ← ih, List.mapM_cons]
    cases part.mapM g with
    | error fault => rfl
    | ok bs =>
      cases parts.mapM (List.mapM g) with
      | error fault => rfl
      | ok bss => rfl

end

/-! ## Instants -/

namespace RenderConfig

variable {c : RenderConfig}

theorem offset_eq_ok (hfps : c.fps.measure ≠ .units 0) (n : Nat) : ∃ d, c.offset n = .ok d := by
  have hquotient : ∀ k : Int, k ≠ 0 → ∃ d, offset.quotient n k = .ok d := fun k hk => ⟨_, if_neg hk⟩
  unfold offset
  split
  · rename_i d hd
    have hzero : ¬d.isZero = true := by
      intro hzero
      rw [hd] at hfps
      cases d with
      | nan => cases hzero
      | infinite s => cases hzero
      | finite s m =>
        have hunits : m.units = 0 := by simpa [Double.isZero] using hzero
        exact hfps (by simp [Number.measure, Double.measure, hunits])
    exact ⟨_, if_neg hzero⟩
  · rename_i k hk
    refine hquotient k fun hzero => hfps ?_
    rw [hk, hzero, Number.measure, Int.zero_mul]
  · rename_i b hb
    cases b with
    | true => exact hquotient 1 Int.one_ne_zero
    | false => exact absurd (by rw [hb]; rfl) hfps

/-- There is an instant for each frame if the number of frames in a second is not zero. -/
theorem times_eq_ok (hfps : c.fps.measure ≠ .units 0) {start : Double} (hstart : c.start.toDouble = .ok start) :
    ∃ times, c.times = .ok times ∧ times.length = c.frames.toNat := by
  obtain ⟨offset, hoffset⟩ := Classical.axiomOfChoice (offset_eq_ok hfps)
  have hinstant : ∀ n, c.instant n = .ok (start.add (offset n)) := by
    intro n
    rw [instant, hoffset, hstart]
    rfl
  exact ⟨_, mapM_eq_ok fun n _ => hinstant n, by rw [List.length_map, List.length_range]⟩

end RenderConfig

/-! ## Frames -/

/-- The batches of the instants of a configuration. -/
def RenderConfig.slices (c : RenderConfig) (times : List Double) : List (List Double) :=
  pieces (batchLength times.length c.workers.toNat) times

/-- There are as many instants as frames. -/
theorem RenderConfig.length_of_times {c : RenderConfig} {times : List Double} (h : c.times = .ok times) :
    times.length = c.frames.toNat := by
  rw [length_of_mapM h, List.length_range]

namespace DotFunction

variable {f : DotFunction} {c : RenderConfig} {times : List Double}

/-- The frames of pieces, put together, are those of the instants one after the other. -/
theorem mapM_batch_pieces (f : DotFunction) (c : RenderConfig) (length : Nat) (times : List Double) :
    ((pieces length times).mapM (f.batch c)).map List.flatten = f.batch c times :=
  (mapM_flatten _ _).trans (congrArg _ (flatten_pieces length times))

theorem sent_eq (h : f.tree.layers ≤ deepestSent) : f.sent c = f.batch c := by
  funext times
  exact if_neg (Nat.not_lt_of_le h)

theorem sent_eq_error (h : deepestSent < f.tree.layers) (times : List Double) : f.sent c times = .error .tooDeep :=
  if_pos h

/-- The frames of batches, if a pool can be opened. -/
theorem batches_eq_sent (h : c.workers ≤ mostWorkers) (times : List Double) :
    f.batches c times = ((c.slices times).mapM (f.sent c)).map List.flatten := by
  rw [batches, poolFault?, if_neg (Int.not_lt_of_ge h)]
  dsimp only [RenderConfig.slices]
  cases (pieces (batchLength times.length c.workers.toNat) times).mapM (f.sent c) with
  | ok parts => rfl
  | error fault => rfl

/-- The frames of batches are those of the instants one after the other. -/
theorem batches_eq (h : c.workers ≤ mostWorkers) (hsent : times = [] ∨ f.tree.layers ≤ deepestSent) :
    f.batches c times = f.batch c times := by
  rw [batches_eq_sent h]
  rcases hsent with rfl | hsent
  · rw [RenderConfig.slices, pieces]
    rfl
  · rw [sent_eq hsent]
    exact f.mapM_batch_pieces c _ times

theorem batches_eq_tooManyWorkers (h : mostWorkers < c.workers) (times : List Double) :
    f.batches c times = .error .tooManyWorkers := by
  rw [batches, poolFault?, if_pos h]

theorem batches_eq_tooDeep (h : c.workers ≤ mostWorkers) (hdeep : deepestSent < f.tree.layers) (hne : times ≠ []) :
    f.batches c times = .error .tooDeep := by
  obtain ⟨t, ts, rfl⟩ := List.exists_cons_of_ne_nil hne
  rw [batches_eq_sent h, RenderConfig.slices, pieces, List.mapM_cons, sent_eq_error hdeep]
  rfl

/-- Nothing keeps the workers of a configuration from its frames: no pool is needed for them, or it can be opened and
the function can be sent, unless there is nothing to send. -/
def FitsPool (f : DotFunction) (c : RenderConfig) : Prop :=
  c.workers ≤ 1 ∨ c.frames = 1 ∨ c.workers ≤ mostWorkers ∧ (c.frames ≤ 0 ∨ f.tree.layers ≤ deepestSent)

/-- The frames are those of the instants one after the other. -/
theorem frames_eq (h : f.FitsPool c) : f.frames c = c.times >>= f.batch c := by
  unfold frames
  cases htimes : c.times with
  | error fault => rfl
  | ok times =>
    have hlength := RenderConfig.length_of_times htimes
    have hbatches : ¬(c.workers ≤ 1 ∨ times.length = 1) → f.batches c times = f.batch c times := by
      intro hpool
      obtain ⟨hworkers, hone⟩ := not_or.mp hpool
      obtain ⟨hopen, hsent⟩ := (h.resolve_left hworkers).resolve_left (by omega)
      exact batches_eq hopen (hsent.imp_left fun hnone => List.length_eq_zero_iff.mp (by omega))
    exact (ite_congr rfl (fun _ => rfl) hbatches).trans (ite_self _)

/-- With a pool the frames are those of the batches. -/
theorem frames_eq_batches (htimes : c.times = .ok times) (hworkers : 1 < c.workers) (hone : times.length ≠ 1) :
    f.frames c = f.batches c times := by
  have hpool : ¬(c.workers ≤ 1 ∨ times.length = 1) := not_or.mpr ⟨Int.not_le_of_gt hworkers, hone⟩
  rw [frames, htimes]
  exact if_neg hpool

theorem frames_eq_tooManyWorkers (h : mostWorkers < c.workers) (htimes : c.times = .ok times)
    (hone : times.length ≠ 1) : f.frames c = .error .tooManyWorkers := by
  have hworkers : 1 < c.workers := Int.lt_trans (by decide) h
  rw [frames_eq_batches htimes hworkers hone, batches_eq_tooManyWorkers h]

theorem frames_eq_tooDeep (hworkers : 1 < c.workers) (hopen : c.workers ≤ mostWorkers)
    (hdeep : deepestSent < f.tree.layers) (htimes : c.times = .ok times) (hlength : 1 < times.length) :
    f.frames c = .error .tooDeep := by
  have hne : times ≠ [] := List.ne_nil_of_length_pos (Nat.zero_lt_of_lt hlength)
  rw [frames_eq_batches htimes hworkers (Nat.ne_of_gt hlength), batches_eq_tooDeep hopen hdeep hne]

theorem batch_eq_ok (f : DotFunction) (c : RenderConfig) (hsize : gridFault? c.size = none) (times : List Double) :
    f.batch c times = .ok (times.map fun t => f.frame (.real t) c.size.toNat c.clamp) := by
  have hrender : ∀ t : Double, f.render (.real t) c.size c.clamp = .ok (f.frame (.real t) c.size.toNat c.clamp) := by
    intro t
    simp only [render, hsize]
  exact mapM_eq_ok fun t _ => hrender t

theorem frames_eq_ok (h : f.FitsPool c) (htimes : c.times = .ok times) (hsize : gridFault? c.size = none) :
    f.frames c = .ok (times.map fun t => f.frame (.real t) c.size.toNat c.clamp) := by
  rw [frames_eq h, htimes]
  exact f.batch_eq_ok c hsize times

/-! ## Pools -/

/-- The batches of some instants and what the workers of a pool make of them. -/
structure InBatches (f : DotFunction) (c : RenderConfig) (times : List Double) : Prop where
  length_pos : 0 < batchLength times.length c.workers.toNat
  /-- Each batch is a slice of the instants. -/
  slice : ∀ k : Nat, (c.slices times)[k]? =
    let length := batchLength times.length c.workers.toNat
    if k * length < times.length then some ((times.drop (k * length)).take length) else none
  /-- No instant is lost, repeated or moved. -/
  flatten : (c.slices times).flatten = times
  nonempty : [] ∉ c.slices times
  count : (c.slices times).length ≤ c.workers.toNat
  /-- Whatever has been gathered is what the batches give one after the other, whichever of them finish first. -/
  gathered : c.workers ≤ mostWorkers →
    ∀ pool, Pool.Run (f.sent c) c.workers.toNat (.submitted (c.slices times)) pool →
      ∀ r, pool.gathered = some r → r = f.batches c times
  /-- A pool that cannot go on has gathered all. -/
  complete : c.workers ≤ mostWorkers →
    ∀ pool, Pool.Run (f.sent c) c.workers.toNat (.submitted (c.slices times)) pool →
      (∀ next, ¬Pool.Step (f.sent c) c.workers.toNat pool next) → pool.gathered = some (f.batches c times)
  /-- Every pool comes to this. -/
  finishes : c.workers ≤ mostWorkers →
    ∀ pool, Pool.Run (f.sent c) c.workers.toNat (.submitted (c.slices times)) pool →
      ∃ last, Pool.Run (f.sent c) c.workers.toNat pool last ∧ last.gathered = some (f.batches c times)

theorem inBatches (f : DotFunction) (c : RenderConfig) (times : List Double) (hworkers : 1 < c.workers) :
    f.InBatches c times := by
  have hpositive : 0 < c.workers.toNat := by omega
  have hlength : 0 < batchLength times.length c.workers.toNat := Nat.le_max_left 1 _
  have hcomplete : c.workers ≤ mostWorkers →
      ∀ pool, Pool.Run (f.sent c) c.workers.toNat (.submitted (c.slices times)) pool →
        (∀ next, ¬Pool.Step (f.sent c) c.workers.toNat pool next) → pool.gathered = some (f.batches c times) := by
    intro hopen pool hrun hstuck
    rw [Pool.gathered_of_stuck hpositive hrun hstuck, batches_eq_sent hopen]
  refine
    { length_pos := hlength
      slice := pieces_getElem? hlength times
      flatten := flatten_pieces _ _
      nonempty := nil_not_mem_pieces _ _
      count := length_pieces_batchLength_le hpositive times
      gathered := fun hopen pool hrun r hr => ?_
      complete := hcomplete
      finishes := fun hopen pool hrun => ?_ }
  · rw [Pool.gathered_of_run hrun hr, batches_eq_sent hopen]
  · obtain ⟨last, hlast, hstuck⟩ := Pool.exists_run_stuck (f.sent c) c.workers.toNat pool
    exact ⟨last, hlast, hcomplete hopen last (hrun.trans hlast) hstuck⟩

/-! ## Any number of workers -/

/-- What the number of workers does to the frames of a configuration: nothing at all if they fit into a pool, and
otherwise there are none. -/
structure AnyWorkers (f : DotFunction) (c : RenderConfig) : Prop where
  /-- All numbers of workers that fit give the same frames. -/
  same_frames : ∀ workers : Int, f.FitsPool { c with workers := workers } →
    f.frames { c with workers := workers } = f.frames { c with workers := 1 }
  same_records : ∀ (workers : Int) frames elapsed,
    frameRecords { c with workers := workers } frames elapsed = frameRecords c frames elapsed
  /-- There is an instant for each frame, unless there are zero frames in a second. -/
  instants : ∀ start, c.start.toDouble = .ok start → c.fps.measure ≠ .units 0 →
    ∃ times, c.times = .ok times ∧ times.length = c.frames.toNat
  /-- There is a frame for each instant, in the order of the instants. -/
  frames_eq : f.FitsPool c → ∀ times, c.times = .ok times → gridFault? c.size = none →
    f.frames c = .ok (times.map fun t => f.frame (.real t) c.size.toNat c.clamp)
  /-- More workers than a pool has fail as soon as the instants are known. -/
  tooManyWorkers : mostWorkers < c.workers → ∀ times, c.times = .ok times → times.length ≠ 1 →
    f.frames c = .error .tooManyWorkers
  /-- A function that is too deep to be sent fails with the first batch. -/
  tooDeep : 1 < c.workers → c.workers ≤ mostWorkers → deepestSent < f.tree.layers →
    ∀ times, c.times = .ok times → 1 < times.length → f.frames c = .error .tooDeep
  /-- With more than one worker the instants are cut into batches. -/
  inBatches : 1 < c.workers → ∀ times, f.InBatches c times

end DotFunction

/-- **The number of workers changes no frames.** With any number of workers that a pool can have, and a function that
can be sent to them, there are the same frames in the same order and the same records about them. They are cut into
slices of the instants, and gathered in the order of the slices, in whatever order a pool finishes them. With more
workers or a deeper function there are no frames. -/
theorem frames_workers (f : DotFunction) (c : RenderConfig) : f.AnyWorkers c where
  same_frames workers h := by
    rw [DotFunction.frames_eq h, DotFunction.frames_eq (.inl Int.le_rfl)]
    rfl
  same_records _ _ _ := rfl
  instants _ hstart hfps := RenderConfig.times_eq_ok hfps hstart
  frames_eq h _ htimes hsize := DotFunction.frames_eq_ok h htimes hsize
  tooManyWorkers h _ htimes hone := DotFunction.frames_eq_tooManyWorkers h htimes hone
  tooDeep hworkers hopen hdeep _ htimes hlength := DotFunction.frames_eq_tooDeep hworkers hopen hdeep htimes hlength
  inBatches hworkers times := f.inBatches c times hworkers

/-- Three frames and two workers: the second batch overtakes the first one, and the gathering waits for it. -/
theorem frames_workers_overtaking :
    let f : DotFunction := ⟨.name "t"⟩
    let c : RenderConfig := { frames := 3, workers := 2 }
    let first : List Double := [.ofInt 0, .ofInt 1]
    let second : List Double := [.ofInt 2]
    let early : Pool (List Double) (Except Fault (List Frame)) :=
      [⟨first, .running⟩, ⟨second, .finished (f.sent c second)⟩]
    let late : Pool (List Double) (Except Fault (List Frame)) :=
      [⟨first, .finished (f.sent c first)⟩, ⟨second, .finished (f.sent c second)⟩]
    let times := first ++ second
    f.FitsPool c ∧ (∃ instants, c.times = .ok instants ∧ instants.length = 3 ∧
      f.frames c = .ok (instants.map fun t => f.frame (.real t) 16 true)) ∧
    c.slices times = [first, second] ∧
      Pool.Run (f.sent c) c.workers.toNat (.submitted [first, second]) early ∧ early.gathered = none ∧
      Pool.Run (f.sent c) c.workers.toNat early late ∧ late.gathered = some (f.batches c times) := by
  intro f c first second early late times
  have hall := frames_workers f c
  have hfits : f.FitsPool c := .inr (.inr ⟨by decide, .inr (by decide)⟩)
  obtain ⟨instants, hinstants, hcount⟩ := hall.instants (.zero false) rfl (by decide +kernel)
  have hparts : c.slices times = [first, second] := by
    simp [RenderConfig.slices, pieces, batchLength, c, times, first, second]
  have htake : Pool.Run (f.sent c) c.workers.toNat (.submitted [first, second])
      [⟨first, .running⟩, ⟨second, .running⟩] :=
    .tail (.single (@Pool.Step.take _ _ _ _ [] [⟨second, .waiting⟩] first (by decide)))
      (@Pool.Step.take _ _ _ _ [⟨first, .running⟩] [] second (by decide))
  have hearly : Pool.Run (f.sent c) c.workers.toNat (.submitted [first, second]) early :=
    htake.tail (@Pool.Step.finish _ _ _ _ [⟨first, .running⟩] [] second)
  have hlate : Pool.Run (f.sent c) c.workers.toNat early late :=
    .single (@Pool.Step.finish _ _ _ _ [] [⟨second, .finished (f.sent c second)⟩] first)
  have hgathered := (hall.inBatches (by decide) times).gathered (by decide)
  rw [hparts] at hgathered
  obtain ⟨r, hr⟩ : ∃ r, late.gathered = some r := Pool.gathered_of_finished (by simp [late, Task.isFinished])
  have hframes := hall.frames_eq hfits instants hinstants (by decide)
  exact ⟨hfits, ⟨instants, hinstants, hcount, hframes⟩, hparts, hearly, rfl, hlate,
    hr.trans (congrArg some (hgathered late (hearly.trans hlate) r hr))⟩

/-- A sum of names, added from the left. -/
def sumOfNames : Nat → Expr
  | 0 => .name "x"
  | n + 1 => .binary .add (sumOfNames n) (.name "x")

theorem layers_sumOfNames (n : Nat) : (sumOfNames n).layers = 3 * n := by
  induction n with
  | zero => rfl
  | succ n ih =>
    rw [sumOfNames, Expr.layers, ih, Expr.layers, Nat.max_eq_left (Nat.zero_le _)]
    rfl

/-- One worker renders two frames, but more workers than a pool has do not, and neither do two workers those of a long
sum. -/
theorem workers_without_frames :
    let c : RenderConfig := { size := 1, frames := 2 }
    let short : DotFunction := ⟨sumOfNames 0⟩
    let long : DotFunction := ⟨sumOfNames 399⟩
    (∀ f : DotFunction, ∃ frames, f.frames c = .ok frames ∧ frames.length = 2) ∧
      short.frames { c with workers := 2147483647 } = .error .tooManyWorkers ∧
      long.frames { c with workers := 2 } = .error .tooDeep := by
  intro c short long
  have hstart : c.start.toDouble = .ok (.zero false) := rfl
  obtain ⟨times, htimes, hcount⟩ := RenderConfig.times_eq_ok (by decide +kernel) hstart
  have hlength : times.length = 2 := hcount
  have hdeep : deepestSent < long.tree.layers := by
    rw [layers_sumOfNames]
    decide
  refine ⟨fun f => ⟨_, DotFunction.frames_eq_ok (.inl (by decide)) htimes (by decide), ?_⟩, ?_, ?_⟩
  · rw [List.length_map, hlength]
  · exact DotFunction.frames_eq_tooManyWorkers (by decide) htimes (by omega)
  · exact DotFunction.frames_eq_tooDeep (by decide) (by decide) hdeep htimes (by omega)

end DotGrid
