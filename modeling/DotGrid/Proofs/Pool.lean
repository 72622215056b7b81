import Mathlib.Logic.Relation

/-!
# Pools of workers

Jobs are submitted to a pool in some order. An idle worker takes any job that waits, so several jobs are worked on at
the same time, and they finish in any order (`Pool.Step`). What they give is gathered in the order in which they were
submitted: the gathering waits for the first job that has not finished, and a failure ends it (`Pool.gathered`).

* Whatever has been gathered at some time of a run, it is what the jobs give one after the other (`gathered_of_run`).
* A pool with a worker goes on until all jobs have finished: some step can be taken before that (`exists_step`), and
  each step leaves less to do, so that every run comes to an end (`exists_run_stuck`). Then all is gathered
  (`gathered_of_stuck`).
-/

namespace DotGrid

/-- Where the work on a job stands. -/
inductive Progress (β : Type) where
  | waiting
  | running
  | finished (result : β)

/-- A job of a pool and where the work on it stands. -/
structure Task (α β : Type) where
  job : α
  progress : Progress β

/-- The tasks of a pool, in the order in which they were submitted. -/
abbrev Pool (α β : Type) := List (Task α β)

section

variable {α β : Type}

namespace Task

/-- Tells a job that a worker works on. -/
def isRunning (task : Task α β) : Bool :=
  match task.progress with
  | .running => true
  | _ => false

/-- Tells a job that has a result. -/
def isFinished (task : Task α β) : Bool :=
  match task.progress with
  | .finished _ => true
  | _ => false

/-- The number of steps that are left for a job. -/
def remaining (task : Task α β) : Nat :=
  match task.progress with
  | .waiting => 2
  | .running => 1
  | .finished _ => 0

/-- The result of a job, if there is one, is that of the work on it. -/
def Sound (work : α → β) (task : Task α β) : Prop :=
  ∀ result, task.progress = .finished result → result = work task.job

end Task

namespace Pool

/-- The pool in which all jobs wait. -/
def submitted (jobs : List α) : Pool α β := jobs.map fun job => ⟨job, .waiting⟩

/-- The number of steps that are left for all jobs. -/
def remaining : Pool α β → Nat
  | [] => 0
  | task :: tasks => task.remaining + remaining tasks

/-- One task goes on: one of so many workers is idle and takes a job, or a worker has finished one. -/
inductive Step (work : α → β) (workers : Nat) : Pool α β → Pool α β → Prop
  | take {before after : Pool α β} {job : α} :
      (before ++ ⟨job, .waiting⟩ :: after).countP Task.isRunning < workers →
      Step work workers (before ++ ⟨job, .waiting⟩ :: after) (before ++ ⟨job, .running⟩ :: after)
  | finish {before after : Pool α β} {job : α} :
      Step work workers (before ++ ⟨job, .running⟩ :: after) (before ++ ⟨job, .finished (work job)⟩ :: after)

/-- Any number of steps. -/
abbrev Run (work : α → β) (workers : Nat) : Pool α β → Pool α β → Prop := Relation.ReflTransGen (Step work workers)

variable {work : α → β} {workers : Nat} {jobs : List α} {pool next : Pool α β}

/-! ## Safety -/

/-- A step changes the progress of one task, and only a result of the work is recorded. -/
theorem Step.sound (h : Step work workers pool next) :
    next.map Task.job = pool.map Task.job ∧ ((∀ task ∈ pool, task.Sound work) → ∀ task ∈ next, task.Sound work) := by
  have hreplace : ∀ {before after : Pool α β} {old new : Task α β}, new.Sound work →
      (∀ task ∈ before ++ old :: after, task.Sound work) → ∀ task ∈ before ++ new :: after, task.Sound work := by
    intro before after old new hnew hsound task htask
    rcases List.mem_append.mp htask with hbefore | hafter
    · exact hsound task (List.mem_append_left _ hbefore)
    · rcases List.mem_cons.mp hafter with rfl | hafter
      · exact hnew
      · exact hsound task (List.mem_append_right _ (List.mem_cons_of_mem _ hafter))
  cases h with
  | take hidle => exact ⟨by simp, hreplace nofun⟩
  | finish =>
    refine ⟨by simp, hreplace fun result hresult => ?_⟩
    cases hresult
    rfl

/-- A run keeps the jobs and their order, and records results of the work only. -/
theorem sound_of_run (h : Run work workers (submitted jobs) pool) :
    pool.map Task.job = jobs ∧ ∀ task ∈ pool, task.Sound work := by
  induction h with
  | refl =>
    refine ⟨by simp [submitted, Function.comp_def], fun task htask => ?_⟩
    obtain ⟨job, -, rfl⟩ := List.mem_map.mp htask
    exact nofun
  | tail _ hstep ih =>
    obtain ⟨hjobs, hsound⟩ := hstep.sound
    exact ⟨hjobs.trans ih.1, hsound ih.2⟩

/-! ## Progress -/

theorem remaining_append (before after : Pool α β) :
    remaining (before ++ after) = remaining before + remaining after := by
  induction before with
  | nil => simp [remaining]
  | cons task tasks ih => simp [remaining, ih, Nat.add_assoc]

/-- A step leaves less to do, so no run goes on forever. -/
theorem Step.remaining_lt (h : Step work workers pool next) : remaining next < remaining pool := by
  cases h <;> simp [remaining_append, remaining, Task.remaining]

/-- A pool with a worker can go on while there is a job that has not finished. -/
theorem exists_step (work : α → β) (hworkers : 0 < workers) (h : ∃ task ∈ pool, task.isFinished = false) :
    ∃ next, Step work workers pool next := by
  by_cases hrunning : ∃ task ∈ pool, task.isRunning = true
  · obtain ⟨⟨job, progress⟩, htask, hrunning⟩ := hrunning
    obtain ⟨before, after, rfl⟩ := List.append_of_mem htask
    cases progress with
    | running => exact ⟨_, .finish⟩
    | _ => cases hrunning
  · -- no worker is busy, so each of them can take the job
    have hidle : pool.countP Task.isRunning = 0 :=
      List.countP_eq_zero.mpr fun task htask htrue => hrunning ⟨task, htask, htrue⟩
    obtain ⟨⟨job, progress⟩, htask, hfinished⟩ := h
    obtain ⟨before, after, rfl⟩ := List.append_of_mem htask
    cases progress with
    | waiting => exact ⟨_, .take (hidle ▸ hworkers)⟩
    | running => exact absurd ⟨_, htask, rfl⟩ hrunning
    | finished result => cases hfinished

/-- Every run comes to an end. -/
theorem exists_run_stuck (work : α → β) (workers : Nat) (pool : Pool α β) :
    ∃ last, Run work workers pool last ∧ ∀ next, ¬Step work workers last next := by
  induction hleft : remaining pool using Nat.strongRecOn generalizing pool with
  | _ left ih =>
    by_cases hstep : ∃ next, Step work workers pool next
    · obtain ⟨next, hstep⟩ := hstep
      obtain ⟨last, hrun, hstuck⟩ := ih _ (hleft ▸ hstep.remaining_lt) next rfl
      exact ⟨last, .head hstep hrun, hstuck⟩
    · exact ⟨pool, .refl, fun next hnext => hstep ⟨next, hnext⟩⟩

end Pool

end

/-! ## Gathering -/

namespace Pool

section

variable {α γ ε : Type}

/-- The lists that the jobs give, put together in the order of the jobs, or the first failure; nothing if a job in front
of it has not finished. -/
def gathered : Pool α (Except ε (List γ)) → Option (Except ε (List γ))
  | [] => some (.ok [])
  | ⟨_, .finished (.ok cs)⟩ :: tasks => (gathered tasks).map (·.map (cs ++ ·))
  | ⟨_, .finished (.error e)⟩ :: _ => some (.error e)
  | ⟨_, .waiting⟩ :: _ | ⟨_, .running⟩ :: _ => none

variable {work : α → Except ε (List γ)} {workers : Nat} {jobs : List α} {pool : Pool α (Except ε (List γ))}
  {r : Except ε (List γ)}

/-- What sound tasks give is what their jobs give one after the other. -/
theorem gathered_of_sound (hsound : ∀ task ∈ pool, task.Sound work) (h : pool.gathered = some r) :
    r = ((pool.map Task.job).mapM work).map List.flatten := by
  fun_induction gathered pool generalizing r with
  | case1 => exact (Option.some.inj h).symm
  | case2 job cs tasks ih =>
    obtain ⟨htask, htasks⟩ := List.forall_mem_cons.mp hsound
    obtain ⟨r', hr', rfl⟩ := Option.map_eq_some_iff.mp h
    have hwork : work job = .ok cs := (htask _ rfl).symm
    rw [List.map_cons, List.mapM_cons, hwork, ih htasks hr']
    cases (tasks.map Task.job).mapM work with
    | ok css => rfl
    | error e => rfl
  | case3 job e tasks =>
    obtain ⟨htask, -⟩ := List.forall_mem_cons.mp hsound
    have hwork : work job = .error e := (htask _ rfl).symm
    rw [List.map_cons, List.mapM_cons, hwork]
    exact (Option.some.inj h).symm
  | case4 => cases h
  | case5 => cases h

theorem gathered_of_finished (h : ∀ task ∈ pool, task.isFinished = true) : ∃ r, pool.gathered = some r := by
  fun_induction gathered pool with
  | case1 => exact ⟨_, rfl⟩
  | case2 job cs tasks ih =>
    obtain ⟨r, hr⟩ := ih (List.forall_mem_cons.mp h).2
    exact ⟨_, by rw [hr, Option.map_some]⟩
  | case3 job e tasks => exact ⟨_, rfl⟩
  | case4 => cases (List.forall_mem_cons.mp h).1
  | case5 => cases (List.forall_mem_cons.mp h).1

/-- Whenever something is gathered, it is what the jobs give one after the other. -/
theorem gathered_of_run (hrun : Run work workers (submitted jobs) pool) (h : pool.gathered = some r) :
    r = (jobs.mapM work).map List.flatten := by
  obtain ⟨hjobs, hsound⟩ := sound_of_run hrun
  rw [← hjobs]
  exact gathered_of_sound hsound h

/-- A pool that cannot go on has gathered all. -/
theorem gathered_of_stuck (hworkers : 0 < workers) (hrun : Run work workers (submitted jobs) pool)
    (hstuck : ∀ next, ¬Step work workers pool next) : pool.gathered = some ((jobs.mapM work).map List.flatten) := by
  have hfinished : ∀ task ∈ pool, task.isFinished = true := by
    intro task htask
    cases hfinished : task.isFinished with
    | true => rfl
    | false =>
      obtain ⟨next, hstep⟩ := exists_step work hworkers ⟨task, htask, hfinished⟩
      exact absurd hstep (hstuck next)
  obtain ⟨r, hr⟩ := gathered_of_finished hfinished
  rw [hr, gathered_of_run hrun hr]

end

end Pool

end DotGrid
