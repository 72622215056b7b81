import DotGrid.Proofs.Distinct
import DotGrid.Proofs.Log.Levels
import Mathlib.Data.List.Induction
import Mathlib.Tactic.IntervalCases

/-!
# Records and the history of the log

A set-up is what its history says. The level of a logger is the one that was set last (`ownLevel_run`), the handlers are
those of the latest set-up alone (`handlers_run`), and the loggers stand in the order in which they were named first
(`names_run`). So a record is written once to each place, and it is written if its level is not below the first one
that is found on the way up from its logger (`emitted_once`). Only a logger whose name begins the name of the root can
be missed on this way, and only if it came after a logger below it (`late_parent_missed`).
-/

namespace DotGrid.Log

variable {s : Setup} {name : String} {steps : List Step}

/-! ## Histories -/

/-- The set-up after some steps. -/
def Setup.run (steps : List Step) : Setup := steps.foldl (fun s step => (s.after step).2) .initial

/-- The level that a step sets on a logger. -/
def Step.level? (name : String) : Step → Option Int
  | .configure level _ => if isRoot name then some level else none
  | .get n (some level) => if fullName n = fullName name then some level else none
  | .get _ none | .log _ => none

/-- Whether a set-up names a log file. -/
def Step.file? : Step → Option Bool
  | .configure _ toFile => some toFile
  | .get _ _ | .log _ => none

/-- The logger that a step names, other than the root. -/
def Step.logger? : Step → Option String
  | .configure _ _ => none
  | .get n _ => if isRoot n then none else some n
  | .log r => if isRoot r.logger then none else some r.logger

/-- The level that was set last on a logger. Before one is set, the root has that of warnings and the others have
none. -/
def lastLevel (steps : List Step) (name : String) : Int :=
  (steps.reverse.findSome? (·.level? name)).getD (if isRoot name then warning else 0)

/-- Whether the latest set-up named a log file, if there was a set-up. -/
def latestFile? (steps : List Step) : Option Bool := steps.reverse.findSome? Step.file?

/-- The loggers that were named, with repeats. -/
def named (steps : List Step) : List String := steps.filterMap Step.logger?

/-- The handlers of a set-up. -/
def handlersFor (toFile : Bool) : List Handler := if toFile then [.stderr, .file] else [.stderr]

theorem run_snoc (steps : List Step) (step : Step) :
    Setup.run (steps ++ [step]) = ((Setup.run steps).after step).2 := by
  simp [Setup.run]

theorem named_snoc (steps : List Step) (step : Step) :
    named (steps ++ [step]) = named steps ++ step.logger?.toList := by
  rw [named, List.filterMap_append]
  cases h : step.logger? <;> simp [h, named]

/-! ## What one step does -/

theorem fullName_eq_iff {n : String} (h : isRoot n = false) : fullName n = fullName name ↔ n = name := by
  have hn : n ≠ rootName := fun heq => by simp [isRoot, heq] at h
  rw [fullName, if_neg (by simp [h]), fullName]
  split
  · rename_i hname
    refine iff_of_false hn ?_
    rintro rfl
    simp [h] at hname
  · rfl

theorem fullName_eq_root_iff : fullName name = rootName ↔ isRoot name = true := by
  rw [fullName]
  split
  · exact iff_of_true rfl ‹_›
  · rename_i h
    refine iff_of_false (fun heq => h ?_) h
    simp [isRoot, heq]

theorem loggers_withLogger (s : Setup) (n : String) :
    (s.withLogger n).loggers = if isRoot n || s.has n then s.loggers else s.loggers ++ [{ name := n }] := by
  rw [Setup.withLogger]
  split <;> rename_i h
  · exact (if_pos h).symm
  · exact (if_neg h).symm

theorem rootLevel_withLogger (s : Setup) (n : String) : (s.withLogger n).rootLevel = s.rootLevel := by
  rw [Setup.withLogger]
  split <;> rfl

theorem ownLevel_withLogger (s : Setup) (n name : String) : (s.withLogger n).ownLevel name = s.ownLevel name := by
  rw [Setup.ownLevel, Setup.ownLevel, rootLevel_withLogger, loggers_withLogger]
  congr 1
  split
  · rfl
  · rw [List.find?_append]
    cases s.loggers.find? (·.name = name) with
    | some l => rfl
    | none =>
      -- a new logger has no level of its own
      by_cases hname : n = name <;> simp [hname]

theorem has_withLogger {n : String} (h : isRoot n = false) : (s.withLogger n).has n = true := by
  rw [Setup.has, loggers_withLogger]
  split
  · rename_i hn
    simpa [h, Setup.has] using hn
  · simp

/-- To set a level keeps the names. -/
theorem find?_map_level (ls : List Logger) (n name : String) (level : Int) :
    (ls.map fun l => if l.name = n then { l with level := level } else l).find? (·.name = name) =
      (ls.find? (·.name = name)).map fun l => if name = n then { l with level := level } else l := by
  induction ls with
  | nil => rfl
  | cons l ls ih =>
    have hkeep : (if l.name = n then { l with level := level } else l).name = l.name := by split <;> rfl
    rw [List.map_cons, List.find?_cons, List.find?_cons, hkeep, ih]
    by_cases hname : l.name = name <;> simp [hname]

theorem ownLevel_setLevel (s : Setup) (n name : String) (level : Int) :
    (s.setLevel n level).ownLevel name = if fullName n = fullName name then level else s.ownLevel name := by
  cases hn : isRoot n with
  | true =>
    have hroot : rootName = fullName name ↔ isRoot name = true := eq_comm.trans fullName_eq_root_iff
    simp only [Setup.setLevel, hn, if_true, fullName_eq_root_iff.mpr hn, hroot, Setup.ownLevel]
    split <;> rfl
  | false =>
    have hsome : ((s.withLogger n).loggers.find? (·.name = n)).isSome = true := by
      rw [List.find?_isSome, ← List.any_eq_true]
      exact has_withLogger hn
    rw [Setup.setLevel, if_neg (by simp [hn]), ← ownLevel_withLogger s n]
    simp only [fullName_eq_iff hn, Setup.ownLevel, find?_map_level]
    by_cases hname : n = name
    · obtain ⟨l, hl⟩ := Option.isSome_iff_exists.mp hsome
      rw [← hname, hl]
      simp [hn]
    · have hne : ¬ name = n := fun h => hname h.symm
      simp [hname, hne]

theorem ownLevel_configure (s : Setup) (level : Int) (toFile : Bool) (name : String) :
    (s.configure level toFile).ownLevel name = if isRoot name then level else s.ownLevel name := by
  have h : (s.configure level toFile).rootLevel = level ∧ (s.configure level toFile).loggers = s.loggers := by
    simp only [Setup.configure, Setup.clear]
    split <;> split <;> exact ⟨rfl, rfl⟩
  rw [Setup.ownLevel, Setup.ownLevel, h.1, h.2]
  split <;> rfl

theorem ownLevel_after (s : Setup) (step : Step) (name : String) :
    (s.after step).2.ownLevel name = (step.level? name).getD (s.ownLevel name) := by
  cases step with
  | configure level toFile =>
    refine (ownLevel_configure s level toFile name).trans ?_
    rw [Step.level?]
    split <;> rfl
  | get n level =>
    cases level with
    | none => exact ownLevel_withLogger s n name
    | some level =>
      refine (ownLevel_setLevel s n name level).trans ?_
      rw [Step.level?]
      split <;> rfl
  | log r => exact ownLevel_withLogger s r.logger name

theorem handlers_withLogger (s : Setup) (n : String) : (s.withLogger n).handlers = s.handlers := by
  rw [Setup.withLogger]
  split <;> rfl

theorem handlers_configure (s : Setup) (level : Int) (toFile : Bool) :
    (s.configure level toFile).handlers = handlersFor toFile := by
  have hclear : ∀ s : Setup, s.clear.handlers = [] := by
    intro s
    rw [Setup.clear]
    split
    · exact List.isEmpty_iff.mp ‹_›
    · rfl
  cases toFile <;> simp [Setup.configure, Setup.addHandler, hclear, handlersFor]

theorem handlers_after (s : Setup) (step : Step) :
    (s.after step).2.handlers = (step.file?.map handlersFor).getD s.handlers := by
  cases step with
  | configure level toFile => exact handlers_configure s level toFile
  | get n level =>
    cases level with
    | none => exact handlers_withLogger s n
    | some level =>
      refine Eq.trans ?_ (handlers_withLogger s n)
      simp only [Setup.after, Setup.setLevel, Setup.withLogger]
      split
      · rename_i h; simp [h]
      · rfl
  | log r => exact handlers_withLogger s r.logger

/-- The names of the loggers that are there. -/
def Setup.names (s : Setup) : List String := s.loggers.map (·.name)

theorem has_eq_true_iff : s.has name = true ↔ name ∈ s.names := by
  simp [Setup.has, Setup.names]

theorem names_withLogger (s : Setup) (n : String) :
    (s.withLogger n).names =
      if isRoot n then s.names else if n ∈ s.names then s.names else s.names ++ [n] := by
  rw [Setup.names, loggers_withLogger]
  simp only [← has_eq_true_iff]
  cases isRoot n <;> cases s.has n <;> simp [Setup.names]

theorem names_setLevel (s : Setup) (n : String) (level : Int) :
    (s.setLevel n level).names = (s.withLogger n).names := by
  rw [Setup.setLevel]
  split
  · rename_i h
    rw [Setup.withLogger, if_pos (by simp [h])]
    rfl
  · simp only [Setup.names, List.map_map]
    refine List.map_congr_left fun l _ => ?_
    simp only [Function.comp]
    split <;> rfl

theorem names_configure (s : Setup) (level : Int) (toFile : Bool) : (s.configure level toFile).names = s.names := by
  simp only [Setup.configure, Setup.clear, Setup.names]
  split <;> split <;> rfl

theorem names_after (s : Setup) (step : Step) :
    (s.after step).2.names = match step.logger? with
      | none => s.names
      | some n => if n ∈ s.names then s.names else s.names ++ [n] := by
  have hnamed : ∀ n, (s.withLogger n).names = match (if isRoot n then none else some n : Option String) with
      | none => s.names
      | some n => if n ∈ s.names then s.names else s.names ++ [n] := by
    intro n
    rw [names_withLogger]
    cases isRoot n <;> rfl
  cases step with
  | configure level toFile => exact names_configure s level toFile
  | get n level =>
    cases level with
    | none => exact hnamed n
    | some level => exact (names_setLevel s n level).trans (hnamed n)
  | log r => exact hnamed r.logger

/-! ## What a history leaves -/

/-- What only some steps set is at the end what was set last. -/
theorem run_eq_last {α : Type} {view : Setup → α} {set? : Step → Option α}
    (h : ∀ s step, view (s.after step).2 = (set? step).getD (view s)) (steps : List Step) :
    view (Setup.run steps) = (steps.reverse.findSome? set?).getD (view .initial) := by
  induction steps using List.reverseRecOn with
  | nil => rfl
  | append_singleton steps step ih =>
    rw [run_snoc, h, ih]
    cases hset : set? step <;> simp [hset]

theorem ownLevel_run (steps : List Step) (name : String) : (Setup.run steps).ownLevel name = lastLevel steps name :=
  @run_eq_last _ (·.ownLevel name) _ (fun s step => ownLevel_after s step name) steps

theorem handlers_run (steps : List Step) :
    (Setup.run steps).handlers = ((latestFile? steps).map handlersFor).getD [] := by
  refine (run_eq_last handlers_after steps).trans ?_
  rw [latestFile?]
  congr 1
  induction steps.reverse with
  | nil => rfl
  | cons step steps ih => cases h : step.file? <;> simp [h, ih]

theorem names_run (steps : List Step) : InFirstOrder (Setup.run steps).names (named steps) := by
  induction steps using List.reverseRecOn with
  | nil => exact ⟨fun _ => Iff.rfl, .nil⟩
  | append_singleton steps step ih =>
    rw [run_snoc, names_after, named_snoc]
    cases step.logger? with
    | none => simpa using ih
    | some n => exact ih.snoc n

theorem isRoot_of_mem_named (h : name ∈ named steps) : isRoot name = false := by
  have hfresh : ∀ n, (if isRoot n then none else some n) = some name → isRoot name = false := by
    intro n hn
    split at hn
    · cases hn
    · rename_i hroot
      cases hn
      simpa using hroot
  obtain ⟨step, -, hstep⟩ := List.mem_filterMap.mp h
  cases step with
  | configure level toFile => cases hstep
  | get n level => exact hfresh n hstep
  | log r => exact hfresh r.logger hstep

/-! ## What is above a logger -/

/-- The names that begin the name of the root, apart from the names of the root. -/
def rootBeginnings : List String := ["r", "ro", "roo"]

/-- Among the names on the way up from a logger, those that begin the name of the root were named before the loggers
below them. -/
def ParentsFirst (history : List Step) (name : String) : Prop :=
  ∀ v ∈ name :: namesBeforeDots name, ∀ u ∈ namesBeforeDots v,
    u ∈ rootBeginnings → u ∈ named history → (named history).idxOf u < (named history).idxOf v

theorem mem_rootBeginnings (hroot : isRoot name = false) (h : rootName.startsWith name = true) :
    name ∈ rootBeginnings := by
  have hprefix : name.toList <+: ['r', 'o', 'o', 't'] := String.startsWith_string_iff.mp h
  have hname : name = String.ofList (['r', 'o', 'o', 't'].take name.length) := by
    rw [← String.length_toList, ← List.prefix_iff_eq_take.mp hprefix, String.ofList_toList]
  have hlength : name.length ≤ 4 := String.length_toList ▸ hprefix.length_le
  rw [hname] at hroot ⊢
  interval_cases name.length
  · cases hroot
  · decide
  · decide
  · decide
  · cases hroot

/-- Of two loggers that are there, the one that was named first stands first. -/
theorem findIdx?_lt {u v : String} {i j : Nat} (hi : (Setup.run steps).loggers.findIdx? (·.name = u) = some i)
    (hj : (Setup.run steps).loggers.findIdx? (·.name = v) = some j)
    (h : (named steps).idxOf u < (named steps).idxOf v) : i < j := by
  obtain ⟨hilt, hu, -⟩ := List.findIdx?_eq_some_iff_getElem.mp hi
  obtain ⟨hjlt, hv, -⟩ := List.findIdx?_eq_some_iff_getElem.mp hj
  have hu : (Setup.run steps).loggers[i].name = u := by simpa using hu
  have hv : (Setup.run steps).loggers[j].name = v := by simpa using hv
  have hordered := List.pairwise_map.mp (names_run steps).ordered
  rcases Nat.lt_trichotomy i j with hlt | rfl | hlt
  · exact hlt
  · rw [← hu, ← hv] at h
    exact absurd h (Nat.lt_irrefl _)
  · have := List.pairwise_iff_getElem.mp hordered j i hjlt hilt hlt
    rw [hu, hv] at this
    omega

theorem adopts_run (h : ParentsFirst steps name) : (Setup.run steps).Adopts name := by
  intro v hv u hu hhas
  have hmem : u ∈ named steps := ((names_run steps).mem_iff u).mp (has_eq_true_iff.mp hhas)
  rw [Setup.isAbove]
  cases hi : (Setup.run steps).loggers.findIdx? (·.name = u) with
  | none =>
    obtain ⟨l, hl, hname⟩ := List.any_eq_true.mp hhas
    rw [List.findIdx?_eq_none_iff.mp hi l hl] at hname
    cases hname
  | some i =>
    cases hj : (Setup.run steps).loggers.findIdx? (·.name = v) with
    | none => rfl
    | some j =>
      cases hbegins : rootName.startsWith u with
      | false => simp
      | true =>
        have hbeginning := mem_rootBeginnings (isRoot_of_mem_named hmem) hbegins
        simpa using findIdx?_lt hi hj (h v hv u hu hbeginning hmem)

/-! ## Records -/

/-- The level that is found for a logger: the first one that was set on the way up from it. -/
def levelFound (steps : List Step) (name : String) : Int :=
  (((wayUp name).map (lastLevel steps)).find? (· ≠ 0)).getD (lastLevel steps rootName)

/-- A record where it is due: once on standard error, and once in the log file if the latest set-up named one. Before
any set-up it goes bare to standard error, from the level of warnings on. -/
def delivered (latest : Option Bool) (r : Record) : Emission :=
  match latest with
  | none => ⟨if lastResortLevel ≤ r.level then [r.message] else [], []⟩
  | some toFile => ⟨[r.line], if toFile then [r.line] else []⟩

theorem emit_eq (hhandlers : s.handlers = ((latestFile? steps).map handlersFor).getD []) (r : Record) :
    s.emit r = if s.enabled r then delivered (latestFile? steps) r else ⟨[], []⟩ := by
  simp only [Setup.emit, Setup.linesTo, hhandlers]
  congr 1
  cases latestFile? steps with
  | none => rfl
  | some toFile => cases toFile <;> rfl

theorem effectiveLevel_run (hdots : ¬ ['.', '.'] <:+: name.toList) (h : ParentsFirst steps name) :
    (Setup.run steps).effectiveLevel name = levelFound steps name := by
  have hroot : ∀ name, (Setup.run steps).has name = true → isRoot name = false := fun name hname =>
    isRoot_of_mem_named (((names_run steps).mem_iff name).mp (has_eq_true_iff.mp hname))
  have hown : (Setup.run steps).ownLevel = lastLevel steps := funext (ownLevel_run steps)
  have hlevel : (Setup.run steps).rootLevel = lastLevel steps rootName := ownLevel_run steps rootName
  rw [effectiveLevel_eq hroot hdots (adopts_run h), hown, hlevel, levelFound]

theorem effectiveLevel_fullName (s : Setup) (name : String) :
    s.effectiveLevel (fullName name) = s.effectiveLevel name := by
  rw [fullName]
  split
  · rename_i h
    rw [Setup.effectiveLevel, Setup.effectiveLevel, if_pos h, if_pos (show isRoot rootName = true from rfl)]
  · rfl

/-- A record sets neither levels nor handlers. -/
theorem levelFound_log (steps : List Step) (r : Record) (name : String) :
    levelFound (steps ++ [.log r]) name = levelFound steps name := by
  have h : lastLevel (steps ++ [.log r]) = lastLevel steps := by
    funext name
    simp [lastLevel, Step.level?]
  rw [levelFound, levelFound, h]

theorem latestFile?_log (steps : List Step) (r : Record) : latestFile? (steps ++ [.log r]) = latestFile? steps := by
  rw [latestFile?, List.reverse_append]
  rfl

/-- A record is written once to each place that the latest set-up has, or nowhere. It is written if its level is
positive and not below the level that is found for its logger. -/
theorem emitted_once (steps : List Step) (r : Record) :
    let emission := ((Setup.run steps).after (.log r)).1
    let written := delivered (latestFile? steps) { r with logger := fullName r.logger }
    (emission = written ∨ emission = ⟨[], []⟩) ∧
      (¬ ['.', '.'] <:+: r.logger.toList → ParentsFirst (steps ++ [.log r]) r.logger →
        emission = if 0 < r.level ∧ levelFound steps r.logger ≤ r.level then written else ⟨[], []⟩) := by
  intro emission written
  have hrun := run_snoc steps (.log r)
  have hemit : emission = if (Setup.run (steps ++ [.log r])).enabled { r with logger := fullName r.logger } then
      written else ⟨[], []⟩ := by
    have hhandlers := handlers_run (steps ++ [.log r])
    rw [latestFile?_log] at hhandlers
    rw [← emit_eq hhandlers, hrun]
    rfl
  refine ⟨?_, fun hdots hparents => ?_⟩
  · rw [hemit]
    split
    · exact .inl rfl
    · exact .inr rfl
  · rw [hemit]
    simp only [Setup.enabled, effectiveLevel_fullName, effectiveLevel_run hdots hparents, levelFound_log,
      Bool.and_eq_true, decide_eq_true_iff]

/-- With a logger between two set-ups, of which the first one had no log file. -/
theorem emitted_once_inherited :
    let steps : List Step := [.configure 20 false, .get "app" (some 40), .configure 10 true]
    let r : Record := ⟨"app.db", 40, "down"⟩
    (¬ ['.', '.'] <:+: r.logger.toList) ∧ ParentsFirst (steps ++ [.log r]) r.logger ∧
      ((Setup.run steps).after (.log r)).1 = ⟨["[ERROR] app.db: down"], ["[ERROR] app.db: down"]⟩ := by
  intro steps r
  have hdots : ¬ ['.', '.'] <:+: r.logger.toList := by decide +kernel
  have hparents : ParentsFirst (steps ++ [.log r]) r.logger := by
    unfold ParentsFirst
    decide +kernel
  refine ⟨hdots, hparents, ((emitted_once steps r).2 hdots hparents).trans ?_⟩
  decide +kernel

/-- Where the way up is not the one of the dots: a logger whose name begins the name of the root and that came late is
passed over, and so is a logger before two dots. The level that is set on it would stop the record. -/
theorem late_parent_missed :
    let late : List Step := [.configure 20 false, .get "r.x" none, .get "r" (some 40)]
    let hidden : List Step := [.configure 20 false, .get "a" (some 40)]
    levelFound late "r.x" = 40 ∧
      ((Setup.run late).after (.log ⟨"r.x", 30, "hello"⟩)).1 = ⟨["[WARNING] r.x: hello"], []⟩ ∧
      levelFound hidden "a..b" = 40 ∧
      ((Setup.run hidden).after (.log ⟨"a..b", 30, "hello"⟩)).1 = ⟨["[WARNING] a..b: hello"], []⟩ := by
  decide +kernel

end DotGrid.Log
