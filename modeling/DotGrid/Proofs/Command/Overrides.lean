import DotGrid.Proofs.Command.Run
import DotGrid.Proofs.Config.Exactness

/-!
# Options in the place of fields

The configuration of a run is validated once more after the options were put in the place of its fields. The document of
a configuration that was accepted breaks no rule, so only the options can: the second validation fails if and only if an
option for a count is less than one (`exists_invalid_iff_lowCount`), and it changes nothing else
(`override_of_describes`). Without options the configuration is the one that the file describes
(`revalidation_exact`).
-/

namespace DotGrid

open Datum (DistinctKeys)

namespace RenderConfig

variable {entries : List (Datum × Datum)} {c : RenderConfig}

/-- The rate of a described configuration keeps its rule, also if it is NaN. -/
theorem Describes.rate_kept (h : Describes entries c) :
    ∃ fps, c.fps = .real fps ∧ isBelowRate (.real fps) = false := by
  obtain ⟨fps, hfps, hvalue⟩ := h.fps
  exact ⟨fps, hfps, hvalue.of_reads (by decide +kernel) fun _ _ hreads => hreads.2⟩

theorem describes_default : Describes [] {} where
  size := .absent
  start := ⟨_, rfl, .absent⟩
  fps := ⟨_, rfl, .absent⟩
  frames := .absent
  clamp := .absent
  workers := .absent
  expression := .absent

theorem describes_of_ofRoot {path : String} {root : Datum} (h : ofRoot path root = .ok c) :
    ∃ entries, Describes entries c := by
  unfold ofRoot at h
  split at h
  · exact ⟨_, (ofEntries_eq_ok_iff.mp h).2⟩
  · exact ⟨_, (ofEntries_eq_ok_iff.mp h).2⟩
  · cases h

/-- A configuration of a file is described by the entries of the file. -/
theorem describes_of_ofFile {path : String} {content : Option String} (h : ofFile path content = .ok c) :
    ∃ entries, Describes entries c := by
  unfold ofFile at h
  split at h
  · rename_i file _
    cases hroot : ofRoot (shortPath path) (rootDatum file) with
    | ok found =>
      rw [hroot] at h
      cases h
      exact describes_of_ofRoot hroot
    | error fault =>
      rw [hroot] at h
      cases h
  · cases h

theorem isDocument_documentOf (c : RenderConfig) : IsDocument c.documentOf := by
  have hfields : DistinctKeys c.fieldEntries := by
    have hkeys : (["size", "start", "fps", "frames", "clamp", "workers"].map Datum.text).Pairwise
        fun a b => a.sameKey b = false := by decide
    exact Datum.distinctKeys_iff.mpr hkeys
  have hkeys : (["expression", "render"].map Datum.text).Pairwise fun a b => a.sameKey b = false := by decide
  exact ⟨Datum.distinctKeys_iff.mpr hkeys, fun v hv => .inr ⟨_, (Option.some.inj hv).symm, hfields⟩⟩

/-- The document of a configuration is refused, with a report, if one of its counts is less than one. -/
theorem exists_invalid_of_count (h : c.size < 1 ∨ c.frames < 1) : ∃ fs, ofDatum c.toDatum = .error (.invalid fs) := by
  have hrefuses : ∀ {n : Int}, n < 1 → Refuses ReadsCount (.integer n) := by
    refine fun {n} hn => ⟨nofun, ?_⟩
    rintro m ⟨hm, hone⟩
    cases hm
    omega
  have hfield : ∃ e ∈ c.fieldEntries, FieldOffends e.1 e.2 := by
    rcases h with h | h
    · exact ⟨(.text "size", .integer c.size), by simp [fieldEntries], .count (.inl rfl) (hrefuses h)⟩
    · exact ⟨(.text "frames", .integer c.frames), by simp [fieldEntries], .count (.inr (.inl rfl)) (hrefuses h)⟩
  obtain ⟨e, he, hoff⟩ := hfield
  have hreportable := reportable_of_allTextKeys c.allTextKeys_documentOf c.depth_documentOf
  exact (exists_invalid_iff c.isDocument_documentOf hreportable).mpr
    ⟨(.text "render", .mapping c.fieldEntries), by simp [documentOf], .render rfl rfl he hoff⟩

end RenderConfig

namespace Command.Arguments

open RenderConfig (Describes describes_default describes_of_ofFile exists_invalid_of_count ofDatum_toDatum)

variable {a : Arguments} {content : Option String} {entries : List (Datum × Datum)} {c : RenderConfig}

/-- An option for a count that is less than one. -/
def LowCount (a : Arguments) : Prop := (∃ n, a.frames = some n ∧ n < 1) ∨ ∃ n, a.size = some n ∧ n < 1

/-- A configuration with the options in the place of its fields. -/
def replaced (a : Arguments) (c : RenderConfig) : RenderConfig :=
  { c with
    start := (a.time.map Number.real).getD c.start
    frames := a.frames.getD c.frames
    size := a.size.getD c.size }

/-- The second validation is that of the document of the replaced configuration. -/
theorem override_eq (a : Arguments) (c : RenderConfig) : a.override c = RenderConfig.ofDatum (a.replaced c).toDatum :=
  rfl

theorem one_le_getD {o : Option Int} {n : Int} (hn : 1 ≤ n) (h : ∀ m, o = some m → ¬ m < 1) : 1 ≤ o.getD n := by
  cases o with
  | none => exact hn
  | some m => exact Int.not_lt.mp (h m rfl)

/-- Without a low count the options take the place of their fields, and nothing else changes. -/
theorem override_of_describes (h : Describes entries c) (hcount : ¬ a.LowCount) :
    a.override c = .ok (a.replaced c) := by
  obtain ⟨hsize, hframes, hworkers⟩ := h.one_le_counts
  obtain ⟨start, hstart, -⟩ := h.start
  obtain ⟨fps, hfps, hrate⟩ := h.rate_kept
  have hstart' : (a.replaced c).start = .real (a.time.getD start) := by
    rw [replaced, hstart]
    cases a.time <;> rfl
  rw [override_eq]
  refine ofDatum_toDatum hstart' hfps ?_ ?_ hworkers hrate
  · exact one_le_getD hsize fun m hm hlow => hcount (.inr ⟨m, hm, hlow⟩)
  · exact one_le_getD hframes fun m hm hlow => hcount (.inl ⟨m, hm, hlow⟩)

theorem exists_invalid_iff_lowCount (h : Describes entries c) :
    (∃ fs, a.override c = .error (.invalid fs)) ↔ a.LowCount := by
  constructor
  · rintro ⟨fs, hfs⟩
    by_contra hcount
    rw [override_of_describes h hcount] at hfs
    cases hfs
  · rintro (⟨n, hn, hlow⟩ | ⟨n, hn, hlow⟩)
    · rw [override_eq]
      refine exists_invalid_of_count (.inr ?_)
      rwa [replaced, hn]
    · rw [override_eq]
      refine exists_invalid_of_count (.inl ?_)
      rwa [replaced, hn]

theorem replaced_eq_self (htime : a.time = none) (hframes : a.frames = none) (hsize : a.size = none)
    (c : RenderConfig) : a.replaced c = c := by
  rw [replaced, htime, hframes, hsize]
  rfl

/-- The configuration of a run before any option is described by the file, or by nothing at all. -/
theorem describes_of_base (h : a.base content = .ok c) : ∃ entries, Describes entries c := by
  unfold base at h
  split at h
  · exact describes_of_ofFile h
  · cases h
    exact ⟨[], describes_default⟩

theorem configured_eq_base (htime : a.time = none) (hframes : a.frames = none) (hsize : a.size = none)
    (content : Option String) : a.configured content = a.base content := by
  rw [configured]
  cases hbase : a.base content with
  | error fault => rfl
  | ok c =>
    obtain ⟨entries, hdescribes⟩ := describes_of_base hbase
    have hcount : ¬ a.LowCount := by simp [LowCount, hframes, hsize]
    exact (override_of_describes hdescribes hcount).trans (congrArg Except.ok (replaced_eq_self htime hframes hsize c))

theorem config_of_jobOf {job : Job} (h : a.jobOf c = .ok job) : job.config = c := by
  unfold jobOf at h
  split at h
  · cases h
  · obtain ⟨tree, -, hjob⟩ := bind_eq_ok_iff.mp h
    cases hjob
    rfl

/-- The configuration of a job is the one of its run. -/
theorem configured_of_job {job : Job} (h : a.job content = .ok job) : a.configured content = .ok job.config := by
  rw [job_eq] at h
  cases hconfigured : a.configured content with
  | error fault =>
    rw [hconfigured] at h
    cases h
  | ok c =>
    rw [hconfigured] at h
    rw [config_of_jobOf h]

/-- **Validating once more changes nothing but the options.** The document of an accepted configuration, with the
options of a run in the place of its fields, is refused with a report if and only if an option for a count is less than
one. Otherwise it is accepted as the configuration with exactly these fields replaced, so that a configuration without
options is accepted as itself, and what a run without options renders is the configuration of its file. -/
theorem revalidation_exact (d : Datum) (c : RenderConfig) (h : RenderConfig.ofDatum d = .ok c) (a : Arguments) :
    ((∃ fs, a.override c = .error (.invalid fs)) ↔ a.LowCount) ∧
      (¬ a.LowCount → a.override c = .ok (a.replaced c)) ∧
      RenderConfig.ofDatum c.toDatum = .ok c ∧
      ∀ content, a.time = none → a.frames = none → a.size = none →
        a.configured content = a.base content ∧ ∀ job, a.job content = .ok job → a.base content = .ok job.config := by
  have hdescribes := RenderConfig.describes_of_ofDatum h
  refine ⟨exists_invalid_iff_lowCount hdescribes, override_of_describes hdescribes, ?_, ?_⟩
  · have hnone : ¬ LowCount {} := by simp [LowCount]
    exact (override_of_describes hdescribes hnone).trans (congrArg Except.ok (replaced_eq_self rfl rfl rfl c))
  · intro content htime hframes hsize
    have hbase := configured_eq_base htime hframes hsize content
    exact ⟨hbase, fun job hjob => hbase ▸ configured_of_job hjob⟩

/-- A rate that is NaN stays as it is beside a start of negative zero and a size, and no frames are refused. -/
theorem revalidation_exact_nan :
    let d : Datum := .mapping [(.text "render", .mapping [(.text "fps", .text "nan")])]
    RenderConfig.ofDatum d = .ok { fps := .real .nan } ∧
      override { time := some (.zero true), size := some 3 } { fps := .real .nan } =
        .ok { size := 3, start := .real (.zero true), fps := .real .nan } ∧
      ∃ fs, override { frames := some 0 } { fps := .real .nan } = .error (.invalid fs) := by
  intro d
  have hreads : ReadsRate (.text "nan") .nan := by
    unfold ReadsRate
    decide +kernel
  have h : RenderConfig.ofDatum d = .ok { fps := .real .nan } := RenderConfig.ofDatum_rate hreads
  have hlow : LowCount { frames := some 0 } := .inl ⟨0, rfl, by decide⟩
  have hcount : ¬ LowCount { time := some (.zero true), size := some 3 } := by simp [LowCount]
  exact ⟨h, (revalidation_exact d _ h _).2.1 hcount, (revalidation_exact d _ h _).1.mpr hlow⟩

end Command.Arguments

end DotGrid
