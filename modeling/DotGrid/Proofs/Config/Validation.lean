import DotGrid.Config.Validation
import DotGrid.Proofs.Frame.Batches
import DotGrid.Proofs.Frame.Clamping
import DotGrid.Proofs.Double.Arithmetic

/-!
# Accepted documents

A document is accepted if nothing is found to be wrong with it and its known fields have values. `Describes` says how
the fields of a configuration come from the document: by default, or by the conversion of a datum that keeps the rule of
the field (`ofKnown_eq_ok_iff`). So an accepted configuration has positive counts and can be rendered
(`ofDatum_renderable`), but the rule for the number of frames in a second is a comparison, and NaN keeps it
(`nan_rate_accepted`).
-/

namespace DotGrid

theorem bind_eq_ok_iff {ε α β : Type} {r : Except ε α} {k : α → Except ε β} {b : β} :
    r >>= k = .ok b ↔ ∃ a, r = .ok a ∧ k a = .ok b := by
  cases r with
  | ok a => exact ⟨fun h => ⟨a, rfl, h⟩, fun ⟨_, ha, h⟩ => Except.ok.inj ha ▸ h⟩
  | error e => exact ⟨nofun, nofun⟩

theorem mapError_eq_ok_iff {ε ε' α : Type} {r : Except ε α} {f : ε → ε'} {a : α} :
    r.mapError f = .ok a ↔ r = .ok a := by
  cases r <;> simp [Except.mapError]

/-! ## Values of fields -/

/-- The value of a field: the default if the field is absent or null, and else what its datum is read as. -/
inductive FieldValue {α : Type} (default : α) (reads : Datum → α → Prop) : Option Datum → α → Prop
  | absent : FieldValue default reads none default
  | null : FieldValue default reads (some .null) default
  | given {d : Datum} {a : α} (hnull : d ≠ .null) (h : reads d a) : FieldValue default reads (some d) a

section

variable {α : Type} {default a : α} {check : Datum → Checked α} {reads reads' : Datum → α → Prop} {field : Option Datum}
  {d : Datum}

theorem FieldValue.imp (h : FieldValue default reads field a) (hreads : ∀ d a, reads d a → reads' d a) :
    FieldValue default reads' field a := by
  cases h with
  | absent => exact .absent
  | null => exact .null
  | given hnull h => exact .given hnull (hreads _ _ h)

theorem FieldValue.of_reads {P : α → Prop} (h : FieldValue default reads field a) (hdefault : P default)
    (hreads : ∀ d a, reads d a → P a) : P a := by
  cases h with
  | absent => exact hdefault
  | null => exact hdefault
  | given _ h => exact hreads _ _ h

theorem FieldValue.given_of_ne (h : FieldValue default reads field a) (hne : a ≠ default) :
    ∃ d, field = some d ∧ reads d a := by
  cases h with
  | absent => exact absurd rfl hne
  | null => exact absurd rfl hne
  | given _ h => exact ⟨_, rfl, h⟩

theorem valueOr_of_ne_null (h : d ≠ .null) : valueOr default check (some d) = check d := by
  cases d with
  | null => exact absurd rfl h
  | _ => rfl

theorem valueOr_eq_ok_iff :
    valueOr default check field = .ok a ↔ FieldValue default (fun d a => check d = .ok a) field a := by
  constructor
  · intro h
    cases field with
    | none => cases h; exact .absent
    | some d =>
      by_cases hnull : d = .null
      · rw [hnull] at h ⊢
        cases h
        exact .null
      · exact .given hnull ((valueOr_of_ne_null hnull).symm.trans h)
  · intro h
    cases h with
    | absent => rfl
    | null => rfl
    | given hnull h => exact (valueOr_of_ne_null hnull).trans h

end

/-- A datum that is read as an integer from one on. -/
def ReadsCount (d : Datum) (n : Int) : Prop := d.toInteger = .ok n ∧ 1 ≤ n

/-- A datum that is read as a double. -/
def ReadsReal (d : Datum) (x : Double) : Prop := d.toReal = .ok x

/-- A datum that is read as a double that is not below the least rate. -/
def ReadsRate (d : Datum) (x : Double) : Prop := d.toReal = .ok x ∧ isBelowRate (.real x) = false

/-- A datum that is a truth value. -/
def ReadsTruth (d : Datum) (b : Bool) : Prop := d = .boolean b

/-- A datum that is the text of an expression. -/
def ReadsExpression (d : Datum) (e : Option String) : Prop := ∃ s, d = .text s ∧ e = some s

section

variable {d : Datum} {n : Int} {x : Double} {b : Bool} {e : Option String}

theorem positiveInteger_eq_ok_iff : positiveInteger d = .ok n ↔ ReadsCount d n := by
  unfold positiveInteger ReadsCount
  cases d.toInteger with
  | error reason => exact ⟨nofun, nofun⟩
  | ok m =>
    simp only [Except.ok.injEq]
    split <;> rename_i hm
    · refine ⟨nofun, ?_⟩
      rintro ⟨rfl, hn⟩
      omega
    · refine ⟨fun h => ?_, fun h => congrArg Except.ok h.1⟩
      cases h
      exact ⟨rfl, by omega⟩

theorem realField_eq_ok_iff : realField d = .ok x ↔ ReadsReal d x := mapError_eq_ok_iff

theorem rateField_eq_ok_iff : rateField d = .ok x ↔ ReadsRate d x := by
  have hreal : ∀ y, realField d = .ok y ↔ d.toReal = .ok y := fun _ => realField_eq_ok_iff
  unfold rateField ReadsRate
  cases h : realField d with
  | error t =>
    refine ⟨nofun, fun hx => ?_⟩
    cases h.symm.trans ((hreal x).mpr hx.1)
  | ok y =>
    rw [(hreal y).mp h, Except.ok.injEq]
    simp only
    split <;> rename_i hlow
    · refine ⟨nofun, ?_⟩
      rintro ⟨rfl, hx⟩
      simp [hlow] at hx
    · refine ⟨fun h => ?_, fun h => congrArg Except.ok h.1⟩
      cases h
      exact ⟨rfl, by simpa using hlow⟩

theorem truthField_eq_ok_iff : truthField d = .ok b ↔ ReadsTruth d b := by
  cases d <;> simp [truthField, ReadsTruth, broken]

theorem expressionField_eq_ok_iff : expressionField d = .ok e ↔ ReadsExpression d e := by
  cases d <;> simp [expressionField, ReadsExpression, broken, eq_comm]

end

namespace RenderConfig

variable {entries : List (Datum × Datum)} {c : RenderConfig} {d : Datum}

/-! ## Configurations of documents -/

/-- How a document describes a configuration: each field has its value, or its default. -/
structure Describes (entries : List (Datum × Datum)) (c : RenderConfig) : Prop where
  size : FieldValue 16 ReadsCount (Datum.lookup? "size" (renderFields entries)) c.size
  start : ∃ x, c.start = .real x ∧ FieldValue (.zero false) ReadsReal (Datum.lookup? "start" (renderFields entries)) x
  fps : ∃ x, c.fps = .real x ∧ FieldValue (.ofInt 60) ReadsRate (Datum.lookup? "fps" (renderFields entries)) x
  frames : FieldValue 1 ReadsCount (Datum.lookup? "frames" (renderFields entries)) c.frames
  clamp : FieldValue true ReadsTruth (Datum.lookup? "clamp" (renderFields entries)) c.clamp
  workers : FieldValue 1 ReadsCount (Datum.lookup? "workers" (renderFields entries)) c.workers
  expression : FieldValue none ReadsExpression (Datum.lookup? "expression" entries) c.expression

theorem ofKnown_eq_ok_iff : ofKnown entries = .ok c ↔ Describes entries c := by
  simp only [ofKnown, ofFields, bind_eq_ok_iff, valueOr_eq_ok_iff, positiveInteger_eq_ok_iff, realField_eq_ok_iff,
    rateField_eq_ok_iff, truthField_eq_ok_iff, expressionField_eq_ok_iff]
  constructor
  · rintro ⟨e, he, _, ⟨size, hsize, start, hstart, fps, hfps, frames, hframes, clamp, hclamp, workers, hworkers, h⟩, hc⟩
    cases h
    cases hc
    exact ⟨hsize, ⟨start, rfl, hstart⟩, ⟨fps, rfl, hfps⟩, hframes, hclamp, hworkers, he⟩
  · rintro ⟨hsize, ⟨start, hstart, hstart'⟩, ⟨fps, hfps, hfps'⟩, hframes, hclamp, hworkers, he⟩
    refine ⟨_, he, _, ⟨_, hsize, _, hstart', _, hfps', _, hframes, _, hclamp, _, hworkers, rfl⟩, ?_⟩
    rw [← hstart, ← hfps]

/-- The entries of a document; a document of another kind has none. -/
def documentEntries : Datum → List (Datum × Datum)
  | .mapping entries => entries
  | _ => []

theorem ofEntries_eq_ok_iff : ofEntries entries = .ok c ↔ findings entries = .ok [] ∧ Describes entries c := by
  rw [← ofKnown_eq_ok_iff, ofEntries]
  constructor
  · intro h
    split at h
    · rename_i hfindings hknown
      cases h
      exact ⟨hfindings, hknown⟩
    · cases h
  · rintro ⟨hfindings, hknown⟩
    rw [hfindings, hknown]

theorem documentEntries_of_isBlank (h : d.isBlank = true) : documentEntries d = [] := by
  cases d with
  | mapping entries => exact List.isEmpty_iff.mp h
  | _ => rfl

theorem ofEntries_of_ofDatum (h : ofDatum d = .ok c) : ofEntries (documentEntries d) = .ok c := by
  unfold ofDatum at h
  split at h
  · rename_i hblank
    rwa [documentEntries_of_isBlank hblank]
  · split at h
    · exact h
    · cases h

theorem describes_of_ofDatum (h : ofDatum d = .ok c) : Describes (documentEntries d) c :=
  (ofEntries_eq_ok_iff.mp (ofEntries_of_ofDatum h)).2

/-! ## Documents without findings -/

theorem trouble?_valueOr {α : Type} {default a : α} {check : Datum → Checked α} {v : Datum}
    (h : FieldValue default (fun d a => check d = .ok a) (some v) a) :
    trouble? (valueOr default check (some v)) = none := by
  rw [valueOr_eq_ok_iff.mpr h]
  rfl

theorem renderProblems_eq_nil {fields : List (Datum × Datum)} (h : ∀ e ∈ fields, renderTrouble? e.1 e.2 = none) :
    renderProblems fields = [] := by
  rw [renderProblems, List.filterMap_eq_nil_iff]
  intro e he
  rw [h e he]
  rfl

theorem renderConversions_eq_nil {fields : List (Datum × Datum)}
    (h : ∀ e ∈ fields, renderTrouble? e.1 e.2 = none) : renderConversions fields = [] := by
  rw [renderConversions, List.filterMap_eq_nil_iff]
  intro e he
  rw [h e he]
  split
  · rename_i hsome
    cases hsome
  · rfl

theorem entryFinding?_render {fields : List (Datum × Datum)} (h : ∀ e ∈ fields, renderTrouble? e.1 e.2 = none) :
    entryFinding? (.text "render") (.mapping fields) = .ok none := by
  simp only [entryFinding?, renderProblems_eq_nil h]

/-- Where nothing is wrong with any field and no value is too deep, there are no findings. -/
theorem findings_eq_nil (hentries : ∀ e ∈ entries, entryFinding? e.1 e.2 = .ok none)
    (hfields : ∀ e ∈ renderFields entries, renderTrouble? e.1 e.2 = none)
    (hdepth : ∀ e ∈ entries, e.2.depth ≤ deepestReport) : findings entries = .ok [] := by
  have hfilter : (entries.map fun _ => (none : Option Finding)).filterMap id = [] := by simp
  have harranged : Finding.arrangedFindings [] [] = .ok [] := rfl
  have hany : (entries.any fun e => decide (deepestReport < e.2.depth)) = false := by
    simpa using hdepth
  simp only [findings, mapM_eq_ok hentries, renderConversions_eq_nil hfields, bind, Except.bind, hfilter, harranged,
    hany]
  rfl

theorem depth_numberDatum (n : Number) : (numberDatum n).depth = 0 := by
  cases n <;> rfl

theorem depth_expressionDatum (e : Option String) : (expressionDatum e).depth = 0 := by
  cases e <;> rfl

theorem expressionDatum_reads (e : Option String) :
    FieldValue none ReadsExpression (some (expressionDatum e)) e := by
  cases e with
  | none => exact .null
  | some s => exact .given nofun ⟨s, rfl, rfl⟩

/-- The document of a configuration in which all fields keep their rules gives it back. -/
theorem ofDatum_toDatum {start fps : Double} (hstart : c.start = .real start) (hfps : c.fps = .real fps)
    (hsize : 1 ≤ c.size) (hframes : 1 ≤ c.frames) (hworkers : 1 ≤ c.workers) (hrate : isBelowRate (.real fps) = false) :
    ofDatum c.toDatum = .ok c := by
  obtain ⟨size, _, _, frames, clamp, workers, expression⟩ := c
  subst hstart hfps
  have hcount : ∀ {n : Int} {default : Int}, 1 ≤ n → FieldValue default ReadsCount (some (.integer n)) n :=
    fun hn => .given nofun ⟨rfl, hn⟩
  have hstart : ∀ default, FieldValue default ReadsReal (some (.real start)) start := fun _ => .given nofun rfl
  have hfps : ∀ default, FieldValue default ReadsRate (some (.real fps)) fps := fun _ => .given nofun ⟨rfl, hrate⟩
  have hclamp : FieldValue true ReadsTruth (some (.boolean clamp)) clamp := .given nofun rfl
  have hfields : ∀ e ∈ (RenderConfig.mk size (.real start) (.real fps) frames clamp workers expression).fieldEntries,
      renderTrouble? e.1 e.2 = none := by
    have hcheck : ∀ {n : Int}, 1 ≤ n → trouble? (valueOr 1 positiveInteger (some (.integer n))) = none := fun hn =>
      trouble?_valueOr ((hcount hn).imp fun _ _ => positiveInteger_eq_ok_iff.mpr)
    simp only [fieldEntries, List.forall_mem_cons]
    exact ⟨hcheck hsize, trouble?_valueOr ((hstart (.zero false)).imp fun _ _ => realField_eq_ok_iff.mpr),
      trouble?_valueOr ((hfps (.zero false)).imp fun _ _ => rateField_eq_ok_iff.mpr), hcheck hframes,
      trouble?_valueOr (hclamp.imp fun _ _ => truthField_eq_ok_iff.mpr), hcheck hworkers, List.forall_mem_nil _⟩
  have hexpression : entryFinding? (.text "expression") (expressionDatum expression) = .ok none := by
    have hnone := trouble?_valueOr ((expressionDatum_reads expression).imp fun _ _ => expressionField_eq_ok_iff.mpr)
    rw [entryFinding?, hnone]
    rfl
  refine ofEntries_eq_ok_iff.mpr ⟨findings_eq_nil ?_ hfields ?_, ?_⟩
  · simp only [List.forall_mem_cons]
    exact ⟨hexpression, entryFinding?_render hfields, List.forall_mem_nil _⟩
  · simp [Datum.depth, Datum.depthOfEntries, fieldEntries, depth_numberDatum, depth_expressionDatum, deepestReport]
  · exact
      { size := hcount hsize
        start := ⟨start, rfl, hstart _⟩
        fps := ⟨fps, rfl, hfps _⟩
        frames := hcount hframes
        clamp := hclamp
        workers := hcount hworkers
        expression := expressionDatum_reads expression }

theorem ofDatum_rate {s : String} {x : Double} (h : ReadsRate (.text s) x) :
    ofDatum (.mapping [(.text "render", .mapping [(.text "fps", .text s)])]) = .ok { fps := .real x } := by
  have hfields : ∀ e ∈ [(Datum.text "fps", Datum.text s)], renderTrouble? e.1 e.2 = none := by
    simp only [List.mem_singleton, forall_eq]
    exact trouble?_valueOr (.given nofun (rateField_eq_ok_iff.mpr h))
  refine ofEntries_eq_ok_iff.mpr ⟨findings_eq_nil ?_ hfields ?_, ?_⟩
  · simp only [List.mem_singleton, forall_eq]
    exact entryFinding?_render hfields
  · simp [Datum.depth, Datum.depthOfEntries, deepestReport]
  · exact
      { size := .absent
        start := ⟨_, rfl, .absent⟩
        fps := ⟨x, rfl, .given nofun h⟩
        frames := .absent
        clamp := .absent
        workers := .absent
        expression := .absent }

/-! ## Accepted configurations -/

/-- A number that is not below the least rate is positive, unless it is NaN. -/
theorem pos_of_isBelowRate_eq_false {x : Double} (h : isBelowRate (.real x) = false) (hnan : x.isNaN = false) :
    Measure.compare? (Number.integer 0).measure x.measure = some .lt := by
  have hleast : leastRate.measure = .units leastRate.units := by decide +kernel
  have hpos : 0 < leastRate.units := by decide +kernel
  simp only [isBelowRate, decide_eq_false_iff_not, Number.measure, hleast] at h
  rw [Number.measure, Int.zero_mul]
  cases x with
  | nan => cases hnan
  | infinite s =>
    cases s with
    | false => rfl
    | true => exact absurd rfl h
  | finite s m =>
    rw [Double.measure] at h ⊢
    rw [Measure.compare?_lt_iff] at h ⊢
    omega

theorem measure_ne_zero_of_pos {n : Number}
    (h : Measure.compare? (Number.integer 0).measure n.measure = some .lt) : n.measure ≠ .units 0 := by
  intro hzero
  rw [hzero, Number.measure, Int.zero_mul] at h
  exact absurd h (by decide)

namespace Describes

variable (h : Describes entries c)

include h

theorem one_le_counts : 1 ≤ c.size ∧ 1 ≤ c.frames ∧ 1 ≤ c.workers := by
  have hcount : ∀ d n, ReadsCount d n → 1 ≤ n := fun _ _ hd => hd.2
  exact ⟨h.size.of_reads (by decide) hcount, h.frames.of_reads (by decide) hcount,
    h.workers.of_reads (by decide) hcount⟩

/-- The rate is positive unless it is NaN, and only the document makes it NaN. -/
theorem rate : ∃ fps, c.fps = .real fps ∧
    (fps.isNaN = false → Measure.compare? (Number.integer 0).measure fps.measure = some .lt) ∧
    (fps.isNaN = true ↔ ∃ v, Datum.lookup? "fps" (renderFields entries) = some v ∧ v.toReal = .ok .nan) := by
  obtain ⟨fps, hfps, hrate⟩ := h.fps
  refine ⟨fps, hfps, ?_, fun hnan => ?_, ?_⟩
  · exact hrate.of_reads (fun _ => by decide +kernel) fun v x hx => pos_of_isBelowRate_eq_false hx.2
  · have hne : fps ≠ .ofInt 60 := fun heq => by simp [heq] at hnan
    obtain ⟨v, hv, hx, -⟩ := hrate.given_of_ne hne
    cases fps with
    | nan => exact ⟨v, hv, hx⟩
    | _ => cases hnan
  · rintro ⟨v, hv, hnan⟩
    rw [hv] at hrate
    cases hrate with
    | null => cases hnan
    | given _ h => exact Except.ok.inj (h.1.symm.trans hnan) ▸ rfl

/-- There is an instant for each frame. -/
theorem times_eq_ok : ∃ times, c.times = .ok times ∧ times.length = c.frames.toNat := by
  obtain ⟨start, hstart, -⟩ := h.start
  obtain ⟨fps, hfps, hpos, -⟩ := h.rate
  have hdouble : c.start.toDouble = .ok start := by rw [hstart]; rfl
  refine RenderConfig.times_eq_ok ?_ hdouble
  rw [hfps]
  cases hnan : fps.isNaN with
  | false => exact measure_ne_zero_of_pos (n := .real fps) (hpos hnan)
  | true =>
    cases fps with
    | nan => nofun
    | _ => cases hnan

end Describes

/-- **Accepted configurations can be rendered.** The counts of an accepted configuration are positive, its start is a
double, and so is its number of frames in a second, which is positive or NaN. It is NaN if and only if the document
gives it as NaN. Each field is read from the document, or has its default, and there is an instant for each frame. -/
theorem ofDatum_renderable (d : Datum) (c : RenderConfig) (h : ofDatum d = .ok c) :
    (1 ≤ c.size ∧ 1 ≤ c.frames ∧ 1 ≤ c.workers) ∧ (∃ start, c.start = .real start) ∧
    (∃ fps, c.fps = .real fps ∧
      (fps.isNaN = false → Measure.compare? (Number.integer 0).measure fps.measure = some .lt) ∧
      (fps.isNaN = true ↔
        ∃ v, Datum.lookup? "fps" (renderFields (documentEntries d)) = some v ∧ v.toReal = .ok .nan)) ∧
    Describes (documentEntries d) c ∧ ∃ times, c.times = .ok times ∧ times.length = c.frames.toNat := by
  have hdescribes := describes_of_ofDatum h
  obtain ⟨start, hstart, -⟩ := hdescribes.start
  exact ⟨hdescribes.one_le_counts, ⟨start, hstart⟩, hdescribes.rate, hdescribes, hdescribes.times_eq_ok⟩

/-- With a rate of one frame in ten seconds. -/
theorem ofDatum_renderable_slow :
    let d : Datum := .mapping [(.text "render", .mapping [(.text "fps", .text " 1e-1 ")])]
    let x : Double := .ofDecimal false ⟨1, -1⟩
    ofDatum d = .ok { fps := .real x } ∧ Measure.compare? (Number.integer 0).measure x.measure = some .lt := by
  intro d x
  have hreads : ReadsRate (.text " 1e-1 ") x := by
    unfold ReadsRate
    decide +kernel
  have h : ofDatum d = .ok { fps := .real x } := ofDatum_rate hreads
  obtain ⟨-, -, ⟨fps, hfps, hpos, -⟩, -⟩ := ofDatum_renderable d _ h
  have hx : x = fps := Number.real.inj hfps
  rw [← hx] at hpos
  exact ⟨h, hpos (by decide +kernel)⟩

/-- The comparison with the least rate lets NaN through. -/
theorem nan_rate_accepted :
    ofDatum (.mapping [(.text "render", .mapping [(.text "fps", .text "nan")])]) = .ok { fps := .real .nan } ∧
      Measure.compare? (Number.integer 0).measure Double.nan.measure = none := by
  have hreads : ReadsRate (.text "nan") .nan := by
    unfold ReadsRate
    decide +kernel
  exact ⟨ofDatum_rate hreads, rfl⟩

end RenderConfig

end DotGrid
