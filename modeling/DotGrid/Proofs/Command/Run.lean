import DotGrid.Proofs.Command.Output
import DotGrid.Proofs.Config.Reporting
import DotGrid.Proofs.Evaluation.Names
import DotGrid.Proofs.Log.Levels

/-!
# All or nothing

A run is refused if there is no configuration, no expression or no function of the expression (`Arguments.Refused`), and
it is accepted otherwise (`Arguments.Accepted`). A refused run logs one error and leaves nothing else behind, and no
frame of it is looked at. An accepted run gives all frames in their order (`run_all_or_nothing`). The only fault of an
accepted run whose frames fit into a pool is a grid that is too large.
-/

namespace DotGrid.Command

open DotGrid.RenderConfig (loaded? ReportableFile)

/-! ## Refusals -/

namespace Arguments

variable {a : Arguments} {content : Option String} {c : RenderConfig} {f : DotFunction}

/-- The configuration of a run. -/
def configured (a : Arguments) (content : Option String) : Except ConfigFault RenderConfig := do
  a.override (← a.base content)

/-- The expression of a run: that of the command line, or else that of its configuration. -/
def source? (a : Arguments) (c : RenderConfig) : Option String := a.expression.orElse fun _ => c.expression

/-- A run that has no configuration, no expression, or an expression that is none. -/
inductive Refused (a : Arguments) (content : Option String) : Prop
  | unloaded {fault : ConfigFault} (h : a.base content = .error fault)
  | invalid {c : RenderConfig} {fault : ConfigFault} (hbase : a.base content = .ok c) (h : a.override c = .error fault)
  | noExpression {c : RenderConfig} (hconfig : a.configured content = .ok c) (h : a.expression = none)
    (hnone : c.expression = none)
  | uncompiled {c : RenderConfig} {source : String} (hconfig : a.configured content = .ok c)
    (hsource : a.source? c = some source) (h : DotFunction.compile? source = none)

/-- A run that has a configuration and the function of an expression. -/
structure Accepted (a : Arguments) (content : Option String) (c : RenderConfig) (f : DotFunction) : Prop where
  configured : a.configured content = .ok c
  compiled : ∃ source, a.source? c = some source ∧ DotFunction.compile? source = some f

theorem source?_eq_none_iff : a.source? c = none ↔ a.expression = none ∧ c.expression = none := by
  rw [source?]
  cases a.expression <;> simp

theorem refused_or_accepted (a : Arguments) (content : Option String) :
    a.Refused content ∨ ∃ c f, a.Accepted content c f := by
  cases hbase : a.base content with
  | error fault => exact .inl (.unloaded hbase)
  | ok base =>
    cases hconfig : a.override base with
    | error fault => exact .inl (.invalid hbase hconfig)
    | ok c =>
      have hconfigured : a.configured content = .ok c := by rw [configured, hbase]; exact hconfig
      cases hsource : a.source? c with
      | none =>
        obtain ⟨hnone, hnone'⟩ := source?_eq_none_iff.mp hsource
        exact .inl (.noExpression hconfigured hnone hnone')
      | some source =>
        cases hcompile : DotFunction.compile? source with
        | none => exact .inl (.uncompiled hconfigured hsource hcompile)
        | some f => exact .inr ⟨c, f, hconfigured, source, hsource, hcompile⟩

/-! ## Jobs -/

/-- The job of a configuration. -/
def jobOf (a : Arguments) (c : RenderConfig) : Except Refusal Job :=
  match a.source? c with
  | none => .error .noExpression
  | some source => do
    let tree ← (Expr.parse source).mapError (.expression source)
    .ok ⟨⟨tree⟩, c, path? a.dump⟩

theorem job_eq (a : Arguments) (content : Option String) :
    a.job content = match a.configured content with
      | .error fault => .error (.configuration fault)
      | .ok c => a.jobOf c := by
  rw [job, configured]
  cases a.base content with
  | error fault => rfl
  | ok base =>
    dsimp only [bind, Except.bind, Except.mapError]
    cases a.override base with
    | error fault => rfl
    | ok c => rfl

theorem jobOf_eq_ok {source : String} (hsource : a.source? c = some source)
    (hcompile : DotFunction.compile? source = some f) : a.jobOf c = .ok ⟨f, c, path? a.dump⟩ := by
  rw [jobOf, hsource]
  dsimp only
  rw [DotFunction.compile?_eq_some hcompile]
  rfl

theorem jobOf_eq_error {source : String} (hsource : a.source? c = some source)
    (hcompile : DotFunction.compile? source = none) : ∃ fault, a.jobOf c = .error (.expression source fault) := by
  rw [jobOf, hsource]
  dsimp only
  unfold DotFunction.compile? at hcompile
  split at hcompile
  · cases hcompile
  · rename_i fault hparse
    exact ⟨fault, by rw [hparse]; rfl⟩

theorem job_eq_ok (h : a.Accepted content c f) : a.job content = .ok ⟨f, c, path? a.dump⟩ := by
  obtain ⟨hconfigured, source, hsource, hcompile⟩ := h
  rw [job_eq, hconfigured]
  exact jobOf_eq_ok hsource hcompile

theorem base_reported (hfile : ∀ file ∈ loaded? content, ReportableFile file) {fault : ConfigFault}
    (h : a.base content = .error fault) : fault.IsReported := by
  unfold base at h
  split at h
  · exact RenderConfig.ofFile_reported hfile h
  · cases h

/-- A run that is refused has no job, and what is wrong can be told. -/
theorem job_eq_error (hfile : ∀ file ∈ loaded? content, ReportableFile file) (h : a.Refused content) :
    ∃ r, a.job content = .error r ∧ ∀ fault, r = .configuration fault → fault.IsReported := by
  cases h with
  | @unloaded fault h =>
    refine ⟨.configuration fault, ?_, ?_⟩
    · rw [job_eq, configured, h]
      rfl
    · rintro _ ⟨⟩
      exact base_reported hfile h
  | @invalid c fault hbase h =>
    refine ⟨.configuration fault, ?_, ?_⟩
    · rw [job_eq, configured, hbase]
      dsimp only [bind, Except.bind]
      rw [h]
    · rintro _ ⟨⟩
      exact RenderConfig.ofDatum_toDatum_reported h
  | @noExpression c hconfig h hnone =>
    refine ⟨.noExpression, ?_, nofun⟩
    rw [job_eq, hconfig]
    dsimp only
    rw [jobOf, source?_eq_none_iff.mpr ⟨h, hnone⟩]
  | @uncompiled c source hconfig hsource h =>
    obtain ⟨fault, hfault⟩ := jobOf_eq_error hsource h
    refine ⟨.expression source fault, ?_, nofun⟩
    rw [job_eq, hconfig]
    exact hfault

/-! ## Reports -/

/-- The report of a run whose frames are given by a function of its job. -/
def reportBy (a : Arguments) (frames : Job → Except Fault (List Frame)) (content : Option String) (elapsed : String) :
    Except Fault Report := do
  let outcome ← match a.job content with
    | .ok job => do .ok (job.report (← frames job) elapsed)
    | .error refusal => refusal.report
  .ok { outcome with records := a.records content ++ outcome.records }

theorem reportBy_frames (a : Arguments) (content : Option String) (elapsed : String) :
    a.reportBy Job.frames content elapsed = a.report content elapsed := rfl

theorem report_eq_of_reported {r : Refusal} (h : ∀ fault, r = .configuration fault → fault.IsReported) :
    r.report = .ok ⟨2, [⟨logger, Log.error, r.message⟩], [], none⟩ := by
  unfold Refusal.report
  split
  · rename_i fault
    exact (h _ rfl).elim
  · rfl

theorem records_debug {r : Log.Record} (h : r ∈ a.records content) : r.level = Log.debug := by
  unfold records at h
  rcases List.mem_append.mp h with h | h
  · split at h
    · cases List.mem_singleton.mp h
      rfl
    · cases h
  · split at h
    · cases List.mem_singleton.mp h
      rfl
    · cases h

theorem reportBy_of_refused (hfile : ∀ file ∈ loaded? content, ReportableFile file) (h : a.Refused content)
    (elapsed : String) : ∃ message, ∀ frames, a.reportBy frames content elapsed =
      .ok ⟨2, a.records content ++ [⟨logger, Log.error, message⟩], [], none⟩ := by
  obtain ⟨r, hjob, hreported⟩ := job_eq_error hfile h
  refine ⟨r.message, fun frames => ?_⟩
  rw [reportBy, hjob]
  dsimp only
  rw [report_eq_of_reported hreported]
  rfl

theorem exitCode_of_refused (hfile : ∀ file ∈ loaded? content, ReportableFile file) (elapsed : String)
    (h : a.Refused content) : ∃ r, a.report content elapsed = .ok r ∧ r.exitCode = 2 := by
  obtain ⟨message, hreport⟩ := reportBy_of_refused hfile h elapsed
  exact ⟨_, (a.reportBy_frames content elapsed).symm.trans (hreport Job.frames), rfl⟩

theorem report_of_accepted (h : a.Accepted content c f) (elapsed : String) :
    a.report content elapsed = (f.frames c).map fun frames =>
      let r := (Job.mk f c (path? a.dump)).report frames elapsed
      { r with records := a.records content ++ r.records } := by
  rw [report, job_eq_ok h]
  dsimp only [Job.frames]
  cases f.frames c with
  | error fault => rfl
  | ok frames => rfl

theorem describes_of_accepted (h : a.Accepted content c f) : ∃ entries, RenderConfig.Describes entries c := by
  obtain ⟨base, -, hoverride⟩ := bind_eq_ok_iff.mp h.configured
  exact ⟨_, RenderConfig.describes_of_ofDatum hoverride⟩

/-- An error is written by the set-up of the log, whether details are or not. -/
theorem emit_error (a : Arguments) (message : String) :
    a.logSetup.emit ⟨logger, Log.error, message⟩ = ⟨[Log.Record.line ⟨logger, Log.error, message⟩], []⟩ := by
  have hlevel : a.logSetup.effectiveLevel logger ≤ Log.error := by
    rw [Log.effectiveLevel_of_loggers_eq_nil (by rfl)]
    cases h : a.verbose <;> simp [logSetup, h, Log.Setup.configure, Log.Setup.clear, Log.Setup.addHandler,
      Log.Setup.initial, Log.debug, Log.info, Log.error]
  have henabled : a.logSetup.enabled ⟨logger, Log.error, message⟩ = true := by
    rw [Log.Setup.enabled, Bool.and_eq_true]
    exact ⟨rfl, decide_eq_true hlevel⟩
  rw [Log.Setup.emit, henabled]
  rfl

end Arguments

/-! ## Complete reports -/

/-- A report of all frames at some instants. -/
structure Report.Complete (r : Report) (dump : Option String) (size : Nat) (times : List Double) (frames : List Frame) :
    Prop where
  exitCode : r.exitCode = 0
  /-- No error is logged. -/
  noError : ∀ record ∈ r.records, record.level ≠ Log.error
  /-- The lines of the frames are written, and one more line if there is a file for them. -/
  written : r.written = textOfLines (frames.flatMap frameLines ++ (dump.map ("Frames dumped to " ++ ·)).toList)
  /-- A frame has a line for each row and a character for each value. -/
  rows : ∀ f ∈ frames, f.values.length = size ∧ ∀ row ∈ f.values, row.length = size ∧
    (drawnRow row).toList.length = size ∧ '\n' ∉ (drawnRow row).toList
  /-- The same frames are in the file. -/
  dump : r.dump = dump.map fun path => ⟨Job.dumpPath path, frames⟩
  /-- The file has the instants and all values in their order. -/
  archive : ∀ d, r.dump = some d → d.archive = Archive.zip
    [Archive.gridMember "times" [times.length] times,
      Archive.gridMember "frames" [times.length, size, size] (frames.flatMap fun f => f.values.flatten)]

theorem Job.records_level {j : Job} {frames : List Frame} {elapsed : String} {record : Log.Record}
    (h : record ∈ (j.report frames elapsed).records) : record.level ≠ Log.error := by
  have hwarnings : ∀ r ∈ j.warnings, r.level = Log.warning := by
    intro r hr
    unfold warnings at hr
    split at hr
    · cases hr
    · cases List.mem_singleton.mp hr
      rfl
  have hframes : ∀ r ∈ frames.flatMap Frame.warnings, r.level = Log.warning := by
    intro r hr
    obtain ⟨f, -, hr⟩ := List.mem_flatMap.mp hr
    obtain ⟨e, -, rfl⟩ := List.mem_map.mp hr
    rfl
  simp only [report, frameRecords, List.mem_append, List.mem_singleton] at h
  rcases h with (h | h | h) | h
  · rw [hwarnings _ h]
    decide
  · rw [hframes _ h]
    decide
  · rw [h]
    exact (by decide : Log.debug ≠ Log.error)
  · rw [h]
    exact (by decide : Log.info ≠ Log.error)

namespace Arguments

variable {a : Arguments} {content : Option String} {elapsed : String} {c : RenderConfig} {f : DotFunction}
  {times : List Double}

theorem report_complete (h : a.Accepted content c f) (elapsed : String) (hpool : f.FitsPool c) (hsize : 1 ≤ c.size)
    (hfits : 8 * c.size * c.size < memoryLimit) (htimes : c.times = .ok times) (hne : times ≠ []) :
    ∃ r, a.report content elapsed = .ok r ∧ r.Complete (path? a.dump) c.size.toNat times
      (times.map fun t => f.frame (.real t) c.size.toNat c.clamp) := by
  have hframes := DotFunction.frames_eq_ok hpool htimes (gridFault?_eq_none hsize hfits)
  have hsquare : ∀ t : Double, _ := fun t => frame_square f (.real t) c.size.toNat c.clamp
  rw [report_of_accepted h, hframes]
  refine ⟨_, rfl, ?_⟩
  refine { exitCode := rfl, noError := ?_, written := ?_, rows := ?_, dump := rfl, archive := ?_ }
  · intro record hrecord
    rcases List.mem_append.mp hrecord with hrecord | hrecord
    · rw [records_debug hrecord]
      decide
    · exact Job.records_level hrecord
  · refine (textOfLines_append _ _).trans ?_
    rw [textOfLines_append, textOfLines_lines]
    rintro frame hframe hnil
    obtain ⟨t, -, rfl⟩ := List.mem_map.mp hframe
    have hlength := (hsquare t).1
    rw [hnil, List.length_nil] at hlength
    omega
  · intro frame hframe
    obtain ⟨t, -, rfl⟩ := List.mem_map.mp hframe
    obtain ⟨hrows, hrow⟩ := hsquare t
    refine ⟨hrows, fun row hmem => ⟨hrow row hmem, ?_, (drawnRow_line row).2⟩⟩
    rw [(drawnRow_line row).1, hrow row hmem]
  · intro d hd
    obtain ⟨path, -, rfl⟩ := Option.map_eq_some_iff.mp hd
    exact archive_eq f _ c.clamp hne

theorem report_too_large (h : a.Accepted content c f) (elapsed : String) (hpool : f.FitsPool c) {fault : Fault}
    (hfault : gridFault? c.size = some fault) (htimes : c.times = .ok times) (hne : times ≠ []) :
    a.report content elapsed = .error fault := by
  have hframes : f.frames c = .error fault := by
    rw [DotFunction.frames_eq hpool, htimes]
    exact batch_eq_error f hfault hne
  rw [report_of_accepted h, hframes]
  rfl

theorem exitCode_of_accepted (h : a.Accepted content c f) {r : Report} (hr : a.report content elapsed = .ok r) :
    r.exitCode = 0 := by
  rw [report_of_accepted h] at hr
  cases hframes : f.frames c with
  | error fault =>
    rw [hframes] at hr
    cases hr
  | ok frames =>
    rw [hframes] at hr
    cases hr
    rfl

/-- What an accepted run gives, at all instants of its configuration, if its frames fit into a pool: a complete report,
or a fault if its grid is too large to exist. -/
structure Rendered (a : Arguments) (content : Option String) (elapsed : String) (c : RenderConfig) (f : DotFunction)
    (times : List Double) : Prop where
  instants : c.times = .ok times
  count : times.length = c.frames.toNat
  complete : f.FitsPool c → 8 * c.size * c.size < memoryLimit → ∃ r, a.report content elapsed = .ok r ∧
    r.Complete (path? a.dump) c.size.toNat times (times.map fun t => f.frame (.real t) c.size.toNat c.clamp)
  tooLarge : f.FitsPool c → memoryLimit ≤ 8 * c.size * c.size →
    ∃ fault ∈ [Fault.sizeTooLarge, .gridTooLarge], a.report content elapsed = .error fault

theorem rendered_of_accepted (h : a.Accepted content c f) (elapsed : String) :
    ∃ times, a.Rendered content elapsed c f times := by
  obtain ⟨entries, hdescribes⟩ := describes_of_accepted h
  obtain ⟨hsize, hcount, -⟩ := hdescribes.one_le_counts
  obtain ⟨times, htimes, hlength⟩ := hdescribes.times_eq_ok
  have hne : times ≠ [] := by
    rintro rfl
    rw [List.length_nil] at hlength
    omega
  refine ⟨times, htimes, hlength, fun hpool hfits => ?_, fun hpool hlarge => ?_⟩
  · exact report_complete h elapsed hpool hsize hfits htimes hne
  · obtain ⟨fault, hmem, hfault⟩ := gridFault?_eq_some hsize hlarge
    exact ⟨fault, hmem, report_too_large h elapsed hpool hfault htimes hne⟩

/-- What a refused run leaves behind: one error with a message, next to records of details, and nothing else. -/
structure LeavesNothing (a : Arguments) (content : Option String) (elapsed message : String) : Prop where
  /-- The report is the same whatever the frames of a job may be, so that none are looked at. -/
  report : ∀ frames, a.reportBy frames content elapsed =
    .ok ⟨2, a.records content ++ [⟨logger, Log.error, message⟩], [], none⟩
  details : ∀ r ∈ a.records content, r.level = Log.debug
  /-- The error is written to the log. -/
  logged : a.logSetup.emit ⟨logger, Log.error, message⟩ = ⟨[Log.Record.line ⟨logger, Log.error, message⟩], []⟩

/-- A run gives nothing, or all that it is asked for. -/
structure AllOrNothing (a : Arguments) (content : Option String) (elapsed : String) : Prop where
  refused_iff : (∃ r, a.report content elapsed = .ok r ∧ r.exitCode = 2) ↔ a.Refused content
  nothing : a.Refused content → ∃ message, a.LeavesNothing content elapsed message
  all : ¬a.Refused content → ∃ c f times, a.Accepted content c f ∧ a.Rendered content elapsed c f times

end Arguments

/-- **All or nothing.** A run returns 2 if and only if it is refused. In this case it writes one error to the log, next
to records of details, and it leaves no output and no file. A run that is not refused has a configuration and the
function of an expression. It gives the frames at all instants of the configuration, on the output and in the file if
one is named, unless the grid is too large to exist. -/
theorem run_all_or_nothing (a : Arguments) (content : Option String) (elapsed : String)
    (hfile : ∀ file ∈ loaded? content, ReportableFile file) : a.AllOrNothing content elapsed where
  refused_iff := by
    refine ⟨?_, Arguments.exitCode_of_refused hfile elapsed⟩
    rintro ⟨r, hr, hcode⟩
    rcases a.refused_or_accepted content with h | ⟨c, f, h⟩
    · exact h
    · cases hcode.symm.trans (Arguments.exitCode_of_accepted h hr)
  nothing h := by
    obtain ⟨message, hreport⟩ := Arguments.reportBy_of_refused hfile h elapsed
    exact ⟨message, hreport, fun r hr => Arguments.records_debug hr, a.emit_error message⟩
  all h := by
    obtain ⟨c, f, haccepted⟩ := (a.refused_or_accepted content).resolve_left h
    obtain ⟨times, hrendered⟩ := Arguments.rendered_of_accepted haccepted elapsed
    exact ⟨c, f, times, haccepted, hrendered⟩

/-- A file with one dot, whose frames are kept, and a file whose grid has none. -/
theorem run_all_or_nothing_file :
    let a : Arguments := { config := some "render.yml", dump := some "frames" }
    let dot := some "expression: x\nrender: \x7bsize: 1\x7d\n"
    let empty := some "expression: x\nrender: \x7bsize: 0\x7d\n"
    ((∀ file ∈ loaded? dot, ReportableFile file) ∧ (loaded? dot).isSome = true ∧
      ∃ r times frames, a.report dot "0" = .ok r ∧ r.Complete (some "frames") 1 times frames ∧ times.length = 1) ∧
    ((∀ file ∈ loaded? empty, ReportableFile file) ∧ (loaded? empty).isSome = true ∧
      ∃ message, ∀ frames, a.reportBy frames empty "0" = .ok ⟨2, [⟨logger, Log.error, message⟩], [], none⟩) := by
  intro a dot empty
  have hdot : ∀ file ∈ loaded? dot, ReportableFile file := by decide +kernel
  have hempty : ∀ file ∈ loaded? empty, ReportableFile file := by decide +kernel
  have hfirst := run_all_or_nothing a dot "0" hdot
  have hsecond := run_all_or_nothing a empty "0" hempty
  refine ⟨⟨hdot, by decide +kernel, ?_⟩, hempty, by decide +kernel, ?_⟩
  · have hzero : (a.report dot "0").toOption.map (·.exitCode) = some 0 := by decide +kernel
    have haccepted : ¬a.Refused dot := by
      intro h
      obtain ⟨r, hr, htwo⟩ := hfirst.refused_iff.mpr h
      rw [hr] at hzero
      cases htwo.symm.trans (Option.some.inj hzero)
    obtain ⟨c, f, times, haccept, hrendered⟩ := hfirst.all haccepted
    have hfields : (a.configured dot).toOption.map (fun c => (c.size, c.frames, c.workers)) = some (1, 1, 1) := by
      decide +kernel
    rw [haccept.configured] at hfields
    obtain ⟨hsize, hrest⟩ := Prod.mk.inj (Option.some.inj hfields)
    obtain ⟨hframes, hworkers⟩ := Prod.mk.inj hrest
    have hfits := hrendered.complete (.inl (Int.le_of_eq hworkers))
    rw [hsize] at hfits
    obtain ⟨r, hr, hcomplete⟩ := hfits (by decide)
    exact ⟨r, times, _, hr, hcomplete, by rw [hrendered.count, hframes]; rfl⟩
  · have htwo : (a.report empty "0").toOption.map (·.exitCode) = some 2 := by decide +kernel
    have hrefused : a.Refused empty := by
      cases hr : a.report empty "0" with
      | error fault => simp [hr, Except.toOption] at htwo
      | ok r => exact hsecond.refused_iff.mp ⟨r, hr, by rw [hr] at htwo; exact Option.some.inj htwo⟩
    obtain ⟨message, hnothing⟩ := hsecond.nothing hrefused
    have hrecords : a.records empty = [] := by decide +kernel
    have hreport := hnothing.report
    rw [hrecords] at hreport
    exact ⟨message, hreport⟩

/-- An argument that names no file keeps no frames, and a grid may be too large to exist, although neither run is
refused. -/
theorem nothing_kept_or_too_large :
    (let a : Arguments := { expression := some "x", size := some 1, dump := some "" };
      ¬a.Refused none ∧ ∃ r, a.report none "0" = .ok r ∧ r.output = ["t=0.000", " "] ∧ r.dump.isNone = true) ∧
    (let a : Arguments := { expression := some "x", size := some 10000000000 };
      ¬a.Refused none ∧ a.report none "0" = .error .gridTooLarge) := by
  refine ⟨?_, ?_⟩
  · intro a
    have hreport : (a.report none "0").toOption.map (fun r => (r.exitCode, r.output, r.dump.isNone)) =
        some (0, ["t=0.000", " "], true) := by decide +kernel
    cases hr : a.report none "0" with
    | error fault => simp [hr, Except.toOption] at hreport
    | ok r =>
      rw [hr] at hreport
      obtain ⟨hzero, hrest⟩ := Prod.mk.inj (Option.some.inj hreport)
      obtain ⟨houtput, hdump⟩ := Prod.mk.inj hrest
      refine ⟨fun h => ?_, r, rfl, houtput, hdump⟩
      obtain ⟨r', hr', htwo⟩ := Arguments.exitCode_of_refused (by decide) "0" h
      cases hr.symm.trans hr'
      cases htwo.symm.trans hzero
  · intro a
    have hfault : faultOf (a.report none "0") = some .gridTooLarge := by decide +kernel
    cases hr : a.report none "0" with
    | ok r => simp [hr, faultOf] at hfault
    | error fault =>
      rw [hr] at hfault
      refine ⟨fun h => ?_, congrArg Except.error (Option.some.inj hfault)⟩
      obtain ⟨r, hr', -⟩ := Arguments.exitCode_of_refused (by decide) "0" h
      cases hr.symm.trans hr'

end DotGrid.Command
