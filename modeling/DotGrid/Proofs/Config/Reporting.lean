import DotGrid.Config.File
import DotGrid.Proofs.Arrangement.Runs
import DotGrid.Proofs.Config.Validation
import DotGrid.Proofs.Yaml.Depth

/-!
# Findings are reported

Keys that are texts can be compared with each other and can be written. So the findings about a document whose keys are
texts are arranged, and a document that is not accepted has its findings as the fault (`ofEntries_reported`). This holds
for the documents of files (`ofFile_reported`) and for the documents of configurations (`ofDatum_toDatum_reported`).
-/

namespace DotGrid

open RenderConfig (documentEntries)

/-! ## Order of texts -/

theorem before?_of_isText {a b : Datum} (ha : a.isText = true) (hb : b.isText = true) :
    ∃ answer, a.before? b = some answer := by
  cases a <;> cases ha
  cases b <;> cases hb
  exact ⟨_, rfl⟩

theorem pathBefore?_of_isText {as bs : List Datum} (has : ∀ a ∈ as, a.isText = true) (hbs : ∀ b ∈ bs, b.isText = true) :
    ∃ answer, pathBefore? as bs = some answer := by
  induction as generalizing bs with
  | nil => exact ⟨true, rfl⟩
  | cons a as ih =>
    cases bs with
    | nil => exact ⟨false, rfl⟩
    | cons b bs =>
      obtain ⟨ha, has⟩ := List.forall_mem_cons.mp has
      obtain ⟨hb, hbs⟩ := List.forall_mem_cons.mp hbs
      rw [pathBefore?]
      split
      · exact ih has hbs
      · exact before?_of_isText ha hb

theorem isTooLong_of_isText {d : Datum} (h : d.isText = true) : d.isTooLong = false := by
  cases d <;> first | rfl | cases h

/-! ## Lists that are arranged as they grow -/

section

variable {α : Type} {before : Comparison α} {P : α → Prop}

theorem enlisted_eq_ok (isKept : Bool) {as : List α} {a : α} (h : before.Compares (as ++ [a])) :
    ∃ bs, enlisted before isKept as a = .ok bs ∧ bs.Perm (as ++ [a]) := by
  have hof := before.arranged_of (as ++ [a])
  refine ⟨(before.arranged (as ++ [a])).items, ?_, hof.perm⟩
  rw [enlisted, hof.complete h]
  rfl

/-- Elements that can be compared with each other are all enlisted. -/
theorem foldlM_enlisted (hP : ∀ a b, P a → P b → ∃ answer, before a b = some answer) (isKept : α → Bool)
    {done as : List α} (hdone : ∀ a ∈ done, P a) (has : ∀ a ∈ as, P a) :
    ∃ bs, as.foldlM (fun done a => enlisted before (isKept a) done a) done = .ok bs ∧ bs.Perm (done ++ as) := by
  induction as generalizing done with
  | nil => exact ⟨done, rfl, by rw [List.append_nil]⟩
  | cons a as ih =>
    obtain ⟨ha, has⟩ := List.forall_mem_cons.mp has
    have hall : ∀ b ∈ done ++ [a], P b := by
      simpa [or_imp, forall_and] using ⟨hdone, ha⟩
    obtain ⟨next, hnext, hperm⟩ := enlisted_eq_ok (isKept a) fun b hb c hc => hP b c (hall b hb) (hall c hc)
    obtain ⟨bs, hbs, hbsPerm⟩ := ih (fun b hb => hall b (hperm.subset hb)) has
    refine ⟨bs, ?_, hbsPerm.trans ?_⟩
    · rw [List.foldlM_cons, hnext]
      exact hbs
    · rw [List.append_cons]
      exact hperm.append_right as

end

/-! ## Findings about texts -/

/-- Tells a fault that has a report of its own. -/
def ConfigFault.IsReported : ConfigFault → Prop
  | .unreported _ => False
  | _ => True

/-- Tells entries whose keys are texts. -/
def TextKeys (entries : List (Datum × Datum)) : Prop := ∀ e ∈ entries, e.1.isText = true

/-- Tells entries whose keys are texts, as are the keys of the mappings among their values. -/
def AllTextKeys (entries : List (Datum × Datum)) : Prop :=
  TextKeys entries ∧ ∀ e ∈ entries, TextKeys (documentEntries e.2)

/-- Tells a datum whose keys are texts, as are the keys of the mappings among its values. -/
def TextKeyed (d : Datum) : Prop := AllTextKeys (documentEntries d)

instance : DecidablePred TextKeys := fun entries => inferInstanceAs (Decidable (∀ e ∈ entries, e.1.isText = true))

instance : DecidablePred AllTextKeys := fun entries =>
  inferInstanceAs (Decidable (TextKeys entries ∧ ∀ e ∈ entries, TextKeys (documentEntries e.2)))

instance : DecidablePred TextKeyed := fun d => inferInstanceAs (Decidable (AllTextKeys (documentEntries d)))

namespace Finding

/-- All keys that a finding is about. -/
def keys (f : Finding) : List Datum := f.path ++ f.problems.map (·.1)

/-- A finding that is about texts only. -/
def AboutTexts (f : Finding) : Prop := ∀ k ∈ f.keys, k.isText = true

theorem AboutTexts.before? {f g : Finding} (hf : f.AboutTexts) (hg : g.AboutTexts) :
    ∃ answer, Finding.before? f g = some answer :=
  pathBefore?_of_isText (fun k hk => hf k (List.mem_append_left _ hk)) fun k hk => hg k (List.mem_append_left _ hk)

theorem arrangedProblems_eq_ok {problems : List (Datum × Problem)} (h : ∀ p ∈ problems, p.1.isText = true) :
    ∃ arranged, arrangedProblems problems = .ok arranged ∧ arranged.Perm problems :=
  foldlM_enlisted (P := fun p : Datum × Problem => p.1.isText = true) (fun _ _ ha hb => before?_of_isText ha hb)
    (fun p => p.2.isKept) (List.forall_mem_nil _) h

theorem arrangedFindings_eq_ok {conversions findings : List Finding} (hconversions : ∀ f ∈ conversions, f.AboutTexts)
    (hfindings : ∀ f ∈ findings, f.AboutTexts) :
    ∃ arranged, arrangedFindings conversions findings = .ok arranged ∧ arranged.Perm (conversions ++ findings) := by
  have hof := before?.arranged_of conversions
  obtain ⟨arranged, harranged, hperm⟩ := foldlM_enlisted (fun _ _ hf hg => hf.before? hg) (fun _ => false)
    (fun f hf => hconversions f (hof.perm.subset hf)) hfindings
  exact ⟨arranged, harranged, hperm.trans (hof.perm.append_right _)⟩

theorem isTooLong_eq_false {f : Finding} (h : f.AboutTexts) : f.isTooLong = false := by
  rw [isTooLong, List.any_eq_false]
  intro k hk
  simp [isTooLong_of_isText (h k hk)]

end Finding

namespace RenderConfig

variable {entries fields : List (Datum × Datum)}

theorem renderConversions_aboutTexts {f : Finding} (h : f ∈ renderConversions fields) : f.AboutTexts := by
  obtain ⟨e, -, he⟩ := List.mem_filterMap.mp h
  split at he
  · cases he
    simp [Finding.AboutTexts, Finding.keys, Finding.path, Finding.problems, Finding.renderKey, Datum.isText]
  · cases he

theorem renderProblems_isText (h : TextKeys fields) {p : Datum × Problem} (hp : p ∈ renderProblems fields) :
    p.1.isText = true := by
  obtain ⟨e, he, heq⟩ := List.mem_filterMap.mp hp
  obtain ⟨t, -, ht⟩ := Option.bind_eq_some_iff.mp heq
  obtain ⟨rule, -, rfl⟩ := Option.map_eq_some_iff.mp ht
  exact h e he

theorem field_aboutTexts {key : Datum} {problem : Problem} (h : key.isText = true) :
    (Finding.field key problem).AboutTexts := by
  simpa [Finding.AboutTexts, Finding.keys, Finding.path, Finding.problems] using h

theorem entryFinding?_eq_ok {key value : Datum} (hkey : key.isText = true)
    (hvalue : TextKeys (documentEntries value)) :
    ∃ found, entryFinding? key value = .ok found ∧ ∀ f, found = some f → f.AboutTexts := by
  unfold entryFinding?
  split
  · refine ⟨_, rfl, fun f hf => ?_⟩
    obtain ⟨t, -, ht⟩ := Option.bind_eq_some_iff.mp hf
    obtain ⟨rule, -, rfl⟩ := Option.map_eq_some_iff.mp ht
    exact field_aboutTexts hkey
  · split
    · exact ⟨none, rfl, nofun⟩
    · rename_i fields
      have hfields : TextKeys fields := hvalue
      split
      · exact ⟨none, rfl, nofun⟩
      · obtain ⟨arranged, harranged, hperm⟩ :=
          Finding.arrangedProblems_eq_ok fun p hp => renderProblems_isText hfields hp
        refine ⟨some (.inside arranged), by rw [harranged]; rfl, ?_⟩
        rintro f ⟨⟩ k hk
        rcases List.mem_append.mp hk with hk | hk
        · exact List.mem_singleton.mp hk ▸ rfl
        · obtain ⟨p, hp, rfl⟩ := List.mem_map.mp hk
          exact renderProblems_isText hfields (hperm.subset hp)
    · refine ⟨_, rfl, ?_⟩
      rintro f ⟨⟩
      exact field_aboutTexts hkey
  · refine ⟨_, rfl, ?_⟩
    rintro f ⟨⟩
    exact field_aboutTexts hkey

theorem mapM_entryFinding?_eq_ok (h : ∀ e ∈ entries, ∃ found, entryFinding? e.1 e.2 = .ok found ∧
      ∀ f, found = some f → f.AboutTexts) :
    ∃ found, (entries.mapM fun e => entryFinding? e.1 e.2) = .ok found ∧ ∀ f ∈ found.filterMap id, f.AboutTexts := by
  induction entries with
  | nil => exact ⟨[], rfl, nofun⟩
  | cons e entries ih =>
    obtain ⟨⟨first, hfirst, habout⟩, hrest⟩ := List.forall_mem_cons.mp h
    obtain ⟨found, hfound, hall⟩ := ih hrest
    refine ⟨first :: found, by rw [List.mapM_cons, hfirst, hfound]; rfl, fun f hf => ?_⟩
    cases first with
    | none => exact hall f hf
    | some g =>
      rcases List.mem_cons.mp hf with rfl | hf
      · exact habout f rfl
      · exact hall f hf

theorem AllTextKeys.renderFields (h : AllTextKeys entries) : TextKeys (renderFields entries) := by
  unfold RenderConfig.renderFields
  split
  · rename_i fields hlookup
    obtain ⟨e, he, heq⟩ := Option.map_eq_some_iff.mp hlookup
    have hfields : TextKeys (documentEntries e.2) := h.2 e (List.mem_of_find?_eq_some he)
    rwa [heq] at hfields
  · nofun

/-- The findings about a document whose keys are texts can be arranged, and they are about texts. -/
theorem findings_eq_ok (h : AllTextKeys entries) (hdepth : ∀ e ∈ entries, e.2.depth ≤ deepestReport) :
    ∃ fs, findings entries = .ok fs ∧ ∀ f ∈ fs, f.AboutTexts := by
  have hfound : ∀ e ∈ entries, ∃ found, entryFinding? e.1 e.2 = .ok found ∧ ∀ f, found = some f → f.AboutTexts :=
    fun e he => entryFinding?_eq_ok (h.1 e he) (h.2 e he)
  obtain ⟨found, hfound, habout⟩ := mapM_entryFinding?_eq_ok hfound
  have hconversions : ∀ f ∈ renderConversions (RenderConfig.renderFields entries), f.AboutTexts :=
    fun f hf => renderConversions_aboutTexts hf
  obtain ⟨arranged, harranged, hperm⟩ := Finding.arrangedFindings_eq_ok hconversions habout
  have hany : (entries.any fun e => decide (deepestReport < e.2.depth)) = false := by
    simpa using hdepth
  refine ⟨arranged, ?_, fun f hf => ?_⟩
  · simp only [findings, hfound, bind, Except.bind, harranged, hany]
    rfl
  · rcases List.mem_append.mp (hperm.subset hf) with hf | hf
    · exact hconversions f hf
    · exact habout f hf

theorem ofEntries_reported (h : AllTextKeys entries) (hdepth : ∀ e ∈ entries, e.2.depth ≤ deepestReport)
    {fault : ConfigFault} (hfault : ofEntries entries = .error fault) : fault.IsReported := by
  obtain ⟨fs, hfindings, habout⟩ := findings_eq_ok h hdepth
  have hshort : fs.any Finding.isTooLong = false := by
    rw [List.any_eq_false]
    intro f hf
    simp [Finding.isTooLong_eq_false (habout f hf)]
  unfold ofEntries at hfault
  split at hfault
  · cases hfault
  · cases hfault
    rw [hfindings, ConfigFault.ofFindings, hshort]
    trivial

theorem ofRoot_reported {path : String} {root : Datum} (hkeys : TextKeyed root) (hdepth : root.depth ≤ deepestReport)
    {fault : ConfigFault} (hfault : ofRoot path root = .error fault) : fault.IsReported := by
  unfold ofRoot at hfault
  split at hfault
  · exact ofEntries_reported (by decide) (by simp) hfault
  · rename_i entries
    refine ofEntries_reported hkeys (fun e he => ?_) hfault
    exact Nat.le_trans (Datum.depth_le_of_mem he) (Nat.le_of_succ_le hdepth)
  · cases hfault
    trivial

theorem depth_rootDatum {content : Option String} {file : Option Yaml.Loaded} (h : loaded? content = some file) :
    (rootDatum file).depth ≤ deepestReport := by
  cases file with
  | none => exact Nat.zero_le _
  | some l =>
    obtain ⟨text, -, hload⟩ := Option.bind_eq_some_iff.mp h
    exact Nat.le_trans (Yaml.Loaded.datum_depth_le hload fieldDepth) (by decide)

/-- A file that can be reported about: its keys are texts, and no value that a report copies is too deep. -/
structure ReportableFile (file : Option Yaml.Loaded) : Prop where
  keys : TextKeyed (rootDatum file)
  shallow : file.any isTooDeep = false

instance : DecidablePred ReportableFile := fun file =>
  decidable_of_iff (TextKeyed (rootDatum file) ∧ file.any isTooDeep = false)
    ⟨fun h => ⟨h.1, h.2⟩, fun h => ⟨h.keys, h.shallow⟩⟩

theorem ofFile_reported {path : String} {content : Option String} (h : ∀ file ∈ loaded? content, ReportableFile file)
    {fault : ConfigFault} (hfault : ofFile path content = .error fault) : fault.IsReported := by
  unfold ofFile at hfault
  split at hfault
  · rename_i file hfile
    obtain ⟨hkeys, hshallow⟩ := h file hfile
    cases hroot : ofRoot (shortPath path) (rootDatum file) with
    | ok c =>
      rw [hroot] at hfault
      cases hfault
    | error found =>
      have hsame : fault = faultOfFile file found := by
        rw [hroot] at hfault
        exact (Except.error.inj hfault).symm
      rw [hsame, faultOfFile, hshallow, Bool.and_false]
      exact ofRoot_reported hkeys (depth_rootDatum hfile) hroot
  · cases hfault
    trivial

/-- The entries of the document of a configuration. -/
def documentOf (c : RenderConfig) : List (Datum × Datum) :=
  [(.text "expression", expressionDatum c.expression), (.text "render", .mapping c.fieldEntries)]

theorem allTextKeys_documentOf (c : RenderConfig) : AllTextKeys c.documentOf := by
  have hfields : TextKeys c.fieldEntries := by simp [TextKeys, fieldEntries, Datum.isText]
  have hexpression : documentEntries (expressionDatum c.expression) = [] := by cases c.expression <;> rfl
  refine ⟨by simp [documentOf, TextKeys, Datum.isText], ?_⟩
  simp only [documentOf, List.forall_mem_cons, hexpression]
  exact ⟨List.forall_mem_nil _, hfields, List.forall_mem_nil _⟩

theorem depth_documentOf (c : RenderConfig) : ∀ e ∈ c.documentOf, e.2.depth ≤ deepestReport := by
  simp [documentOf, Datum.depth, Datum.depthOfEntries, fieldEntries, depth_numberDatum, depth_expressionDatum,
    deepestReport]

theorem ofDatum_toDatum_reported {c : RenderConfig} {fault : ConfigFault} (hfault : ofDatum c.toDatum = .error fault) :
    fault.IsReported :=
  ofEntries_reported c.allTextKeys_documentOf c.depth_documentOf hfault

end RenderConfig

end DotGrid
