import DotGrid.Proofs.Config.Report

/-!
# Validation is exact

A document without offences is accepted, as the configuration that it describes. The findings about any other document
have to be arranged and written before they are reported, which needs keys that can be compared with each other and that
are short, and values that are not too deep (`Reportable`). Then the document has a report, and a report names exactly
the entries and the fields that offend (`validation_exact`). Without that the fault of the arrangement takes the place
of the report (`unordered_keys_unreported`).
-/

namespace DotGrid

open Datum (DistinctKeys)

/-! ## Arranging what can be compared -/

section

variable {α : Type} {before : Comparison α} {l done as : List α} {a b : α}

/-- Two elements that can be compared, whichever comes first. -/
def Comparison.Relates (before : Comparison α) (a b : α) : Prop :=
  (∃ answer, before a b = some answer) ∧ ∃ answer, before b a = some answer

instance : Std.Symm before.Relates := ⟨fun _ _ h => ⟨h.2, h.1⟩⟩

theorem exists_related (h : l.Pairwise before.Relates) (hlength : 2 ≤ l.length) (ha : a ∈ l) :
    ∃ b, before.Relates a b := by
  match l, hlength with
  | x :: y :: l, _ =>
    obtain ⟨hx, -⟩ := List.pairwise_cons.mp h
    rcases List.mem_cons.mp ha with rfl | ha
    · exact ⟨y, hx y List.mem_cons_self⟩
    · exact ⟨x, Std.Symm.symm _ _ (hx a ha)⟩

theorem arranged_singleton (a : α) : before.arranged [a] = ⟨[a], true⟩ := rfl

/-- A list whose elements can be compared with each other grows to its end, even if the only element of a list cannot be
compared with itself. -/
theorem foldlM_enlisted_of_pairwise (hself : ∀ a b, before.Relates a b → ∃ answer, before a a = some answer)
    (isKept : α → Bool) (h : (done ++ as).Pairwise before.Relates) :
    ∃ bs, as.foldlM (fun done a => enlisted before (isKept a) done a) done = .ok bs := by
  by_cases hlength : 2 ≤ (done ++ as).length
  · have hrefl : ∀ a ∈ done ++ as, before.Relates a a := by
      intro a ha
      obtain ⟨b, hab⟩ := exists_related h hlength ha
      exact ⟨hself a b hab, hself a b hab⟩
    have hall := List.Pairwise.forall_of_forall hrefl h
    obtain ⟨bs, hbs, -⟩ := foldlM_enlisted (P := (· ∈ done ++ as)) (fun a b ha hb => (hall ha hb).1) isKept
      (fun a ha => List.mem_append_left as ha) fun a ha => List.mem_append_right done ha
    exact ⟨bs, hbs⟩
  · cases as with
    | nil => exact ⟨done, rfl⟩
    | cons a as =>
      rw [List.length_append, List.length_cons] at hlength
      cases List.length_eq_zero_iff.mp (show done.length = 0 by omega)
      cases List.length_eq_zero_iff.mp (show as.length = 0 by omega)
      refine ⟨[a], ?_⟩
      rw [List.foldlM_cons, enlisted, List.nil_append, arranged_singleton]
      rfl

end

namespace Finding

variable {f g : Finding}

theorem exists_path_eq (f : Finding) : ∃ names, f.path = f.head :: names ∧ ∀ k ∈ names, k.isText = true := by
  cases f with
  | field key problem => exact ⟨[], rfl, List.forall_mem_nil _⟩
  | inside problems => exact ⟨[], rfl, List.forall_mem_nil _⟩
  | conversion name reason => exact ⟨[.text name], rfl, List.forall_mem_singleton.mpr rfl⟩

/-- Only the first keys decide whether findings can be compared. -/
theorem exists_before?_iff : (∃ answer, before? f g = some answer) ↔ f.head.Ranks g.head := by
  obtain ⟨names, hf, hnames⟩ := f.exists_path_eq
  obtain ⟨names', hg, hnames'⟩ := g.exists_path_eq
  rw [before?, hf, hg, pathBefore?, Datum.Ranks]
  split
  · rename_i hsame
    exact ⟨fun _ => .inl hsame, fun _ => pathBefore?_of_isText hnames hnames'⟩
  · rename_i hsame
    exact ⟨.inr, fun h => h.resolve_left hsame⟩

theorem relates_of_heads (h : f.head.Ranks g.head) (h' : g.head.Ranks f.head) : before?.Relates f g :=
  ⟨exists_before?_iff.mpr h, exists_before?_iff.mpr h'⟩

theorem before?_self (h : before?.Relates f g) : ∃ answer, before? f f = some answer :=
  exists_before?_iff.mpr (exists_before?_iff.mp h.1).self

end Finding

namespace RenderConfig

variable {entries fields : List (Datum × Datum)} {fs : List Finding} {c : RenderConfig}

/-! ## Documents with a report -/

/-- A document whose offences can be reported: the keys that offend can be compared with each other and are short enough
to be written, and no value is too deep. -/
structure Reportable (entries : List (Datum × Datum)) : Prop where
  order : entries.Pairwise fun e f => Offends e.1 e.2 → Offends f.1 f.2 → Comparison.Relates Datum.before? e.1 f.1
  fieldOrder : (renderFields entries).Pairwise fun e f =>
    FieldOffends e.1 e.2 → FieldOffends f.1 f.2 → Comparison.Relates Datum.before? e.1 f.1
  short : ∀ e ∈ entries, Offends e.1 e.2 → e.1.isTooLong = false
  fieldShort : ∀ e ∈ renderFields entries, FieldOffends e.1 e.2 → e.1.isTooLong = false
  shallow : ∀ e ∈ entries, e.2.depth ≤ deepestReport

theorem exists_arrangedProblems (h : fields.Pairwise fun e f =>
      FieldOffends e.1 e.2 → FieldOffends f.1 f.2 → Comparison.Relates Datum.before? e.1 f.1) :
    ∃ arranged, Finding.arrangedProblems (renderProblems fields) = .ok arranged := by
  have hself : ∀ p q, Comparison.Relates (fun a b : Datum × Problem => a.1.before? b.1) p q →
      ∃ answer, p.1.before? p.1 = some answer := fun _ _ hpq => Datum.before?_self hpq.1
  refine foldlM_enlisted_of_pairwise hself (fun p => p.2.isKept) ?_
  rw [List.nil_append, renderProblems, List.pairwise_filterMap]
  refine h.imp fun {e f} hef p hp q hq => ?_
  obtain ⟨hp, he⟩ := fieldOffends_of_problem hp
  obtain ⟨hq, hf⟩ := fieldOffends_of_problem hq
  have hrelates := hef he hf
  rwa [← hp, ← hq] at hrelates

theorem findings_pairwise (h : Reportable entries) {g : Datum × Datum → Option Finding}
    (hg : ∀ e ∈ entries, EntryFound e.1 e.2 (g e)) :
    (renderConversions (renderFields entries) ++ entries.filterMap g).Pairwise Finding.before?.Relates := by
  have hsame : ∀ {f f' : Finding}, f.head = .text "render" → f'.head = .text "render" →
      Finding.before?.Relates f f' := by
    intro f f' hf hf'
    refine Finding.relates_of_heads ?_ ?_ <;> rw [hf, hf'] <;> exact .inl rfl
  have hordered : ∀ {f f' : Finding}, Comparison.Relates Datum.before? f.head f'.head →
      Finding.before?.Relates f f' := fun h => Finding.relates_of_heads (.inr h.1) (.inr h.2)
  refine List.pairwise_append.mpr ⟨?_, ?_, ?_⟩
  · refine List.pairwise_of_forall_mem_list fun f hf f' hf' => ?_
    obtain ⟨_, -, _, _, -, rfl, -⟩ := fieldOffends_of_mem_renderConversions hf
    obtain ⟨_, -, _, _, -, rfl, -⟩ := fieldOffends_of_mem_renderConversions hf'
    exact hsame rfl rfl
  · refine List.pairwise_filterMap.mpr (h.order.imp_of_mem fun {e e'} he he' hef f hf f' hf' => ?_)
    obtain ⟨hhead, hoff⟩ := (hf ▸ hg e he).offends
    obtain ⟨hhead', hoff'⟩ := (hf' ▸ hg e' he').offends
    refine hordered ?_
    rw [hhead, hhead']
    exact hef hoff hoff'
  · intro f hf f' hf'
    obtain ⟨e, he, _, _, -, rfl, hoff⟩ := fieldOffends_of_mem_renderConversions hf
    obtain ⟨e', he', hfound⟩ := List.mem_filterMap.mp hf'
    obtain ⟨hhead', hoff'⟩ := (hfound ▸ hg e' he').offends
    by_cases hrender : e'.1 = .text "render"
    · exact hsame rfl (hhead'.trans hrender)
    · have hsymm : Std.Symm fun e f : Datum × Datum =>
          Offends e.1 e.2 → Offends f.1 f.2 → Comparison.Relates Datum.before? e.1 f.1 :=
        ⟨fun _ _ hef hf he => Std.Symm.symm _ _ (hef he hf)⟩
      have hne : (Datum.text "render", Datum.mapping (renderFields entries)) ≠ e' := by
        rintro rfl
        exact hrender rfl
      refine hordered ?_
      rw [hhead']
      exact List.Pairwise.forall h.order (mem_of_mem_renderFields he) he' hne (.render rfl rfl he hoff) hoff'

section

variable (hdoc : IsDocument entries) (h : Reportable entries)

include hdoc h

theorem exists_entryFinding? {e : Datum × Datum} (he : e ∈ entries) : ∃ found, entryFinding? e.1 e.2 = .ok found := by
  unfold entryFinding?
  split
  · exact ⟨_, rfl⟩
  · rename_i hkey
    split
    · exact ⟨_, rfl⟩
    · rename_i fields hvalue
      split
      · exact ⟨_, rfl⟩
      · have hfields := hdoc.renderFields_eq he hkey hvalue
        obtain ⟨arranged, harranged⟩ := exists_arrangedProblems (hfields ▸ h.fieldOrder)
        exact ⟨_, by rw [harranged]; rfl⟩
    · exact ⟨_, rfl⟩
  · exact ⟨_, rfl⟩

theorem exists_findings : ∃ fs, findings entries = .ok fs := by
  choose! g hg using fun e (he : e ∈ entries) => exists_entryFinding? hdoc h he
  have hperm := (Finding.before?.arranged_of (renderConversions (renderFields entries))).perm
  have hpairwise := findings_pairwise h fun e he => hdoc.entryFound he (hg e he)
  rw [← (hperm.append_right _).pairwise_iff fun hab => Std.Symm.symm _ _ hab] at hpairwise
  obtain ⟨arranged, harranged⟩ :=
    foldlM_enlisted_of_pairwise (fun _ _ => Finding.before?_self) (fun _ => false) hpairwise
  have hany : (entries.any fun e => decide (deepestReport < e.2.depth)) = false := by
    simpa using h.shallow
  refine ⟨arranged, ?_⟩
  have hfilter : (entries.map g).filterMap id = entries.filterMap g := by
    rw [List.filterMap_map]
    rfl
  rw [findings, mapM_eq_ok hg]
  simp only [bind, Except.bind, hfilter, Finding.arrangedFindings, harranged, hany]
  rfl

end

/-- Texts can always be compared and written. -/
theorem reportable_of_allTextKeys (h : AllTextKeys entries) (hdepth : ∀ e ∈ entries, e.2.depth ≤ deepestReport) :
    Reportable entries := by
  have hrelates : ∀ {a b : Datum}, a.isText = true → b.isText = true → Comparison.Relates Datum.before? a b :=
    fun ha hb => ⟨before?_of_isText ha hb, before?_of_isText hb ha⟩
  have hfields := AllTextKeys.renderFields h
  refine ⟨?_, ?_, fun e he _ => isTooLong_of_isText (h.1 e he),
    fun e he _ => isTooLong_of_isText (hfields e he), hdepth⟩
  · exact List.pairwise_of_forall_mem_list fun e he f hf _ _ => hrelates (h.1 e he) (h.1 f hf)
  · exact List.pairwise_of_forall_mem_list fun e he f hf _ _ => hrelates (hfields e he) (hfields f hf)

/-- Nothing that can be reported is too long to be written. -/
theorem isTooLong_of_tells (h : Reportable entries) (htells : Tells entries fs) : ∀ f ∈ fs, f.isTooLong = false := by
  intro f hf
  have htext : ∀ names : List Datum, (∀ k ∈ names, k.isText = true) → names.any Datum.isTooLong = false := by
    intro names hnames
    rw [List.any_eq_false]
    intro k hk
    simp [isTooLong_of_isText (hnames k hk)]
  obtain ⟨v, hv, hoff⟩ := (htells.keys f.head).mp ⟨f, hf, rfl⟩
  obtain ⟨names, hpath, hnames⟩ := f.exists_path_eq
  have hproblems : (f.problems.map (·.1)).any Datum.isTooLong = false := by
    rw [List.any_eq_false]
    intro k hk
    obtain ⟨p, hp, rfl⟩ := List.mem_map.mp hk
    obtain ⟨w, hw, hoff⟩ := (htells.fields p.1).mp ⟨f, hf, p, hp, rfl⟩
    simp [h.fieldShort _ hw hoff]
  rw [Finding.isTooLong, hpath, List.any_append, List.any_cons, h.short _ hv hoff, htext names hnames, hproblems]
  rfl

/-- A reportable document has a report if and only if one of its entries offends. -/
theorem exists_invalid_iff (hdoc : IsDocument entries) (h : Reportable entries) :
    (∃ fs, ofEntries entries = .error (.invalid fs)) ↔ ∃ e ∈ entries, Offends e.1 e.2 := by
  obtain ⟨fs, hfs⟩ := exists_findings hdoc h
  constructor
  · rintro ⟨fs', hinvalid⟩
    by_contra hnone
    have hnot : ∀ e ∈ entries, ¬ Offends e.1 e.2 := fun e he hoff => hnone ⟨e, he, hoff⟩
    obtain ⟨c, hc⟩ := exists_describes hnot
    rw [(ofEntries_eq_ok_iff_not_offends hdoc).mpr ⟨hnot, hc⟩] at hinvalid
    cases hinvalid
  · rintro ⟨e, he, hoff⟩
    have hshort : fs.any Finding.isTooLong = false := by
      rw [List.any_eq_false]
      intro f hf
      simp [isTooLong_of_tells h (findings_tell hdoc hfs) f hf]
    refine ⟨fs, ?_⟩
    cases hentries : ofEntries entries with
    | ok c => exact absurd hoff (((ofEntries_eq_ok_iff_not_offends hdoc).mp hentries).1 e he)
    | error fault =>
      unfold ofEntries at hentries
      split at hentries
      · cases hentries
      · cases hentries
        rw [hfs, ConfigFault.ofFindings, hshort]
        rfl

/-- The findings of a report are those about the document. -/
theorem findings_of_invalid (h : ofEntries entries = .error (.invalid fs)) : findings entries = .ok fs := by
  unfold ofEntries at h
  split at h
  · cases h
  · rename_i found _
    cases hfound : findings entries with
    | error fault => rw [hfound] at h; cases h
    | ok fs' =>
      rw [hfound, ConfigFault.ofFindings] at h
      split at h
      · cases h
      · cases h
        rfl

/-- How a document is validated. It is accepted if and only if none of its entries offends, as the configuration that
it describes: each field has the converted value of its datum, or its default. If what offends can be reported, the
document is refused with a report if and only if some entry offends. A report names exactly the entries that offend,
and inside of `render` exactly the fields that do. -/
structure ValidatesExactly (entries : List (Datum × Datum)) : Prop where
  accepts_iff : ∀ c, ofDatum (.mapping entries) = .ok c ↔ (∀ e ∈ entries, ¬ Offends e.1 e.2) ∧ Describes entries c
  accepted_iff : (∃ c, ofDatum (.mapping entries) = .ok c) ↔ ∀ e ∈ entries, ¬ Offends e.1 e.2
  refused_iff : Reportable entries →
    ((∃ fs, ofDatum (.mapping entries) = .error (.invalid fs)) ↔ ∃ e ∈ entries, Offends e.1 e.2)
  names : ∀ fs, ofDatum (.mapping entries) = .error (.invalid fs) →
    ∃ es nested, Finding.report fs = .mapping es ∧ ReportNames entries es nested

/-- **Validation is exact** for every document whose `render` is absent, null or a mapping. -/
theorem validation_exact (entries : List (Datum × Datum)) (hdoc : IsDocument entries) : ValidatesExactly entries := by
  have hok : ∀ c, ofEntries entries = .ok c ↔ (∀ e ∈ entries, ¬ Offends e.1 e.2) ∧ Describes entries c := fun c =>
    ofEntries_eq_ok_iff_not_offends hdoc
  constructor <;> rw [ofDatum_mapping]
  case accepts_iff => exact hok
  case accepted_iff =>
    refine ⟨fun ⟨c, hc⟩ => ((hok c).mp hc).1, fun h => ?_⟩
    obtain ⟨c, hc⟩ := exists_describes h
    exact ⟨c, (hok c).mpr ⟨h, hc⟩⟩
  case refused_iff => exact exists_invalid_iff hdoc
  case names => exact fun fs hfs => reportNames_of_tells hdoc (findings_tell hdoc (findings_of_invalid hfs))

/-- A document with an expression that is no text, a size of zero and an unknown field is reported with these, and not
with its infinite start or its null rate. -/
theorem validation_exact_fields :
    let entries : List (Datum × Datum) :=
      [(.text "expression", .integer 1),
        (.text "render", .mapping [(.text "size", .text "0"), (.text "start", .text "-inf"), (.text "fps", .null),
          (.text "bar", .boolean true)])]
    IsDocument entries ∧ ∃ (fs : List Finding) (es nested : List (Datum × Datum)),
      ofDatum (.mapping entries) = .error (.invalid fs) ∧ Finding.report fs = .mapping es ∧
      (∃ v, (Datum.text "expression", v) ∈ es) ∧ (∃ v, (Datum.text "bar", v) ∈ nested) ∧
      ∀ v, (Datum.text "start", v) ∉ nested := by
  intro entries
  have hdoc : IsDocument entries :=
    ⟨by decide, fun v hv => .inr ⟨_, (Option.some.inj hv).symm, by decide⟩⟩
  have hreportable : Reportable entries := by
    refine reportable_of_allTextKeys (by decide) ?_
    simp [entries, Datum.depth, Datum.depthOfEntries, deepestReport]
  have hexpression : Offends (.text "expression") (.integer 1) := by
    refine .expression rfl ⟨?_, ?_⟩
    · rintro ⟨⟩
    · rintro e ⟨s, hs, -⟩
      cases hs
  have hexact := validation_exact entries hdoc
  obtain ⟨fs, hfs⟩ := (hexact.refused_iff hreportable).mpr ⟨_, List.mem_cons_self, hexpression⟩
  obtain ⟨es, nested, hes, hnames⟩ := hexact.names fs hfs
  refine ⟨hdoc, fs, es, nested, hfs, hes, (hnames.keys _).mpr ⟨_, List.mem_cons_self, hexpression⟩, ?_, fun v hv => ?_⟩
  · refine (hnames.fields _).mpr ⟨.boolean true, ?_, .unknown (by simp [fieldNames])⟩
    exact List.mem_cons_of_mem _ (List.mem_cons_of_mem _ (List.mem_cons_of_mem _ List.mem_cons_self))
  · obtain ⟨w, hw, hoff⟩ := (hnames.fields _).mp ⟨v, hv⟩
    have hlookup : Datum.lookup? "start" (renderFields entries) = some w :=
      Datum.lookup?_of_mem hdoc.renderFields_distinct hw
    cases hlookup
    have hreads : ReadsReal (.text "-inf") (.infinite true) := by
      unfold ReadsReal
      decide +kernel
    exact (fieldOffends_start_iff.mp hoff).2 _ hreads

/-- A null key has no place among others, so that two unknown fields of a document are not reported. -/
theorem unordered_keys_unreported :
    let entries : List (Datum × Datum) :=
      [(.text "render", .mapping [(.text "foo", .integer 1), (.null, .integer 2)])]
    IsDocument entries ∧ (∃ e ∈ entries, Offends e.1 e.2) ∧
      ofDatum (.mapping entries) = .error (.unreported (.mismatch .order)) := by
  intro entries
  refine ⟨⟨by decide, fun v hv => .inr ⟨_, (Option.some.inj hv).symm, by decide⟩⟩, ?_, rfl⟩
  exact ⟨_, List.mem_cons_self, .render rfl rfl List.mem_cons_self (.unknown (by simp [fieldNames]))⟩

end RenderConfig

end DotGrid
