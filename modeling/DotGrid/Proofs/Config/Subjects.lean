import DotGrid.Proofs.Config.Offences

/-!
# What findings are about

The finding about one entry of a document says whether the entry offends (`EntryFound`). Arranging keeps the findings
whatever the order of the keys is, so the findings about a document are about the entries that offend and about no
others (`findings_tell`). A document without offences has no findings, and all of its fields have values. So it is
accepted if and only if none of its entries offends (`ofEntries_eq_ok_iff_not_offends`).
-/

namespace DotGrid

open Datum (DistinctKeys lookup?_of_mem mem_of_lookup?)

theorem enlisted_perm {α : Type} {before : Comparison α} {isKept : Bool} {as bs : List α} {a : α}
    (h : enlisted before isKept as a = .ok bs) : bs.Perm (as ++ [a]) := by
  unfold enlisted at h
  dsimp only at h
  split at h
  · cases h
    exact (before.arranged_of (as ++ [a])).perm
  · cases h

theorem foldlM_enlisted_perm {α : Type} {before : Comparison α} {isKept : α → Bool} {done as bs : List α}
    (h : as.foldlM (fun done a => enlisted before (isKept a) done a) done = .ok bs) : bs.Perm (done ++ as) := by
  induction as generalizing done with
  | nil =>
    cases h
    rw [List.append_nil]
  | cons a as ih =>
    rw [List.foldlM_cons] at h
    obtain ⟨next, hnext, hrest⟩ := bind_eq_ok_iff.mp h
    rw [List.append_cons]
    exact (ih hrest).trans ((enlisted_perm hnext).append_right as)

theorem exists_of_mapM_eq_ok {α β ε : Type} {g : α → Except ε β} {as : List α} {bs : List β}
    (h : as.mapM g = .ok bs) : ∀ a ∈ as, ∃ b, g a = .ok b := by
  induction as generalizing bs with
  | nil => exact List.forall_mem_nil _
  | cons a as ih =>
    rw [List.mapM_cons] at h
    obtain ⟨b, hb, h⟩ := bind_eq_ok_iff.mp h
    obtain ⟨bs, hbs, -⟩ := bind_eq_ok_iff.mp h
    exact List.forall_mem_cons.mpr ⟨⟨b, hb⟩, ih hbs⟩

/-- The first of the keys that lead to what a finding is about. -/
def Finding.head : Finding → Datum
  | .field key _ => key
  | _ => renderKey

namespace RenderConfig

variable {key value : Datum} {entries fields : List (Datum × Datum)} {c : RenderConfig}

/-! ## Fields -/

theorem fieldOffends_of_problem {e : Datum × Datum} {p : Datum × Problem}
    (h : ((renderTrouble? e.1 e.2).bind fun t => t.rule.map fun rule => (e.1, rule)) = some p) :
    p.1 = e.1 ∧ FieldOffends e.1 e.2 := by
  obtain ⟨t, ht, hrule⟩ := Option.bind_eq_some_iff.mp h
  obtain ⟨rule, -, rfl⟩ := Option.map_eq_some_iff.mp hrule
  refine ⟨rfl, by_contra fun hoff => ?_⟩
  rw [renderTrouble?_eq_none_iff.mpr hoff] at ht
  cases ht

theorem fieldOffends_of_mem_renderProblems {p : Datum × Problem} (h : p ∈ renderProblems fields) :
    ∃ e ∈ fields, e.1 = p.1 ∧ FieldOffends e.1 e.2 := by
  obtain ⟨e, he, heq⟩ := List.mem_filterMap.mp h
  obtain ⟨hkey, hoff⟩ := fieldOffends_of_problem heq
  exact ⟨e, he, hkey.symm, hoff⟩

theorem fieldOffends_of_mem_renderConversions {f : Finding} (h : f ∈ renderConversions fields) :
    ∃ e ∈ fields, ∃ name reason, e.1 = .text name ∧ f = .conversion name reason ∧ FieldOffends e.1 e.2 := by
  obtain ⟨e, he, heq⟩ := List.mem_filterMap.mp h
  split at heq
  · rename_i name rule reason hkey htrouble
    cases heq
    refine ⟨e, he, name, reason, hkey, rfl, by_contra fun hoff => ?_⟩
    rw [renderTrouble?_eq_none_iff.mpr hoff] at htrouble
    cases htrouble
  · cases heq

/-- An offending field has a problem, or there is a value that is not converted. -/
theorem told_of_fieldOffends {e : Datum × Datum} (he : e ∈ fields) (h : FieldOffends e.1 e.2) :
    (∃ rule, (e.1, rule) ∈ renderProblems fields) ∨
      ∃ name reason, e.1 = .text name ∧ .conversion name reason ∈ renderConversions fields := by
  cases htrouble : renderTrouble? e.1 e.2 with
  | none => exact absurd h (renderTrouble?_eq_none_iff.mp htrouble)
  | some t =>
    rcases rule_or_reason htrouble with ⟨rule, hrule⟩ | ⟨name, reason, hkey, hreason⟩
    · refine .inl ⟨rule, List.mem_filterMap.mpr ⟨e, he, ?_⟩⟩
      rw [htrouble, Option.bind_some, hrule]
      rfl
    · refine .inr ⟨name, reason, hkey, List.mem_filterMap.mpr ⟨e, he, ?_⟩⟩
      obtain ⟨rule, reason'⟩ := t
      cases hreason
      rw [htrouble, hkey]

/-! ## Entries -/

/-- What is found to be wrong with an entry: nothing if it does not offend, a problem of its own, or the problems inside
of a `render` mapping, which may have none even if a field offends. -/
inductive EntryFound (key value : Datum) : Option Finding → Prop
  | fine (hkey : key ≠ .text "render") (h : ¬ Offends key value) : EntryFound key value none
  | field (hkey : key ≠ .text "render") (h : Offends key value) (problem : Problem) :
      EntryFound key value (some (.field key problem))
  | quiet (hkey : key = .text "render") (h : ∀ fields, value = .mapping fields → renderProblems fields = []) :
      EntryFound key value none
  | inside {fields : List (Datum × Datum)} {arranged : List (Datum × Problem)} (hkey : key = .text "render")
      (hvalue : value = .mapping fields) (hperm : arranged.Perm (renderProblems fields))
      (hne : renderProblems fields ≠ []) :
      EntryFound key value (some (.inside arranged))

theorem offends_expression_iff : Offends (.text "expression") value ↔ Refuses ReadsExpression value := by
  refine ⟨fun h => ?_, .expression rfl⟩
  cases h with
  | unknown h _ => exact absurd rfl h
  | expression _ h => exact h
  | render hkey _ _ _ => simp at hkey

/-- What is found about an entry is about its key, and the entry offends. -/
theorem EntryFound.offends {f : Finding} (h : EntryFound key value (some f)) : f.head = key ∧ Offends key value := by
  cases h with
  | field _ hoff problem => exact ⟨rfl, hoff⟩
  | inside hkey hvalue _ hne =>
    obtain ⟨p, hp⟩ := List.exists_mem_of_ne_nil _ hne
    obtain ⟨e, he, -, hoff⟩ := fieldOffends_of_mem_renderProblems hp
    exact ⟨hkey.symm, .render hkey hvalue he hoff⟩

theorem entryFinding?_found {found : Option Finding} (h : entryFinding? key value = .ok found)
    (hrender : key = .text "render" → value = .null ∨ ∃ fields, value = .mapping fields) :
    EntryFound key value found := by
  unfold entryFinding? at h
  split at h
  · cases h
    cases htrouble : trouble? (valueOr none expressionField (some value)) with
    | none =>
      refine .fine (by simp) ?_
      rw [offends_expression_iff]
      exact (trouble?_valueOr_eq_none_iff fun _ _ => expressionField_eq_ok_iff).mp htrouble
    | some t =>
      have hoff : Offends (.text "expression") value := by
        rw [offends_expression_iff]
        by_contra hreads
        rw [(trouble?_valueOr_eq_none_iff fun _ _ => expressionField_eq_ok_iff).mpr hreads] at htrouble
        cases htrouble
      have ht := error_of_trouble?_valueOr htrouble
      unfold expressionField at ht
      split at ht
      · cases ht
      · cases ht
        exact .field (by simp) hoff _
  · rcases hrender rfl with rfl | ⟨fields, rfl⟩
    · cases h
      exact .quiet rfl nofun
    · simp only at h
      split at h
      · rename_i hnil
        cases h
        refine .quiet rfl fun fields' heq => ?_
        cases heq
        exact hnil
      · rename_i hne
        obtain ⟨arranged, harranged, h⟩ := bind_eq_ok_iff.mp h
        cases h
        exact .inside rfl rfl (foldlM_enlisted_perm harranged) hne
  · rename_i hexpression hrender'
    cases h
    have hkey : key ≠ .text "render" := hrender'
    exact .field hkey (.unknown hexpression hkey) _

/-! ## Documents -/

/-- The entries of a document whose `render` is absent, null or a mapping. -/
structure IsDocument (entries : List (Datum × Datum)) : Prop where
  distinct : DistinctKeys entries
  render : ∀ v, Datum.lookup? "render" entries = some v →
    v = .null ∨ ∃ fields, v = .mapping fields ∧ DistinctKeys fields

theorem IsDocument.render_of_mem (hdoc : IsDocument entries) {e : Datum × Datum} (he : e ∈ entries)
    (hkey : e.1 = .text "render") : e.2 = .null ∨ ∃ fields, e.2 = .mapping fields ∧ DistinctKeys fields :=
  hdoc.render e.2 (lookup?_of_mem hdoc.distinct (by rwa [← hkey]))

theorem IsDocument.entryFound (hdoc : IsDocument entries) {e : Datum × Datum} (he : e ∈ entries)
    {found : Option Finding} (h : entryFinding? e.1 e.2 = .ok found) : EntryFound e.1 e.2 found := by
  refine entryFinding?_found h fun hkey => ?_
  rcases hdoc.render_of_mem he hkey with hnull | ⟨fields, hvalue, -⟩
  · exact .inl hnull
  · exact .inr ⟨fields, hvalue⟩

theorem IsDocument.renderFields_eq (hdoc : IsDocument entries) {e : Datum × Datum} (he : e ∈ entries)
    (hkey : e.1 = .text "render") (hvalue : e.2 = .mapping fields) : renderFields entries = fields := by
  rw [renderFields, lookup?_of_mem hdoc.distinct (v := e.2) (by rwa [← hkey]), hvalue]

theorem mem_of_mem_renderFields {e : Datum × Datum} (h : e ∈ renderFields entries) :
    (.text "render", .mapping (renderFields entries)) ∈ entries := by
  unfold renderFields at h ⊢
  split at h
  · rename_i fields hlookup
    exact mem_of_lookup? hlookup
  · cases h

/-- The findings about a document are those about its conversions and its entries, in some order. -/
theorem findings_perm {fs : List Finding} (h : findings entries = .ok fs) :
    ∃ g : Datum × Datum → Option Finding, (∀ e ∈ entries, entryFinding? e.1 e.2 = .ok (g e)) ∧
      fs.Perm (renderConversions (renderFields entries) ++ entries.filterMap g) := by
  unfold findings at h
  obtain ⟨found, hfound, h⟩ := bind_eq_ok_iff.mp h
  obtain ⟨arranged, harranged, h⟩ := bind_eq_ok_iff.mp h
  choose! g hg using exists_of_mapM_eq_ok hfound
  refine ⟨g, hg, ?_⟩
  have hmap : found = entries.map g := by
    have := hfound.symm.trans (mapM_eq_ok hg)
    cases this
    rfl
  have hperm : arranged.Perm _ := foldlM_enlisted_perm harranged
  split at h
  · cases h
  · cases h
    rw [hmap, List.filterMap_map] at hperm
    exact hperm.trans ((Finding.before?.arranged_of _).perm.append_right _)

/-- Findings by the entry that each of them is about, apart from those about conversions. -/
structure FoundBy (entries : List (Datum × Datum)) (fs : List Finding) (g : Datum × Datum → Option Finding) :
    Prop where
  entry : ∀ e ∈ entries, EntryFound e.1 e.2 (g e)
  mem : ∀ f, f ∈ fs ↔ f ∈ renderConversions (renderFields entries) ∨ ∃ e ∈ entries, g e = some f

theorem exists_foundBy (hdoc : IsDocument entries) {fs : List Finding} (h : findings entries = .ok fs) :
    ∃ g, FoundBy entries fs g := by
  obtain ⟨g, hg, hperm⟩ := findings_perm h
  refine ⟨g, fun e he => hdoc.entryFound he (hg e he), fun f => ?_⟩
  rw [hperm.mem_iff, List.mem_append, List.mem_filterMap]

namespace FoundBy

variable {fs : List Finding} {g : Datum × Datum → Option Finding} (h : FoundBy entries fs g)

include h

theorem offends_head {f : Finding} (hf : f ∈ fs) : ∃ v, (f.head, v) ∈ entries ∧ Offends f.head v := by
  rcases (h.mem f).mp hf with hf | ⟨e, he, hfound⟩
  · obtain ⟨e, he, name, reason, -, rfl, hoff⟩ := fieldOffends_of_mem_renderConversions hf
    exact ⟨_, mem_of_mem_renderFields he, .render rfl rfl he hoff⟩
  · have hentry := h.entry e he
    rw [hfound] at hentry
    obtain ⟨hhead, hoff⟩ := hentry.offends
    rw [hhead]
    exact ⟨e.2, he, hoff⟩

theorem field_ne_render {problem : Problem} (hf : .field key problem ∈ fs) : key ≠ .text "render" := by
  rcases (h.mem _).mp hf with hf | ⟨e, he, hfound⟩
  · obtain ⟨_, -, _, _, -, heq, -⟩ := fieldOffends_of_mem_renderConversions hf
    cases heq
  · have hentry := h.entry e he
    rw [hfound] at hentry
    cases hentry with
    | field hkey _ _ => exact hkey

theorem exists_head (hdoc : IsDocument entries) (hv : (key, value) ∈ entries) (hoff : Offends key value) :
    ∃ f ∈ fs, f.head = key := by
  have hentry := h.entry _ hv
  generalize hfound : g (key, value) = found at hentry
  cases hentry with
  | fine _ hnot => exact absurd hoff hnot
  | field _ _ problem => exact ⟨_, (h.mem _).mpr (.inr ⟨_, hv, hfound⟩), rfl⟩
  | inside hkey _ _ _ => exact ⟨_, (h.mem _).mpr (.inr ⟨_, hv, hfound⟩), hkey.symm⟩
  | quiet hkey hquiet =>
    have hkey : key = .text "render" := hkey
    subst hkey
    cases hoff with
    | unknown _ hnot => exact absurd rfl hnot
    | expression hkey _ => simp at hkey
    | @render _ fields hvalue e he hoff =>
      -- a field without a problem to report has a value that is not converted
      rcases told_of_fieldOffends he hoff with ⟨rule, hrule⟩ | ⟨name, reason, -, hconversion⟩
      · rw [hquiet fields hvalue] at hrule
        cases hrule
      · rw [← hdoc.renderFields_eq hv rfl hvalue] at hconversion
        exact ⟨_, (h.mem _).mpr (.inl hconversion), rfl⟩

theorem fieldOffends_problem (hdoc : IsDocument entries) {f : Finding} (hf : f ∈ fs) {p : Datum × Problem}
    (hp : p ∈ f.problems) : ∃ v, (p.1, v) ∈ renderFields entries ∧ FieldOffends p.1 v := by
  rcases (h.mem f).mp hf with hf | ⟨e, he, hfound⟩
  · obtain ⟨e, he, name, reason, hkey, rfl, hoff⟩ := fieldOffends_of_mem_renderConversions hf
    cases List.mem_singleton.mp hp
    exact ⟨e.2, by rwa [← hkey], by rwa [← hkey]⟩
  · have hentry := h.entry e he
    rw [hfound] at hentry
    cases hentry with
    | field _ _ _ => cases hp
    | inside hkey hvalue hperm _ =>
      obtain ⟨e', he', hkey', hoff⟩ := fieldOffends_of_mem_renderProblems (hperm.subset hp)
      rw [hdoc.renderFields_eq he hkey hvalue, ← hkey']
      exact ⟨e'.2, he', hoff⟩

theorem exists_problem (hv : (key, value) ∈ renderFields entries) (hoff : FieldOffends key value) :
    ∃ f ∈ fs, ∃ p ∈ f.problems, p.1 = key := by
  rcases told_of_fieldOffends hv hoff with ⟨rule, hrule⟩ | ⟨name, reason, hkey, hconversion⟩
  · have hmapping := mem_of_mem_renderFields hv
    have hentry := h.entry _ hmapping
    generalize hfound : g (.text "render", .mapping (renderFields entries)) = found at hentry
    cases hentry with
    | fine hkey _ => exact absurd rfl hkey
    | field hkey _ _ => exact absurd rfl hkey
    | quiet _ hquiet =>
      rw [hquiet _ rfl] at hrule
      cases hrule
    | inside _ hvalue hperm _ =>
      cases hvalue
      exact ⟨_, (h.mem _).mpr (.inr ⟨_, hmapping, hfound⟩), _, hperm.symm.subset hrule, rfl⟩
  · exact ⟨_, (h.mem _).mpr (.inl hconversion), _, List.mem_singleton_self _, hkey.symm⟩

end FoundBy

/-- Findings that are about the entries and the fields that offend, and about no others. What is wrong with the `render`
mapping is told of its fields. -/
structure Tells (entries : List (Datum × Datum)) (fs : List Finding) : Prop where
  apart : ∀ key problem, .field key problem ∈ fs → key ≠ .text "render"
  keys : ∀ k, (∃ f ∈ fs, f.head = k) ↔ ∃ v, (k, v) ∈ entries ∧ Offends k v
  fields : ∀ k, (∃ f ∈ fs, ∃ p ∈ f.problems, p.1 = k) ↔ ∃ v, (k, v) ∈ renderFields entries ∧ FieldOffends k v

theorem findings_tell (hdoc : IsDocument entries) {fs : List Finding} (h : findings entries = .ok fs) :
    Tells entries fs := by
  obtain ⟨g, hfound⟩ := exists_foundBy hdoc h
  refine ⟨fun key problem hf => hfound.field_ne_render hf, ?_, ?_⟩
  · refine fun k => ⟨?_, fun ⟨v, hv, hoff⟩ => hfound.exists_head hdoc hv hoff⟩
    rintro ⟨f, hf, rfl⟩
    exact hfound.offends_head hf
  · refine fun k => ⟨?_, fun ⟨v, hv, hoff⟩ => hfound.exists_problem hv hoff⟩
    rintro ⟨f, hf, p, hp, rfl⟩
    exact hfound.fieldOffends_problem hdoc hf hp

/-! ## Documents without offences -/

section

variable {α : Type} {reads : Datum → α → Prop} {name : String}

theorem exists_fieldValue (default : α) (h : ∀ v, Datum.lookup? name entries = some v → ¬ Refuses reads v) :
    ∃ a, FieldValue default reads (Datum.lookup? name entries) a := by
  cases hlookup : Datum.lookup? name entries with
  | none => exact ⟨default, .absent⟩
  | some v =>
    rcases not_refuses_iff.mp (h v hlookup) with rfl | ⟨a, ha⟩
    · exact ⟨default, .null⟩
    · by_cases hnull : v = .null
      · rw [hnull]
        exact ⟨default, .null⟩
      · exact ⟨a, .given hnull ha⟩

end

/-- A number is in no list, set or mapping. -/
theorem depth_of_toInteger {n : Int} (h : value.toInteger = .ok n) : value.depth = 0 := by
  cases value with
  | list => cases h
  | mapping => cases h
  | set => cases h
  | _ => rfl

theorem depth_of_toReal {x : Double} (h : value.toReal = .ok x) : value.depth = 0 := by
  cases value with
  | list => cases h
  | mapping => cases h
  | set => cases h
  | _ => rfl

theorem depth_of_not_fieldOffends (h : ¬ FieldOffends key value) : value.depth = 0 := by
  by_cases hnull : value = .null
  · rw [hnull]
    rfl
  have hreads : ∀ {α : Type} {reads : Datum → α → Prop}, ¬ Refuses reads value → ∃ a, reads value a :=
    fun hnot => (not_refuses_iff.mp hnot).resolve_left hnull
  by_cases hknown : ∃ name ∈ fieldNames, key = .text name
  · obtain ⟨name, hname, rfl⟩ := hknown
    simp only [fieldNames, List.mem_cons, List.not_mem_nil, or_false] at hname
    rcases hname with rfl | rfl | rfl | rfl | rfl | rfl
    · obtain ⟨n, hn, -⟩ := hreads ((fieldOffends_count_iff (by simp)).not.mp h)
      exact depth_of_toInteger hn
    · obtain ⟨x, hx⟩ := hreads (fieldOffends_start_iff.not.mp h)
      exact depth_of_toReal hx
    · obtain ⟨x, hx, -⟩ := hreads (fieldOffends_rate_iff.not.mp h)
      exact depth_of_toReal hx
    · obtain ⟨n, hn, -⟩ := hreads ((fieldOffends_count_iff (by simp)).not.mp h)
      exact depth_of_toInteger hn
    · obtain ⟨b, rfl⟩ := hreads (fieldOffends_truth_iff.not.mp h)
      rfl
    · obtain ⟨n, hn, -⟩ := hreads ((fieldOffends_count_iff (by simp)).not.mp h)
      exact depth_of_toInteger hn
  · exact absurd (.unknown fun name hname hkey => hknown ⟨name, hname, hkey⟩) h

theorem depthOfEntries_eq_zero (h : ∀ e ∈ fields, e.2.depth = 0) : Datum.depthOfEntries fields = 0 := by
  induction fields with
  | nil => rfl
  | cons e fields ih =>
    obtain ⟨he, hfields⟩ := List.forall_mem_cons.mp h
    rw [Datum.depthOfEntries, he, ih hfields]
    rfl

/-- What is inside of a `render` mapping without offences. -/
theorem not_fieldOffends_of_render (h : ¬ Offends (.text "render") (.mapping fields)) :
    ∀ e ∈ fields, ¬ FieldOffends e.1 e.2 :=
  fun _ he hoff => h (.render rfl rfl he hoff)

section

variable (hdoc : IsDocument entries) (h : ∀ e ∈ entries, ¬ Offends e.1 e.2)

include h

theorem not_fieldOffends {e : Datum × Datum} (he : e ∈ renderFields entries) : ¬ FieldOffends e.1 e.2 :=
  not_fieldOffends_of_render (h _ (mem_of_mem_renderFields he)) e he

theorem exists_describes : ∃ c, Describes entries c := by
  have hcount : ∀ name, (Datum.text name = .text "size" ∨ Datum.text name = .text "frames" ∨
      Datum.text name = .text "workers") → ∀ v, Datum.lookup? name (renderFields entries) = some v →
      ¬ Refuses ReadsCount v := fun name hname v hv =>
    (fieldOffends_count_iff hname).not.mp (not_fieldOffends h (mem_of_lookup? hv))
  obtain ⟨size, hsize⟩ := exists_fieldValue 16 (hcount "size" (.inl rfl))
  obtain ⟨frames, hframes⟩ := exists_fieldValue 1 (hcount "frames" (.inr (.inl rfl)))
  obtain ⟨workers, hworkers⟩ := exists_fieldValue 1 (hcount "workers" (.inr (.inr rfl)))
  obtain ⟨start, hstart⟩ := exists_fieldValue (.zero false) fun v hv =>
    fieldOffends_start_iff.not.mp (not_fieldOffends h (mem_of_lookup? hv))
  obtain ⟨fps, hfps⟩ := exists_fieldValue (.ofInt 60) fun v hv =>
    fieldOffends_rate_iff.not.mp (not_fieldOffends h (mem_of_lookup? hv))
  obtain ⟨clamp, hclamp⟩ := exists_fieldValue true fun v hv =>
    fieldOffends_truth_iff.not.mp (not_fieldOffends h (mem_of_lookup? hv))
  obtain ⟨expression, hexpression⟩ := exists_fieldValue none fun v hv =>
    offends_expression_iff.not.mp (h _ (mem_of_lookup? hv))
  exact ⟨⟨size, .real start, .real fps, frames, clamp, workers, expression⟩,
    hsize, ⟨start, rfl, hstart⟩, ⟨fps, rfl, hfps⟩, hframes, hclamp, hworkers, hexpression⟩

include hdoc

theorem findings_of_not_offends : findings entries = .ok [] := by
  have htrouble : ∀ e ∈ renderFields entries, renderTrouble? e.1 e.2 = none := fun e he =>
    renderTrouble?_eq_none_iff.mpr (not_fieldOffends h he)
  have hentry : ∀ e ∈ entries, entryFinding? e.1 e.2 = .ok none ∧ e.2.depth ≤ 1 := by
    rintro ⟨key, value⟩ he
    have hnot := h _ he
    by_cases hrender : key = .text "render"
    · subst hrender
      rcases hdoc.render_of_mem he rfl with hvalue | ⟨fields, hvalue, -⟩
      · cases hvalue
        exact ⟨rfl, Nat.zero_le 1⟩
      · cases hvalue
        have hfields := not_fieldOffends_of_render hnot
        refine ⟨entryFinding?_render fun e he => renderTrouble?_eq_none_iff.mpr (hfields e he), ?_⟩
        rw [Datum.depth, depthOfEntries_eq_zero fun e he => depth_of_not_fieldOffends (hfields e he)]
    · by_cases hexpression : key = .text "expression"
      · subst hexpression
        rcases not_refuses_iff.mp (offends_expression_iff.not.mp hnot) with rfl | ⟨_, s, rfl, -⟩
        · exact ⟨rfl, Nat.zero_le 1⟩
        · exact ⟨rfl, Nat.zero_le 1⟩
      · exact absurd (.unknown hexpression hrender) hnot
  exact findings_eq_nil (fun e he => (hentry e he).1) htrouble fun e he => Nat.le_trans (hentry e he).2 (by decide)

end

theorem ofDatum_mapping : ofDatum (.mapping entries) = ofEntries entries := by
  unfold ofDatum
  split
  · rename_i hblank
    rw [List.isEmpty_iff.mp hblank]
  · rfl

/-- A document is accepted if and only if none of its entries offends, as the configuration that it describes. -/
theorem ofEntries_eq_ok_iff_not_offends (hdoc : IsDocument entries) :
    ofEntries entries = .ok c ↔ (∀ e ∈ entries, ¬ Offends e.1 e.2) ∧ Describes entries c := by
  rw [ofEntries_eq_ok_iff]
  refine and_congr_left fun _ => ⟨fun h e he hoff => ?_, findings_of_not_offends hdoc⟩
  obtain ⟨f, hf, -⟩ := ((findings_tell hdoc h).keys e.1).mpr ⟨e.2, he, hoff⟩
  cases hf

end RenderConfig

end DotGrid
