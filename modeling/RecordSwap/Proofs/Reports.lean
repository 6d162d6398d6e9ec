import RecordSwap.Proofs.Calls
import RecordSwap.Proofs.Files

/-!
# Reports on members

Every member of a record has an entry in the plan of the record or a diagnostic, but for those whose
type is declared as a record that no record describes.

* `Placed.mem_diagnostics`, `Placed.exists_of_mem_diagnostics`: the reports on unknown types.
* `Project.entry?_cases`: a member has an entry, a report on its size or an unknown type, unless it
  is of a type that is a record by name only. Then it has none of them (`Project.entry?_omitted`).
* `ProjectFile.Omits`: the members of such a type.
* `Generator.Reports`: what is reported on the records of a file.
* `ProjectFile.members_reported`: the statement about files.
-/

namespace RecordSwap

/-! ## Unknown types -/

namespace TypeTable

theorem category?_eq_none {t : TypeTable} {name : String} :
    t.category? name = none ↔ t.sizeOf? name = none := by
  unfold category? sizeOf?
  cases t.primitive? name <;> simp

theorem sizeOf?_of_defineRecord {t : TypeTable} {name other : String} {size : Nat}
    (h : (t.defineRecord other size).sizeOf? name = none) : t.sizeOf? name = none := by
  by_cases hn : name = other
  · subst hn
    unfold sizeOf? at h
    rw [recordSize?_defineRecord_self] at h
    split at h <;> cases h
  · unfold sizeOf? at h
    rwa [recordSize?_defineRecord t size hn] at h

theorem records_insertAll (ps : List Primitive) (t : TypeTable) :
    (t.insertAll ps).records = t.records := by
  unfold insertAll
  induction ps generalizing t with
  | nil => rfl
  | cons p ps ih => exact ih (t.insert p)

end TypeTable

namespace Placed

theorem sizeOf?_eq_none {types : TypeTable} {records : List Record} {placed : Placed}
    (h : ofRecords types records = .ok placed) {name : String}
    (hnone : placed.types.sizeOf? name = none) : types.sizeOf? name = none := by
  induction records generalizing types placed with
  | nil =>
    cases h
    exact hnone
  | cons s rest ih =>
    obtain ⟨placement, inner, -, -, hinner, rfl⟩ := exists_of_cons h
    exact TypeTable.sizeOf?_of_defineRecord (ih hinner hnone)

/-- A member whose type stays unknown is reported. -/
theorem mem_diagnostics {types : TypeTable} {records : List Record} {placed : Placed}
    (h : ofRecords types records = .ok placed) {s : Record} (hs : s ∈ records) {r : Row}
    (hr : r ∈ s.declared) (hnone : placed.types.sizeOf? r.dataType = none) :
    ⟨s.name, r.name, .unknownType r.dataType⟩ ∈ placed.diagnostics := by
  induction records generalizing types placed with
  | nil => cases hs
  | cons t rest ih =>
    have htypes := sizeOf?_eq_none h hnone
    obtain ⟨placement, inner, -, -, hinner, rfl⟩ := exists_of_cons h
    rcases List.mem_cons.1 hs with rfl | hs
    · exact List.mem_append_left _ (List.mem_filterMap.2 ⟨r, hr, by rw [htypes]⟩)
    · exact List.mem_append_right _ (ih hinner hs hnone)

theorem exists_of_mem_diagnostics {types : TypeTable} {records : List Record} {placed : Placed}
    (h : ofRecords types records = .ok placed) {d : Diagnostic} (hd : d ∈ placed.diagnostics) :
    ∃ s ∈ records, ∃ r ∈ s.declared, types.primitive? r.dataType = none ∧
      d = ⟨s.name, r.name, .unknownType r.dataType⟩ := by
  induction records generalizing types placed with
  | nil =>
    cases h
    cases hd
  | cons s rest ih =>
    obtain ⟨placement, inner, -, -, hinner, rfl⟩ := exists_of_cons h
    rcases List.mem_append.1 hd with hd | hd
    · obtain ⟨r, hr, hd⟩ := List.mem_filterMap.1 hd
      refine ⟨s, .head _, r, hr, ?_⟩
      unfold TypeTable.sizeOf? at hd
      cases hp : types.primitive? r.dataType with
      | some p => simp [hp] at hd
      | none =>
        rw [hp] at hd
        cases hsize : types.recordSize? r.dataType <;> simp [hsize] at hd
        exact ⟨rfl, hd.symm⟩
    · obtain ⟨t, ht, r, hr, hp, hd⟩ := ih hinner hd
      exact ⟨t, .tail _ ht, r, hr, hp, hd⟩

theorem anomaly_ne_emptyRecord {types : TypeTable} {records : List Record} {placed : Placed}
    (h : ofRecords types records = .ok placed) {d : Diagnostic} (hd : d ∈ placed.diagnostics) :
    d.anomaly ≠ .emptyRecord := by
  obtain ⟨s, -, r, -, -, rfl⟩ := exists_of_mem_diagnostics h hd
  simp

end Placed

/-! ## Entries and reports -/

namespace Project

variable {p : Project} {f : FieldLayout} {record : String}

theorem unswapped?_eq_some {d : Diagnostic} (h : p.unswapped? record f = some d) :
    d = ⟨record, f.name, .unrecognizedTypeSize f.dataType f.elementSize⟩ := by
  unfold unswapped? at h
  split at h
  · cases h
  · split at h
    · cases h
    · cases h
    · split at h <;> cases h
      rfl

/-- What becomes of a member. -/
theorem entry?_cases (p : Project) (record : String) (f : FieldLayout) :
    (∃ e, p.entry? f = some e) ∨
      p.unswapped? record f =
        some ⟨record, f.name, .unrecognizedTypeSize f.dataType f.elementSize⟩ ∨
      p.types.sizeOf? f.dataType = none ∨
      f.bitLength = none ∧ p.types.isRecord f.dataType = true ∧ p.index? f.dataType = none := by
  cases hb : f.bitLength with
  | some bits => exact .inl ⟨_, entry?_eq_some (strategy?_bitField hb)⟩
  | none =>
    cases ht : p.embedded? f with
    | some target => exact .inl ⟨_, entry?_eq_some (strategy?_nested hb ht)⟩
    | none =>
      cases hc : p.types.category? f.dataType with
      | none => exact .inr (.inr (.inl (TypeTable.category?_eq_none.1 hc)))
      | some category =>
        cases hs : Strategy.select? category f.elementSize with
        | some strategy =>
          have hstrategy : p.strategy? f = some strategy := by
            rw [strategy?_scalar hb ht, hc, Option.bind_some, hs]
          exact .inl ⟨_, entry?_eq_some hstrategy⟩
        | none =>
          by_cases hrecord : category = .record
          · subst hrecord
            have hname : p.types.isRecord f.dataType = true := by simp [TypeTable.isRecord, hc]
            rw [embedded?, if_pos hname] at ht
            exact .inr (.inr (.inr ⟨rfl, hname, ht⟩))
          · refine .inr (.inl ?_)
            unfold unswapped?
            rw [hb, hc]
            cases category <;> simp_all

/-- A member of a type that is a record by name only has neither an entry nor a report. -/
theorem entry?_omitted (record : String) (hb : f.bitLength = none)
    (hr : p.types.isRecord f.dataType = true) (hi : p.index? f.dataType = none) :
    p.entry? f = none ∧ p.unswapped? record f = none := by
  have hc : p.types.category? f.dataType = some .record := by simpa [TypeTable.isRecord] using hr
  have ht : p.embedded? f = none := by rw [embedded?, if_pos hr, hi]
  constructor
  · refine Option.map_eq_none_iff.2 ?_
    rw [strategy?_scalar hb ht, hc, Option.bind_some, select?_record]
  · rw [unswapped?, hb, hc]
    rfl

end Project

theorem Project.mem_diagnostics_planned {p : Project} {layouts : List Layout} {x : Diagnostic} :
    x ∈ (p.planned layouts).diagnostics ↔
      ∃ l ∈ layouts, ∃ f ∈ l.fields, p.unswapped? l.name f = some x := by
  simp [planned]

theorem Project.anomaly_ne_emptyRecord {p : Project} {layouts : List Layout} {x : Diagnostic}
    (hx : x ∈ (p.planned layouts).diagnostics) : x.anomaly ≠ .emptyRecord := by
  obtain ⟨l, -, f, -, hx⟩ := mem_diagnostics_planned.1 hx
  obtain rfl := unswapped?_eq_some hx
  simp

/-- A member of a known type that is not a record by name only has an entry or is reported. -/
theorem Draft.entry_or_report {d : Draft} {p : Project} {layouts : List Layout}
    (h : d.build = .ok p) (hp : p.Plannable layouts) {i : Nat} {s : Record} {l : Layout}
    (hs : p.records[i]? = some s) (hl : layouts[i]? = some l) {r : Row} (hr : r ∈ s.declared)
    (hrecord : ¬ (r.bitField? = none ∧ p.types.isRecord r.dataType = true ∧
      p.index? r.dataType = none)) :
    (∃ e ∈ (p.swapPlan i l).entries, e.name = r.name) ∨
      ∃ x ∈ p.diagnostics ++ (p.planned layouts).diagnostics,
        x.record = s.name ∧ x.member = r.name := by
  obtain ⟨_, slots, hs', hread⟩ := hp.reads_of hl
  obtain rfl := Option.some.inj (hs.symm.trans hs')
  obtain ⟨f, hf, hname, htype, -, hbits⟩ := hread.exists_field hr
  rcases p.entry?_cases l.name f with ⟨e, he⟩ | hsize | hunknown | homitted
  · exact .inl ⟨e, List.mem_filterMap.2 ⟨f, hf, he⟩, (Project.entry?_name he).trans hname⟩
  · refine .inr ⟨_, List.mem_append_right _ (Project.mem_diagnostics_planned.2
      ⟨l, List.mem_of_getElem? hl, f, hf, hsize⟩), hread.name, hname⟩
  · obtain ⟨-, placed, hplaced, -, htypes, hdiagnostics⟩ := build_eq_ok h
    rw [htypes, htype] at hunknown
    have hx := Placed.mem_diagnostics hplaced (List.mem_of_getElem? hs) hr hunknown
    rw [hdiagnostics]
    exact .inr ⟨_, List.mem_append_left _ (List.mem_append_right _ hx), rfl, rfl⟩
  · rw [hbits, htype] at homitted
    exact absurd homitted hrecord

/-! ## Names -/

theorem filter_eq_singleton {α : Type} {key : α → String} {l : List α} (hd : (l.map key).Nodup)
    {x : α} (hx : x ∈ l) : l.filter (fun y => key y = key x) = [x] := by
  induction l with
  | nil => cases hx
  | cons y l ih =>
    obtain ⟨hy, hd⟩ := List.nodup_cons.1 hd
    rcases List.mem_cons.1 hx with rfl | hx
    · have hrest : l.filter (fun y => key y = key x) = [] := by
        rw [List.filter_eq_nil_iff]
        intro z hz heq
        exact hy (List.mem_map.2 ⟨z, hz, by simpa using heq⟩)
      simp [hrest]
    · have hne : key y ≠ key x := fun heq => hy (List.mem_map.2 ⟨x, hx, heq.symm⟩)
      simp [hne, ih hd hx]

namespace ProjectFile

variable {f : ProjectFile} {d : Draft} {p : Project}

/-- A member, not a bit-field, whose type is declared as a record although no record of that name
declares a member. -/
def Omits (f : ProjectFile) (r : Row) : Prop :=
  r.bitField? = none ∧ (∃ t, f.types.primitive? r.dataType = some t ∧ t.category = .record) ∧
    ∀ e ∈ f.records, e.declares = true → e.name ≠ r.dataType

theorem index?_eq_none_iff (h : f.toDraft = .ok d) (hp : d.build = .ok p) {name : String} :
    p.index? name = none ↔ ∀ e ∈ f.records, e.declares = true → e.name ≠ name := by
  have hnames := not_congr (@exists_record_iff f d p h hp name)
  simpa [Project.index?] using hnames

/-- Only records of the project have sizes in its type table. -/
theorem recordSize?_eq_none (h : f.toDraft = .ok d) (hp : d.build = .ok p) {name : String}
    (hn : p.index? name = none) : p.types.recordSize? name = none := by
  obtain ⟨records, -, rfl⟩ := toDraft_eq_ok h
  obtain ⟨-, placed, hplaced, -, htypes, -⟩ := Draft.build_eq_ok hp
  rw [htypes, (Placed.ofRecords_ok hplaced).2.1 name (Project.index?_eq_none.1 hn),
    TypeTable.recordSize?, types, TypeTable.records_insertAll]
  rfl

theorem omits_iff (h : f.toDraft = .ok d) (hp : d.build = .ok p) {r : Row} :
    f.Omits r ↔ r.bitField? = none ∧ p.types.isRecord r.dataType = true ∧
      p.index? r.dataType = none := by
  rw [Omits, ← index?_eq_none_iff h hp]
  refine and_congr_right fun _ => and_congr_left fun hnone => ?_
  rw [TypeTable.isRecord, TypeTable.category?, primitive?_eq h hp, recordSize?_eq_none h hp hnone]
  cases f.types.primitive? r.dataType <;> simp

/-- A record without a member is reported once, whatever else is reported. -/
theorem filter_emptyReports (h : f.toDraft = .ok d)
    (hn : (f.records.map RecordEntry.name).Nodup) {e : RecordEntry} (he : e ∈ f.records)
    (hd : e.declares = false) {others : List Diagnostic}
    (hothers : ∀ x ∈ others, x.anomaly ≠ .emptyRecord) :
    (d.emptyReports ++ others).filter (fun x => x.record = e.name ∧ x.anomaly = .emptyRecord) =
      [⟨e.name, "", .emptyRecord⟩] := by
  have hempty : (f.records.filter (!·.declares)).filter (fun y => y.name = e.name) = [e] :=
    filter_eq_singleton (hn.sublist (List.filter_sublist.map _))
      (List.mem_filter.2 ⟨he, by simp [hd]⟩)
  have hrest : others.filter (fun x => x.record = e.name ∧ x.anomaly = .emptyRecord) = [] := by
    rw [List.filter_eq_nil_iff]
    intro x hx
    simp [hothers x hx]
  rw [List.filter_append, hrest, List.append_nil, emptyReports_eq h, List.filter_map]
  simpa [Function.comp_def] using congrArg (List.map fun y : RecordEntry =>
    Diagnostic.mk y.name "" .emptyRecord) hempty

theorem nodup_names (h : f.toDraft = .ok d) (hp : d.build = .ok p)
    (hn : (f.records.map RecordEntry.name).Nodup) : (p.records.map Record.name).Nodup :=
  (names_perm h hp).nodup_iff.2 (hn.sublist (List.filter_sublist.map _))

theorem emptyReports_apart (h : f.toDraft = .ok d) (hp : d.build = .ok p)
    (hn : (f.records.map RecordEntry.name).Nodup) {s : Record} (hs : s ∈ p.records) :
    ∀ x ∈ d.emptyReports, x.record ≠ s.name := by
  intro x hx hname
  rw [emptyReports_eq h] at hx
  obtain ⟨e, he, rfl⟩ := List.mem_map.1 hx
  obtain ⟨he, hempty⟩ := List.mem_filter.1 he
  obtain ⟨e', he', hdeclares, hname'⟩ := (exists_record_iff h hp).1 ⟨s, hs, rfl⟩
  rw [List.inj_on_of_nodup_map hn he he' (hname.trans hname'.symm), hdeclares] at hempty
  cases hempty

/-- A member of a type that is a record by name only is named nowhere. -/
theorem omitted (h : f.toDraft = .ok d) (hp : d.build = .ok p)
    (hn : (f.records.map RecordEntry.name).Nodup) {layouts : List Layout}
    (hlayouts : p.Plannable layouts) {i : Nat} {s : Record} {l : Layout}
    (hs : p.records[i]? = some s) (hl : layouts[i]? = some l) {r : Row} (hr : r ∈ s.declared)
    (homits : f.Omits r) :
    (∀ e ∈ (p.swapPlan i l).entries, e.name ≠ r.name) ∧
      ∀ x ∈ p.diagnostics ++ (p.planned layouts).diagnostics,
        ¬ (x.record = s.name ∧ x.member = r.name) := by
  have hnames := nodup_names h hp hn
  obtain ⟨hb, hrecord, hindex⟩ := (omits_iff h hp).1 homits
  obtain ⟨_, slots, hs', hread⟩ := hlayouts.reads_of hl
  obtain rfl := Option.some.inj (hs.symm.trans hs')
  obtain ⟨f', hf, hname, htype, -, hbits⟩ := hread.exists_field hr
  obtain ⟨hentry, hsize⟩ := Project.entry?_omitted l.name (hbits.trans hb)
    (htype ▸ hrecord) (htype ▸ hindex)
  constructor
  · intro e he hne
    have he := (Project.mem_entries_iff p i hread.nodup_names hf).1 ⟨he, hne.trans hname.symm⟩
    rw [hentry] at he
    cases he
  · rintro x hx ⟨hxs, hxr⟩
    obtain ⟨-, placed, hplaced, -, -, hdiagnostics⟩ := Draft.build_eq_ok hp
    rw [hdiagnostics, List.append_assoc, List.mem_append, List.mem_append] at hx
    rcases hx with hx | hx | hx
    · exact emptyReports_apart h hp hn (List.mem_of_getElem? hs) x hx hxs
    · -- the type of a reported member is no primitive
      obtain ⟨t, ht, q, hq, hprimitive, rfl⟩ := Placed.exists_of_mem_diagnostics hplaced hx
      obtain rfl := List.inj_on_of_nodup_map hnames ht (List.mem_of_getElem? hs) hxs
      obtain rfl := List.inj_on_of_nodup_map t.declared_nodup hq hr hxr
      obtain ⟨-, ⟨q, hq, -⟩, -⟩ := homits
      obtain ⟨records, -, rfl⟩ := toDraft_eq_ok h
      cases hprimitive.symm.trans hq
    · -- a report on a size is on a member of this layout, hence on this member
      obtain ⟨k, hk, g, hg, hx⟩ := Project.mem_diagnostics_planned.1 hx
      obtain rfl := Project.unswapped?_eq_some hx
      obtain ⟨j, hj⟩ := List.mem_iff_getElem?.1 hk
      obtain ⟨t, slots', ht, hread'⟩ := hlayouts.reads_of hj
      obtain rfl := Record.index_unique hnames ht hs (hread'.name.symm.trans hxs)
      obtain rfl := Option.some.inj (hl.symm.trans hj)
      obtain rfl := List.inj_on_of_nodup_map hread.nodup_names hg hf (hxr.trans hname.symm)
      rw [hsize] at hx
      cases hx

end ProjectFile

/-- What is generated for a file accounts for all its members and records: a plan has at most one
entry for each member, in their order, and a member has an entry or a diagnostic that names it
unless its type is a record by name only; a record without a member has one diagnostic. -/
structure Generator.AccountsFor (g : Generator) (f : ProjectFile) : Prop where
  length : g.plans.swaps.length = g.project.records.length
  nodup : ∀ plan ∈ g.plans.swaps, (plan.entries.map SwapEntry.name).Nodup
  inOrder : ∀ {i : Nat} {s : Record} {plan : SwapPlan}, g.project.records[i]? = some s →
    g.plans.swaps[i]? = some plan →
    (plan.entries.map SwapEntry.name).Sublist (s.declared.map Row.name)
  named : ∀ {i : Nat} {s : Record} {plan : SwapPlan}, g.project.records[i]? = some s →
    g.plans.swaps[i]? = some plan → ∀ r ∈ s.declared,
    ((∃ e ∈ plan.entries, e.name = r.name) ∨
      ∃ x ∈ g.diagnostics, x.record = s.name ∧ x.member = r.name) ↔ ¬ f.Omits r
  empty : ∀ e ∈ f.records, e.declares = false →
    g.diagnostics.filter (fun x => x.record = e.name ∧ x.anomaly = .emptyRecord) =
      [⟨e.name, "", .emptyRecord⟩]

namespace ProjectFile

variable {f : ProjectFile} {d : Draft} {p : Project}

theorem accountsFor (h : f.toDraft = .ok d) (hp : d.build = .ok p)
    (hn : (f.records.map RecordEntry.name).Nodup) {layouts : List Layout}
    (hlayouts : p.Plannable layouts) (options : Options) :
    Generator.AccountsFor ⟨p, options, layouts, p.planned layouts⟩ f where
  length := by
    have hlength := hlayouts.reads.length_eq
    simp [Project.planned, hlength]
  nodup plan hplan := by
    obtain ⟨i, hi⟩ := List.mem_iff_getElem?.1 hplan
    have hlt : i < p.records.length := by
      have hlength := (List.getElem?_eq_some_iff.1 hi).1
      simpa [Project.planned, hlayouts.reads.length_eq] using hlength
    exact (Record.declared_nodup _).sublist (hlayouts.inOrder (List.getElem?_eq_getElem hlt) hi)
  inOrder := hlayouts.inOrder
  named {i s plan} hs hi r hr := by
    obtain ⟨l, slots, hl, hread, rfl⟩ := hlayouts.exists_layout hs hi
    constructor
    · rintro hnamed homits
      obtain ⟨hentries, hreports⟩ := omitted h hp hn hlayouts hs hl hr homits
      rcases hnamed with ⟨e, he, hname⟩ | ⟨x, hx, hname⟩
      · exact hentries e he hname
      · exact hreports x hx hname
    · intro homits
      rw [omits_iff h hp] at homits
      exact Draft.entry_or_report hp hlayouts hs hl hr homits
  empty e he hempty := by
    obtain ⟨-, placed, hplaced, -, -, hdiagnostics⟩ := Draft.build_eq_ok hp
    rw [Generator.diagnostics, hdiagnostics, List.append_assoc]
    refine filter_emptyReports h hn he hempty fun x hx => ?_
    rcases List.mem_append.1 hx with hx | hx
    · exact Placed.anomaly_ne_emptyRecord hplaced hx
    · exact Project.anomaly_ne_emptyRecord hx

/-- **Reports.** If the records of a file have distinct names and make up a project, then what is
generated for the project accounts for the members and the records of the file. A record without a
member is reported even if there is nothing to generate. -/
theorem members_reported (h : f.toProject = .ok p)
    (hn : (f.records.map RecordEntry.name).Nodup) (options : Options) :
    (∀ e ∈ f.records, e.declares = false →
      p.diagnostics.filter (fun x => x.record = e.name ∧ x.anomaly = .emptyRecord) =
        [⟨e.name, "", .emptyRecord⟩]) ∧
      (p.records ≠ [] → ∃ g, Generator.ofProject p options = .ok g ∧ g.AccountsFor f) := by
  obtain ⟨d, hd, hp⟩ := toProject_eq_ok h
  constructor
  · intro e he hempty
    obtain ⟨-, placed, hplaced, -, -, hdiagnostics⟩ := Draft.build_eq_ok hp
    rw [hdiagnostics]
    exact filter_emptyReports hd hn he hempty fun x hx => Placed.anomaly_ne_emptyRecord hplaced hx
  · intro hne
    obtain ⟨layouts, hlayouts, hall⟩ := Draft.exists_layouts hp (nodup_names hd hp hn)
    have hplannable := Draft.plannable hp (hall.imp fun _ _ hof => hof.reads)
    have hg := Generator.ofProject_eq options hlayouts hplannable.ofLayouts_eq
    rw [if_neg hne] at hg
    exact ⟨_, hg, accountsFor hd hp hn hplannable options⟩

end ProjectFile

namespace Sample

/-- A file with a member of each kind: words of a known and of an unknown size, a member of unknown
type, one of a type that is a record by name only, a bit-field; and a record without a member. -/
def log : ProjectFile where
  dataTypes := [⟨"uint24", "unsigned int", 3, .unsignedInteger⟩, ⟨"blob", "blob_t", 4, .record⟩]
  records := [
    { name := "Log", rows := [
      { name := "tick", dataType := "uint16" },
      { name := "mask", dataType := "uint24" },
      { name := "link", dataType := "Page" },
      { name := "data", dataType := "blob" },
      { name := "mode", dataType := "uint8", bitLength := some 3 }] },
    { name := "Page", rows := [{ name := "word[0]", dataType := "uint16" }] }]

/-- The project that is read from it. -/
def logProject : Project where
  name := "typeswap"
  system := none
  dataStreams := []
  includes := []
  groups := []
  records := [
    { name := "Log", rows := [
      { owner := "Log", name := "tick", dataType := "uint16" },
      { owner := "Log", name := "mask", dataType := "uint24" },
      { owner := "Log", name := "link", dataType := "Page" },
      { owner := "Log", name := "data", dataType := "blob" },
      { owner := "Log", name := "mode", dataType := "uint8", bitLength := some 3 }] }]
  placements := [⟨[("tick", 0), ("mask", 2), ("link", 5), ("data", 5), ("mode", 9)], 10⟩]
  types := log.types.defineRecord "Log" 10
  diagnostics := [⟨"Page", "", .emptyRecord⟩, ⟨"Log", "link", .unknownType "Page"⟩]

theorem log_toProject : log.toProject = .ok logProject := by decide +kernel

end Sample

/-- Two members have entries, two are reported, and one has neither an entry nor a diagnostic. -/
theorem ProjectFile.members_reported_sample :
    Sample.log.toProject = .ok Sample.logProject ∧ ∃ g,
      Generator.ofProject Sample.logProject {} = .ok g ∧ g.AccountsFor Sample.log ∧
      g.plans.swaps.map (fun plan => plan.entries.map SwapEntry.name) = [["tick", "mode"]] ∧
      g.diagnostics = [⟨"Page", "", .emptyRecord⟩, ⟨"Log", "link", .unknownType "Page"⟩,
        ⟨"Log", "mask", .unrecognizedTypeSize "uint24" 3⟩] := by
  obtain ⟨g, hg, haccounts⟩ := (members_reported Sample.log_toProject (by decide) {}).2 (by decide)
  have hresult : (Generator.ofProject Sample.logProject {}).toOption.map (fun g =>
      (g.plans.swaps.map (fun plan => plan.entries.map SwapEntry.name), g.diagnostics)) =
        some ([["tick", "mode"]], [⟨"Page", "", .emptyRecord⟩,
          ⟨"Log", "link", .unknownType "Page"⟩,
          ⟨"Log", "mask", .unrecognizedTypeSize "uint24" 3⟩]) := by decide +kernel
  rw [hg] at hresult
  obtain ⟨hentries, hdiagnostics⟩ := Prod.mk.inj (Option.some.inj hresult)
  exact ⟨Sample.log_toProject, g, hg, haccounts, hentries, hdiagnostics⟩

/-- The member `data` of an accepted file is named neither by an entry nor by a diagnostic. -/
theorem ProjectFile.member_unreported :
    Sample.log.validate = .ok () ∧ (Sample.log.records.map RecordEntry.name).Nodup ∧
      Sample.log.toProject = .ok Sample.logProject ∧
      (∃ s ∈ Sample.logProject.records, ∃ r ∈ s.declared, s.name = "Log" ∧ r.name = "data") ∧
      ∃ g, Generator.ofProject Sample.logProject {} = .ok g ∧
        (∀ plan ∈ g.plans.swaps, ∀ e ∈ plan.entries, e.name ≠ "data") ∧
        ∀ x ∈ g.diagnostics, x.member ≠ "data" := by
  have hunnamed : ∃ g ∈ (Generator.ofProject Sample.logProject {}).toOption,
      (∀ plan ∈ g.plans.swaps, ∀ e ∈ plan.entries, e.name ≠ "data") ∧
        ∀ x ∈ g.diagnostics, x.member ≠ "data" := by decide +kernel
  obtain ⟨g, hg, hentries, hdiagnostics⟩ := hunnamed
  cases hresult : Generator.ofProject Sample.logProject {} with
  | error e =>
    rw [hresult] at hg
    cases hg
  | ok g' =>
    rw [hresult] at hg
    cases hg
    exact ⟨by decide +kernel, by decide, Sample.log_toProject, by decide, g, rfl, hentries,
      hdiagnostics⟩

end RecordSwap
