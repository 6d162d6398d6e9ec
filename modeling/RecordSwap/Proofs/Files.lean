import RecordSwap.ProjectFile
import RecordSwap.Proofs.Drafts

/-!
# From a file to its project

What a project takes over from the file that it is read from.

* `Row.withRates`, `RowEntry.textRates`: the rates of a row are those of the file that are printed.
* `RowEntry.toRow_eq_ok`, `RecordEntry.toRecord_eq_ok`, `ProjectFile.toDraft_eq_ok`: rows, records
  and drafts keep what the file says.
* `RecordEntry.declares`: whether a record of a file declares a member.
* `ProjectFile.emptyReports_eq`, `ProjectFile.names_perm`: each record of a file is either reported
  as empty or a record of the project, under its name.
-/

namespace RecordSwap

/-! ## Rows -/

namespace Row

/-- A row with the rates of some streams set one after the other. -/
def withRates (row : Row) (rates : List (String × String)) : Row :=
  rates.foldl (fun row (stream, rate) => row.withRate stream rate) row

/-- Setting rates changes nothing else. -/
theorem withRates_eq (row : Row) (rates : List (String × String)) :
    row.withRates rates = { row with rates := (row.withRates rates).rates } := by
  unfold withRates
  induction rates generalizing row with
  | nil => rfl
  | cons rate rates ih =>
    rw [List.foldl_cons, ih]
    rfl

end Row

namespace RowEntry

/-- The rates of a row that are printed: numbers, and texts that are not empty. -/
def textRates (e : RowEntry) : List (String × String) :=
  e.rates.filterMap fun (stream, rate) => rate.text?.map (stream, ·)

/-- The extents of the array that a row declares; a scalar has none. -/
def extents (e : RowEntry) : Except Violation (List Nat) :=
  match e.arraySize with
  | some size => size.extents
  | none => pure []

theorem foldl_rates (e : RowEntry) (row : Row) :
    e.rates.foldl (fun row (stream, rate) =>
      match rate.text? with
      | some text => row.withRate stream text
      | none => row) row = row.withRates e.textRates := by
  unfold Row.withRates textRates
  rw [List.foldl_filterMap]
  congr 1
  funext row rate
  obtain ⟨stream, rate⟩ := rate
  cases hrate : rate.text? <;> simp [hrate]

theorem toRow_eq (record : String) (e : RowEntry) :
    e.toRow record = e.extents.map fun extents => Row.withRates {
      owner := record, name := e.name, dataType := e.dataType, extents, bitLength := e.bitLength
      description := e.description, offset := e.offset } e.textRates := by
  unfold toRow extents
  cases e.arraySize with
  | none => exact congrArg Except.ok (e.foldl_rates _)
  | some size =>
    dsimp only
    cases size.extents with
    | error v => rfl
    | ok extents => exact congrArg Except.ok (e.foldl_rates _)

theorem toRow_eq_ok {owner : String} {e : RowEntry} {r : Row} (h : e.toRow owner = .ok r) :
    ∃ extents, e.extents = .ok extents ∧ r = Row.withRates {
      owner, name := e.name, dataType := e.dataType, extents, bitLength := e.bitLength
      description := e.description, offset := e.offset } e.textRates := by
  rw [toRow_eq] at h
  cases hread : e.extents with
  | error v =>
    rw [hread] at h
    cases h
  | ok extents =>
    rw [hread] at h
    cases h
    exact ⟨extents, rfl, rfl⟩

end RowEntry

/-! ## Records -/

/-- A record declares a member unless all its rows are array elements. -/
theorem Record.declared_isEmpty (s : Record) : s.declared.isEmpty = s.rows.all Row.isElement := by
  unfold declared
  induction s.rows with
  | nil => rfl
  | cons r rest ih =>
    rw [declaredAfter]
    cases hr : r.isElement <;> simp [hr, ih]

namespace RecordEntry

variable {e : RecordEntry} {s : Record}

/-- Whether a record of a file declares a member: not all its rows are array elements. -/
def declares (e : RecordEntry) : Bool :=
  e.rows.any fun r => !decide (r.name.toList.getLast? = some ']')

theorem toRecord_eq_ok (h : e.toRecord = .ok s) : ∃ rows,
    List.Forall₂ (fun entry row => RowEntry.toRow e.name entry = .ok row) e.rows rows ∧ s = {
      name := e.name, description := e.description, messageId := e.messageId, system := e.system
      rows } := by
  obtain ⟨rows, hrows, h⟩ := bind_eq_ok_iff.1 h
  cases h
  exact ⟨rows, forall₂_of_mapM hrows, rfl⟩

theorem name_of_toRecord (h : e.toRecord = .ok s) : s.name = e.name := by
  obtain ⟨rows, -, rfl⟩ := toRecord_eq_ok h
  rfl

theorem declares_of_toRecord (h : e.toRecord = .ok s) : e.declares = !s.declared.isEmpty := by
  obtain ⟨rows, hrows, rfl⟩ := toRecord_eq_ok h
  rw [Record.declared_isEmpty, declares]
  clear h
  generalize e.rows = entries at hrows ⊢
  induction hrows with
  | nil => rfl
  | cons hrow _ ih =>
    obtain ⟨extents, -, rfl⟩ := RowEntry.toRow_eq_ok hrow
    rw [Row.withRates_eq]
    simp [ih, Row.isElement]

/-- The records of a file and those made of them agree on which of them declare a member. -/
theorem filter_of_toRecord {entries : List RecordEntry} {records : List Record}
    (h : List.Forall₂ (fun e s => toRecord e = .ok s) entries records) :
    List.Forall₂ (fun e s => toRecord e = .ok s) (entries.filter declares)
        (records.filter (!·.declared.isEmpty)) ∧
      List.Forall₂ (fun e s => toRecord e = .ok s) (entries.filter (!·.declares))
        (records.filter (·.declared.isEmpty)) := by
  constructor
  · exact List.rel_filter (fun e s he => by simp [declares_of_toRecord he]) h
  · exact List.rel_filter (fun e s he => by simp [declares_of_toRecord he]) h

theorem names_of_toRecord {entries : List RecordEntry} {records : List Record}
    (h : List.Forall₂ (fun e s => toRecord e = .ok s) entries records) :
    (records.filter (!·.declared.isEmpty)).map Record.name =
        (entries.filter declares).map name ∧
      (records.filter (·.declared.isEmpty)).map Record.name =
        (entries.filter (!·.declares)).map name := by
  obtain ⟨hkept, hempty⟩ := filter_of_toRecord h
  exact ⟨map_eq_map_of_forall₂ (hkept.flip.imp fun _ _ he => name_of_toRecord he),
    map_eq_map_of_forall₂ (hempty.flip.imp fun _ _ he => name_of_toRecord he)⟩

end RecordEntry

/-! ## Files -/

namespace ProjectFile

variable {f : ProjectFile} {d : Draft} {p : Project}

theorem toProject_eq_ok (h : f.toProject = .ok p) :
    ∃ d, f.toDraft = .ok d ∧ d.build = .ok p := by
  obtain ⟨d, hd, h⟩ := bind_eq_ok_iff.1 h
  exact ⟨d, mapError_eq_ok.1 hd, mapError_eq_ok.1 h⟩

theorem toDraft_eq_ok (h : f.toDraft = .ok d) : ∃ records,
    List.Forall₂ (fun e s => RecordEntry.toRecord e = .ok s) f.records records ∧ d = {
      name := f.project, system := f.system, dataStreams := f.dataStreams, includes := f.includes
      groups := f.groups, types := f.types, records } := by
  obtain ⟨records, hrecords, h⟩ := bind_eq_ok_iff.1 h
  cases h
  exact ⟨records, forall₂_of_mapM hrecords, rfl⟩

/-- The records of a project have the names of those of its file that declare a member. -/
theorem names_perm (h : f.toDraft = .ok d) (hp : d.build = .ok p) :
    (p.records.map Record.name).Perm
      ((f.records.filter RecordEntry.declares).map RecordEntry.name) := by
  obtain ⟨records, hrecords, rfl⟩ := toDraft_eq_ok h
  rw [← (RecordEntry.names_of_toRecord hrecords).1]
  exact (Draft.records_perm hp).map Record.name

theorem exists_record_iff (h : f.toDraft = .ok d) (hp : d.build = .ok p) {name : String} :
    (∃ s ∈ p.records, s.name = name) ↔ ∃ e ∈ f.records, e.declares = true ∧ e.name = name := by
  simpa [and_assoc] using (names_perm h hp).mem_iff

theorem primitive?_eq (h : f.toDraft = .ok d) (hp : d.build = .ok p) (name : String) :
    p.types.primitive? name = f.types.primitive? name := by
  obtain ⟨records, -, rfl⟩ := toDraft_eq_ok h
  obtain ⟨-, placed, hplaced, -, htypes, -⟩ := Draft.build_eq_ok hp
  rw [TypeTable.primitive?, TypeTable.primitive?, htypes, (Placed.ofRecords_ok hplaced).1]

/-- The records that declare a member have distinct names, none of which is that of a type. -/
structure WellNamed (f : ProjectFile) : Prop where
  nodup : ((f.records.filter RecordEntry.declares).map RecordEntry.name).Nodup
  apart : ∀ e ∈ f.records, e.declares = true → f.types.primitive? e.name = none

instance (f : ProjectFile) : Decidable f.WellNamed :=
  decidable_of_iff (((f.records.filter RecordEntry.declares).map RecordEntry.name).Nodup ∧
    ∀ e ∈ f.records, e.declares = true → f.types.primitive? e.name = none)
    ⟨fun h => ⟨h.1, h.2⟩, fun h => ⟨h.1, h.2⟩⟩

/-- The names of a project are those of its file, as far as it declares members. -/
theorem wellNamed_iff (h : f.toDraft = .ok d) (hp : d.build = .ok p) :
    p.WellNamed ↔ f.WellNamed := by
  have hperm := names_perm h hp
  have hapart : (∀ s ∈ p.records, p.types.primitive? s.name = none) ↔
      ∀ e ∈ f.records, e.declares = true → f.types.primitive? e.name = none := by
    constructor
    · intro hall e he hd
      obtain ⟨s, hs, hname⟩ := (exists_record_iff h hp).2 ⟨e, he, hd, rfl⟩
      rw [← hname, ← primitive?_eq h hp]
      exact hall s hs
    · intro hall s hs
      obtain ⟨e, he, hd, hname⟩ := (exists_record_iff h hp).1 ⟨s, hs, rfl⟩
      rw [← hname, primitive?_eq h hp]
      exact hall e he hd
  exact ⟨fun hn => ⟨hperm.nodup_iff.1 hn.nodup, hapart.1 hn.apart⟩,
    fun hn => ⟨hperm.nodup_iff.2 hn.nodup, hapart.2 hn.apart⟩⟩

/-- The other records are reported as empty. -/
theorem emptyReports_eq (h : f.toDraft = .ok d) :
    d.emptyReports = (f.records.filter (!·.declares)).map fun e => ⟨e.name, "", .emptyRecord⟩ := by
  obtain ⟨records, hrecords, rfl⟩ := toDraft_eq_ok h
  have hnames := (RecordEntry.names_of_toRecord hrecords).2
  have hreports :=
    congrArg (List.map fun name : String => Diagnostic.mk name "" .emptyRecord) hnames
  rw [List.map_map, List.map_map] at hreports
  exact hreports

end ProjectFile

end RecordSwap
