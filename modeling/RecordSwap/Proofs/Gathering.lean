import RecordSwap.Proofs.Reports

/-!
# From rows to records

Building a project neither loses nor repeats a row. Each flat row goes to the first record of its
owner's name, or to a new record for all rows of that name.

* `Record.rowsOf`, `Record.gain`, `Record.described`: the rows of a name, a record with those of its
  own, and the record that rows describe by themselves.
* `Record.handOut`, `Record.newNames`: what becomes of records that are there, and which ones are
  new. Both make up the records of a draft (`Record.addRows_eq`).
* `Record.merge`: a record whose rows go to another one of its name. Rows can be gathered first and
  merged then (`Record.addRows_eq_merge`).
* `Record.ownRows`: rows with the names of their records (`Record.addRows_perm`).
* `Draft.build_conserves`: the statement about drafts.
-/

namespace RecordSwap

namespace Record

/-! ## Rows by their owners -/

/-- The rows that belong to the record of a name. -/
def rowsOf (name : String) (rows : List Row) : List Row := rows.filter (·.owner = name)

/-- The record with the rows of its name behind its own. -/
def gain (rows : List Row) (s : Record) : Record := { s with rows := s.rows ++ rowsOf s.name rows }

/-- The record that the rows of a name describe. -/
def described (rows : List Row) (name : String) : Record := { name, rows := rowsOf name rows }

/-- The names that rows go by and that no record bears, in the order of their first rows. -/
def newNames (records : List Record) (rows : List Row) : List String :=
  ((rows.map Row.owner).filter (· ∉ records.map name)).eraseDups

/-- The records, of which the first one of each name gets the rows of that name. -/
def handOut (records : List Record) (rows : List Row) : List Record :=
  records.mapIdx fun i s =>
    if records.findIdx? (·.name = s.name) = some i then s.gain rows else s

theorem gain_eq_self {rows : List Row} {s : Record} (h : rowsOf s.name rows = []) :
    s.gain rows = s := by
  simp [gain, h]

@[simp] theorem gain_nil (s : Record) : s.gain [] = s := gain_eq_self rfl

@[simp] theorem rowsOf_cons_self (r : Row) (rows : List Row) :
    rowsOf r.owner (r :: rows) = r :: rowsOf r.owner rows := by
  simp [rowsOf]

theorem rowsOf_cons_ne {r : Row} {name : String} (h : r.owner ≠ name) (rows : List Row) :
    rowsOf name (r :: rows) = rowsOf name rows := by
  simp [rowsOf, h]

/-- Without the rows of one name, those of the others are the same. -/
theorem rowsOf_filter_ne {name other : String} (h : name ≠ other) (rows : List Row) :
    rowsOf name (rows.filter (·.owner ≠ other)) = rowsOf name rows := by
  unfold rowsOf
  rw [List.filter_filter]
  refine List.filter_congr fun r _ => ?_
  by_cases hr : r.owner = name
  · simp [hr, h]
  · simp [hr]

theorem rowsOf_filter_self (name : String) (rows : List Row) :
    rowsOf name (rows.filter (·.owner ≠ name)) = [] := by
  simp [rowsOf]

/-! ## Records one after the other -/

/-- The first record takes its rows out of the rows, and the others go on with the rest. -/
theorem addRows_cons (s : Record) (rest : List Record) (rows : List Row) :
    addRows (s :: rest) rows = s.gain rows :: addRows rest (rows.filter (·.owner ≠ s.name)) := by
  induction rows generalizing s rest with
  | nil => simp [addRows]
  | cons r rows ih =>
    change addRows (addRow r (s :: rest)) rows = _
    rw [addRow]
    split
    · next h =>
      rw [ih]
      simp [gain, rowsOf, h]
    · next h =>
      have hr : r.owner ≠ s.name := Ne.symm h
      rw [ih, gain, ← rowsOf_cons_ne hr, List.filter_cons_of_pos (by simpa using hr)]
      rfl

theorem gather_cons (r : Row) (rows : List Row) :
    gather (r :: rows) =
      described (r :: rows) r.owner :: gather (rows.filter (·.owner ≠ r.owner)) := by
  change addRows [{ name := r.owner, rows := [r] }] rows = _
  rw [addRows_cons]
  simp [gain, described, gather]

/-- An induction that takes away the rows of one name after the other. -/
theorem rows_induction {P : List Row → Prop} (nil : P [])
    (cons : ∀ r rows, P (rows.filter (·.owner ≠ r.owner)) → P (r :: rows)) (rows : List Row) :
    P rows := by
  induction hn : rows.length using Nat.strongRecOn generalizing rows with
  | ind n ih =>
    cases rows with
    | nil => exact nil
    | cons r rows =>
      have hle := List.length_filter_le (fun x : Row => decide (x.owner ≠ r.owner)) rows
      refine cons r rows (ih _ ?_ _ rfl)
      rw [← hn, List.length_cons]
      omega

/-- Gathered rows: one record for each name, in the order of their first rows. -/
theorem gather_eq (rows : List Row) :
    gather rows = (rows.map Row.owner).eraseDups.map (described rows) := by
  induction rows using rows_induction with
  | nil => rfl
  | cons r rows ih =>
    have hnames : (rows.map Row.owner).filter (fun name => !name == r.owner) =
        (rows.filter (·.owner ≠ r.owner)).map Row.owner := by
      rw [List.filter_map]
      congr 1
      refine List.filter_congr fun x _ => ?_
      by_cases h : x.owner = r.owner <;> simp [h]
    rw [gather_cons, ih, List.map_cons, List.eraseDups_cons, List.map_cons, hnames]
    congr 1
    refine List.map_congr_left fun name hname => ?_
    have hne : name ≠ r.owner := by
      obtain ⟨x, hx, rfl⟩ := List.mem_map.1 (List.mem_eraseDups.1 hname)
      simpa using (List.mem_filter.1 hx).2
    rw [described, described, rowsOf_filter_ne hne, rowsOf_cons_ne (Ne.symm hne)]

theorem findIdx?_cons_eq {s t : Record} {rest : List Record} {i : Nat} :
    (s :: rest).findIdx? (·.name = t.name) = some (i + 1) ↔
      s.name ≠ t.name ∧ rest.findIdx? (·.name = t.name) = some i := by
  rw [List.findIdx?_cons]
  by_cases h : s.name = t.name <;> simp [h]

theorem handOut_cons (s : Record) (rest : List Record) (rows : List Row) :
    handOut (s :: rest) rows = s.gain rows :: handOut rest (rows.filter (·.owner ≠ s.name)) := by
  unfold handOut
  rw [List.mapIdx_cons, List.findIdx?_cons, if_pos (by simp)]
  congr 1
  refine List.mapIdx_eq_mapIdx_iff.2 fun i hi => ?_
  by_cases hname : rest[i].name = s.name
  · -- a later record of the name of `s` finds no row left
    have hlater : ¬ (s :: rest).findIdx? (·.name = rest[i].name) = some (i + 1) := fun h =>
      (findIdx?_cons_eq.1 h).1 hname.symm
    have hself : rest[i].gain (rows.filter (·.owner ≠ s.name)) = rest[i] :=
      gain_eq_self (hname ▸ rowsOf_filter_self s.name rows)
    rw [if_neg hlater, hself, ite_self]
  · have hiff : (s :: rest).findIdx? (·.name = rest[i].name) = some (i + 1) ↔
        rest.findIdx? (·.name = rest[i].name) = some i := by
      rw [findIdx?_cons_eq, and_iff_right (Ne.symm hname)]
    rw [gain, gain, rowsOf_filter_ne hname]
    simp only [hiff]

theorem newNames_cons (s : Record) (rest : List Record) (rows : List Row) :
    newNames (s :: rest) rows = newNames rest (rows.filter (·.owner ≠ s.name)) := by
  unfold newNames
  congr 1
  rw [List.filter_map, List.filter_map, List.filter_filter]
  congr 1
  refine List.filter_congr fun r _ => ?_
  by_cases h : r.owner = s.name <;> simp [h]

/-- **The records that rows are added to.** Each row stands behind the rows of the first record of
its owner's name, or in a new record for its name. -/
theorem addRows_eq (records : List Record) (rows : List Row) :
    addRows records rows =
      handOut records rows ++ (newNames records rows).map (described rows) := by
  induction records generalizing rows with
  | nil =>
    have hall : (rows.map Row.owner).filter (· ∉ ([] : List Record).map name) =
        rows.map Row.owner := by simp
    rw [newNames, hall]
    exact gather_eq rows
  | cons s rest ih =>
    rw [addRows_cons, handOut_cons, newNames_cons, ih, List.cons_append]
    congr 2
    refine List.map_congr_left fun n hn => ?_
    have hne : n ≠ s.name := by
      obtain ⟨r, hr, rfl⟩ := List.mem_map.1 (List.mem_filter.1 (List.mem_eraseDups.1 hn)).1
      simpa using (List.mem_filter.1 hr).2
    rw [described, described, rowsOf_filter_ne hne]

/-! ## Gathering first, merging then -/

/-- Appends the rows of a record to the first record of its name. If there is none, the record
itself comes last. -/
def merge (group : Record) : List Record → List Record
  | [] => [group]
  | s :: rest =>
    if s.name = group.name then { s with rows := s.rows ++ group.rows } :: rest
    else s :: merge group rest

/-- Merges records one after the other. -/
def mergeAll (records groups : List Record) : List Record :=
  groups.foldl (fun records group => merge group records) records

theorem mergeAll_cons (s : Record) (rest groups : List Record) :
    mergeAll (s :: rest) groups =
      { s with rows := s.rows ++ (groups.filter (·.name = s.name)).flatMap Record.rows } ::
        mergeAll rest (groups.filter (·.name ≠ s.name)) := by
  induction groups generalizing s rest with
  | nil => simp [mergeAll]
  | cons group groups ih =>
    change mergeAll (merge group (s :: rest)) groups = _
    rw [merge]
    split
    · next h => simp [ih, h]
    · next h =>
      have hne : group.name ≠ s.name := Ne.symm h
      rw [ih, List.filter_cons_of_neg (by simpa using hne),
        List.filter_cons_of_pos (by simpa using hne)]
      rfl

theorem mergeAll_nil {groups : List Record} (hd : (groups.map name).Nodup) :
    mergeAll [] groups = groups := by
  induction groups with
  | nil => rfl
  | cons group groups ih =>
    obtain ⟨hnew, hd⟩ := List.nodup_cons.1 hd
    have hne : ∀ s ∈ groups, s.name ≠ group.name := fun s hs h =>
      hnew (List.mem_map.2 ⟨s, hs, h⟩)
    have hnone : groups.filter (·.name = group.name) = [] := by
      simpa [List.filter_eq_nil_iff] using hne
    have hall : groups.filter (·.name ≠ group.name) = groups := by
      simpa [List.filter_eq_self] using hne
    change mergeAll [group] groups = _
    rw [mergeAll_cons, hnone, hall, ih hd]
    simp

theorem gather_filter_ne (n : String) (rows : List Row) :
    (gather rows).filter (·.name ≠ n) = gather (rows.filter (·.owner ≠ n)) := by
  induction rows using rows_induction with
  | nil => rfl
  | cons r rows ih =>
    rw [gather_cons]
    by_cases h : r.owner = n
    · subst h
      rw [List.filter_cons_of_neg (by simp [described]), List.filter_cons_of_neg (by simp), ih,
        List.filter_filter]
      simp
    · have hcomm : (rows.filter (·.owner ≠ r.owner)).filter (·.owner ≠ n) =
          (rows.filter (·.owner ≠ n)).filter (·.owner ≠ r.owner) := by
        rw [List.filter_filter, List.filter_filter]
        exact List.filter_congr fun x _ => Bool.and_comm _ _
      rw [List.filter_cons_of_pos (by simpa [described] using h),
        List.filter_cons_of_pos (by simpa using h), gather_cons, ih, hcomm, described, described,
        rowsOf_cons_self, rowsOf_cons_self, rowsOf_filter_ne h]

theorem gather_filter_eq (n : String) (rows : List Row) :
    ((gather rows).filter (·.name = n)).flatMap Record.rows = rowsOf n rows := by
  induction rows using rows_induction with
  | nil => rfl
  | cons r rows ih =>
    rw [gather_cons]
    by_cases h : r.owner = n
    · subst h
      rw [List.filter_cons_of_pos (by simp [described]), List.flatMap_cons, ih,
        rowsOf_filter_self, List.append_nil]
      rfl
    · rw [List.filter_cons_of_neg (by simpa [described] using h), ih,
        rowsOf_filter_ne (Ne.symm h), rowsOf_cons_ne h]

/-- Rows can be gathered into records of their own first, and these be merged then. -/
theorem addRows_eq_merge (records : List Record) (rows : List Row) :
    addRows records rows = mergeAll records (gather rows) := by
  induction records generalizing rows with
  | nil =>
    have hnil : (([] : List Record).map name).Nodup := List.nodup_nil
    exact (mergeAll_nil (nodup_addRows hnil rows)).symm
  | cons s rest ih =>
    rw [addRows_cons, mergeAll_cons, gather_filter_eq, gather_filter_ne, ih]
    rfl

/-! ## No row is lost or repeated -/

/-- The rows of a record with its name. -/
def ownRows (s : Record) : List (String × Row) := s.rows.map fun r => (s.name, r)

theorem addRow_perm (row : Row) (records : List Record) :
    ((addRow row records).flatMap ownRows).Perm
      ((row.owner, row) :: records.flatMap ownRows) := by
  fun_induction addRow row records with
  | case1 => exact .rfl
  | case2 s rest hs =>
    simp only [List.flatMap_cons, ownRows, List.map_append, List.map_cons, List.map_nil, hs]
    rw [List.append_assoc]
    exact List.perm_middle
  | case3 s rest hs ih =>
    rw [List.flatMap_cons, List.flatMap_cons]
    exact (ih.append_left _).trans List.perm_middle

theorem addRows_perm (records : List Record) (rows : List Row) :
    ((addRows records rows).flatMap ownRows).Perm
      (records.flatMap ownRows ++ rows.map fun r => (r.owner, r)) := by
  induction rows generalizing records with
  | nil => simp [addRows]
  | cons r rows ih =>
    refine (ih (addRow r records)).trans ?_
    rw [List.map_cons]
    exact ((addRow_perm r records).append_right _).trans List.perm_middle.symm

end Record

/-! ## Drafts -/

/-- What becomes of the rows of a draft. -/
structure Draft.Conserves (d : Draft) (p : Project) : Prop where
  /-- The records that declare a member are those of the project, in dependency order. -/
  ordered : Record.order (d.allRecords.filter (!·.declared.isEmpty)) = .ok p.records
  /-- The others are reported, each once and in their order. -/
  reported : p.diagnostics.filter (·.anomaly = .emptyRecord) =
    (d.allRecords.filter (·.declared.isEmpty)).map fun s => ⟨s.name, "", .emptyRecord⟩
  /-- Together they have each row once, under the name of its record. -/
  rows : ((p.records ++ d.allRecords.filter (·.declared.isEmpty)).flatMap Record.ownRows).Perm
    (d.records.flatMap Record.ownRows ++ d.rows.map fun r => (r.owner, r))

namespace Draft

variable {d : Draft} {p : Project}

theorem conserves (h : d.build = .ok p) : d.Conserves p := by
  obtain ⟨horder, placed, hplaced, -, -, hdiagnostics⟩ := build_eq_ok h
  refine ⟨horder, ?_, ?_⟩
  · have hempty : d.emptyReports.filter (·.anomaly = .emptyRecord) = d.emptyReports := by
      rw [List.filter_eq_self]
      intro x hx
      obtain ⟨s, -, rfl⟩ := List.mem_map.1 hx
      rfl
    have hplacing : placed.diagnostics.filter (·.anomaly = .emptyRecord) = [] := by
      simpa [List.filter_eq_nil_iff] using fun x hx => Placed.anomaly_ne_emptyRecord hplaced hx
    rw [hdiagnostics, List.filter_append, hempty, hplacing, List.append_nil]
    rfl
  · have hrecords : (p.records ++ d.allRecords.filter (·.declared.isEmpty)).Perm d.allRecords :=
      ((records_perm h).append_right _).trans
        (List.perm_append_comm.trans (List.filter_append_perm (·.declared.isEmpty) d.allRecords))
    exact (hrecords.flatMap_right _).trans (Record.addRows_perm d.records d.rows)

theorem build_eq_cyclicReference {name : String} :
    d.build = .error (.cyclicReference name) ↔ Record.order d.kept = .error name := by
  refine ⟨fun h => ?_, build_of_cycle⟩
  cases ho : Record.order d.kept with
  | error name' =>
    rw [build_of_cycle ho] at h
    cases h
    rfl
  | ok records =>
    cases hp : Placed.ofRecords d.types records with
    | error e =>
      rw [build_of_fault ho hp] at h
      cases h
    | ok placed =>
      rw [build_of_ok ho hp] at h
      cases h

/-- **Building conserves rows.** A project is built from the records of the draft, the first one of
each name with the flat rows of that name, and one new record for each other name; flat rows may be
gathered before that. The records that declare a member become those of the project, the others are
reported, and no row is lost or repeated. Flat rows alone are built as the records they describe. -/
theorem build_conserves (d : Draft) :
    d.allRecords = Record.handOut d.records d.rows ++
        (Record.newNames d.records d.rows).map (Record.described d.rows) ∧
      d.allRecords = Record.mergeAll d.records (Record.gather d.rows) ∧
      Record.gather d.rows = (d.rows.map Row.owner).eraseDups.map (Record.described d.rows) ∧
      (∀ p, d.build = .ok p → d.Conserves p) ∧
      (∀ name, d.build = .error (.cyclicReference name) ↔
        Record.order (d.allRecords.filter (!·.declared.isEmpty)) = .error name) ∧
      { d with records := [] }.build =
        { d with records := Record.gather d.rows, rows := [] }.build :=
  ⟨Record.addRows_eq d.records d.rows, Record.addRows_eq_merge d.records d.rows,
    Record.gather_eq d.rows, fun _ => conserves, fun _ => build_eq_cyclicReference, rfl⟩

end Draft

namespace Sample

/-- Two records, of which one has array elements only, and rows of both and of a third one that
embeds the first. -/
def scattered : Draft where
  records := [
    { name := "Sensor", rows := [{ name := "id", dataType := "uint16" }] },
    { name := "Spare", rows := [{ name := "word[0]", dataType := "uint16" }] }]
  rows := [
    { owner := "Probe", name := "sensor", dataType := "Sensor" },
    { owner := "Sensor", name := "level", dataType := "uint8" },
    { owner := "Spare", name := "word[1]", dataType := "uint16" },
    { owner := "Probe", name := "mode", dataType := "uint8" }]

end Sample

/-- Three records come of the rows of two and of four flat rows; one of them is reported. -/
theorem Draft.build_conserves_sample : ∃ p, Sample.scattered.build = .ok p ∧
    Sample.scattered.Conserves p ∧ Sample.scattered.allRecords.map Record.name =
      ["Sensor", "Spare", "Probe"] ∧ p.records.map Record.name = ["Sensor", "Probe"] := by
  have hbuild : (Sample.scattered.build.toOption.map fun p => p.records.map Record.name) =
      some ["Sensor", "Probe"] := by decide +kernel
  obtain ⟨-, -, -, hconserves, -⟩ := build_conserves Sample.scattered
  cases h : Sample.scattered.build with
  | error e =>
    rw [h] at hbuild
    cases hbuild
  | ok p =>
    rw [h] at hbuild
    exact ⟨p, rfl, hconserves p h, by decide +kernel, Option.some.inj hbuild⟩

end RecordSwap
