import Mathlib.Data.List.TakeWhile
import RecordSwap.Proofs.Files
import RecordSwap.Proofs.RowByRow

/-!
# The check of a project file

The check of a file finds the first rule that the file breaks, and a file that passes it can be
converted as a whole.

* `ProjectFile.violations`: every rule that a file breaks, in the order of the file; the check stops
  at the first one (`ProjectFile.validate_eq`).
* `ProjectFile.Valid`: a file that breaks no rule (`ProjectFile.violations_eq_nil_iff`).
* `RowEntry.Gives`, `RecordEntry.Gives`, `ProjectFile.Gives`: a row, a record and a project that say
  all that the file does.
* `ProjectFile.Valid.exists_toDraft`: the array sizes are read again during the conversion, which
  succeeds in a valid file.
* `ProjectFile.validate_exact`: the statement about files.
-/

namespace RecordSwap

/-! ## Blank texts -/

namespace Text

theorem trimChars_eq_nil_iff {cs : List Char} : trimChars cs = [] ↔ ∀ c ∈ cs, isBlank c = true := by
  unfold trimChars trimEndChars trimStartChars
  rw [List.reverse_eq_nil_iff, List.dropWhile_eq_nil_iff]
  refine ⟨fun h => ?_, fun h c hc => ?_⟩
  · have hnil : cs.dropWhile isBlank = [] := by
      by_contra hne
      -- the first character that is left is not a blank
      have hfirst := List.head_dropWhile_not isBlank hne
      rw [h _ (List.mem_reverse.2 (List.head_mem hne))] at hfirst
      cases hfirst
    exact List.dropWhile_eq_nil_iff.1 hnil
  · exact h c ((List.dropWhile_suffix _).subset (List.mem_reverse.1 hc))

theorem isBlankText_iff {s : String} : isBlankText s = true ↔ trim s = "" := by
  rw [isBlankText, List.all_eq_true, ← trimChars_eq_nil_iff, trim]
  simp

end Text

/-! ## Broken rules -/

/-- The pieces that cannot be read. -/
def ArraySize.violations : ArraySize → List Violation
  | list _ => []
  | text s => ((pieces s).filter fun piece => extent? piece = none).map fun piece =>
      .badExtent (String.ofList piece) s

/-- The rules that a row breaks: those about its texts, its bit length and its array size. -/
def RowEntry.violations (record : String) (e : RowEntry) : List Violation :=
  (if Text.trim e.name = "" ∨ Text.trim e.dataType = "" then [.incompleteRow record] else []) ++
    (if e.bitLength = some 0 then [.zeroBits record e.name] else []) ++
    e.arraySize.elim [] ArraySize.violations

/-- The rules that a record breaks: that about its name and those about its rows. -/
def RecordEntry.violations (e : RecordEntry) : List Violation :=
  (if Text.trim e.name = "" then [.unnamedRecord] else []) ++
    e.rows.flatMap (RowEntry.violations e.name)

/-- The rules that a file breaks, in the order of the file. -/
def ProjectFile.violations (f : ProjectFile) : List Violation :=
  f.records.flatMap RecordEntry.violations

/-- An array size is read, or it cannot be because of its first piece that cannot. -/
theorem ArraySize.extents_cases (size : ArraySize) :
    (size.violations = [] ∧ ∃ extents, size.extents = .ok extents) ∨
      ∃ v rest, size.violations = v :: rest ∧ size.extents = .error v := by
  cases size with
  | list extents => exact .inl ⟨rfl, extents, rfl⟩
  | text s =>
    simp only [violations, extents]
    induction pieces s with
    | nil => exact .inl ⟨rfl, [], rfl⟩
    | cons piece rest ih =>
      rw [List.mapM_cons]
      cases hpiece : extent? piece with
      | none =>
        rw [List.filter_cons_of_pos (by simp [hpiece])]
        exact .inr ⟨_, _, rfl, rfl⟩
      | some n =>
        rw [List.filter_cons_of_neg (by simp [hpiece])]
        rcases ih with ⟨hnil, extents, hread⟩ | ⟨v, vs, hfirst, hread⟩
        · exact .inl ⟨hnil, n :: extents, by rw [hread]; rfl⟩
        · exact .inr ⟨v, vs, hfirst, by rw [hread]; rfl⟩

theorem RowEntry.violation?_eq (record : String) (e : RowEntry) :
    e.violation? record = (e.violations record).head? := by
  unfold violation? violations
  simp only [Text.isBlankText_iff]
  by_cases htexts : Text.trim e.name = "" ∨ Text.trim e.dataType = ""
  · simp [htexts]
  · by_cases hbits : e.bitLength = some 0
    · simp [htexts, hbits]
    · rw [if_neg htexts, if_neg htexts, if_neg hbits, if_neg hbits]
      cases e.arraySize with
      | none => rfl
      | some size =>
        rcases size.extents_cases with ⟨hnil, extents, hread⟩ | ⟨v, vs, hfirst, hread⟩
        · simp [hread, hnil]
        · simp [hread, hfirst]

theorem RecordEntry.violation?_eq (e : RecordEntry) : e.violation? = e.violations.head? := by
  unfold violation? violations
  by_cases hname : Text.trim e.name = ""
  · simp [Text.isBlankText_iff, hname]
  · simp [Text.isBlankText_iff, hname, List.head?_flatMap, RowEntry.violation?_eq]

/-- The check stops at the first rule that is broken. -/
theorem ProjectFile.validate_eq (f : ProjectFile) :
    f.validate = match f.violations.head? with
      | some v => .error v
      | none => .ok () := by
  have hfirst : f.violation? = f.violations.head? := by
    rw [violation?, violations, List.head?_flatMap, funext RecordEntry.violation?_eq]
  rw [validate, hfirst]
  cases f.violations.head? <;> rfl

/-! ## Valid files -/

/-- A row with a name, a type, a bit length other than zero and an array size that can be read, as
far as it has them. -/
structure RowEntry.Valid (e : RowEntry) : Prop where
  named : Text.trim e.name ≠ ""
  typed : Text.trim e.dataType ≠ ""
  bits : e.bitLength ≠ some 0
  sized : ∀ size ∈ e.arraySize, ∃ extents, size.extents = .ok extents

structure RecordEntry.Valid (e : RecordEntry) : Prop where
  named : Text.trim e.name ≠ ""
  rows : ∀ row ∈ e.rows, row.Valid

/-- A file that breaks no rule. -/
def ProjectFile.Valid (f : ProjectFile) : Prop := ∀ e ∈ f.records, e.Valid

theorem ArraySize.violations_eq_nil_iff {size : ArraySize} :
    size.violations = [] ↔ ∃ extents, size.extents = .ok extents := by
  rcases size.extents_cases with ⟨hnil, hread⟩ | ⟨v, vs, hfirst, hread⟩
  · simp [hnil, hread]
  · simp [hfirst, hread]

theorem RowEntry.violations_eq_nil_iff {record : String} {e : RowEntry} :
    e.violations record = [] ↔ e.Valid := by
  have hsize : e.arraySize.elim [] ArraySize.violations = [] ↔
      ∀ size ∈ e.arraySize, ∃ extents, size.extents = .ok extents := by
    cases e.arraySize <;> simp [ArraySize.violations_eq_nil_iff]
  unfold violations
  rw [List.append_eq_nil_iff, List.append_eq_nil_iff, hsize]
  constructor
  · rintro ⟨⟨htexts, hbits⟩, hsized⟩
    simp only [ite_eq_right_iff, reduceCtorEq, imp_false, not_or] at htexts hbits
    exact ⟨htexts.1, htexts.2, hbits, hsized⟩
  · intro h
    exact ⟨⟨if_neg (not_or.2 ⟨h.named, h.typed⟩), if_neg h.bits⟩, h.sized⟩

theorem RecordEntry.violations_eq_nil_iff {e : RecordEntry} : e.violations = [] ↔ e.Valid := by
  unfold violations
  rw [List.append_eq_nil_iff, List.flatMap_eq_nil_iff]
  constructor
  · rintro ⟨hname, hrows⟩
    simp only [ite_eq_right_iff, reduceCtorEq, imp_false] at hname
    exact ⟨hname, fun row hr => RowEntry.violations_eq_nil_iff.1 (hrows row hr)⟩
  · intro h
    exact ⟨if_neg h.named, fun row hr => RowEntry.violations_eq_nil_iff.2 (h.rows row hr)⟩

theorem ProjectFile.violations_eq_nil_iff {f : ProjectFile} : f.violations = [] ↔ f.Valid := by
  simp [violations, Valid, List.flatMap_eq_nil_iff, RecordEntry.violations_eq_nil_iff]

theorem ProjectFile.validate_eq_ok {f : ProjectFile} : f.validate = .ok () ↔ f.Valid := by
  rw [← violations_eq_nil_iff, validate_eq]
  cases f.violations <;> simp

theorem ProjectFile.validate_eq_error {f : ProjectFile} {v : Violation} :
    f.validate = .error v ↔ f.violations.head? = some v := by
  rw [validate_eq]
  cases f.violations <;> simp

/-! ## Rates -/

namespace Row

/-- Rate of a stream among the rates of the others and one more. -/
theorem lookup_withRate (row : Row) (other text stream : String) :
    (row.withRate other text).rates.lookup stream = ((other, text) :: row.rates).lookup stream :=
  lookup_filter_append row.rates other text stream

/-- The last rate that was set for a stream counts. -/
theorem lookup_withRates (row : Row) (rates : List (String × String)) (stream : String) :
    (row.withRates rates).rates.lookup stream = (rates.reverse ++ row.rates).lookup stream := by
  unfold withRates
  induction rates generalizing row with
  | nil => rfl
  | cons rate rates ih =>
    rw [List.foldl_cons, ih, List.reverse_cons, List.append_assoc, List.lookup_append,
      lookup_withRate, ← List.lookup_append]
    rfl

/-- Rates of distinct streams are kept in their order. -/
theorem rates_withRates {row : Row} {rates : List (String × String)}
    (h : ((row.rates ++ rates).map Prod.fst).Nodup) :
    (row.withRates rates).rates = row.rates ++ rates := by
  unfold withRates
  induction rates generalizing row with
  | nil => simp
  | cons rate rates ih =>
    have hnew : rate.1 ∉ row.rates.map Prod.fst := by
      rw [List.map_append, List.map_cons] at h
      exact fun hm => List.disjoint_of_nodup_append h hm (.head _)
    have hset : (row.withRate rate.1 rate.2).rates = row.rates ++ [rate] := by
      have hkept : row.rates.filter (·.1 ≠ rate.1) = row.rates := by
        simpa [List.filter_eq_self] using fun a b hm ha => hnew (List.mem_map.2 ⟨_, hm, ha⟩)
      rw [withRate, hkept]
    rw [List.foldl_cons, ih] <;> rw [hset, List.append_assoc, List.singleton_append]
    exact h

end Row

/-! ## Conversion -/

namespace RowEntry

/-- A row of a record that says all that a row of the file does. If a stream is given twice, its
last rate counts. -/
structure Gives (record : String) (e : RowEntry) (row : Row) : Prop where
  owner : row.owner = record
  name : row.name = e.name
  dataType : row.dataType = e.dataType
  extents : e.extents = .ok row.extents
  bitLength : row.bitLength = e.bitLength
  description : row.description = e.description
  offset : row.offset = e.offset
  rate : ∀ stream, row.rates.lookup stream = e.textRates.reverse.lookup stream
  rates : (e.rates.map Prod.fst).Nodup → row.rates = e.textRates

variable {record : String} {e : RowEntry} {row : Row}

theorem streams_textRates (e : RowEntry) :
    (e.textRates.map Prod.fst).Sublist (e.rates.map Prod.fst) := by
  refine sublist_map_filterMap (fun rate text h => ?_) e.rates
  obtain ⟨_, -, rfl⟩ := Option.map_eq_some_iff.1 h
  rfl

theorem gives_of_toRow (h : e.toRow record = .ok row) : e.Gives record row := by
  obtain ⟨extents, hread, rfl⟩ := toRow_eq_ok h
  rw [Row.withRates_eq]
  exact {
    owner := rfl, name := rfl, dataType := rfl, extents := hread, bitLength := rfl
    description := rfl, offset := rfl
    rate := fun stream => by rw [Row.lookup_withRates, List.append_nil]
    rates := fun hn => Row.rates_withRates (hn.sublist e.streams_textRates) }

theorem Valid.exists_toRow (h : e.Valid) (record : String) : ∃ row, e.toRow record = .ok row := by
  have hread : ∃ extents, e.extents = .ok extents := by
    unfold extents
    cases hsize : e.arraySize with
    | none => exact ⟨[], rfl⟩
    | some size => exact h.sized size hsize
  obtain ⟨extents, hread⟩ := hread
  rw [toRow_eq, hread]
  exact ⟨_, rfl⟩

end RowEntry

namespace RecordEntry

/-- A record that says all that a record of the file does, row by row. -/
structure Gives (e : RecordEntry) (s : Record) : Prop where
  name : s.name = e.name
  description : s.description = e.description
  messageId : s.messageId = e.messageId
  system : s.system = e.system
  rows : List.Forall₂ (RowEntry.Gives e.name) e.rows s.rows

variable {e : RecordEntry} {s : Record}

theorem gives_of_toRecord (h : e.toRecord = .ok s) : e.Gives s := by
  obtain ⟨rows, hrows, rfl⟩ := toRecord_eq_ok h
  exact ⟨rfl, rfl, rfl, rfl, hrows.imp fun _ _ => RowEntry.gives_of_toRow⟩

theorem Valid.exists_toRecord (h : e.Valid) : ∃ s, e.toRecord = .ok s := by
  obtain ⟨rows, hrows, -⟩ := exists_mapM (P := fun _ _ => True) fun row hr => by
    obtain ⟨r, hread⟩ := (h.rows row hr).exists_toRow e.name
    exact ⟨r, hread, trivial⟩
  exact ⟨_, bind_eq_ok_iff.2 ⟨rows, hrows, rfl⟩⟩

end RecordEntry

/-- A project is built unless a record contains itself or a number overflows. -/
theorem Draft.build_ends (d : Draft) : (∃ p, d.build = .ok p) ∨
    (∃ name, d.build = .error (.cyclicReference name)) ∨
      d.build = .error (.fault .overflow) := by
  cases ho : Record.order d.kept with
  | error name => exact .inr (.inl ⟨name, build_of_cycle ho⟩)
  | ok records =>
    rcases Placed.ofRecords_ends d.types records with ⟨placed, hplaced⟩ | hover
    · exact .inl ⟨_, build_of_ok ho hplaced⟩
    · exact .inr (.inr (build_of_fault ho hover))

namespace ProjectFile

/-- A project that says all that the file does: its records are those of the file that declare a
member, in some order. -/
structure Gives (f : ProjectFile) (p : Project) : Prop where
  name : p.name = f.project
  system : p.system = f.system
  dataStreams : p.dataStreams = f.dataStreams
  includes : p.includes = f.includes
  groups : p.groups = f.groups
  primitives : p.types.primitives = f.types.primitives
  records : ∃ records, List.Forall₂ RecordEntry.Gives (f.records.filter RecordEntry.declares)
    records ∧ p.records.Perm records

variable {f : ProjectFile} {d : Draft} {p : Project}

theorem gives_of_build (h : f.toDraft = .ok d) (hp : d.build = .ok p) : f.Gives p := by
  obtain ⟨records, hrecords, rfl⟩ := toDraft_eq_ok h
  have hperm := Draft.records_perm hp
  obtain ⟨horder, placed, hplaced, -⟩ := Draft.build_eq_ok hp
  generalize p.records = ordered at hperm horder hplaced
  cases hp.symm.trans (Draft.build_of_ok horder hplaced)
  have hkept := (RecordEntry.filter_of_toRecord hrecords).1
  exact {
    name := rfl, system := rfl, dataStreams := rfl, includes := rfl, groups := rfl
    primitives := (Placed.ofRecords_ok hplaced).1
    records := ⟨_, hkept.imp fun _ _ => RecordEntry.gives_of_toRecord, hperm⟩ }

/-- The array sizes of a valid file are read a second time without an error. -/
theorem Valid.exists_toDraft (h : f.Valid) : ∃ d, f.toDraft = .ok d := by
  obtain ⟨records, hrecords, -⟩ := exists_mapM (P := fun _ _ => True) fun e he => by
    obtain ⟨s, hs⟩ := (h e he).exists_toRecord
    exact ⟨s, hs, trivial⟩
  exact ⟨_, bind_eq_ok_iff.2 ⟨records, hrecords, rfl⟩⟩

/-- **The check of a file is exact and sufficient.** Exactly the valid files pass, and for the others
the first rule that is broken is reported. A file that passes gives a project that says all that
the file does, unless a record contains itself or a number overflows. -/
theorem validate_exact (f : ProjectFile) :
    (f.validate = .ok () ↔ f.Valid) ∧
      (∀ v, f.validate = .error v ↔ f.violations.head? = some v) ∧
      (f.validate = .ok () →
        (∃ p, f.toProject = .ok p ∧ f.Gives p) ∨
        (∃ name, f.toProject = .error (.build (.cyclicReference name))) ∨
          f.toProject = .error (.build (.fault .overflow))) := by
  refine ⟨validate_eq_ok, fun v => validate_eq_error, fun h => ?_⟩
  obtain ⟨d, hd⟩ := (validate_eq_ok.1 h).exists_toDraft
  have hproject : f.toProject = d.build.mapError .build := by
    rw [toProject, hd]
    rfl
  rw [hproject]
  rcases d.build_ends with ⟨p, hp⟩ | ⟨name, hcycle⟩ | hover
  · rw [hp]
    exact .inl ⟨p, rfl, gives_of_build hd hp⟩
  · rw [hcycle]
    exact .inr (.inl ⟨name, rfl⟩)
  · rw [hover]
    exact .inr (.inr rfl)

end ProjectFile

namespace Sample

/-- A file with array sizes of both kinds, rates of each kind, and a record without a member. -/
def survey : ProjectFile where
  project := "survey"
  dataStreams := ["Fast", "Slow"]
  records := [
    { name := "Frame", rows := [
      { name := "grid", dataType := "Cell", arraySize := some (.text " 2, +3,"),
        rates := [("Fast", .number "0.5"), ("Slow", .null)] },
      { name := "tag", dataType := "char", arraySize := some (.list [8]),
        rates := [("Fast", .text ""), ("Slow", .text "on change")] }] },
    { name := "Notes", rows := [{ name := "line[0]", dataType := "uint16" }] },
    { name := "Cell", rows := [{ name := "flag", dataType := "uint8", bitLength := some 1 }] }]

/-- The file with a record that breaks three rules. -/
def badSurvey : ProjectFile :=
  { survey with records := survey.records ++ [{ name := " ", rows := [
    { name := "a", dataType := "uint8", bitLength := some 0, arraySize := some (.text "2,x") }] }] }

end Sample

/-- The file is converted; with one more record it breaks three rules, the first of which is
reported. -/
theorem ProjectFile.validate_exact_sample :
    (Sample.survey.validate = .ok () ∧ Sample.survey.Valid ∧ ∃ p, Sample.survey.toProject = .ok p ∧
      Sample.survey.Gives p ∧ p.records.flatMap Record.rows = [
        { owner := "Cell", name := "flag", dataType := "uint8", bitLength := some 1 },
        { owner := "Frame", name := "grid", dataType := "Cell", extents := [2, 3],
          rates := [("Fast", "0.5")] },
        { owner := "Frame", name := "tag", dataType := "char", extents := [8],
          rates := [("Slow", "on change")] }]) ∧
      Sample.badSurvey.violations = [.unnamedRecord, .zeroBits " " "a", .badExtent "x" "2,x"] ∧
      Sample.badSurvey.validate = .error .unnamedRecord := by
  have hok : Sample.survey.validate = .ok () := by decide +kernel
  have hresult : (Sample.survey.toProject.toOption.map fun p => p.records.flatMap Record.rows) =
      some [
        { owner := "Cell", name := "flag", dataType := "uint8", bitLength := some 1 },
        { owner := "Frame", name := "grid", dataType := "Cell", extents := [2, 3],
          rates := [("Fast", "0.5")] },
        { owner := "Frame", name := "tag", dataType := "char", extents := [8],
          rates := [("Slow", "on change")] }] := by decide +kernel
  have hbad : Sample.badSurvey.violations =
      [.unnamedRecord, .zeroBits " " "a", .badExtent "x" "2,x"] := by decide +kernel
  obtain ⟨hvalid, -, hconverted⟩ := validate_exact Sample.survey
  refine ⟨⟨hok, hvalid.1 hok, ?_⟩, hbad, ?_⟩
  · rcases hconverted hok with ⟨p, hp, hgives⟩ | ⟨name, hcycle⟩ | hover
    · rw [hp] at hresult
      exact ⟨p, hp, hgives, Option.some.inj hresult⟩
    · rw [hcycle] at hresult
      cases hresult
    · rw [hover] at hresult
      cases hresult
  · rw [(validate_exact Sample.badSurvey).2.1, hbad]
    rfl

end RecordSwap
