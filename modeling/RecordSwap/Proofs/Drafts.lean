import RecordSwap.Generator
import RecordSwap.Proofs.Planning

/-!
# From a draft to its conversions

What a built project takes over from its draft, and that nothing after the build can fail.

* `Record.map_name_addRow`: a flat row goes to a record of its owner's name, or to a new one.
* `Draft.records_perm`, `Draft.nodup_names`: the records of a project are those of its draft that
  declare a member, and they have distinct names if those of the draft have.
* `Draft.WordBits`: what is asked of the bit lengths, as `Project.WordBits` for the project.
* `Draft.conversions_total`: the layouts, both kinds of plans and all conversions of a built project
  exist, so that only a project without records is refused.
-/

namespace RecordSwap

/-! ## Flat rows -/

namespace Record

theorem map_name_addRow (row : Row) (records : List Record) :
    (addRow row records).map name =
      if row.owner ∈ records.map name then records.map name
      else records.map name ++ [row.owner] := by
  fun_induction addRow row records with
  | case1 => simp
  | case2 s rest hs => simp [hs]
  | case3 s rest hs ih =>
    rw [List.map_cons, ih, List.map_cons]
    by_cases hm : row.owner ∈ rest.map name
    · rw [if_pos hm, if_pos (List.mem_cons_of_mem _ hm)]
    · rw [if_neg hm, if_neg (by simp [Ne.symm hs, hm]), List.cons_append]

theorem nodup_addRows {records : List Record} (h : (records.map name).Nodup) (rows : List Row) :
    ((addRows records rows).map name).Nodup := by
  induction rows generalizing records with
  | nil => exact h
  | cons row rows ih =>
    refine ih ?_
    rw [map_name_addRow]
    split
    · exact h
    · next hm => exact List.Nodup.append h (List.nodup_singleton _) (by simpa using hm)

theorem forall_addRow {P : Row → Prop} {row : Row} {records : List Record} (hrow : P row)
    (h : ∀ s ∈ records, ∀ r ∈ s.rows, P r) : ∀ s ∈ addRow row records, ∀ r ∈ s.rows, P r := by
  fun_induction addRow row records with
  | case1 => simpa using hrow
  | case2 s rest hs =>
    obtain ⟨hrows, hrest⟩ := List.forall_mem_cons.1 h
    refine List.forall_mem_cons.2 ⟨fun r hr => ?_, hrest⟩
    rcases List.mem_append.1 hr with hr | hr
    · exact hrows r hr
    · exact List.mem_singleton.1 hr ▸ hrow
  | case3 s rest hs ih =>
    obtain ⟨hrows, hrest⟩ := List.forall_mem_cons.1 h
    exact List.forall_mem_cons.2 ⟨hrows, ih hrest⟩

theorem forall_addRows {P : Row → Prop} {rows : List Row} {records : List Record}
    (hrows : ∀ r ∈ rows, P r) (h : ∀ s ∈ records, ∀ r ∈ s.rows, P r) :
    ∀ s ∈ addRows records rows, ∀ r ∈ s.rows, P r := by
  induction rows generalizing records with
  | nil => exact h
  | cons row rows ih =>
    obtain ⟨hrow, hrows⟩ := List.forall_mem_cons.1 hrows
    exact ih hrows (forall_addRow hrow h)

theorem declaredAfter_sublist (seen : List String) (rows : List Row) :
    (declaredAfter seen rows).Sublist rows := by
  fun_induction declaredAfter seen rows with
  | case1 => exact .slnil
  | case2 seen r rest _ ih => exact ih.cons r
  | case3 seen r rest _ ih => exact ih.cons_cons r

theorem declared_sublist (s : Record) : s.declared.Sublist s.rows := declaredAfter_sublist [] s.rows

end Record

/-! ## Records of a built project -/

/-- The lengths of bit-fields are 32-bit words, as they are wherever rows are read. -/
def Draft.WordBits (d : Draft) : Prop :=
  (∀ r ∈ d.rows, ∀ bits ∈ r.bitLength, bits < bitLimit) ∧
    ∀ s ∈ d.records, ∀ r ∈ s.rows, ∀ bits ∈ r.bitLength, bits < bitLimit

instance (d : Draft) : Decidable d.WordBits :=
  inferInstanceAs (Decidable ((∀ r ∈ d.rows, ∀ bits ∈ r.bitLength, bits < bitLimit) ∧
    ∀ s ∈ d.records, ∀ r ∈ s.rows, ∀ bits ∈ r.bitLength, bits < bitLimit))

namespace Draft

variable {d : Draft} {p : Project}

theorem records_perm (h : d.build = .ok p) : p.records.Perm d.kept :=
  Record.order_perm (build_eq_ok h).1

theorem nodup_names (h : d.build = .ok p) (hd : (d.records.map Record.name).Nodup) :
    (p.records.map Record.name).Nodup := by
  have hkept : (d.kept.map Record.name).Nodup :=
    (Record.nodup_addRows hd d.rows).sublist (List.filter_sublist.map Record.name)
  exact ((records_perm h).map Record.name).nodup_iff.2 hkept

theorem mem_allRecords (h : d.build = .ok p) {s : Record} (hs : s ∈ p.records) :
    s ∈ d.allRecords :=
  (List.mem_filter.1 ((records_perm h).mem_iff.1 hs)).1

theorem WordBits.project (hw : d.WordBits) (h : d.build = .ok p) : p.WordBits := by
  intro s hs r hr bits hbits
  have hwords := Record.forall_addRows hw.1 hw.2 s (mem_allRecords h hs) r
    (s.declared_sublist.subset hr)
  unfold Row.bitField? at hbits
  split at hbits
  · cases hbits
  · exact hwords bits hbits

end Draft

/-! ## No fault after the build -/

theorem Generator.ofProject_eq {p : Project} {layouts : List Layout} {plans : Plans}
    (options : Options) (hlayouts : p.layouts = .ok layouts)
    (hplans : Plans.ofLayouts p layouts = .ok plans) :
    ofProject p options =
      if p.records = [] then .error .inputAbsent else .ok ⟨p, options, layouts, plans⟩ := by
  unfold ofProject
  rw [hlayouts]
  cases hr : p.records with
  | nil => rfl
  | cons s records =>
    change (Plans.ofLayouts p layouts).mapError GenerationError.fault >>=
      (fun plans => pure (⟨p, options, layouts, plans⟩ : Generator)) = _
    rw [hplans]
    rfl

/-- **No fault after the build.** If a draft whose records have distinct names has been built, then
all layouts, plans and conversions exist: generation is refused only where no record is left, and
both swaps of any record, in either direction, give a result for every image. -/
theorem Draft.conversions_total {d : Draft} {p : Project} (h : d.build = .ok p)
    (hd : (d.records.map Record.name).Nodup) (hw : d.WordBits) (options : Options) :
    ∃ layouts plans, p.layouts = .ok layouts ∧ Plans.ofLayouts p layouts = .ok plans ∧
      Generator.ofProject p options =
        (if p.records = [] then .error .inputAbsent else .ok ⟨p, options, layouts, plans⟩) ∧
      ∀ direction index image, (∃ converted, plans.byteSwap direction index image = .ok converted) ∧
        ∃ converted, plans.bitSwap direction index image = .ok converted := by
  obtain ⟨layouts, hlayouts, hall⟩ := exists_layouts h (nodup_names h hd)
  have hb := bounded h (hw.project h) hall
  exact ⟨layouts, p.planned layouts, hlayouts, hb.ofLayouts_eq,
    Generator.ofProject_eq options hlayouts hb.ofLayouts_eq, fun direction index image =>
      ⟨⟨_, hb.runnable.byteSwap_eq direction index image⟩,
        ⟨_, hb.runnable.bitSwap_eq direction index image⟩⟩⟩

namespace Sample

/-- A record that ends at the last address: a bit-field in a unit whose bits cannot be counted, a
member that takes all but the rest, and an array without elements. -/
def widest : Draft where
  types := (TypeTable.builtin.insert ⟨"page", "page_t", 0x100000000, .character⟩).insert
    ⟨"rest", "rest_t", 0xfffffffefffffff3, .unsignedInteger⟩
  records := [{
    name := "Widest"
    messageId := some "0x1804"
    rows := [
      { name := "flag", dataType := "page", bitLength := some 40 },
      { name := "rest", dataType := "rest" },
      { name := "none", dataType := "uint64", extents := [0x8000000000000000, 0] }] }]

/-- The project that is built from it. -/
def widestProject : Project where
  name := ""
  system := none
  dataStreams := []
  includes := []
  groups := []
  records := widest.records
  placements := [
    ⟨[("flag", 0), ("rest", 0x100000000), ("none", 0xfffffffffffffff3)], 0xfffffffffffffff3⟩]
  types := widest.types.defineRecord "Widest" 0xffffffffffffffff
  diagnostics := []

theorem widest_build : widest.build = .ok widestProject := by decide +kernel

end Sample

/-- All conversions of the record that ends at the last address give a result. -/
theorem Draft.conversions_total_sample :
    Sample.widest.build = .ok Sample.widestProject ∧ ∃ g,
      Generator.ofProject Sample.widestProject {} = .ok g ∧ ∀ direction index image,
        ∃ converted, g.plans.byteSwap direction index image = .ok converted := by
  obtain ⟨layouts, plans, hlayouts, hplans, hg, htotal⟩ :=
    conversions_total Sample.widest_build (by decide) (by decide +kernel) {}
  rw [if_neg (by decide)] at hg
  exact ⟨Sample.widest_build, _, hg, fun direction index image =>
    (htotal direction index image).1⟩

end RecordSwap
