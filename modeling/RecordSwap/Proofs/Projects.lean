import RecordSwap.Proofs.Members
import RecordSwap.Proofs.Order
import RecordSwap.Plan

/-!
# Layouts of a project

Every project that has been built has layouts.

* `Placed.exists_of_cons`: one step of placing records.
* `Placed.ofRecords_ok`: each record is placed with the final sizes of all types but its own and
  those of later records, and its own size is in the final table.
* `Project.WellNamed`, `Project.WordBits`: what is asked of the names and the bit lengths.
* `Project.Plannable`, `Project.Bounded`, `Project.Sound`: layouts that show the rows of the
  records, with embedded records before their containers; besides, layouts that consist of pieces
  and fit their words; besides, layouts in which an embedded record fills an element of the member.
* `Draft.exists_arranged`, `Draft.exists_layouts`: with distinct names the layouts of a built
  project exist, and each is computed from the slots of its record.
* `Draft.plannable`, `Draft.bounded`, `Draft.sound_layouts`: what is known of the layouts for any
  names, for distinct names, and for distinct names that no primitive has.
-/

namespace RecordSwap

theorem exists_mapM {ε α β : Type} {P : α → β → Prop} {l : List α} {f : α → Except ε β}
    (h : ∀ x ∈ l, ∃ y, f x = .ok y ∧ P x y) : ∃ ys, l.mapM f = .ok ys ∧ List.Forall₂ P l ys := by
  induction l with
  | nil => exact ⟨[], rfl, .nil⟩
  | cons x l ih =>
    obtain ⟨y, hy, hP⟩ := h x (.head _)
    obtain ⟨ys, hys, hall⟩ := ih fun z hz => h z (.tail _ hz)
    refine ⟨y :: ys, ?_, .cons hP hall⟩
    rw [List.mapM_cons, bind_eq_ok_iff]
    exact ⟨y, hy, bind_eq_ok_iff.2 ⟨ys, hys, rfl⟩⟩

theorem mapError_eq_ok {ε ε' α : Type} {f : ε → ε'} {x : Except ε α} {a : α} :
    x.mapError f = .ok a ↔ x = .ok a := by
  cases x <;> simp [Except.mapError]

/-! ## Placing records -/

theorem TypeTable.sizeOf_congr {t t' : TypeTable} {name : String}
    (hp : t.primitives = t'.primitives) (hr : t.recordSize? name = t'.recordSize? name) :
    t.sizeOf name = t'.sizeOf name := by
  rw [sizeOf, sizeOf, sizeOf?, sizeOf?, primitive?, primitive?, hp, hr]

theorem TypeTable.recordSize?_defineRecord_self (t : TypeTable) (name : String) (size : Nat) :
    (t.defineRecord name size).recordSize? name = some size := by
  simp [defineRecord, recordSize?]

theorem TypeTable.recordSize?_defineRecord (t : TypeTable) {name other : String} (size : Nat)
    (h : name ≠ other) : (t.defineRecord other size).recordSize? name = t.recordSize? name := by
  rw [defineRecord, recordSize?, recordSize?, List.lookup_cons, beq_eq_false_iff_ne.2 h]

/-- A record that was placed in front of the records `later`, and the final table. -/
structure Placement.Of (final : TypeTable) (s : Record) (later : List Record)
    (placement : Placement) : Prop where
  placed : ∃ types, ofRecord types s = .ok placement ∧
    ∀ name ∉ (s :: later).map Record.name, types.sizeOf name = final.sizeOf name
  fits : placement.size + s.headerSize < sizeLimit
  noted : s.name ∉ later.map Record.name →
    final.recordSize? s.name = some (placement.size + s.headerSize)

/-- Placing a record in front of others, which are placed by the table that knows its size. -/
theorem Placed.exists_of_cons {types : TypeTable} {s : Record} {rest : List Record}
    {placed : Placed} (h : ofRecords types (s :: rest) = .ok placed) :
    ∃ placement inner, Placement.ofRecord types s = .ok placement ∧
      placement.size + s.headerSize < sizeLimit ∧
      ofRecords (types.defineRecord s.name (placement.size + s.headerSize)) rest = .ok inner ∧
      placed = { inner with
        placements := placement :: inner.placements
        diagnostics := Placement.unknownTypes types s ++ inner.diagnostics } := by
  obtain ⟨placement, hplace, h⟩ := Checked.bind_eq_ok.1 h
  obtain ⟨size, hsize, h⟩ := Checked.bind_eq_ok.1 h
  obtain ⟨hlt, rfl⟩ := addSize_eq_ok.1 hsize
  obtain ⟨inner, hinner, h⟩ := Checked.bind_eq_ok.1 h
  exact ⟨placement, inner, hplace, hlt, hinner, (Except.ok.inj h).symm⟩

theorem Placed.ofRecords_ok {types : TypeTable} {records : List Record} {placed : Placed}
    (h : ofRecords types records = .ok placed) :
    placed.types.primitives = types.primitives ∧
      (∀ name ∉ records.map Record.name,
        placed.types.recordSize? name = types.recordSize? name) ∧
      placed.placements.length = records.length ∧
      ∀ (i : Nat) (s : Record) (placement : Placement), records[i]? = some s →
        placed.placements[i]? = some placement →
        placement.Of placed.types s (records.drop (i + 1)) := by
  induction records generalizing types placed with
  | nil =>
    cases h
    exact ⟨rfl, fun _ _ => rfl, rfl, fun _ _ _ hs => by simp at hs⟩
  | cons s rest ih =>
    obtain ⟨placement, inner, hplace, hlt, hinner, rfl⟩ := exists_of_cons h
    obtain ⟨hprim, hsame, hlen, hof⟩ := ih hinner
    have hprim : inner.types.primitives = types.primitives := hprim
    have hsame' : ∀ name ∉ (s :: rest).map Record.name,
        inner.types.recordSize? name = types.recordSize? name := by
      intro name hn
      rw [List.map_cons, List.mem_cons, not_or] at hn
      rw [hsame name hn.2, types.recordSize?_defineRecord _ hn.1]
    refine ⟨hprim, hsame', by simp [hlen], fun i t placement' ht hp => ?_⟩
    cases i with
    | zero =>
      cases ht
      cases hp
      refine ⟨⟨types, hplace, fun name hn => ?_⟩, hlt, fun hn => ?_⟩
      · exact (TypeTable.sizeOf_congr hprim (hsame' name hn)).symm
      · rw [hsame _ hn, TypeTable.recordSize?_defineRecord_self]
    | succ i => exact hof i t placement' ht hp

/-! ## Built projects -/

namespace Project

/-- The records have distinct names, and no primitive is named like a record. -/
structure WellNamed (p : Project) : Prop where
  nodup : (p.records.map Record.name).Nodup
  apart : ∀ s ∈ p.records, p.types.primitive? s.name = none

instance (p : Project) : Decidable p.WellNamed :=
  decidable_of_iff ((p.records.map Record.name).Nodup ∧
    ∀ s ∈ p.records, p.types.primitive? s.name = none) ⟨fun h => ⟨h.1, h.2⟩, fun h => ⟨h.1, h.2⟩⟩

/-- The lengths of the bit-fields are 32-bit words, as they are wherever rows are read. -/
def WordBits (p : Project) : Prop :=
  ∀ s ∈ p.records, ∀ r ∈ s.declared, ∀ bits ∈ r.bitField?, bits < bitLimit

instance (p : Project) : Decidable p.WordBits :=
  inferInstanceAs (Decidable (∀ s ∈ p.records, ∀ r ∈ s.declared, ∀ bits ∈ r.bitField?,
    bits < bitLimit))

/-- Layouts to which swap functions can be planned: their members show the rows of the records, and
an embedded record stands before its container. -/
structure Plannable (p : Project) (layouts : List Layout) : Prop where
  reads : List.Forall₂ (fun s l => ∃ slots, Layout.Reads p.types.sizeOf s slots l) p.records layouts
  earlier : ∀ {i : Nat} {l : Layout} {f : FieldLayout} {target : Nat}, layouts[i]? = some l →
    f ∈ l.fields → p.embedded? f = some target → target < i

/-- Layouts whose swap functions stay within their words. -/
structure Bounded (p : Project) (layouts : List Layout) : Prop extends p.Plannable layouts where
  consists : ∀ l ∈ layouts, ∃ pieces, l.Consists p.types.sizeOf pieces
  fits : ∀ l ∈ layouts, l.totalSize < sizeLimit
  bits : ∀ l ∈ layouts, ∀ f ∈ l.fields, ∀ bits, f.bitLength = some bits → bits < bitLimit

/-- Layouts in which an embedded record fills an element of its container's member. -/
structure Sound (p : Project) (layouts : List Layout) : Prop extends p.Bounded layouts where
  headerFirst : ∀ l ∈ layouts, l.HeaderFirst
  sized : ∀ {l : Layout} {f : FieldLayout} {target : Nat}, l ∈ layouts → f ∈ l.fields →
    p.embedded? f = some target →
    ∃ inner, layouts[target]? = some inner ∧ p.types.sizeOf f.dataType = inner.totalSize

end Project

/-- A layout of a record of a project, with the size that the type table has for the record. -/
structure Layout.Of (p : Project) (s : Record) (l : Layout) : Prop where
  describes : l.Describes p.types.sizeOf s l.totalSize
  reads : ∃ slots, l.Reads p.types.sizeOf s slots
  fits : l.totalSize < sizeLimit
  noted : p.types.recordSize? s.name = some l.totalSize

theorem Draft.build_eq_ok {d : Draft} {p : Project} (h : d.build = .ok p) :
    Record.order d.kept = .ok p.records ∧
      ∃ placed, Placed.ofRecords d.types p.records = .ok placed ∧
        p.placements = placed.placements ∧ p.types = placed.types ∧
        p.diagnostics = d.emptyReports ++ placed.diagnostics := by
  obtain ⟨records, hrecords, h⟩ := bind_eq_ok_iff.1 h
  obtain ⟨placed, hplaced, h⟩ := bind_eq_ok_iff.1 h
  cases h
  exact ⟨mapError_eq_ok.1 hrecords, placed, mapError_eq_ok.1 hplaced, rfl, rfl, rfl⟩

/-- The project of a draft whose records have been ordered and placed. -/
def Draft.projectOf (d : Draft) (records : List Record) (placed : Placed) : Project where
  name := d.name
  system := d.system
  dataStreams := d.dataStreams
  includes := d.includes
  groups := d.groups
  records := records
  placements := placed.placements
  types := placed.types
  diagnostics := d.emptyReports ++ placed.diagnostics

section
variable {d : Draft} {records : List Record}

theorem Draft.build_of_cycle {name : String} (h : Record.order d.kept = .error name) :
    d.build = .error (.cyclicReference name) := by
  rw [build, h]
  rfl

theorem Draft.build_of_fault {e : Fault} (h : Record.order d.kept = .ok records)
    (he : Placed.ofRecords d.types records = .error e) : d.build = .error (.fault e) := by
  rw [build, h]
  change ((Placed.ofRecords d.types records).mapError BuildError.fault >>= _) = _
  rw [he]
  rfl

theorem Draft.build_of_ok {placed : Placed} (h : Record.order d.kept = .ok records)
    (hp : Placed.ofRecords d.types records = .ok placed) :
    d.build = .ok (d.projectOf records placed) := by
  rw [build, h]
  change ((Placed.ofRecords d.types records).mapError BuildError.fault >>= _) = _
  rw [hp]
  rfl

end

theorem name_not_mem_drop {records : List Record} (hd : (records.map Record.name).Nodup) {i : Nat}
    {s : Record} (hi : records[i]? = some s) :
    s.name ∉ (records.drop (i + 1)).map Record.name := by
  intro hm
  obtain ⟨t, ht, htn⟩ := List.mem_map.1 hm
  obtain ⟨k, hk⟩ := List.mem_iff_getElem?.1 ht
  rw [List.getElem?_drop] at hk
  have := Record.index_unique hd hk hi htn
  omega

namespace Draft

variable {d : Draft} {p : Project}

/-- The layouts of a built project exist, and each is computed from the slots of its record. -/
theorem exists_arranged (h : d.build = .ok p) (hd : (p.records.map Record.name).Nodup) :
    ∃ layouts, p.layouts = .ok layouts ∧ List.Forall₂ (fun s l => Layout.Of p s l ∧
      ∃ c slots starts, l.Arranged p.types.sizeOf s c slots starts) p.records layouts := by
  obtain ⟨horder, placed, hplaced, hplacements, htypes, -⟩ := build_eq_ok h
  have hseq := Record.order_sequenced horder hd
  obtain ⟨-, -, hlen, hof⟩ := Placed.ofRecords_ok hplaced
  rw [← hplacements, ← htypes] at hof
  rw [← hplacements] at hlen
  obtain ⟨layouts, hlayouts, hall⟩ := exists_mapM
    (P := fun x l => Layout.Of p x.1 l ∧
      ∃ c slots starts, l.Arranged p.types.sizeOf x.1 c slots starts)
    (l := p.records.zip p.placements) (f := fun x => Layout.ofRecord p x.1 x.2) <| by
      intro ⟨s, placement⟩ hm
      obtain ⟨i, hi⟩ := List.mem_iff_getElem?.1 hm
      obtain ⟨hs, hp⟩ := List.getElem?_zip_eq_some.1 hi
      obtain ⟨⟨types, hplace, hsame⟩, hfits, hnoted⟩ := hof i s placement hs hp
      -- the types of the rows had their final sizes when the record was placed
      obtain ⟨l, c, slots, starts, hl, hsize, harr⟩ := Layout.ofRecord_ok (p := p) hplace
        (fun r hr => hsame _ (hseq.type_not_mem hs hr)) hfits
      exact ⟨l, hl, ⟨harr.describes, Layout.ofRecord_reads hl, hsize ▸ hfits,
        hsize ▸ hnoted (name_not_mem_drop hd hs)⟩, c, slots, starts, harr⟩
  have hrecords : (p.records.zip p.placements).map Prod.fst = p.records :=
    List.map_fst_zip (by omega)
  refine ⟨layouts, hlayouts, ?_⟩
  rw [← hrecords, List.forall₂_map_left_iff]
  exact hall

/-- **The layouts of a built project exist.** -/
theorem exists_layouts (h : d.build = .ok p) (hd : (p.records.map Record.name).Nodup) :
    ∃ layouts, p.layouts = .ok layouts ∧ List.Forall₂ (Layout.Of p) p.records layouts := by
  obtain ⟨layouts, hlayouts, hall⟩ := exists_arranged h hd
  exact ⟨layouts, hlayouts, hall.imp fun _ _ h => h.1⟩

end Draft

namespace Project

variable {p : Project}

theorem exists_of_index? {name : String} {i : Nat} (h : p.index? name = some i) :
    ∃ s, p.records[i]? = some s ∧ s.name = name := by
  obtain ⟨hlt, hname, -⟩ := List.findIdx?_eq_some_iff_getElem.1 h
  exact ⟨p.records[i], List.getElem?_eq_getElem hlt, by simpa using hname⟩

theorem index?_congr {p' : Project}
    (h : p'.records.map Record.name = p.records.map Record.name) : p'.index? = p.index? := by
  funext name
  have hnames (p : Project) : p.index? name = (p.records.map Record.name).findIdx? (· = name) := by
    rw [index?, List.findIdx?_map]
    rfl
  rw [hnames, hnames, h]

theorem index?_eq_none {name : String} :
    p.index? name = none ↔ name ∉ p.records.map Record.name := by
  simp [index?]

theorem index?_of_embedded? {f : FieldLayout} {target : Nat} (h : p.embedded? f = some target) :
    p.index? f.dataType = some target := by
  unfold embedded? at h
  split at h
  · exact h
  · cases h

theorem embedded?_eq_some {f : FieldLayout} {target : Nat} (h : p.embedded? f = some target) :
    ∃ s, p.records[target]? = some s ∧ s.name = f.dataType :=
  exists_of_index? (index?_of_embedded? h)

/-- The record that a member embeds is the first one of its name. -/
theorem embedded?_le {f : FieldLayout} {target : Nat} (h : p.embedded? f = some target) {k : Nat}
    {s : Record} (hk : p.records[k]? = some s) (hs : s.name = f.dataType) : target ≤ k := by
  obtain ⟨_, _, hfirst⟩ := List.findIdx?_eq_some_iff_getElem.1 (index?_of_embedded? h)
  obtain ⟨hlt, rfl⟩ := List.getElem?_eq_some_iff.1 hk
  by_contra hlt'
  simpa [hs] using hfirst k (by omega)

theorem WellNamed.sizeOf_record (hn : p.WellNamed) {s : Record} (hs : s ∈ p.records) {size : Nat}
    (h : p.types.recordSize? s.name = some size) : p.types.sizeOf s.name = size := by
  rw [TypeTable.sizeOf, TypeTable.sizeOf?, hn.apart s hs]
  exact congrArg (Option.getD · 0) h

end Project

theorem Layout.exists_record {p : Project} {layouts : List Layout}
    (hall : List.Forall₂ (Layout.Of p) p.records layouts) {i : Nat} {l : Layout}
    (hl : layouts[i]? = some l) : ∃ s, p.records[i]? = some s ∧ l.Of p s :=
  getElem?_of_forall₂_right hall hl

/-- A member whose type is the name of a record embeds that record. -/
theorem Project.WellNamed.embedded?_eq {p : Project} (hn : p.WellNamed) {layouts : List Layout}
    (hall : List.Forall₂ (Layout.Of p) p.records layouts) {j : Nat} {inner : Layout}
    (hj : layouts[j]? = some inner) {f : FieldLayout} (hf : f.dataType = inner.name) :
    p.embedded? f = some j := by
  obtain ⟨s, hs, hof⟩ := Layout.exists_record hall hj
  have hname : f.dataType = s.name := hf.trans hof.describes.name
  have hcat : p.types.category? f.dataType = some .record := by
    rw [TypeTable.category?, hname, hn.apart s (List.mem_of_getElem? hs), hof.noted]
    rfl
  obtain ⟨hlt, hget⟩ := List.getElem?_eq_some_iff.1 hs
  rw [embedded?, TypeTable.isRecord, hcat, decide_eq_true rfl, if_pos rfl, index?,
    List.findIdx?_eq_some_iff_getElem]
  refine ⟨hlt, by simp [hget, hname], fun k hk => ?_⟩
  -- an earlier record of the same name would be the same record
  have hk' : p.records[k]? = some p.records[k] := List.getElem?_eq_getElem (by omega)
  have hne : p.records[k].name ≠ f.dataType := fun he =>
    absurd (Record.index_unique hn.nodup hk' hs (he.trans hname)) (by omega)
  simpa using hne

theorem Layout.exists_of {p : Project} {layouts : List Layout}
    (hall : List.Forall₂ (Layout.Of p) p.records layouts) {l : Layout} (hl : l ∈ layouts) :
    ∃ s, l.Of p s := by
  obtain ⟨i, hi⟩ := List.mem_iff_getElem?.1 hl
  obtain ⟨s, -, hof⟩ := exists_record hall hi
  exact ⟨s, hof⟩

theorem Layout.exists_row {p : Project} {layouts : List Layout}
    (hall : List.Forall₂ (Layout.Of p) p.records layouts) {l : Layout} (hl : l ∈ layouts)
    {f : FieldLayout} (hf : f ∈ l.fields) : ∃ s ∈ p.records, ∃ r ∈ s.declared, f.Shows r := by
  obtain ⟨i, hi⟩ := List.mem_iff_getElem?.1 hl
  obtain ⟨s, hs, hof⟩ := exists_record hall hi
  obtain ⟨slots, hread⟩ := hof.reads
  obtain ⟨r, hr, hshows⟩ := hread.row hf
  exact ⟨s, List.mem_of_getElem? hs, r, hr, hshows⟩

theorem Project.Plannable.reads_of {p : Project} {layouts : List Layout} (h : p.Plannable layouts)
    {i : Nat} {l : Layout} (hl : layouts[i]? = some l) :
    ∃ s slots, p.records[i]? = some s ∧ Layout.Reads p.types.sizeOf s slots l := by
  obtain ⟨s, hs, slots, hread⟩ := getElem?_of_forall₂_right h.reads hl
  exact ⟨s, slots, hs, hread⟩

theorem Project.Plannable.any_isSome {p : Project} {layouts : List Layout} (h : p.Plannable layouts)
    {i : Nat} {l : Layout} (hl : layouts[i]? = some l) :
    l.fields.any (·.bitLength.isSome) = l.hasBitFields := by
  obtain ⟨s, slots, -, hread⟩ := h.reads_of hl
  exact hread.any_isSome

namespace Draft

variable {d : Draft} {p : Project} {layouts : List Layout}

/-- Swap functions can be planned to all layouts of a built project, whatever its names are. -/
theorem plannable (h : d.build = .ok p)
    (hreads : List.Forall₂ (fun s l => ∃ slots, Layout.Reads p.types.sizeOf s slots l) p.records
      layouts) : p.Plannable layouts := by
  refine ⟨hreads, fun {i l f target} hl hf he => ?_⟩
  obtain ⟨s, hs, slots, hread⟩ := getElem?_of_forall₂_right hreads hl
  obtain ⟨r, hr, hshows⟩ := hread.row hf
  obtain ⟨t, ht, htn⟩ := Project.embedded?_eq_some he
  -- the first record of that name stands no later than the one that was ordered before this
  obtain ⟨k, hk, u, hu, hun⟩ := Record.order_before (build_eq_ok h).1 hs hr
    (List.mem_of_getElem? ht) (hshows.2.1 ▸ htn.symm)
  exact Nat.lt_of_le_of_lt (Project.embedded?_le he hu (hun.trans htn)) hk

/-- The layouts of a built project are read off its records. -/
theorem layouts_read (h : d.build = .ok p) (hl : p.layouts = .ok layouts) :
    List.Forall₂ (fun s l => ∃ slots, Layout.Reads p.types.sizeOf s slots l) p.records layouts := by
  obtain ⟨-, placed, hplaced, hplacements, -⟩ := build_eq_ok h
  obtain ⟨-, -, hlen, -⟩ := Placed.ofRecords_ok hplaced
  have hrecords : (p.records.zip p.placements).map Prod.fst = p.records :=
    List.map_fst_zip (by rw [hplacements]; omega)
  rw [← hrecords, List.forall₂_map_left_iff]
  exact (forall₂_of_mapM hl).imp fun _ _ hl => Layout.ofRecord_reads hl

theorem bounded (h : d.build = .ok p) (hw : p.WordBits)
    (hall : List.Forall₂ (Layout.Of p) p.records layouts) : p.Bounded layouts := by
  refine ⟨plannable h (hall.imp fun _ _ hof => hof.reads), fun l hl => ?_, fun l hl => ?_,
    fun l hl f hf bits hb => ?_⟩
  · obtain ⟨s, hof⟩ := Layout.exists_of hall hl
    exact hof.describes.consists
  · obtain ⟨s, hof⟩ := Layout.exists_of hall hl
    exact hof.fits
  · obtain ⟨s, hs, r, hr, hshows⟩ := Layout.exists_row hall hl hf
    exact hw s hs r hr bits (hshows.2.2.2 ▸ hb)

/-- **The layouts of a built project are sound.** -/
theorem sound_layouts (h : d.build = .ok p) (hn : p.WellNamed) (hw : p.WordBits)
    (hall : List.Forall₂ (Layout.Of p) p.records layouts) : p.Sound layouts := by
  refine ⟨bounded h hw hall, fun l hl => ?_, fun {l f target} hl hf he => ?_⟩
  · obtain ⟨s, hof⟩ := Layout.exists_of hall hl
    exact hof.describes.headerFirst
  · obtain ⟨t, ht, htn⟩ := Project.embedded?_eq_some he
    obtain ⟨inner, hinner, hof⟩ := getElem?_of_forall₂ hall ht
    exact ⟨inner, hinner, htn ▸ hn.sizeOf_record (List.mem_of_getElem? ht) hof.noted⟩

end Draft

/-- An embedded record stands before its container, and fills an element of the member. -/
theorem Project.Sound.embeds {p : Project} {layouts : List Layout} (h : p.Sound layouts) {i : Nat}
    {l : Layout} {f : FieldLayout} {target : Nat} (hl : layouts[i]? = some l) (hf : f ∈ l.fields)
    (he : p.embedded? f = some target) : target < i ∧
      ∃ inner, layouts[target]? = some inner ∧ p.types.sizeOf f.dataType = inner.totalSize :=
  ⟨h.earlier hl hf he, h.sized (List.mem_of_getElem? hl) hf he⟩

/-! ## A sample -/

namespace Sample

/-- A record with bit-fields. -/
def status : Record where
  name := "Status"
  rows := [
    { name := "mode", dataType := "uint8", bitLength := some 3 },
    { name := "rate", dataType := "uint8", bitLength := some 5 },
    { name := "count", dataType := "uint16" }]

/-- A record with bit-fields that embeds one with bit-fields. -/
def packet : Record where
  name := "Packet"
  messageId := some "0x1801"
  rows := [
    { name := "time", dataType := "uint32" },
    { name := "parts", dataType := "Status", extents := [2] },
    { name := "flag", dataType := "uint16", bitLength := some 1 },
    { name := "level", dataType := "uint16", bitLength := some 11 }]

/-- A record of plain words. -/
def point : Record where
  name := "Point"
  rows := [
    { name := "x", dataType := "float" },
    { name := "y", dataType := "double" }]

/-- A record that embeds a table of records of plain words. -/
def track : Record where
  name := "Track"
  messageId := some "0x1802"
  rows := [
    { name := "id", dataType := "uint16" },
    { name := "points", dataType := "Point", extents := [2, 2] },
    { name := "tag", dataType := "char" },
    { name := "rest", dataType := "blob" }]

/-- A draft of two records with bit-fields and two without; the first of each two embeds the
second. -/
def draft : Draft where
  records := [packet, status, track, point]

/-- The project that is built from the draft. -/
def project : Project where
  name := ""
  system := none
  dataStreams := []
  includes := []
  groups := []
  records := [status, packet, point, track]
  placements := [
    ⟨[("mode", 0), ("rate", 0), ("count", 1)], 3⟩,
    ⟨[("time", 0), ("parts", 4), ("flag", 10), ("level", 10)], 12⟩,
    ⟨[("x", 0), ("y", 4)], 12⟩,
    ⟨[("id", 0), ("points", 2), ("tag", 50), ("rest", 51)], 51⟩]
  types := (((TypeTable.builtin.defineRecord "Status" 3).defineRecord "Packet" 24).defineRecord
    "Point" 12).defineRecord "Track" 63
  diagnostics := [⟨"Track", "rest", .unknownType "blob"⟩]

/-- The layouts of the project. -/
def layouts : List Layout := project.layouts.toOption.getD []

theorem draft_build : draft.build = .ok project := by decide +kernel

theorem project_wellNamed : project.WellNamed := by decide +kernel

theorem project_wordBits : project.WordBits := by decide +kernel

theorem project_layouts : project.layouts = .ok layouts := by decide +kernel

/-- A record whose bit-fields do not all fit their types, below a word that lies over them. -/
def cell : Record where
  name := "Cell"
  rows := [
    { name := "wide", dataType := "uint8", bitLength := some 12 },
    { name := "on", dataType := "uint8", bitLength := some 1 },
    { name := "mode", dataType := "uint8", bitLength := some 7 },
    { name := "raw", dataType := "uint16", offset := some 0 }]

/-- A record with members that overlap and with neighbouring units of one type. -/
def panel : Record where
  name := "Panel"
  messageId := some "0x1803"
  rows := [
    { name := "cells", dataType := "Cell", extents := [2], offset := some 4 },
    { name := "code", dataType := "uint32", offset := some 6 },
    { name := "low", dataType := "uint16", bitLength := some 9 },
    { name := "high", dataType := "uint16", bitLength := some 9 }]

/-- A draft of two records with explicit offsets. -/
def overlay : Draft where
  records := [panel, cell]

/-- The project that is built from the draft with explicit offsets. -/
def overlaid : Project where
  name := ""
  system := none
  dataStreams := []
  includes := []
  groups := []
  records := [cell, panel]
  placements := [
    ⟨[("wide", 0), ("on", 1), ("mode", 1), ("raw", 0)], 2⟩,
    ⟨[("cells", 4), ("code", 6), ("low", 10), ("high", 12)], 14⟩]
  types := (TypeTable.builtin.defineRecord "Cell" 2).defineRecord "Panel" 26
  diagnostics := []

/-- The layouts of this project. -/
def overlaidLayouts : List Layout := overlaid.layouts.toOption.getD []

theorem overlay_build : overlay.build = .ok overlaid := by decide +kernel

theorem overlaid_wellNamed : overlaid.WellNamed := by decide +kernel

theorem overlaid_wordBits : overlaid.WordBits := by decide +kernel

theorem overlaid_layouts : overlaid.layouts = .ok overlaidLayouts := by decide +kernel

end Sample

end RecordSwap
