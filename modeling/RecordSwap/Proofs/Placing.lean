import Mathlib.Data.List.Forall2
import RecordSwap.Proofs.Cycles
import RecordSwap.Proofs.Projects

/-!
# Placing in another order

The same records can stand in several orders in which each one comes after those it embeds. While
they are placed, the type table knows the sizes of some of them only, but it is the final table that
decides where their members lie.

* `TypeTable.AgreeOff`: tables that differ in the sizes of the named records alone.
* `Placement.Settled`: a record that is placed with a table in which its own size has been noted.
  All records are settled in the table at the end (`Placed.settled`).
* `Placed.ofRecords_of_settled`: if all records are settled in some table, placing them in sequence
  ends with that table.
* `Placed.ofRecords_perm`: so every sequence of them is placed in the same way.
* `Record.order_isOk_perm`: records in another order can be put in sequence as well.
-/

namespace RecordSwap

/-! ## Type tables -/

/-- Tables with the same primitives and the same sizes of all records but those named. -/
structure TypeTable.AgreeOff (names : List String) (t t' : TypeTable) : Prop where
  primitives : t.primitives = t'.primitives
  records : ∀ name ∉ names, t.recordSize? name = t'.recordSize? name

namespace TypeTable.AgreeOff

variable {names : List String} {t t' : TypeTable} {name : String}

theorem sizeOf? (h : AgreeOff names t t') (hn : name ∉ names) :
    t.sizeOf? name = t'.sizeOf? name := by
  rw [TypeTable.sizeOf?, TypeTable.sizeOf?, primitive?, primitive?, h.primitives, h.records name hn]

theorem sizeOf (h : AgreeOff names t t') (hn : name ∉ names) : t.sizeOf name = t'.sizeOf name :=
  sizeOf_congr h.primitives (h.records name hn)

theorem category? (h : AgreeOff names t t') (hn : name ∉ names) :
    t.category? name = t'.category? name := by
  rw [TypeTable.category?, TypeTable.category?, primitive?, primitive?, h.primitives,
    h.records name hn]

/-- Once the size of a record is noted, it need not be named any more. -/
theorem defineRecord (h : AgreeOff (name :: names) t t') {size : Nat}
    (hsize : t'.recordSize? name = some size) : AgreeOff names (t.defineRecord name size) t' := by
  refine ⟨h.primitives, fun other hother => ?_⟩
  by_cases he : other = name
  · rw [he, recordSize?_defineRecord_self, hsize]
  · rw [recordSize?_defineRecord _ _ he, h.records other (by simp [he, hother])]

end TypeTable.AgreeOff

/-! ## Placements -/

theorem Placement.ofRecord_congr {t t' : TypeTable} {s : Record}
    (h : ∀ r ∈ s.declared, t.sizeOf r.dataType = t'.sizeOf r.dataType) :
    ofRecord t s = ofRecord t' s := by
  rw [ofRecord, ofRecord, Slot.ofRows_congr h]

theorem Placement.unknownTypes_congr {t t' : TypeTable} {s : Record}
    (h : ∀ r ∈ s.declared, t.sizeOf? r.dataType = t'.sizeOf? r.dataType) :
    unknownTypes t s = unknownTypes t' s :=
  List.filterMap_congr fun r hr => by rw [h r hr]

/-- The placement of a record with a table in which the size of the record has been noted. -/
structure Placement.Settled (types : TypeTable) (s : Record) (placement : Placement) : Prop where
  placed : ofRecord types s = .ok placement
  fits : placement.size + s.headerSize < sizeLimit
  noted : types.recordSize? s.name = some (placement.size + s.headerSize)

namespace Placed

variable {types final : TypeTable} {records records' : List Record}

/-- All records are settled in the table at the end. -/
theorem settled {placed : Placed} (hs : Record.Sequenced records)
    (h : ofRecords types records = .ok placed) :
    TypeTable.AgreeOff (records.map Record.name) types placed.types ∧
      ∀ s ∈ records, ∃ placement, Placement.Settled placed.types s placement := by
  obtain ⟨hprim, hsame, hlen, hof⟩ := ofRecords_ok h
  refine ⟨⟨hprim.symm, fun name hn => (hsame name hn).symm⟩, fun s hm => ?_⟩
  obtain ⟨i, hi⟩ := List.mem_iff_getElem?.1 hm
  have hlt : i < placed.placements.length := hlen ▸ (List.getElem?_eq_some_iff.1 hi).1
  obtain ⟨⟨t, hplace, ht⟩, hfits, hnoted⟩ := hof i s _ hi (List.getElem?_eq_getElem hlt)
  refine ⟨placed.placements[i], ?_, hfits, hnoted (name_not_mem_drop hs.nodup hi)⟩
  rw [← hplace]
  exact (Placement.ofRecord_congr fun r hr => ht _ (hs.type_not_mem hi hr)).symm

/-- If all records are settled in a table, placing them in sequence ends with this table. -/
theorem ofRecords_of_settled (hs : Record.Sequenced records)
    (hagree : TypeTable.AgreeOff (records.map Record.name) types final)
    (hall : ∀ s ∈ records, ∃ placement, Placement.Settled final s placement) :
    ∃ placed, ofRecords types records = .ok placed ∧ TypeTable.AgreeOff [] placed.types final ∧
      List.Forall₂ (Placement.Settled final) records placed.placements ∧
      placed.diagnostics = records.flatMap (Placement.unknownTypes final) := by
  induction records generalizing types with
  | nil => exact ⟨{ types }, rfl, hagree, .nil, rfl⟩
  | cons s rest ih =>
    -- the types of the rows are neither this record nor a later one
    have hrow : ∀ r ∈ s.declared, r.dataType ∉ (s :: rest).map Record.name :=
      fun r hr => hs.type_not_mem (i := 0) rfl hr
    obtain ⟨placement, hsettled⟩ := hall s (.head _)
    have hplace : Placement.ofRecord types s = .ok placement :=
      (Placement.ofRecord_congr fun r hr => hagree.sizeOf (hrow r hr)).trans hsettled.placed
    have hunknown : Placement.unknownTypes types s = Placement.unknownTypes final s :=
      Placement.unknownTypes_congr fun r hr => hagree.sizeOf? (hrow r hr)
    obtain ⟨placed, hplaced, hfinal, hplacements, hdiagnostics⟩ :=
      ih hs.tail (hagree.defineRecord hsettled.noted) fun t ht => hall t (.tail _ ht)
    refine ⟨⟨placed.types, placement :: placed.placements,
      Placement.unknownTypes types s ++ placed.diagnostics⟩, ?_, hfinal,
      .cons hsettled hplacements, ?_⟩
    · rw [ofRecords, hplace, Checked.ok_bind, addSize_eq_ok.2 ⟨hsettled.fits, rfl⟩,
        Checked.ok_bind, hplaced]
      rfl
    · rw [hunknown, hdiagnostics, List.flatMap_cons]

/-- What placing a permutation of some records gives: the same table, the same placement of each
record, and the same reports. -/
structure Reordered (records records' : List Record) (placed placed' : Placed) : Prop where
  types : TypeTable.AgreeOff [] placed'.types placed.types
  placements : List.Forall₂ (Placement.Settled placed.types) records placed.placements
  placements' : List.Forall₂ (Placement.Settled placed.types) records' placed'.placements
  diagnostics : placed'.diagnostics.Perm placed.diagnostics

theorem ofRecords_perm {placed : Placed} (hs : Record.Sequenced records)
    (hs' : Record.Sequenced records') (hp : records'.Perm records)
    (h : ofRecords types records = .ok placed) :
    ∃ placed', ofRecords types records' = .ok placed' ∧
      Reordered records records' placed placed' := by
  obtain ⟨hagree, hall⟩ := settled hs h
  obtain ⟨same, hsame, -, hplacements, hdiagnostics⟩ := ofRecords_of_settled hs hagree hall
  obtain rfl := Except.ok.inj (h.symm.trans hsame)
  have hagree' : TypeTable.AgreeOff (records'.map Record.name) types placed.types :=
    ⟨hagree.primitives, fun name hn =>
      hagree.records name fun hm => hn ((hp.map Record.name).mem_iff.2 hm)⟩
  obtain ⟨placed', hplaced', htypes, hplacements', hdiagnostics'⟩ :=
    ofRecords_of_settled hs' hagree' fun s hm => hall s (hp.subset hm)
  refine ⟨placed', hplaced', htypes, hplacements, hplacements', ?_⟩
  rw [hdiagnostics, hdiagnostics']
  exact hp.flatMap_right _

end Placed

/-! ## Ordering -/

namespace Record

variable {records records' : List Record}

theorem onCycle_perm (hp : records'.Perm records) {s : Record} (h : OnCycle records' s) :
    OnCycle records s := by
  refine Relation.TransGen.mono ?_ _ _ h
  rintro s t ⟨hs, ht, hst⟩
  exact ⟨hp.subset hs, hp.subset ht, hst⟩

/-- Whether records can be ordered does not depend on the order they are given in. -/
theorem order_isOk_perm (hd : (records.map name).Nodup) (hp : records'.Perm records) :
    (∃ out, order records' = .ok out) ↔ ∃ out, order records = .ok out := by
  have hd' : (records'.map name).Nodup := (hp.map name).nodup_iff.2 hd
  rw [order_isOk_iff hd, order_isOk_iff hd']
  constructor
  · intro h s hs
    exact h s (onCycle_perm hp.symm hs)
  · intro h s hs
    exact h s (onCycle_perm hp hs)

end Record

end RecordSwap
