import Mathlib.Data.List.Forall2
import RecordSwap.Proofs.Pieces

/-!
# Layouts of placed records

A record that has been placed has a layout, and no sum or product of the layout overflows.

* `Slot.placeFrom_ok`: every slot starts where it was placed and ends within the record.
* `Placement.ofRecord_ok`: the offset found for a row is the start of its slot.
* `Layout.Frame.pieces`: the pieces that slots and their starts give.
* `Layout.Frame.pieces_ascending`: without explicit offsets each piece starts after the end of those
  before it.
* `Layout.Arranged`: a layout that consists of these pieces. The layout of a placed record exists
  and is such a one (`Layout.ofRecord_ok`); `Layout.Describes` is what follows for its fields.
-/

namespace RecordSwap

/-! ## Placement -/

theorem Slot.firstRow_mem (slot : Slot) : slot.firstRow ∈ slot.rows := by
  cases slot <;> simp [firstRow, rows]

/-- A slot of known size, from its start to an end that is not past `stop`. -/
def Slot.EndsBy (stop : Nat) (slot : Slot) (start : Nat) : Prop :=
  ∃ n, slot.size = .ok n ∧ start + n ≤ stop

theorem Slot.placeFrom_ok {slots : List Slot} {cursor last : Nat} {starts : List Nat}
    (h : placeFrom cursor slots = .ok (starts, last)) :
    cursor ≤ last ∧ List.Forall₂ (Slot.EndsBy last) slots starts := by
  induction slots generalizing cursor starts with
  | nil =>
    cases h
    exact ⟨Nat.le_refl _, .nil⟩
  | cons slot rest ih =>
    simp only [placeFrom] at h
    obtain ⟨n, hn, h⟩ := Checked.bind_eq_ok.1 h
    obtain ⟨stop, hstop, h⟩ := Checked.bind_eq_ok.1 h
    obtain ⟨⟨starts', last'⟩, hrest, h⟩ := Checked.bind_eq_ok.1 h
    cases h
    obtain ⟨-, rfl⟩ := addSize_eq_ok.1 hstop
    obtain ⟨hle, hall⟩ := ih hrest
    exact ⟨by omega, .cons ⟨n, hn, by omega⟩ hall⟩

theorem lookup_of_mem {l : List (String × Nat)} (hn : (l.map Prod.fst).Nodup) {k : String}
    {v : Nat} (h : (k, v) ∈ l) : l.lookup k = some v := by
  induction l with
  | nil => simp at h
  | cons x l ih =>
    obtain ⟨hx, hl⟩ := List.nodup_cons.1 hn
    rcases List.mem_cons.1 h with rfl | h
    · simp
    · have hne : (k == x.1) = false :=
        beq_eq_false_iff_ne.2 fun he => hx (he ▸ List.mem_map_of_mem h)
      rw [List.lookup_cons, hne]
      exact ih hl h

/-- The offset of a slot's rows is the start of the slot. -/
def Placement.Places (placement : Placement) (slot : Slot) (start : Nat) : Prop :=
  ∀ r ∈ slot.rows, placement.offset? r.name = some start

theorem mem_zip_offsets {slots : List Slot} {starts : List Nat} {R : Slot → Nat → Prop}
    (h : List.Forall₂ R slots starts) :
    List.Forall₂ (fun slot start => (slot, start) ∈ slots.zip starts) slots starts := by
  induction h with
  | nil => exact .nil
  | cons hR _ ih =>
    refine .cons (by simp) (ih.imp fun _ _ hm => ?_)
    rw [List.zip_cons_cons]
    exact .tail _ hm

theorem map_fst_offsets {slots : List Slot} {starts : List Nat} {R : Slot → Nat → Prop}
    (h : List.Forall₂ R slots starts) :
    ((slots.zip starts).flatMap fun (slot, start) => slot.rows.map fun r => (r.name, start)).map
      Prod.fst = (slots.flatMap Slot.rows).map Row.name := by
  induction h with
  | nil => rfl
  | cons _ _ ih => simp [ih, Function.comp_def]

theorem Placement.ofRecord_ok {types : TypeTable} {s : Record} {placement : Placement}
    (h : ofRecord types s = .ok placement) :
    ∃ slots starts, Slot.ofRows types.sizeOf s.declared = .ok slots ∧
      Slot.placeFrom 0 slots = .ok (starts, placement.size) ∧
      List.Forall₂ placement.Places slots starts := by
  obtain ⟨slots, hslots, h⟩ := Checked.bind_eq_ok.1 h
  obtain ⟨⟨starts, size⟩, hplace, h⟩ := Checked.bind_eq_ok.1 h
  cases h
  refine ⟨slots, starts, hslots, hplace, ?_⟩
  obtain ⟨-, hall⟩ := Slot.placeFrom_ok hplace
  have hnodup := s.declared_nodup
  rw [(Slot.ofRows_ok hslots).1, ← map_fst_offsets hall] at hnodup
  refine (mem_zip_offsets hall).imp fun slot start hm r hr => lookup_of_mem hnodup ?_
  exact List.mem_flatMap.2 ⟨(slot, start), hm, List.mem_map_of_mem hr⟩

/-! ## Pieces -/

/-- Number of storage units of a slot. -/
def Slot.units : Slot → Nat
  | member _ _ => 0
  | unit _ _ _ => 1

namespace Layout.Frame

variable (c : Frame)

/-- Layout of a row of a slot that starts at `start`. -/
def fieldAt (start : Nat) (row : Row) (elementSize : Nat) (group : Option Nat) (shift : Nat) :
    FieldLayout where
  name := row.name
  dataType := row.dataType
  extents := row.extents
  bitLength := row.bitField?
  offset := start + c.headerSize
  elementSize := elementSize
  size := elementSize * arrayLength row.extents
  group := group
  shift := shift
  description := row.description
  rates := c.dataStreams.filterMap fun stream => (row.rate? stream).map (stream, ·)

/-- Layout of a storage unit that starts at `start`. -/
def unitAt (start byteSize : Nat) (first : PackedField) (others : List PackedField) :
    UnitLayout where
  dataType := first.row.dataType
  filledBits := PackedField.filledTo 0 (first :: others)
  capacity := 8 * (byteSize % bitLimit)
  byteSize := byteSize
  offset := start + c.headerSize

/-- The piece of a slot that starts at `start`; `units` counts the storage units before it. -/
def piece (units start : Nat) : Slot → Piece
  | .member row size => .member (c.fieldAt start row size none 0)
  | .unit size first others => .unit (c.unitAt start size first others)
      ((first :: others).map fun p => c.fieldAt start p.row size (some units) p.shift)

/-- The pieces of slots with the given starts. -/
def pieces (units : Nat) : List Slot → List Nat → List Piece
  | slot :: slots, start :: starts =>
    c.piece units start slot :: pieces (units + slot.units) slots starts
  | _, _ => []

/-- A slot whose layout can be computed. -/
structure Fits (sizeOf : String → Nat) (last : Nat) (slot : Slot) (start : Nat) : Prop where
  sound : slot.Sound sizeOf
  places : c.placement.Places slot start
  endsBy : slot.EndsBy last start

end Layout.Frame

theorem Row.extents_of_bitField {r : Row} {bits : Nat} (h : r.bitField? = some bits) :
    r.extents = [] := by
  unfold bitField? isArray at h
  cases he : r.extents with
  | nil => rfl
  | cons => simp [he] at h

theorem PackedField.Chain.scalar {dataType : String} {capacity filled : Nat}
    {fs : List PackedField} (h : Chain dataType capacity filled fs) :
    ∀ p ∈ fs, p.row.bitField? = some p.bits ∧ p.row.dataType = dataType := by
  induction h with
  | nil => simp
  | cons _ hb ht _ _ ih =>
    intro p hp
    rcases List.mem_cons.1 hp with rfl | hp
    · exact ⟨hb, ht⟩
    · exact ih p hp

namespace Layout.Frame

variable {c : Frame} {sizeOf : String → Nat} {last start : Nat}

theorem offset_eq_ok {name : String} (h : c.placement.offset? name = some start)
    (hl : start + c.headerSize < sizeLimit) : c.offset name = .ok (start + c.headerSize) := by
  rw [offset, h]
  exact addSize_eq_ok.2 ⟨hl, rfl⟩

/-- The layout of a row exists if its offset is known and its size is not too large. -/
theorem field_eq_ok {row : Row} {elementSize : Nat} (group : Option Nat) (shift : Nat)
    (h : c.placement.offset? row.name = some start) (hl : start + c.headerSize < sizeLimit)
    {n : Nat} (hn : (do mulSize elementSize (← row.elementCount)) = .ok n) :
    c.field row elementSize group shift = .ok (c.fieldAt start row elementSize group shift) := by
  obtain ⟨count, hc, hm⟩ := Checked.bind_eq_ok.1 hn
  have hp := product_eq_ok hc
  obtain ⟨hlt, -⟩ := mulSize_eq_ok.1 hm
  subst hp
  rw [field, offset_eq_ok h hl, Checked.ok_bind, hc, Checked.ok_bind, mulSize_eq_ok.2 ⟨hlt, rfl⟩]
  rfl

/-- The pieces of slots that fit have the fields that the layout of the slots has. -/
theorem fields_eq_ok {slots : List Slot} {starts : List Nat}
    (h : List.Forall₂ (c.Fits sizeOf last) slots starts) (hl : last + c.headerSize < sizeLimit)
    (units : Nat) : c.fields units slots = .ok ((c.pieces units slots starts).flatMap Piece.fields)
    := by
  induction h generalizing units with
  | nil => rfl
  | @cons slot start slots starts hfit _ ih =>
    obtain ⟨hsound, hplaces, n, hn, hle⟩ := hfit
    cases slot with
    | member row size =>
      have hoff := hplaces row (by simp [Slot.rows])
      rw [fields, field_eq_ok none 0 hoff (by omega) hn, Checked.ok_bind, ih, Checked.ok_bind]
      rfl
    | unit size first others =>
      cases hn
      cases hsound with
      | unit hfirst _ _ hchain =>
        have hfield : ∀ p ∈ first :: others,
            c.field p.row (sizeOf first.row.dataType) (some units) p.shift =
              .ok (c.fieldAt start p.row (sizeOf first.row.dataType) (some units) p.shift) := by
          intro p hp
          have hb : p.row.bitField? = some p.bits := by
            rcases List.mem_cons.1 hp with rfl | hp
            · exact hfirst
            · exact (hchain.scalar p hp).1
          have hm : p.row ∈ (Slot.unit (sizeOf first.row.dataType) first others).rows :=
            List.mem_map_of_mem (f := PackedField.row) hp
          refine field_eq_ok (n := sizeOf first.row.dataType) _ _ (hplaces p.row hm) (by omega) ?_
          rw [Row.elementCount, Row.extents_of_bitField hb]
          exact mulSize_eq_ok.2 ⟨by omega, by simp⟩
        rw [fields, Checked.mapM_eq_ok hfield, Checked.ok_bind, ih, Checked.ok_bind]
        rfl

theorem groups_eq_ok {slots : List Slot} {starts : List Nat}
    (h : List.Forall₂ (c.Fits sizeOf last) slots starts) (hl : last + c.headerSize < sizeLimit)
    (units : Nat) : c.groups slots = .ok ((c.pieces units slots starts).filterMap Piece.unit?) := by
  induction h generalizing units with
  | nil => rfl
  | @cons slot start slots starts hfit _ ih =>
    obtain ⟨hsound, hplaces, n, hn, hle⟩ := hfit
    cases slot with
    | member row size =>
      rw [groups, ih units]
      rfl
    | unit size first others =>
      cases hn
      cases hsound with
      | unit _ _ hcap _ =>
        have hoff := hplaces first.row (by simp [Slot.rows])
        rw [groups, hcap, Checked.ok_bind, offset_eq_ok hoff (by omega), Checked.ok_bind,
          ih (units + 1), Checked.ok_bind, (unitCapacity_eq_ok.1 hcap).2]
        rfl

theorem pieces_numbered (units : Nat) (slots : List Slot) (starts : List Nat) :
    Piece.Numbered units (c.pieces units slots starts) := by
  fun_induction c.pieces units slots starts with
  | case1 units slot slots start starts ih =>
    cases slot with
    | member row size => exact .member rfl ih
    | unit size first others =>
      refine .unit (fun f hf => ?_) ih
      obtain ⟨p, -, rfl⟩ := List.mem_map.1 hf
      rfl
  | case2 => exact .nil _

theorem headerSize_le_offset (units : Nat) (slots : List Slot) (starts : List Nat) :
    ∀ f ∈ (c.pieces units slots starts).flatMap Piece.fields, c.headerSize ≤ f.offset := by
  fun_induction c.pieces units slots starts with
  | case1 units slot slots start starts ih =>
    intro f hf
    rcases List.mem_append.1 hf with hf | hf
    · cases slot with
      | member row size =>
        obtain rfl := List.mem_singleton.1 hf
        exact Nat.le_add_left _ _
      | unit size first others =>
        obtain ⟨p, -, rfl⟩ := List.mem_map.1 hf
        exact Nat.le_add_left _ _
    · exact ih f hf
  | case2 => simp

/-- A chain of bit-fields takes its bits one after the other and fits its unit. -/
theorem bitRun_of_chain {dataType : String} {capacity filled : Nat} {fs : List PackedField}
    (h : PackedField.Chain dataType capacity filled fs) (start size : Nat) (group : Option Nat) :
    BitRun filled (PackedField.filledTo filled fs)
      (fs.map fun p => c.fieldAt start p.row size group p.shift) ∧
      (fs = [] ∨ PackedField.filledTo filled fs ≤ capacity) := by
  induction h with
  | nil => exact ⟨.nil _, .inl rfl⟩
  | @cons filled p rest hs hb _ hc _ ih =>
    obtain ⟨hrun, hle⟩ := ih
    refine ⟨.cons hs hb hrun, .inr ?_⟩
    rcases hle with rfl | hle
    · simpa using hc
    · exact hle

theorem unitSound_unitAt {first : PackedField} {others : List PackedField} {capacity : Nat}
    (hfirst : first.row.bitField? = some first.bits) (hzero : first.shift = 0)
    (hcap : unitCapacity (sizeOf first.row.dataType) = .ok capacity)
    (hchain : PackedField.Chain first.row.dataType capacity first.bits others) (start units : Nat) :
    Piece.UnitSound sizeOf (c.unitAt start (sizeOf first.row.dataType) first others)
      ((first :: others).map fun p =>
        c.fieldAt start p.row (sizeOf first.row.dataType) (some units) p.shift) := by
  obtain ⟨hrun, hle⟩ := bitRun_of_chain (c := c) hchain start (sizeOf first.row.dataType)
    (some units)
  have hc := (unitCapacity_eq_ok.1 hcap).2
  refine ⟨by simp, ?_, ?_, ?_, rfl, ?_⟩
  · refine .cons hzero hfirst ?_
    simpa [unitAt] using hrun
  · rcases hle with rfl | hle
    · exact .inr rfl
    · left
      simpa [unitAt, hc] using hle
  · simp only [unitAt]
    rw [hcap, hc]
  · intro f hf
    obtain ⟨p, hp, rfl⟩ := List.mem_map.1 hf
    have hb : p.row.bitField? = some p.bits ∧ p.row.dataType = first.row.dataType := by
      rcases List.mem_cons.1 hp with rfl | hp
      · exact ⟨hfirst, rfl⟩
      · exact hchain.scalar p hp
    exact ⟨hb.2, rfl, rfl, Row.extents_of_bitField hb.1⟩

theorem piece_span {slot : Slot} {n : Nat} (hn : slot.size = .ok n) (units start : Nat) :
    (c.piece units start slot).span = ⟨start + c.headerSize, n⟩ := by
  cases slot with
  | member row size =>
    obtain ⟨count, hc, hm⟩ := Checked.bind_eq_ok.1 hn
    have hp := product_eq_ok hc
    obtain ⟨-, rfl⟩ := mulSize_eq_ok.1 hm
    subst hp
    rfl
  | unit size first others =>
    cases hn
    rfl

theorem piece_sound {slot : Slot} {n : Nat} (h : slot.Sound sizeOf) (hn : slot.size = .ok n)
    (units start : Nat) : (c.piece units start slot).Sound sizeOf := by
  cases h with
  | @member row hb =>
    obtain ⟨count, hc, -⟩ := Checked.bind_eq_ok.1 hn
    have hp := product_eq_ok hc
    subst hp
    exact ⟨hb, rfl, hc, rfl⟩
  | @unit first others capacity hfirst hzero hcap hchain =>
    exact unitSound_unitAt hfirst hzero hcap hchain start units

/-- Each piece is sound and ends within the record. -/
theorem pieces_sound {slots : List Slot} {starts : List Nat}
    (h : List.Forall₂ (c.Fits sizeOf last) slots starts) (units : Nat) :
    ∀ q ∈ c.pieces units slots starts, q.Sound sizeOf ∧
      q.span.start + q.span.size ≤ last + c.headerSize := by
  induction h generalizing units with
  | nil => simp [pieces]
  | @cons slot start slots starts hfit _ ih =>
    obtain ⟨hsound, -, n, hn, hle⟩ := hfit
    intro q hq
    rcases List.mem_cons.1 hq with rfl | hq
    · refine ⟨piece_sound hsound hn units start, ?_⟩
      rw [piece_span hn]
      simp only
      omega
    · exact ih _ q hq

/-- Without explicit offsets each piece starts after the end of those before it. -/
theorem pieces_ascending {slots : List Slot} {starts : List Nat} {cursor : Nat}
    (h : Slot.placeFrom cursor slots = .ok (starts, last))
    (hn : ∀ slot ∈ slots, slot.firstRow.offset = none) (units : Nat) :
    (∀ q ∈ c.pieces units slots starts, cursor + c.headerSize ≤ q.span.start) ∧
      (c.pieces units slots starts).Pairwise fun q q' =>
        q.span.start + q.span.size ≤ q'.span.start := by
  induction slots generalizing cursor starts units with
  | nil => simp [pieces]
  | cons slot rest ih =>
    simp only [Slot.placeFrom, hn slot (.head _), Option.getD_none] at h
    obtain ⟨n, hsize, h⟩ := Checked.bind_eq_ok.1 h
    obtain ⟨stop, hstop, h⟩ := Checked.bind_eq_ok.1 h
    obtain ⟨⟨starts', last'⟩, hrest, h⟩ := Checked.bind_eq_ok.1 h
    cases h
    obtain ⟨-, rfl⟩ := addSize_eq_ok.1 hstop
    obtain ⟨hafter, hpair⟩ := ih hrest (fun slot hs => hn slot (.tail _ hs)) (units + slot.units)
    have hspan := piece_span (c := c) hsize units cursor
    refine ⟨fun q hq => ?_, .cons (fun q hq => ?_) hpair⟩
    · rcases List.mem_cons.1 hq with rfl | hq
      · exact Nat.le_of_eq (congrArg Span.start hspan).symm
      · have := hafter q hq
        omega
    · have := hafter q hq
      rw [hspan]
      simp only
      omega

end Layout.Frame

/-- A member's layout shows what its row says. -/
def FieldLayout.Shows (f : FieldLayout) (r : Row) : Prop :=
  f.name = r.name ∧ f.dataType = r.dataType ∧ f.extents = r.extents ∧ f.bitLength = r.bitField?

theorem Layout.Frame.pieces_shows {c : Frame} {R : Slot → Nat → Prop} {slots : List Slot}
    {starts : List Nat} (h : List.Forall₂ R slots starts) (units : Nat) :
    List.Forall₂ FieldLayout.Shows ((c.pieces units slots starts).flatMap Piece.fields)
      (slots.flatMap Slot.rows) := by
  induction h generalizing units with
  | nil => exact .nil
  | @cons slot start slots starts _ _ ih =>
    refine List.rel_append ?_ (ih _)
    cases slot with
    | member row size => exact .cons ⟨rfl, rfl, rfl, rfl⟩ .nil
    | unit size first others =>
      rw [show (Slot.unit size first others).rows = (first :: others).map PackedField.row from rfl,
        piece, Piece.fields, List.forall₂_map_left_iff, List.forall₂_map_right_iff]
      exact List.forall₂_same.2 fun p _ => ⟨rfl, rfl, rfl, rfl⟩

/-- A layout of a record that takes `size` bytes. -/
structure Layout.Describes (sizeOf : String → Nat) (l : Layout) (s : Record) (size : Nat) : Prop
    where
  name : l.name = s.name
  totalSize : l.totalSize = size
  headerSize : l.headerSize = s.headerSize
  headerFirst : l.HeaderFirst
  shows : List.Forall₂ FieldLayout.Shows l.fields s.declared
  consists : ∃ pieces, l.Consists sizeOf pieces
  /-- Members and units that follow one another share no byte. -/
  disjoint : (∀ r ∈ s.declared, r.offset = none) → l.SpansDisjoint

/-- A layout that has been computed from the slots of a record, placed one after the other. -/
structure Layout.Arranged (sizeOf : String → Nat) (s : Record) (l : Layout) (c : Frame)
    (slots : List Slot) (starts : List Nat) : Prop where
  name : l.name = s.name
  header : l.header = s.hasHeader
  frame : c.headerSize = s.headerSize
  totalSize : l.totalSize = c.placement.size + c.headerSize
  scanned : Slot.ofRows sizeOf s.declared = .ok slots
  placed : Slot.placeFrom 0 slots = .ok (starts, c.placement.size)
  fits : List.Forall₂ (c.Fits sizeOf c.placement.size) slots starts
  fields : l.fields = (c.pieces 0 slots starts).flatMap Piece.fields
  groups : l.groups = (c.pieces 0 slots starts).filterMap Piece.unit?

/-- **The layout of a placed record exists**, and is as large as the record was placed to be. -/
theorem Layout.ofRecord_ok {p : Project} {s : Record} {types : TypeTable} {placement : Placement}
    (h : Placement.ofRecord types s = .ok placement)
    (hsizes : ∀ r ∈ s.declared, types.sizeOf r.dataType = p.types.sizeOf r.dataType)
    (hl : placement.size + s.headerSize < sizeLimit) :
    ∃ l c slots starts, ofRecord p s placement = .ok l ∧
      l.totalSize = placement.size + s.headerSize ∧
      l.Arranged p.types.sizeOf s c slots starts := by
  obtain ⟨slots, starts, hslots, hplace, hplaces⟩ := Placement.ofRecord_ok h
  rw [Slot.ofRows_congr hsizes] at hslots
  obtain ⟨-, hsound⟩ := Slot.ofRows_ok hslots
  obtain ⟨-, hends⟩ := Slot.placeFrom_ok hplace
  let c : Frame := ⟨s.headerSize, placement, p.dataStreams⟩
  -- the slots are sound, placed at their starts and end within the record
  have hfits : List.Forall₂ (c.Fits p.types.sizeOf placement.size) slots starts := by
    have hboth := List.Forall₂.mp (fun _ _ hp he => And.intro hp he) hplaces hends
    refine ((List.forall₂_and_left _ _).2 ⟨hsound, hboth⟩).imp fun _ _ h => ?_
    exact ⟨h.1, h.2.1, h.2.2⟩
  rw [ofRecord, hslots, Checked.ok_bind, Frame.fields_eq_ok hfits hl 0, Checked.ok_bind,
    Frame.groups_eq_ok hfits hl 0, Checked.ok_bind, addSize_eq_ok.2 ⟨hl, rfl⟩, Checked.ok_bind]
  exact ⟨_, c, slots, starts, rfl, rfl, rfl, rfl, rfl, rfl, hslots, hplace, hfits, rfl, rfl⟩

namespace Layout.Arranged

variable {sizeOf : String → Nat} {s : Record} {l : Layout} {c : Frame} {slots : List Slot}
  {starts : List Nat} (h : l.Arranged sizeOf s c slots starts)
include h

theorem headerSize : l.headerSize = c.headerSize := by
  rw [h.frame, Layout.headerSize, Record.headerSize, h.header]

theorem rows : s.declared = slots.flatMap Slot.rows := (Slot.ofRows_ok h.scanned).1

theorem consists : l.Consists sizeOf (c.pieces 0 slots starts) :=
  ⟨h.fields, h.groups, Frame.pieces_numbered _ _ _,
    fun q hq => (Frame.pieces_sound h.fits 0 q hq).1,
    fun q hq => h.totalSize ▸ (Frame.pieces_sound h.fits 0 q hq).2⟩

theorem describes : l.Describes sizeOf s l.totalSize := by
  have hshows := Frame.pieces_shows (c := c) h.fits 0
  rw [← h.rows, ← h.fields] at hshows
  have hheader := h.headerSize
  have hsize := h.totalSize
  refine ⟨h.name, rfl, hheader.trans h.frame, ⟨by omega, ?_⟩, hshows, ⟨_, h.consists⟩,
    fun hnone => h.consists.pairwise_iff.2 ?_⟩
  · rw [h.fields, hheader]
    exact Frame.headerSize_le_offset 0 slots starts
  · have hfirst : ∀ slot ∈ slots, slot.firstRow.offset = none := fun slot hs =>
      hnone _ (h.rows ▸ List.mem_flatMap.2 ⟨slot, hs, slot.firstRow_mem⟩)
    refine (Frame.pieces_ascending h.placed hfirst 0).2.imp fun {q q'} hle => ?_
    exact Span.disjoint_iff.2 (.inr (.inr (.inl hle)))

end Layout.Arranged

end RecordSwap
