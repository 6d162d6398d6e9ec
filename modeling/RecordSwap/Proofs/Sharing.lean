import Mathlib.Data.List.Chain
import RecordSwap.Proofs.Projects

/-!
# Shared storage units

Which bit-fields of a record share a storage unit, and how they fill it.

* `UnitLayout.Holds`: bit-fields that fill a unit from its lowest bit on, one after the other. Those
  of a sound piece do (`Piece.UnitSound.holds`).
* `Layout.Grouped`: a layout whose units each hold a run of adjacent members, and in which a new
  unit is opened only where the one before it cannot take the next bit-field.
* `Slot.scan_apart`: packing opens no other units. This is carried from the slots to the pieces of
  a layout (`Layout.Frame.pieces_apart`) and from there to its members
  (`Layout.Consists.boundary`).
* `Piece.Numbered.exists_run`: the members with one unit number are those of one piece.
* `Draft.layouts_grouped`: the statement about built projects.
-/

namespace RecordSwap

/-- Bits of a bit-field, none for a plain member. -/
def FieldLayout.bits (f : FieldLayout) : Nat := f.bitLength.getD 0

/-- A storage unit and the bit-fields that share it, from the lowest bit on. -/
structure UnitLayout.Holds (u : UnitLayout) (fs : List FieldLayout) : Prop where
  ne_nil : fs ≠ []
  firstShift : ∀ f ∈ fs.head?, f.shift = 0
  nextShift : fs.IsChain fun f f' => f'.shift = f.shift + f.bits
  disjoint : fs.Pairwise fun f f' => f.shift + f.bits ≤ f'.shift
  filledBits : u.filledBits = (fs.map FieldLayout.bits).sum
  capacity : unitCapacity u.byteSize = .ok u.capacity
  /-- Only a single bit-field can be wider than the unit. -/
  fits : u.filledBits ≤ u.capacity ∨ fs.length = 1
  fields : ∀ f ∈ fs, f.bitLength.isSome ∧ f.dataType = u.dataType ∧ f.offset = u.offset ∧
    f.elementSize = u.byteSize

namespace Layout

/-- The bit-fields in the unit of a number. -/
def sharing (l : Layout) (g : Nat) : List FieldLayout := l.fields.filter (·.group = some g)

/-- Two bit-fields are in one unit, or the unit of the first cannot take the second. -/
def Parted (l : Layout) (f f' : FieldLayout) : Prop :=
  ∀ {g g' : Nat} {u : UnitLayout}, f.group = some g → f'.group = some g' → g ≠ g' →
    l.groups[g]? = some u → f.dataType ≠ f'.dataType ∨ u.capacity < u.filledBits + f'.bits

/-- A layout of a record whose units are shared as much as the order of the rows allows. -/
structure Grouped (s : Record) (l : Layout) : Prop where
  fields : List.Forall₂ (fun f r => FieldLayout.Shows f r ∧
    (f.group.isSome ↔ r.extents = [] ∧ r.bitLength.isSome)) l.fields s.declared
  number_lt : ∀ f ∈ l.fields, ∀ g ∈ f.group, g < l.groups.length
  ordered : l.fields.Pairwise fun f f' => ∀ g ∈ f.group, ∀ g' ∈ f'.group, g ≤ g'
  run : ∀ {g : Nat} {u : UnitLayout}, l.groups[g]? = some u →
    l.sharing g <:+: l.fields ∧ u.Holds (l.sharing g)
  boundary : l.fields.IsChain l.Parted

end Layout

/-! ## Runs of bits -/

namespace BitRun

variable {a b : Nat} {fs : List FieldLayout}

theorem eq_sum (h : BitRun a b fs) : b = a + (fs.map FieldLayout.bits).sum := by
  induction h with
  | nil => rfl
  | cons _ hb _ ih =>
    rw [ih, List.map_cons, List.sum_cons, FieldLayout.bits, hb, Nat.add_assoc]
    rfl

theorem isChain (h : BitRun a b fs) : fs.IsChain fun f f' => f'.shift = f.shift + f.bits := by
  induction h with
  | nil => exact .nil
  | @cons n bits stop f rest hs hb hrun ih =>
    refine List.isChain_cons.2 ⟨fun f' hf' => ?_, ih⟩
    obtain ⟨rest, rfl⟩ := List.head?_eq_some_iff.1 hf'
    rw [hrun.head_shift, hs, FieldLayout.bits, hb]
    rfl

theorem pairwise (h : BitRun a b fs) :
    fs.Pairwise fun f f' => f.shift + f.bits ≤ f'.shift := by
  induction h with
  | nil => exact .nil
  | @cons n bits stop f rest hs hb hrun ih =>
    refine .cons (fun f' hf' => ?_) ih
    obtain ⟨-, -, hle, -⟩ := hrun.isSome f' hf'
    rw [FieldLayout.bits, hb, hs]
    exact hle

end BitRun

theorem Piece.UnitSound.holds {sizeOf : String → Nat} {u : UnitLayout} {fs : List FieldLayout}
    (h : UnitSound sizeOf u fs) : u.Holds fs := by
  refine ⟨h.ne_nil, fun f hf => ?_, h.run.isChain, h.run.pairwise, ?_, h.capacity, h.fits,
    fun f hf => ?_⟩
  · obtain ⟨rest, rfl⟩ := List.head?_eq_some_iff.1 hf
    exact h.run.head_shift
  · rw [h.run.eq_sum, Nat.zero_add]
  · obtain ⟨bits, hb, -⟩ := h.run.isSome f hf
    obtain ⟨htype, hoffset, hsize, -⟩ := h.fields f hf
    exact ⟨by simp [hb], htype, hoffset, hsize⟩

/-! ## Unit numbers -/

namespace Piece.Numbered

variable {n : Nat} {pieces : List Piece}

/-- The members with one unit number are those of one piece, and stand together. -/
theorem exists_run (h : Numbered n pieces) {i : Nat} {u : UnitLayout}
    (hu : (pieces.filterMap Piece.unit?)[i]? = some u) :
    ∃ before fs after, .unit u fs ∈ pieces ∧
      pieces.flatMap Piece.fields = before ++ fs ++ after ∧ (∀ f ∈ fs, f.group = some (n + i)) ∧
      ∀ f ∈ before ++ after, f.group ≠ some (n + i) := by
  induction h generalizing i with
  | nil => simp at hu
  | @member n f rest hnone _ ih =>
    obtain ⟨before, fs, after, hm, hfields, hfs, hother⟩ := ih hu
    refine ⟨f :: before, fs, after, .tail _ hm, ?_, hfs, fun f' hf' => ?_⟩
    · rw [List.flatMap_cons, hfields]
      rfl
    · rcases List.mem_cons.1 hf' with rfl | hf'
      · simp [hnone]
      · exact hother f' hf'
  | @unit n v gs rest hgs hrest ih =>
    cases i with
    | zero =>
      obtain rfl : v = u := by simpa [unit?] using hu
      refine ⟨[], gs, rest.flatMap Piece.fields, .head _, rfl, hgs, fun f hf hg => ?_⟩
      obtain ⟨hle, -⟩ := hrest.unit_of_group hf hg
      omega
    | succ i =>
      obtain ⟨before, fs, after, hm, hfields, hfs, hother⟩ := ih (i := i) (by simpa [unit?] using hu)
      rw [show n + 1 + i = n + (i + 1) by omega] at hfs hother
      refine ⟨gs ++ before, fs, after, .tail _ hm, ?_, hfs, fun f hf => ?_⟩
      · rw [List.flatMap_cons, hfields, Piece.fields]
        simp
      · rw [List.append_assoc] at hf
        rcases List.mem_append.1 hf with hf | hf
        · rw [hgs f hf]
          simp
        · exact hother f hf

/-- Every unit has a number, which all its bit-fields carry. -/
theorem number_of_unit (h : Numbered n pieces) {u : UnitLayout} {fs : List FieldLayout}
    (hm : .unit u fs ∈ pieces) :
    ∃ i, (pieces.filterMap Piece.unit?)[i]? = some u ∧ ∀ f ∈ fs, f.group = some (n + i) := by
  induction h with
  | nil => simp at hm
  | member _ _ ih =>
    rcases List.mem_cons.1 hm with hm | hm
    · cases hm
    · exact ih hm
  | @unit n v gs rest hgs _ ih =>
    rcases List.mem_cons.1 hm with hm | hm
    · cases hm
      exact ⟨0, rfl, hgs⟩
    · obtain ⟨i, hi, hfs⟩ := ih hm
      exact ⟨i + 1, hi, fun f hf => by rw [hfs f hf]; congr 1; omega⟩

theorem ordered (h : Numbered n pieces) :
    (pieces.flatMap Piece.fields).Pairwise fun f f' => ∀ g ∈ f.group, ∀ g' ∈ f'.group, g ≤ g' := by
  induction h with
  | nil => exact .nil
  | member hnone _ ih =>
    refine .cons (fun f' _ g hg => ?_) ih
    simp [hnone] at hg
  | @unit n u fs rest hfs hrest ih =>
    refine List.pairwise_append.2 ⟨?_, ih, fun f hf f' hf' g hg g' hg' => ?_⟩
    · refine List.pairwise_of_forall_mem_list fun f hf f' hf' g hg g' hg' => ?_
      rw [hfs f hf, Option.mem_some] at hg
      rw [hfs f' hf', Option.mem_some] at hg'
      omega
    · obtain ⟨hle, -⟩ := hrest.unit_of_group hf' hg'
      rw [hfs f hf, Option.mem_some] at hg
      omega

end Piece.Numbered

/-! ## Where units end -/

namespace Slot

/-- A slot that a unit with so many bits taken cannot take: a plain member, a bit-field of another
type, or one that does not fit. -/
def Refused (dataType : String) (capacity filled : Nat) : Slot → Prop
  | member _ _ => True
  | unit _ first _ => dataType = first.row.dataType → capacity < filled + first.bits

/-- The second slot cannot be taken by the first one. -/
def Apart : Slot → Slot → Prop
  | member _ _, _ => True
  | unit size first rest, next =>
    next.Refused first.row.dataType (8 * (size % bitLimit)) (PackedField.filledTo 0 (first :: rest))

/-- Each slot is refused by the one before it, and the first one by the unit that is open. -/
theorem scan_apart {sizeOf : String → Nat} {packer : Packer} {rows : List Row}
    {joining : List PackedField} {slots : List Slot}
    (h : scan sizeOf packer rows = .ok (joining, slots)) :
    slots.IsChain Apart ∧ ∀ u, packer.active = some u → ∀ slot ∈ slots.head?,
      slot.Refused u.dataType u.capacity (PackedField.filledTo u.filled joining) := by
  induction rows generalizing packer joining slots with
  | nil =>
    cases h
    exact ⟨.nil, by simp⟩
  | cons row rest ih =>
    rw [scan] at h
    split at h
    · obtain ⟨⟨joining', slots'⟩, hscan, h⟩ := Checked.bind_eq_ok.1 h
      cases h
      obtain ⟨hchain, -⟩ := ih hscan
      refine ⟨List.isChain_cons.2 ⟨fun _ _ => trivial, hchain⟩, fun u _ slot hslot => ?_⟩
      cases hslot
      trivial
    · next bits _ =>
      obtain ⟨⟨step, packer'⟩, hpack, h⟩ := Checked.bind_eq_ok.1 h
      obtain ⟨⟨joining', slots'⟩, hscan, h⟩ := Checked.bind_eq_ok.1 h
      obtain ⟨hchain, hhead⟩ := ih hscan
      obtain ⟨u, hu, ht, hc, rfl, hp⟩ | ⟨rfl, ⟨capacity, hcap, hp⟩, hfull⟩ :=
        Packer.pack_cases hpack
      · cases h
        refine ⟨hchain, fun v hv => ?_⟩
        obtain rfl := Option.some.inj (hu.symm.trans hv)
        exact hhead _ hp
      · cases h
        have hnext := hhead _ hp
        rw [(unitCapacity_eq_ok.1 hcap).2] at hnext
        refine ⟨List.isChain_cons.2 ⟨fun slot hslot => ?_, hchain⟩, fun u hu slot hslot => ?_⟩
        · simpa [Apart] using hnext slot hslot
        · cases hslot
          exact hfull u hu

theorem ofRows_apart {sizeOf : String → Nat} {rows : List Row} {slots : List Slot}
    (h : ofRows sizeOf rows = .ok slots) : slots.IsChain Apart := by
  obtain ⟨joining, hscan⟩ := ofRows_eq_ok.1 h
  exact (scan_apart hscan).1

end Slot

/-- The unit of the first piece cannot take the bit-fields of the second. -/
def Piece.Apart (q q' : Piece) : Prop :=
  ∀ u ∈ q.unit?, ∀ u' ∈ q'.unit?, u.dataType = u'.dataType →
    ∀ f ∈ q'.fields.head?, u.capacity < u.filledBits + f.bits

theorem Layout.Frame.pieces_apart {c : Frame} {sizeOf : String → Nat} {last : Nat}
    {slots : List Slot} {starts : List Nat} (h : List.Forall₂ (c.Fits sizeOf last) slots starts)
    (ha : slots.IsChain Slot.Apart) (units : Nat) :
    (c.pieces units slots starts).IsChain Piece.Apart := by
  induction h generalizing units with
  | nil => exact .nil
  | @cons slot start slots starts _ hrest ih =>
    obtain ⟨hnext, ha⟩ := List.isChain_cons.1 ha
    refine List.isChain_cons.2 ⟨fun q hq => ?_, ih ha _⟩
    cases hrest with
    | nil => simp [pieces] at hq
    | @cons slot' start' slots starts hfit _ =>
      cases hq
      have hnext := hnext slot' rfl
      intro u hu u' hu' ht f hf
      cases slot with
      | member row size => simp [piece, Piece.unit?] at hu
      | unit size first others =>
        cases slot' with
        | member row size => simp [piece, Piece.unit?] at hu'
        | unit size' first' others' =>
          cases hu
          cases hu'
          cases hf
          cases hfit.sound with
          | unit hbits _ _ _ =>
            rw [FieldLayout.bits]
            simp only [fieldAt, hbits]
            exact hnext ht

namespace Layout.Consists

variable {sizeOf : String → Nat} {l : Layout} {pieces : List Piece} (h : l.Consists sizeOf pieces)
include h

/-- A member with a unit number belongs to a piece whose members all have it. -/
theorem unit_of_mem {q : Piece} (hq : q ∈ pieces) {f : FieldLayout} (hf : f ∈ q.fields) {g : Nat}
    (hg : f.group = some g) : ∃ u fs, q = .unit u fs ∧ l.groups[g]? = some u ∧
      ∀ f' ∈ fs, f'.group = some g := by
  cases q with
  | member f' =>
    have hsome := h.numbered.isSome_group h.sound f (List.mem_flatMap.2 ⟨_, hq, hf⟩)
    have hm : Piece.MemberSound sizeOf f' := h.sound _ hq
    obtain rfl := List.mem_singleton.1 hf
    simp [hg, hm.bitLength] at hsome
  | unit u fs =>
    obtain ⟨i, hi, hfs⟩ := h.numbered.number_of_unit hq
    have hi' : some (0 + i) = some g := (hfs f hf).symm.trans hg
    rw [Nat.zero_add, Option.some.injEq] at hi'
    subst hi'
    exact ⟨u, fs, rfl, h.groups ▸ hi, by simpa using hfs⟩

theorem fields_ne_nil {q : Piece} (hq : q ∈ pieces) : q.fields ≠ [] := by
  have hs := h.sound q hq
  cases q with
  | member f => simp [Piece.fields]
  | unit u fs => exact hs.ne_nil

theorem boundary (ha : pieces.IsChain Piece.Apart) : l.fields.IsChain l.Parted := by
  have hne : [] ∉ pieces.map Piece.fields := fun hm => by
    obtain ⟨q, hq, hnil⟩ := List.mem_map.1 hm
    exact h.fields_ne_nil hq hnil
  rw [h.fields, List.flatMap_def, List.isChain_flatten hne, List.isChain_map]
  refine ⟨fun fs hfs => ?_, ha.imp_of_mem_imp fun q q' hq hq' hapart f hf f' hf' => ?_⟩
  · -- the members of a piece have one number
    obtain ⟨q, hq, rfl⟩ := List.mem_map.1 hfs
    refine (List.pairwise_of_forall_mem_list fun f hf f' hf' => ?_).isChain
    intro g g' u hg hg' hgg'
    obtain ⟨v, fs, rfl, -, hfs⟩ := h.unit_of_mem hq hf hg
    exact absurd (Option.some.inj ((hfs f' hf').symm.trans hg')) hgg'
  · intro g g' u hg hg' _ hu
    have hf := List.mem_of_getLast? hf
    have hm' := List.mem_of_head? hf'
    obtain ⟨v, fs, rfl, hv, -⟩ := h.unit_of_mem hq hf hg
    obtain ⟨v', fs', rfl, -, -⟩ := h.unit_of_mem hq' hm' hg'
    obtain rfl := Option.some.inj (hv.symm.trans hu)
    have hsound : Piece.UnitSound sizeOf v fs := h.sound _ hq
    have hsound' : Piece.UnitSound sizeOf v' fs' := h.sound _ hq'
    rw [(hsound.fields f hf).1, (hsound'.fields f' hm').1]
    by_cases ht : v.dataType = v'.dataType
    · exact .inr (hapart v rfl v' rfl ht f' hf')
    · exact .inl ht

/-- The members with a unit number are those of one piece, and they are adjacent. -/
theorem unit_sharing {g : Nat} {u : UnitLayout} (hu : l.groups[g]? = some u) :
    .unit u (l.sharing g) ∈ pieces ∧ l.sharing g <:+: l.fields := by
  rw [h.groups] at hu
  obtain ⟨before, fs, after, hm, hfields, hfs, hother⟩ := h.numbered.exists_run hu
  rw [Nat.zero_add] at hfs hother
  rw [← h.fields] at hfields
  have hnone : ∀ fs : List FieldLayout, (∀ f ∈ fs, f.group ≠ some g) →
      fs.filter (fun f => f.group = some g) = [] := fun fs hfs => by
    rw [List.filter_eq_nil_iff]
    simpa using hfs
  have hrun : l.sharing g = fs := by
    rw [sharing, hfields, List.filter_append, List.filter_append,
      hnone before fun f hf => hother f (List.mem_append_left _ hf),
      hnone after fun f hf => hother f (List.mem_append_right _ hf),
      List.filter_eq_self.2 (by simpa using hfs), List.nil_append, List.append_nil]
  rw [hrun]
  exact ⟨hm, before, after, hfields.symm⟩

/-- The bit-fields of a unit are a run of adjacent members that fill it. -/
theorem run {g : Nat} {u : UnitLayout} (hu : l.groups[g]? = some u) :
    l.sharing g <:+: l.fields ∧ u.Holds (l.sharing g) := by
  obtain ⟨hm, hadjacent⟩ := h.unit_sharing hu
  have hunit : Piece.UnitSound sizeOf u (l.sharing g) := h.sound _ hm
  exact ⟨hadjacent, hunit.holds⟩

end Layout.Consists

theorem Row.bitField?_isSome {r : Row} :
    r.bitField?.isSome ↔ r.extents = [] ∧ r.bitLength.isSome := by
  unfold bitField? isArray
  cases r.extents <;> simp

theorem Layout.Arranged.grouped {sizeOf : String → Nat} {s : Record} {l : Layout} {c : Frame}
    {slots : List Slot} {starts : List Nat} (h : l.Arranged sizeOf s c slots starts) :
    l.Grouped s := by
  have hc := h.consists
  refine ⟨?_, fun f hf g hg => ?_, hc.fields ▸ hc.numbered.ordered, hc.run,
    hc.boundary (Frame.pieces_apart h.fits (Slot.ofRows_apart h.scanned) 0)⟩
  · have hgroup : ∀ f ∈ l.fields, f.group.isSome = f.bitLength.isSome := by
      rw [hc.fields]
      exact hc.numbered.isSome_group hc.sound
    refine ((List.forall₂_and_left _ _).2 ⟨hgroup, h.describes.shows⟩).imp fun f r hfr => ?_
    obtain ⟨hgroup, hshows⟩ := hfr
    refine ⟨hshows, ?_⟩
    rw [hgroup, hshows.2.2.2, Row.bitField?_isSome]
  · obtain ⟨q, hq, hfq⟩ := List.mem_flatMap.1 (hc.fields ▸ hf)
    obtain ⟨u, -, -, hu, -⟩ := hc.unit_of_mem hq hfq hg
    exact (List.getElem?_eq_some_iff.1 hu).1

/-- **Shared storage units.** Every built project whose records have distinct names has layouts. In
each of them the scalars with a bit length are those that belong to a unit, the bit-fields of a unit
are a run of adjacent members of one type that fill it from its lowest bit on, and between two
adjacent bit-fields a new unit begins only where the types differ or the unit is too full. -/
theorem Draft.layouts_grouped {d : Draft} {p : Project} (h : d.build = .ok p)
    (hd : (p.records.map Record.name).Nodup) :
    ∃ layouts, p.layouts = .ok layouts ∧ List.Forall₂ Layout.Grouped p.records layouts := by
  obtain ⟨layouts, hlayouts, hall⟩ := exists_arranged h hd
  refine ⟨layouts, hlayouts, hall.imp fun s l hl => ?_⟩
  obtain ⟨-, c, slots, starts, harr⟩ := hl
  exact harr.grouped

/-- A bit-field that is too wide for its type has a unit to itself; the next two share one. -/
theorem Draft.layouts_grouped_sample :
    Sample.overlay.build = .ok Sample.overlaid ∧
      Sample.overlaid.layouts = .ok Sample.overlaidLayouts ∧
      ∃ l, Sample.overlaidLayouts[0]? = some l ∧ l.Grouped Sample.cell ∧
        (l.sharing 0).map (fun f => (f.name, f.shift)) = [("wide", 0)] ∧
        (l.sharing 1).map (fun f => (f.name, f.shift)) = [("on", 0), ("mode", 1)] := by
  obtain ⟨layouts, hlayouts, hall⟩ :=
    layouts_grouped Sample.overlay_build Sample.overlaid_wellNamed.nodup
  obtain rfl := Except.ok.inj (hlayouts.symm.trans Sample.overlaid_layouts)
  obtain ⟨l, hl, hgrouped⟩ := getElem?_of_forall₂ hall (i := 0) (x := Sample.cell) rfl
  have hsharing : ∀ l ∈ Sample.overlaidLayouts[0]?,
      (l.sharing 0).map (fun f => (f.name, f.shift)) = [("wide", 0)] ∧
        (l.sharing 1).map (fun f => (f.name, f.shift)) = [("on", 0), ("mode", 1)] := by
    decide +kernel
  exact ⟨Sample.overlay_build, Sample.overlaid_layouts, l, hl, hgrouped, hsharing l hl⟩

end RecordSwap
