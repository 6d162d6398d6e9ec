import RecordSwap.Proofs.Moving
import RecordSwap.Proofs.Offsets
import RecordSwap.Proofs.Surplus

/-!
# Protocol headers

A record with a message identifier has the protocol header of 12 bytes in front of its members. What
giving a record such an identifier changes in its layout, its plans and its conversion.

* `Record.identified`, `Draft.Identifies`: a record with a message identifier, and drafts that differ
  in the identifier of one record.
* `Placed.ofRecords_identified`: placing the records up to this one gives the same, since the size
  of its header is noted in the type table only after it. `Project.Identifies` is what follows for
  the built projects (`Draft.build_identified`).
* `Layout.GainsHeader`: the layout behind the header (`Layout.ofRecord_identified`).
* `Project.Identifies.movesAt`: the plans of the record are moved, those before it are the same.
* `Draft.header_shift`: the statement about drafts.
-/

namespace RecordSwap

/-! ## Records and drafts -/

/-- The record with a message identifier. -/
def Record.identified (id : String) (s : Record) : Record := { s with messageId := some id }

/-- Drafts that differ in the message identifier of the record of one name. -/
structure Draft.Identifies (name id : String) (d d' : Draft) : Prop where
  types : d'.types = d.types
  dataStreams : d'.dataStreams = d.dataStreams
  records : d'.allRecords = d.allRecords.map fun s => if s.name = name then s.identified id else s

theorem Record.headerSize_identified {id : String} (hid : id ≠ "") (s : Record) :
    (s.identified id).headerSize = 12 := by
  have hheader : (s.identified id).hasHeader = true := by simpa [hasHeader, identified] using hid
  rw [headerSize, hheader]
  rfl

theorem Record.headerSize_of_not_hasHeader {s : Record} (h : s.hasHeader = false) :
    s.headerSize = 0 := by
  rw [headerSize, h]
  rfl

/-! ## Placing -/

namespace Placed

variable {types : TypeTable} {placed placed' : Placed}

/-- Records that are placed after others go by the table that those leave behind. -/
theorem ofRecords_append {front rest : List Record}
    (h : ofRecords types (front ++ rest) = .ok placed) :
    ∃ first last, ofRecords types front = .ok first ∧ ofRecords first.types rest = .ok last ∧
      placed.types = last.types ∧ placed.placements = first.placements ++ last.placements := by
  induction front generalizing types placed with
  | nil => exact ⟨{ types }, placed, rfl, h, rfl, rfl⟩
  | cons s front ih =>
    obtain ⟨placement, inner, hplace, hlt, hinner, rfl⟩ := exists_of_cons h
    obtain ⟨first, last, hfirst, hlast, htypes, hplacements⟩ := ih hinner
    refine ⟨⟨first.types, placement :: first.placements,
      Placement.unknownTypes types s ++ first.diagnostics⟩, last, ?_, hlast, htypes, ?_⟩
    · rw [ofRecords, hplace, Checked.ok_bind, addSize_eq_ok.2 ⟨hlt, rfl⟩, Checked.ok_bind, hfirst]
      rfl
    · rw [hplacements]
      rfl

/-- Up to a record, and in what the table says about other names, it makes no difference whether the
record has an identifier. -/
theorem ofRecords_identified {front rest : List Record} {s : Record} {id : String}
    (h : ofRecords types (front ++ s :: rest) = .ok placed)
    (h' : ofRecords types (front ++ s.identified id :: rest) = .ok placed') :
    (∀ j ≤ front.length, placed'.placements[j]? = placed.placements[j]?) ∧
      TypeTable.AgreeOff ((s :: rest).map Record.name) placed'.types placed.types := by
  obtain ⟨first, last, hfirst, hlast, htypes, hplacements⟩ := ofRecords_append h
  obtain ⟨first', last', hfirst', hlast', htypes', hplacements'⟩ := ofRecords_append h'
  obtain rfl := Except.ok.inj (hfirst.symm.trans hfirst')
  obtain ⟨-, -, hlen, -⟩ := ofRecords_ok hfirst
  obtain ⟨hprim, hsame, -, -⟩ := ofRecords_ok hlast
  obtain ⟨hprim', hsame', -, -⟩ := ofRecords_ok hlast'
  constructor
  · intro j hj
    rw [hplacements, hplacements']
    rcases Nat.lt_or_ge j first.placements.length with hlt | hge
    · rw [List.getElem?_append_left hlt, List.getElem?_append_left hlt]
    · obtain rfl : j = first.placements.length := by omega
      obtain ⟨placement, inner, hplace, -, -, rfl⟩ := exists_of_cons hlast
      obtain ⟨placement', inner', hplace', -, -, rfl⟩ := exists_of_cons hlast'
      obtain rfl : placement = placement' := Except.ok.inj (hplace.symm.trans hplace')
      rw [List.getElem?_append_right (Nat.le_refl _), List.getElem?_append_right (Nat.le_refl _),
        Nat.sub_self]
      rfl
  · rw [htypes, htypes']
    exact ⟨hprim'.trans hprim.symm, fun name hn => (hsame' name hn).trans (hsame name hn).symm⟩

end Placed

/-! ## Projects -/

/-- The types of the declared rows up to a record stand before it. -/
theorem Record.Sequenced.type_not_mem_drop {records : List Record} (h : Sequenced records)
    {i j : Nat} (hj : j ≤ i) {s : Record} (hs : records[j]? = some s) {r : Row}
    (hr : r ∈ s.declared) : r.dataType ∉ (records.drop i).map Record.name := by
  intro hm
  have hsub : List.Sublist (records.drop i) (s :: records.drop (j + 1)) := by
    obtain ⟨hlt, rfl⟩ := List.getElem?_eq_some_iff.1 hs
    rw [← List.drop_eq_getElem_cons hlt]
    exact List.drop_sublist_drop_left _ hj
  exact h.type_not_mem hs hr ((hsub.map Record.name).subset hm)

/-- Projects that differ in the message identifier of the record at `i`. Later records may be placed
differently, since the size of this one has changed. -/
structure Project.Identifies (i : Nat) (s : Record) (id : String) (p p' : Project) : Prop where
  record : p.records[i]? = some s
  records : p'.records = p.records.set i (s.identified id)
  dataStreams : p'.dataStreams = p.dataStreams
  placements : ∀ j ≤ i, p'.placements[j]? = p.placements[j]?
  types : TypeTable.AgreeOff ((p.records.drop i).map Record.name) p'.types p.types

/-- The record of a name gets an identifier, and no other one does. -/
theorem Record.map_identified {records : List Record} (hd : (records.map Record.name).Nodup)
    {i : Nat} {s : Record} (hs : records[i]? = some s) (id : String) :
    (records.map fun t => if t.name = s.name then t.identified id else t) =
      records.set i (s.identified id) := by
  apply List.ext_getElem?
  intro j
  rw [List.getElem?_map, List.getElem?_set]
  split
  · next hij =>
    obtain ⟨hlt, -⟩ := List.getElem?_eq_some_iff.1 hs
    subst hij
    rw [hs, if_pos hlt]
    simp
  · next hij =>
    cases ht : records[j]? with
    | none => rfl
    | some t =>
      have hne : t.name ≠ s.name := fun hn => hij (Record.index_unique hd hs ht hn.symm)
      rw [Option.map_some, if_neg hne]

theorem Draft.Identifies.kept {name id : String} {d d' : Draft} (h : d.Identifies name id d') :
    d'.kept = d.kept.map fun s => if s.name = name then s.identified id else s := by
  have hdeclared (s : Record) :
      (if s.name = name then s.identified id else s).declared = s.declared := by
    split <;> rfl
  rw [Draft.kept, Draft.kept, h.records, List.filter_map]
  simp only [Function.comp_def, hdeclared]

/-- The order looks at names and declared rows alone. -/
theorem Draft.order_identified {d d' : Draft} {records : List Record} {name id : String}
    (h : d.Identifies name id d') (ho : Record.order d.kept = .ok records) :
    Record.order d'.kept =
      .ok (records.map fun s => if s.name = name then s.identified id else s) := by
  let identify (s : Record) : Record := if s.name = name then s.identified id else s
  have hmembers {s s' : Record} (hs : identify s = s') :
      s'.name = s.name ∧ s'.declared = s.declared := by
    subst hs
    dsimp only [identify]
    split <;> exact ⟨rfl, rfl⟩
  have hkept : List.Forall₂ (fun s s' => identify s = s') d.kept d'.kept := by
    rw [h.kept]
    exact List.forall₂_map_right_iff.2 (List.forall₂_same.2 fun s _ => rfl)
  rcases Record.order_congr hmembers hkept with ⟨e, he, -⟩ | ⟨out, out', hout, hout', hall⟩
  · rw [ho] at he
    cases he
  · obtain rfl := Except.ok.inj (ho.symm.trans hout)
    have hmap : records.map identify = out'.map fun s => s := map_eq_of_forall₂ hall fun hs => hs
    rw [List.map_id'] at hmap
    rw [hout', ← hmap]

/-- With an identifier for one of its records a draft is built as before, unless a size does not fit
its word any more. -/
theorem Draft.build_identified {d d' : Draft} {p : Project} {i : Nat} {s : Record} {id : String}
    (h : d.build = .ok p) (hd : (p.records.map Record.name).Nodup)
    (hs : p.records[i]? = some s) (hid : d.Identifies s.name id d') :
    d'.build = .error (.fault .overflow) ∨
      ∃ p', d'.build = .ok p' ∧ p.Identifies i s id p' := by
  obtain ⟨horder, placed, hplaced, hplacements, htypes, -⟩ := build_eq_ok h
  have horder' := order_identified hid horder
  rw [Record.map_identified hd hs] at horder'
  have hstreams : p.dataStreams = d.dataStreams := by
    rw [build_of_ok horder hplaced, Except.ok.injEq] at h
    rw [← h]
    rfl
  obtain ⟨hlt, hget⟩ := List.getElem?_eq_some_iff.1 hs
  have hdrop : p.records.drop i = s :: p.records.drop (i + 1) := by
    rw [List.drop_eq_getElem_cons hlt, hget]
  have hsplit : p.records = p.records.take i ++ s :: p.records.drop (i + 1) := by
    rw [← hdrop, List.take_append_drop]
  have hsplit' : p.records.set i (s.identified id) =
      p.records.take i ++ s.identified id :: p.records.drop (i + 1) := by
    rw [List.set_eq_take_append_cons_drop, if_pos hlt]
  rcases Placed.ofRecords_ends d'.types (p.records.set i (s.identified id)) with
    ⟨placed', hplaced'⟩ | hfault
  · have hplacedAt := hplaced'
    rw [hid.types, hsplit'] at hplacedAt
    rw [hsplit] at hplaced
    obtain ⟨hbefore, hagree⟩ := Placed.ofRecords_identified hplaced hplacedAt
    rw [List.length_take_of_le (Nat.le_of_lt hlt)] at hbefore
    refine .inr ⟨_, build_of_ok horder' hplaced', hs, rfl, hid.dataStreams.trans hstreams.symm,
      ?_, ?_⟩
    · rw [hplacements]
      exact hbefore
    · rw [hdrop, htypes]
      exact hagree
  · exact .inl (build_of_fault horder' hfault)

/-! ## Layouts -/

/-- The second of two runs over a list gives what the first gives, moved. -/
theorem mapM_moved {ε α β : Type} {f f' : α → Except ε β} {g : β → β}
    (hfg : ∀ x y y', f x = .ok y → f' x = .ok y' → y' = g y) {l : List α} {ys ys' : List β}
    (h : l.mapM f = .ok ys) (h' : l.mapM f' = .ok ys') : ys' = ys.map g := by
  have hall := forall₂_of_mapM h
  have hall' := forall₂_of_mapM h'
  clear h h'
  induction hall generalizing ys' with
  | nil =>
    cases hall'
    rfl
  | cons hy _ ih =>
    cases hall' with
    | cons hy' hrest => rw [List.map_cons, hfg _ _ _ hy hy', ih hrest]

namespace Layout

/-- The layout of a record once the protocol header stands in front of it. -/
structure GainsHeader (l l' : Layout) : Prop where
  bare : l.header = false
  moved : l' = { l with
    header := true
    width := l'.width
    totalSize := l.totalSize + 12
    fields := l.fields.map (FieldLayout.moved 12)
    groups := l.groups.map (UnitLayout.moved 12) }
  column : l'.width = columnWidth l.name true l.fields
  width : l.width ≤ l'.width

theorem GainsHeader.moves {l l' : Layout} (h : l.GainsHeader l') : l.Moves 12 l' := by
  rw [h.moved]
  exact ⟨rfl, rfl, rfl⟩

section
variable {c c' : Frame} {n : Nat} (hc : c' = { c with headerSize := c.headerSize + n })
include hc

namespace Frame

theorem offset_moved {name : String} {o o' : Nat} (h : c.offset name = .ok o)
    (h' : c'.offset name = .ok o') : o' = o + n := by
  subst hc
  obtain ⟨-, rfl⟩ := addSize_eq_ok.1 h
  obtain ⟨-, rfl⟩ := addSize_eq_ok.1 h'
  exact (Nat.add_assoc _ _ _).symm

theorem field_moved {row : Row} {size shift : Nat} {group : Option Nat} {f f' : FieldLayout}
    (h : c.field row size group shift = .ok f) (h' : c'.field row size group shift = .ok f') :
    f' = f.moved n := by
  obtain ⟨o, count, total, ho, hcount, htotal, rfl⟩ := exists_of_field h
  obtain ⟨o', count', total', ho', hcount', htotal', rfl⟩ := exists_of_field h'
  obtain rfl := offset_moved hc ho ho'
  obtain rfl := Except.ok.inj (hcount.symm.trans hcount')
  obtain rfl := Except.ok.inj (htotal.symm.trans htotal')
  rw [hc]
  rfl

theorem fields_moved {units : Nat} {slots : List Slot} {fields fields' : List FieldLayout}
    (h : c.fields units slots = .ok fields) (h' : c'.fields units slots = .ok fields') :
    fields' = fields.map (FieldLayout.moved n) := by
  induction slots generalizing units fields fields' with
  | nil =>
    cases h
    cases h'
    rfl
  | cons slot rest ih =>
    cases slot with
    | member row size =>
      obtain ⟨f, others, hf, hothers, rfl⟩ := exists_of_fields_member h
      obtain ⟨f', others', hf', hothers', rfl⟩ := exists_of_fields_member h'
      rw [List.map_cons, field_moved hc hf hf', ih hothers hothers']
    | unit size first joined =>
      obtain ⟨packed, others, hpacked, hothers, rfl⟩ := exists_of_fields_unit h
      obtain ⟨packed', others', hpacked', hothers', rfl⟩ := exists_of_fields_unit h'
      have hmoved : packed' = packed.map (FieldLayout.moved n) :=
        mapM_moved (fun q f f' => field_moved hc) hpacked hpacked'
      rw [List.map_append, hmoved, ih hothers hothers']

theorem groups_moved {slots : List Slot} {groups groups' : List UnitLayout}
    (h : c.groups slots = .ok groups) (h' : c'.groups slots = .ok groups') :
    groups' = groups.map (UnitLayout.moved n) := by
  induction slots generalizing groups groups' with
  | nil =>
    cases h
    cases h'
    rfl
  | cons slot rest ih =>
    cases slot with
    | member row size => exact ih h h'
    | unit size first joined =>
      obtain ⟨capacity, o, others, hcapacity, ho, hothers, rfl⟩ := exists_of_groups_unit h
      obtain ⟨capacity', o', others', hcapacity', ho', hothers', rfl⟩ := exists_of_groups_unit h'
      obtain rfl := offset_moved hc ho ho'
      obtain rfl := Except.ok.inj (hcapacity.symm.trans hcapacity')
      rw [List.map_cons, ih hothers hothers']
      rfl

end Frame

end

/-! ### The column of the comments -/

theorem columnWidth_moved (name : String) (header : Bool) (fields : List FieldLayout) (n : Nat) :
    columnWidth name header (fields.map (FieldLayout.moved n)) =
      columnWidth name header fields := by
  have hline : FieldLayout.declaration ∘ FieldLayout.moved n = FieldLayout.declaration := rfl
  simp only [columnWidth, List.map_map, hline]

/-- The lines of the header members can only widen the column. -/
theorem columnWidth_le (name : String) (fields : List FieldLayout) :
    columnWidth name false fields ≤ columnWidth name true fields := by
  obtain ⟨hname, -, hfields⟩ := columnWidth_le_iff.1 (Nat.le_refl (columnWidth name true fields))
  exact columnWidth_le_iff.2 ⟨hname, nofun, hfields⟩

/-! ### The layout of one record -/

variable {p p' : Project} {s : Record} {placement : Placement} {l l' : Layout}

theorem ofRecord_congr (hstreams : p'.dataStreams = p.dataStreams)
    (hsizes : ∀ r ∈ s.declared, p'.types.sizeOf r.dataType = p.types.sizeOf r.dataType)
    (placement : Placement) : ofRecord p' s placement = ofRecord p s placement := by
  rw [ofRecord, ofRecord, hstreams, Slot.ofRows_congr hsizes]

/-- With an identifier the record has the same layout behind the header. -/
theorem ofRecord_identified {id : String} (hid : id ≠ "") (hbare : s.hasHeader = false)
    (hstreams : p'.dataStreams = p.dataStreams)
    (hsizes : ∀ r ∈ s.declared, p'.types.sizeOf r.dataType = p.types.sizeOf r.dataType)
    (h : ofRecord p s placement = .ok l) (h' : ofRecord p' (s.identified id) placement = .ok l') :
    l.GainsHeader l' := by
  rw [ofRecord_congr (s := s.identified id) hstreams hsizes] at h'
  obtain ⟨slots, fields, groups, total, hslots, hfields, hgroups, htotal, rfl⟩ := exists_of_ofRecord h
  obtain ⟨slots', fields', groups', total', hslots', hfields', hgroups', htotal', rfl⟩ :=
    exists_of_ofRecord h'
  obtain rfl : slots = slots' := Except.ok.inj (hslots.symm.trans hslots')
  have hheader : (s.identified id).hasHeader = true := by
    simpa [Record.hasHeader, Record.identified] using hid
  rw [Record.headerSize_of_not_hasHeader hbare] at hfields hgroups htotal
  rw [Record.headerSize_identified hid] at hfields' hgroups' htotal'
  obtain rfl := Frame.fields_moved (n := 12) rfl hfields hfields'
  obtain rfl := Frame.groups_moved (n := 12) rfl hgroups hgroups'
  obtain ⟨-, rfl⟩ := addSize_eq_ok.1 htotal
  obtain ⟨-, rfl⟩ := addSize_eq_ok.1 htotal'
  have hcolumn := columnWidth_moved s.name true fields 12
  rw [show (s.identified id).name = s.name from rfl, hheader, hcolumn]
  refine ⟨hbare, rfl, rfl, ?_⟩
  simp only [hbare]
  exact columnWidth_le s.name fields

end Layout

/-! ## Plans -/

namespace Project

variable {p p' : Project} {f : FieldLayout}

theorem embedded?_congr (hindex : p'.index? = p.index?)
    (hcategory : p'.types.category? f.dataType = p.types.category? f.dataType) :
    p'.embedded? f = p.embedded? f := by
  rw [Project.embedded?, Project.embedded?, TypeTable.isRecord, TypeTable.isRecord, hcategory, hindex]

theorem entry?_congr (hindex : p'.index? = p.index?)
    (hcategory : p'.types.category? f.dataType = p.types.category? f.dataType) :
    p'.entry? f = p.entry? f := by
  rw [Project.entry?, Project.entry?, strategy?, strategy?, hcategory, embedded?_congr hindex hcategory]

/-- The entry of a moved member is the moved entry. -/
theorem entry?_moved (p : Project) (n : Nat) (f : FieldLayout) :
    p.entry? (f.moved n) = (p.entry? f).map (SwapEntry.moved n) := by
  have hstrategy : p.strategy? (f.moved n) = p.strategy? f := rfl
  rw [Project.entry?, Project.entry?, hstrategy, Option.map_map]
  rfl

/-- Projects whose records have the same names, with layouts of one record each; the type table says
the same about the types of its members, and the layouts of the records they embed are the same. -/
structure Agree (p p' : Project) (layouts layouts' : List Layout) (l : Layout) : Prop where
  index : p'.index? = p.index?
  category : ∀ f ∈ l.fields, p'.types.category? f.dataType = p.types.category? f.dataType
  embedded : ∀ f ∈ l.fields, ∀ target, p.embedded? f = some target →
    layouts'[target]? = layouts[target]?

namespace Agree

variable {layouts layouts' : List Layout} {l l' : Layout} (h : p.Agree p' layouts layouts' l)
  {n : Nat} (hm : l.Moves n l') (index : Nat)
include h hm

theorem swapPlan : p'.swapPlan index l' = (p.swapPlan index l).moved n := by
  have hentries : l'.fields.filterMap p'.entry? =
      (l.fields.filterMap p.entry?).map (SwapEntry.moved n) := by
    rw [hm.fields, List.filterMap_map, List.map_filterMap]
    refine List.filterMap_congr fun f hf => ?_
    rw [Function.comp_apply, p'.entry?_moved, entry?_congr h.index (h.category f hf)]
  have hbits : l'.fields.any (·.bitLength.isSome) = l.fields.any (·.bitLength.isSome) := by
    rw [hm.fields, List.any_map]
    rfl
  rw [Project.swapPlan, Project.swapPlan, hentries, hbits, hm.name]
  rfl

theorem bitSwapPlan? : p'.bitSwapPlan? layouts' index l' =
    (p.bitSwapPlan? layouts index l).map (BitSwapPlan.moved n) := by
  have htarget : ∀ f ∈ l.fields,
      BitSwapPlan.target? p' layouts' (f.moved n) = BitSwapPlan.target? p layouts f := by
    intro f hf
    have hembedded : p'.embedded? (f.moved n) = p.embedded? f :=
      embedded?_congr h.index (h.category f hf)
    rw [BitSwapPlan.target?, BitSwapPlan.target?, hembedded]
    cases he : p.embedded? f with
    | none => rfl
    | some target => simp only [Option.filter, h.embedded f hf target he]
  have hown : l'.hasBitFields = l.hasBitFields := by
    rw [Layout.hasBitFields, Layout.hasBitFields, hm.groups, List.isEmpty_map]
  have hops := BitSwapPlan.opsOf_moved n l.groups none htarget
  rw [Option.map_none, ← hm.fields, ← hm.groups] at hops
  rw [Project.bitSwapPlan?, Project.bitSwapPlan?, hown, hops, hm.name]
  split <;> rfl

end Agree

namespace Identifies

variable {i : Nat} {s : Record} {id : String} (h : p.Identifies i s id p')
include h

theorem record' : p'.records[i]? = some (s.identified id) := by
  obtain ⟨hlt, -⟩ := List.getElem?_eq_some_iff.1 h.record
  rw [h.records, List.getElem?_set_self hlt]

theorem records_before {j : Nat} (hj : j < i) : p'.records[j]? = p.records[j]? := by
  rw [h.records, List.getElem?_set_ne (Nat.ne_of_gt hj)]

theorem names : p'.records.map Record.name = p.records.map Record.name := by
  apply List.ext_getElem?
  intro j
  rw [List.getElem?_map, List.getElem?_map]
  by_cases hj : i = j
  · rw [← hj, h.record', h.record]
    rfl
  · rw [h.records, List.getElem?_set_ne hj]

theorem wordBits (hw : p.WordBits) : p'.WordBits := by
  intro t ht r hr
  obtain ⟨j, hj⟩ := List.mem_iff_getElem?.1 ht
  by_cases hij : i = j
  · rw [← hij, h.record'] at hj
    cases hj
    exact hw s (List.mem_of_getElem? h.record) r hr
  · rw [h.records, List.getElem?_set_ne hij] at hj
    exact hw t (List.mem_of_getElem? hj) r hr

theorem sizes (hseq : Record.Sequenced p.records) {j : Nat} (hj : j ≤ i) {t : Record}
    (ht : p.records[j]? = some t) :
    ∀ r ∈ t.declared, p'.types.sizeOf r.dataType = p.types.sizeOf r.dataType :=
  fun _ hr => h.types.sizeOf (hseq.type_not_mem_drop hj ht hr)

section
variable {layouts layouts' : List Layout} (hl : p.layouts = .ok layouts)
  (hl' : p'.layouts = .ok layouts') (hp : p.Plannable layouts) (hp' : p'.Plannable layouts')
include hl hl' hp hp'

/-- Up to this record the layouts are made of the same placements. -/
theorem exists_layouts {j : Nat} (hj : j ≤ i) {t t' : Record} (ht : p.records[j]? = some t)
    (ht' : p'.records[j]? = some t') :
    ∃ l l' placement, layouts[j]? = some l ∧ layouts'[j]? = some l' ∧
      Layout.ofRecord p t placement = .ok l ∧ Layout.ofRecord p' t' placement = .ok l' := by
  obtain ⟨l, hlj, -⟩ := getElem?_of_forall₂ hp.reads ht
  obtain ⟨l', hlj', -⟩ := getElem?_of_forall₂ hp'.reads ht'
  obtain ⟨u, placement, hu, hplacement, hlayout⟩ := p.exists_of_layouts hl hlj
  obtain ⟨u', placement', hu', hplacement', hlayout'⟩ := p'.exists_of_layouts hl' hlj'
  rw [h.placements j hj] at hplacement'
  obtain rfl : t = u := Option.some.inj (ht.symm.trans hu)
  obtain rfl : t' = u' := Option.some.inj (ht'.symm.trans hu')
  obtain rfl : placement = placement' := Option.some.inj (hplacement.symm.trans hplacement')
  exact ⟨l, l', placement, hlj, hlj', hlayout, hlayout'⟩

variable (hseq : Record.Sequenced p.records)
include hseq

/-- Records before this one have the same layouts. -/
theorem layout_before {j : Nat} (hj : j < i) : layouts'[j]? = layouts[j]? := by
  obtain ⟨hlt, -⟩ := List.getElem?_eq_some_iff.1 h.record
  have ht : p.records[j]? = some p.records[j] := List.getElem?_eq_getElem (Nat.lt_trans hj hlt)
  have ht' := (h.records_before hj).trans ht
  obtain ⟨l, l', placement, hlj, hlj', hlayout, hlayout'⟩ :=
    h.exists_layouts hl hl' hp hp' (Nat.le_of_lt hj) ht ht'
  rw [Layout.ofRecord_congr h.dataStreams (h.sizes hseq (Nat.le_of_lt hj) ht),
    hlayout] at hlayout'
  obtain rfl := Except.ok.inj hlayout'
  rw [hlj, hlj']

/-- This record has the same layout behind the header. -/
theorem layout (hid : id ≠ "") (hbare : s.hasHeader = false) :
    ∃ l l', layouts[i]? = some l ∧ layouts'[i]? = some l' ∧ l.GainsHeader l' := by
  obtain ⟨l, l', placement, hli, hli', hlayout, hlayout'⟩ :=
    h.exists_layouts hl hl' hp hp' (Nat.le_refl i) h.record h.record'
  exact ⟨l, l', hli, hli', Layout.ofRecord_identified hid hbare h.dataStreams
    (h.sizes hseq (Nat.le_refl i) h.record) hlayout hlayout'⟩

theorem agree {j : Nat} (hj : j ≤ i) {l : Layout} (hlj : layouts[j]? = some l) :
    p.Agree p' layouts layouts' l := by
  refine ⟨index?_congr h.names, fun f hf => ?_, fun f hf target ht => ?_⟩
  · obtain ⟨t, slots, ht, hread⟩ := hp.reads_of hlj
    obtain ⟨r, hr, hshows⟩ := hread.row hf
    rw [hshows.2.1]
    exact h.types.category? (hseq.type_not_mem_drop hj ht hr)
  · exact h.layout_before hl hl' hp hp' hseq (Nat.lt_of_lt_of_le (hp.earlier hlj hf ht) hj)

/-- The plans of this record are moved by the size of the header, those before it are the same. -/
theorem movesAt (hid : id ≠ "") (hbare : s.hasHeader = false) :
    Plans.MovesAt 12 i (p.planned layouts) (p'.planned layouts') := by
  obtain ⟨l, l', hli, hli', hgains⟩ := h.layout hl hl' hp hp' hseq hid hbare
  have hagree := h.agree hl hl' hp hp' hseq (Nat.le_refl i) hli
  refine ⟨fun j hj => ?_, fun j hj => ?_, ?_, ?_⟩
  · rw [planned_swaps, planned_swaps, h.layout_before hl hl' hp hp' hseq hj]
    cases hlj : layouts[j]? with
    | none => rfl
    | some l =>
      have hsame := (h.agree hl hl' hp hp' hseq (Nat.le_of_lt hj) hlj).swapPlan l.moves_zero j
      rw [Option.map_some, Option.map_some, hsame, SwapPlan.moved_zero]
  · rw [planned_bitSwap?, planned_bitSwap?, h.layout_before hl hl' hp hp' hseq hj]
    cases hlj : layouts[j]? with
    | none => rfl
    | some l =>
      have hsame := (h.agree hl hl' hp hp' hseq (Nat.le_of_lt hj) hlj).bitSwapPlan? l.moves_zero j
      have hzero : BitSwapPlan.moved 0 = fun plan => plan := funext BitSwapPlan.moved_zero
      rw [Option.bind_some, Option.bind_some, hsame, hzero, Option.map_id']
  · rw [planned_swaps, planned_swaps, hli, hli', Option.map_some, Option.map_some,
      hagree.swapPlan hgains.moves i]
    rfl
  · rw [planned_bitSwap?, planned_bitSwap?, hli, hli', Option.bind_some, Option.bind_some,
      hagree.bitSwapPlan? hgains.moves i]

end

end Identifies

end Project

/-- What an identifier for the record at `i` changes: its layout lies behind the header, its plans
are moved by 12 bytes, and its conversions leave 12 bytes in front as they are. -/
structure HeaderShift (p p' : Project) (i : Nat) (layouts layouts' : List Layout)
    (plans plans' : Plans) : Prop where
  /-- Records keep their places, so that an embedded record has the same index and the same name. -/
  names : p'.records.map Record.name = p.records.map Record.name
  layout : ∃ l l', layouts[i]? = some l ∧ layouts'[i]? = some l' ∧ l.GainsHeader l'
  swap : ∃ plan, plans.swaps[i]? = some plan ∧ plans'.swaps[i]? = some (plan.moved 12)
  bitSwap : plans'.bitSwap? i = (plans.bitSwap? i).map (BitSwapPlan.moved 12)
  byteSwaps : ∀ (direction : Direction) (header : Bytes), header.length = 12 →
    ∀ image, ∃ converted, plans.byteSwap direction i image = .ok converted ∧
      plans'.byteSwap direction i (header ++ image) = .ok (header ++ converted)
  bitSwaps : ∀ (direction : Direction) (header : Bytes), header.length = 12 →
    ∀ image, ∃ converted, plans.bitSwap direction i image = .ok converted ∧
      plans'.bitSwap direction i (header ++ image) = .ok (header ++ converted)

/-- **The protocol header is a pure shift.** In a built project whose records have distinct names, a
record without a header is given a message identifier. The project is built again unless a number
overflows: an offset or a size, which have 64 bits, or the bits in a storage unit, which are counted
with 32. That count needs no large sizes to overflow: if the record is the type of bit-fields, its
units are larger than before and take in more of them. In the new project the record has the same
layout and the same plans 12 bytes further behind; its conversions leave the 12 bytes of the header
as they are and convert the rest of the image as they did without it. -/
theorem Draft.header_shift {d d' : Draft} {p : Project} {i : Nat} {s : Record} {id : String}
    (h : d.build = .ok p) (hd : (p.records.map Record.name).Nodup) (hw : p.WordBits)
    (hs : p.records[i]? = some s) (hbare : s.hasHeader = false)
    (hid : id ≠ "") (hid' : d.Identifies s.name id d') :
    d'.build = .error (.fault .overflow) ∨
      ∃ p' layouts layouts' plans plans', d'.build = .ok p' ∧
        p'.records[i]? = some (s.identified id) ∧ p.layouts = .ok layouts ∧
        p'.layouts = .ok layouts' ∧ Plans.ofLayouts p layouts = .ok plans ∧
        Plans.ofLayouts p' layouts' = .ok plans' ∧
        HeaderShift p p' i layouts layouts' plans plans' := by
  rcases build_identified h hd hs hid' with hfault | ⟨p', h', hp⟩
  · exact .inl hfault
  have hd' : (p'.records.map Record.name).Nodup := hp.names ▸ hd
  have hseq : Record.Sequenced p.records := Record.order_sequenced (build_eq_ok h).1 hd
  obtain ⟨layouts, hl, hall⟩ := exists_layouts h hd
  obtain ⟨layouts', hl', hall'⟩ := exists_layouts h' hd'
  have hb := bounded h hw hall
  have hb' := bounded h' (hp.wordBits hw) hall'
  have hplans := hb.toPlannable
  have hplans' := hb'.toPlannable
  have hmoves := hp.movesAt hl hl' hplans hplans' hseq hid hbare
  obtain ⟨l, l', hli, hli', hgains⟩ := hp.layout hl hl' hplans hplans' hseq hid hbare
  have hswap : (p.planned layouts).swaps[i]? = some (p.swapPlan i l) := by
    rw [Project.planned_swaps, hli]
    rfl
  refine .inr ⟨p', layouts, layouts', p.planned layouts, p'.planned layouts', h', hp.record', hl,
    hl', hplans.ofLayouts_eq, hplans'.ofLayouts_eq, ?_⟩
  exact {
    names := hp.names
    layout := ⟨l, l', hli, hli', hgains⟩
    swap := ⟨_, hswap, by rw [hmoves.swaps, hswap]; rfl⟩
    bitSwap := hmoves.bitSwap
    byteSwaps := fun direction header hf image =>
      hmoves.byteSwap_append direction hb.runnable hb'.runnable hf image
    bitSwaps := fun direction header hf image =>
      hmoves.bitSwap_append direction hb.runnable hb'.runnable hf image }

namespace Sample

/-- The draft in which the record with bit-fields has the protocol header as well. -/
def headed : Draft := { draft with
  records := [packet, status.identified "0x1804", track, point] }

theorem draft_identifies : draft.Identifies "Status" "0x1804" headed :=
  ⟨rfl, rfl, by decide +kernel⟩

end Sample

/-- A record with bit-fields that another one embeds gets the header. -/
theorem Draft.header_shift_sample :
    Sample.draft.build = .ok Sample.project ∧ Sample.project.layouts = .ok Sample.layouts ∧
      ∃ p' layouts' plans plans', Sample.headed.build = .ok p' ∧
        HeaderShift Sample.project p' 0 Sample.layouts layouts' plans plans' ∧
        ∃ l', layouts'[0]? = some l' ∧ l'.header = true ∧ l'.totalSize = 15 ∧
          l'.fields.map FieldLayout.offset = [12, 12, 13] := by
  have hbuilt : Sample.headed.build ≠ .error (.fault .overflow) := by decide +kernel
  have hstatus : Sample.project.records[0]? = some Sample.status := rfl
  rcases header_shift Sample.draft_build Sample.project_wellNamed.nodup Sample.project_wordBits
      hstatus rfl (by decide) Sample.draft_identifies with
    hfault | ⟨p', layouts, layouts', plans, plans', h', -, hl, -, -, -, hshift⟩
  · exact absurd hfault hbuilt
  obtain rfl := Except.ok.inj (hl.symm.trans Sample.project_layouts)
  obtain ⟨l, l', hl, hl', hgains⟩ := hshift.layout
  have hold : ∀ l ∈ Sample.layouts[0]?, l.totalSize + 12 = 15 ∧
      (l.fields.map (FieldLayout.moved 12)).map FieldLayout.offset = [12, 12, 13] := by
    decide +kernel
  obtain ⟨hsize, hoffsets⟩ := hold l hl
  refine ⟨Sample.draft_build, Sample.project_layouts, p', layouts', plans, plans', h', hshift, l',
    hl', ?_⟩
  rw [hgains.moved]
  exact ⟨rfl, hsize, hoffsets⟩

end RecordSwap
