import RecordSwap.Proofs.Projects
import RecordSwap.Proofs.Run

/-!
# Plans of a project

The plans of a project's layouts exist, and their swap functions cannot stop with a fault as long as
the layouts stay within their words.

* `Layout.Reads.walk_eq`: a planner that goes over the rows of a record comes to the members of its
  layout, each once and in order.
* `BitSwapPlan.opsOf`: the statements for a list of members, their units told apart by number.
  Packing the members once more leads to the same statements (`BitSwapPlan.opsFrom_eq_ok`).
* `Project.entry?`, `Project.planned`: the entry of a member, and the plans of a project.
* `Project.Plannable.ofLayouts_eq`: planning gives these plans.
* `Piece.bitOps`, `Piece.statements`: the statements for the bit-fields of a piece, and those for a
  list of pieces, in which a unit is closed only when the next one is entered.
* `BitSwapPlan.opsOf_pieces`: the statements of a record are those of its pieces.
* `Project.Bounded.runnable`: the plans are runnable.
-/

namespace RecordSwap

/-! ## Passes over the rows -/

theorem Layout.walk_eq (l : Layout) (handled : List String) (rows : List Row) :
    l.walk handled rows =
      (Record.declaredAfter handled rows).flatMap fun r => (l.field? r.name).toList := by
  induction rows generalizing handled with
  | nil => rfl
  | cons r rest ih =>
    unfold walk Record.declaredAfter
    split
    · exact ih handled
    · rw [ih, List.flatMap_cons]

/-- A pass over all rows of a record comes to the members of its layout, in order. -/
theorem Layout.Reads.walk_eq {sizeOf : String → Nat} {s : Record} {slots : List Slot} {l : Layout}
    (h : l.Reads sizeOf s slots) : l.walk [] s.rows = l.fields := by
  have hself : ∀ f ∈ l.fields, (l.field? f.name).toList = [f] := fun f hf => by
    rw [field?_eq_some h.nodup_names hf, Option.toList_some]
  calc l.walk [] s.rows
      = (s.declared.map Row.name).flatMap fun name => (l.field? name).toList := by
        rw [l.walk_eq, List.flatMap_map, Record.declared]
    _ = l.fields.flatMap fun f => (l.field? f.name).toList := by
        rw [← h.map_name, List.flatMap_map]
    _ = l.fields.flatMap fun f => [f] := List.flatMap_congr hself
    _ = l.fields := List.flatMap_singleton' l.fields

/-- A pass comes to members of the layout only. -/
theorem Layout.mem_of_mem_walk {l : Layout} {handled : List String} {rows : List Row}
    {f : FieldLayout} (h : f ∈ l.walk handled rows) : f ∈ l.fields := by
  rw [l.walk_eq, List.mem_flatMap] at h
  obtain ⟨r, -, hf⟩ := h
  exact List.mem_of_find?_eq_some (Option.mem_toList.1 hf)

/-! ## Byte swaps -/

namespace Project

variable {p : Project} {f : FieldLayout}

/-- The entry of a member, if a swap covers it. -/
def entry? (p : Project) (f : FieldLayout) : Option SwapEntry :=
  (p.strategy? f).map fun strategy => ⟨f.name, strategy, f.extents, f.offset, f.elementSize⟩

/-- The swap plan of the record at `index`. -/
def swapPlan (p : Project) (index : Nat) (l : Layout) : SwapPlan where
  index := index
  name := l.name
  entries := l.fields.filterMap p.entry?
  callsBitSwap := l.fields.any (·.bitLength.isSome)

theorem entry?_eq_some {strategy : Strategy} (h : p.strategy? f = some strategy) :
    p.entry? f = some ⟨f.name, strategy, f.extents, f.offset, f.elementSize⟩ :=
  Option.map_eq_some_iff.2 ⟨strategy, h, rfl⟩

theorem entry?_name {e : SwapEntry} (h : p.entry? f = some e) : e.name = f.name := by
  obtain ⟨strategy, -, rfl⟩ := Option.map_eq_some_iff.1 h
  rfl

/-- Where members have distinct names, an entry of a member's name is that of the member. -/
theorem mem_entries_iff (p : Project) (index : Nat) {l : Layout}
    (hd : (l.fields.map FieldLayout.name).Nodup) (hf : f ∈ l.fields) {e : SwapEntry} :
    e ∈ (p.swapPlan index l).entries ∧ e.name = f.name ↔ p.entry? f = some e := by
  refine ⟨fun ⟨he, hname⟩ => ?_, fun he => ⟨List.mem_filterMap.2 ⟨f, hf, he⟩, entry?_name he⟩⟩
  obtain ⟨g, hg, he⟩ := List.mem_filterMap.1 he
  rwa [List.inj_on_of_nodup_map hd hf hg (hname.symm.trans (entry?_name he))]

theorem select?_record (size : Nat) : Strategy.select? .record size = none := by
  unfold Strategy.select?
  split
  · next h => cases h
  · split <;> simp_all

theorem select?_ne_nested {category : Category} {size target : Nat} :
    Strategy.select? category size ≠ some (.nested target) := by
  unfold Strategy.select?
  split <;> split <;> simp

theorem category?_of_embedded? {target : Nat} (h : p.embedded? f = some target) :
    p.types.category? f.dataType = some .record := by
  unfold embedded? TypeTable.isRecord at h
  split at h
  · next hc => simpa using hc
  · cases h

theorem strategy?_bitField {bits : Nat} (h : f.bitLength = some bits) :
    p.strategy? f = some .bitField := by
  rw [strategy?, h]
  rfl

theorem strategy?_nested {target : Nat} (hb : f.bitLength = none)
    (h : p.embedded? f = some target) : p.strategy? f = some (.nested target) := by
  rw [strategy?, hb, category?_of_embedded? h, h]
  rfl

theorem strategy?_scalar (hb : f.bitLength = none) (h : p.embedded? f = none) :
    p.strategy? f =
      (p.types.category? f.dataType).bind fun category =>
        Strategy.select? category f.elementSize := by
  rw [strategy?, hb]
  cases hc : p.types.category? f.dataType with
  | none => rfl
  | some category =>
    cases category with
    | record =>
      simp only [h, Option.map_none, Option.bind_some, select?_record]
      rfl
    | _ => rfl

theorem embedded?_of_nested {target : Nat} (h : p.strategy? f = some (.nested target)) :
    f.bitLength = none ∧ p.embedded? f = some target := by
  cases hb : f.bitLength with
  | some bits => simp [strategy?_bitField hb] at h
  | none =>
    cases he : p.embedded? f with
    | some t => simpa [strategy?_nested hb he] using h
    | none =>
      rw [strategy?_scalar hb he, Option.bind_eq_some_iff] at h
      obtain ⟨category, -, h⟩ := h
      exact absurd h select?_ne_nested

/-- A member can be planned if the record that it embeds stands before its own. -/
theorem planned?_eq_ok {index : Nat}
    (h : ∀ target, p.embedded? f = some target → target < index) :
    SwapPlan.planned? p index f = .ok (p.entry? f) := by
  unfold SwapPlan.planned? entry?
  cases hs : p.strategy? f with
  | none => rfl
  | some strategy =>
    cases strategy with
    | nested target => simp [h target (embedded?_of_nested hs).2]
    | _ => rfl

end Project

/-! ## Bit swaps -/

namespace BitSwapPlan

variable {groups : List UnitLayout}

/-- The statements for a list of members. A unit is entered with the first member that has another
number than `current`, the unit that was entered last. -/
def opsOf (target? : FieldLayout → Option Nat) (groups : List UnitLayout)
    (current : Option (Nat × UnitLayout)) : List FieldLayout → List BitSwapOp
  | [] => close (current.map Prod.snd)
  | f :: rest =>
    match f.bitLength, f.group.bind fun g => (groups[g]?).map (g, ·) with
    | some bits, some (g, u) =>
      if current.map Prod.fst = some g then
        fieldOp f bits u :: opsOf target? groups current rest
      else
        close (current.map Prod.snd) ++ .reflectInput u.offset u.byteSize :: fieldOp f bits u ::
          opsOf target? groups (some (g, u)) rest
    | some _, none => opsOf target? groups current rest
    | none, _ =>
      match target? f with
      | some target =>
        .nested f.name target f.extents f.offset f.elementSize ::
          opsOf target? groups current rest
      | none => opsOf target? groups current rest

theorem opsOf_congr {target? target?' : FieldLayout → Option Nat}
    {current : Option (Nat × UnitLayout)} {fields : List FieldLayout}
    (h : ∀ f ∈ fields, target? f = target?' f) :
    opsOf target? groups current fields = opsOf target?' groups current fields := by
  induction fields generalizing current with
  | nil => rfl
  | cons f rest ih =>
    obtain ⟨hf, hrest⟩ := List.forall_mem_cons.1 h
    simp only [opsOf, hf, fun current => @ih current hrest]

/-- Packing the members of a layout once more opens its units, in order. The members `joined` still
belong to the unit that was entered last. -/
theorem opsFrom_eq_ok (target? : FieldLayout → Option Nat) {sizeOf : String → Nat}
    {rows : List Row} {packer : Packer} {joining : List PackedField} {slots : List Slot}
    (hscan : Slot.scan sizeOf packer rows = .ok (joining, slots)) {n : Nat}
    (current : Option (Nat × UnitLayout)) {joined fields : List FieldLayout}
    (hjoined : List.Forall₂ (fun p f => f.ShowsIn sizeOf (current.map Prod.fst) p.row) joining
      joined)
    (hshown : Slot.Shown sizeOf n slots fields)
    (hcurrent : ∀ x, current = some x → x.1 < n ∧ groups[x.1]? = some x.2)
    (hactive : packer.active.isSome → current.isSome)
    (hgroups : n + (slots.map Slot.units).sum ≤ groups.length) :
    opsFrom target? groups packer (current.map Prod.snd) (joined ++ fields) =
      .ok (opsOf target? groups current (joined ++ fields)) := by
  induction rows generalizing packer joining slots n current joined fields with
  | nil =>
    cases hscan
    cases hjoined
    cases hshown
    rfl
  | cons row rest ih =>
    rw [Slot.scan] at hscan
    split at hscan
    · next hb =>
      -- a plain member closes the unit, so that nothing joins it any more
      obtain ⟨⟨joining', slots'⟩, hrest, h⟩ := Checked.bind_eq_ok.1 hscan
      cases h
      obtain rfl : joining' = [] := (Slot.scan_ok hrest).2.2
      cases hjoined
      cases hshown with
      | @member _ _ _ f _ fields hf hshown =>
        have hbits : f.bitLength = none := hf.shows.2.2.2.trans hb
        have ih := ih hrest current .nil hshown hcurrent (fun h => by cases h)
          (by simpa [Slot.units] using hgroups)
        rw [List.nil_append] at ih ⊢
        rw [opsFrom, opsOf]
        simp only [hbits, ih, Checked.ok_bind]
        cases target? f <;> rfl
    · next bits hb =>
      obtain ⟨⟨step, packer'⟩, hpack, hscan⟩ := Checked.bind_eq_ok.1 hscan
      obtain ⟨⟨joining', slots'⟩, hrest, h⟩ := Checked.bind_eq_ok.1 hscan
      obtain ⟨v, hv, -, -, rfl, -⟩ | ⟨rfl, -, -⟩ := Packer.pack_cases hpack
      · cases h
        obtain ⟨⟨k, u⟩, rfl⟩ := Option.isSome_iff_exists.1 (hactive (by rw [hv]; rfl))
        obtain ⟨-, hu⟩ := hcurrent _ rfl
        cases hjoined with
        | @cons _ f _ joined hf hjoined =>
          have hbits : f.bitLength = some bits := hf.shows.2.2.2.trans hb
          have ih := ih hrest _ hjoined hshown hcurrent (fun _ => rfl) hgroups
          rw [List.cons_append, opsFrom, opsOf]
          simp only [hbits, hf.group, Option.map_some, Option.bind_some, hu, hf.shows.2.1,
            hf.elementSize, hpack, Checked.ok_bind, if_true] at ih ⊢
          rw [ih]
          rfl
      · cases h
        cases hjoined
        cases hshown with
        | unit hpacked hshown =>
          cases hpacked with
          | @cons _ f _ others hf hothers =>
            have hbits : f.bitLength = some bits := hf.shows.2.2.2.trans hb
            simp only [List.map_cons, List.sum_cons, Slot.units] at hgroups
            obtain ⟨u, hu⟩ : ∃ u, groups[n]? = some u :=
              ⟨_, List.getElem?_eq_getElem (by omega)⟩
            have hne : current.map Prod.fst ≠ some n := fun h => by
              obtain ⟨x, hx, hxn⟩ := Option.map_eq_some_iff.1 h
              exact absurd (hcurrent x hx).1 (by omega)
            have ih := ih hrest (some (n, u)) hothers hshown
              (fun x hx => by cases hx; exact ⟨Nat.lt_succ_self n, hu⟩) (fun _ => rfl) (by omega)
            rw [List.nil_append, List.cons_append, opsFrom, opsOf]
            simp only [hbits, hf.group, Option.bind_some, hu, Option.map_some, hf.shows.2.1,
              hf.elementSize, hpack, Checked.ok_bind, if_neg hne] at ih ⊢
            rw [ih]
            rfl

end BitSwapPlan

/-! ## Plans -/

namespace Project

variable {p : Project} {layouts : List Layout}

/-- The bit swap plan of the record at `index`, if it has bit-fields of its own. -/
def bitSwapPlan? (p : Project) (layouts : List Layout) (index : Nat) (l : Layout) :
    Option BitSwapPlan :=
  if l.hasBitFields then
    some ⟨index, l.name,
      BitSwapPlan.opsOf (BitSwapPlan.target? p layouts) l.groups none l.fields⟩
  else none

/-- The plans of all records. -/
def planned (p : Project) (layouts : List Layout) : Plans where
  swaps := layouts.zipIdx.map fun (l, index) => p.swapPlan index l
  bitSwaps := layouts.zipIdx.map fun (l, index) => p.bitSwapPlan? layouts index l
  diagnostics := layouts.flatMap fun l => l.fields.filterMap (p.unswapped? l.name)

theorem swapPlan_eq_ok {s : Record} {slots : List Slot} {l : Layout} {index : Nat}
    (h : l.Reads p.types.sizeOf s slots)
    (hearlier : ∀ f ∈ l.fields, ∀ target, p.embedded? f = some target → target < index) :
    SwapPlan.ofLayout p index s l = .ok (p.swapPlan index l) := by
  simp only [SwapPlan.ofLayout, h.walk_eq]
  rw [Checked.mapM_eq_ok fun f hf => planned?_eq_ok (hearlier f hf)]
  simp [swapPlan, h.name, List.filterMap_map]

/-- A record that is embedded stands before its container, so that it is known by then whether it
has bit-fields. -/
theorem target?_take {index : Nat} {f : FieldLayout}
    (h : ∀ target, p.embedded? f = some target → target < index) :
    BitSwapPlan.target? p (layouts.take (index + 1)) f = BitSwapPlan.target? p layouts f := by
  rw [BitSwapPlan.target?, BitSwapPlan.target?]
  cases he : p.embedded? f with
  | none => rfl
  | some target =>
    simp only [Option.filter, List.getElem?_take_of_lt (Nat.lt_succ_of_lt (h target he))]

theorem bitSwapPlan?_eq_ok {s : Record} {slots : List Slot} {l : Layout} {index : Nat}
    (h : l.Reads p.types.sizeOf s slots)
    (hearlier : ∀ f ∈ l.fields, ∀ target, p.embedded? f = some target → target < index) :
    BitSwapPlan.ofLayout p layouts index s l = .ok (p.bitSwapPlan? layouts index l) := by
  obtain ⟨joining, hscan⟩ := Slot.ofRows_eq_ok.1 h.scanned
  obtain rfl : joining = [] := (Slot.scan_ok hscan).2.2
  have hops := BitSwapPlan.opsFrom_eq_ok (BitSwapPlan.target? p (layouts.take (index + 1))) hscan
    none .nil h.shown (fun x hx => by cases hx) (fun h => by cases h)
    (Nat.le_of_eq (by rw [Nat.zero_add, h.groups]))
  rw [List.nil_append, Option.map_none,
    BitSwapPlan.opsOf_congr fun f hf => target?_take (hearlier f hf)] at hops
  unfold BitSwapPlan.ofLayout bitSwapPlan?
  split
  · simp only [h.walk_eq, hops, h.name]
    rfl
  · rfl

section
variable (h : p.Plannable layouts)
include h

theorem Plannable.map_snd_zip : (p.records.zip layouts).map Prod.snd = layouts :=
  List.map_snd_zip (Nat.le_of_eq h.reads.length_eq.symm)

theorem Plannable.map_snd_zipIdx :
    (p.records.zip layouts).zipIdx.map (Prod.map Prod.snd id) = layouts.zipIdx := by
  rw [← List.zipIdx_map, h.map_snd_zip]

/-- A record and its layout, at their index. -/
theorem Plannable.reads_of_mem {x : (Record × Layout) × Nat}
    (hx : x ∈ (p.records.zip layouts).zipIdx) :
    (∃ slots, x.1.2.Reads p.types.sizeOf x.1.1 slots) ∧
      ∀ f ∈ x.1.2.fields, ∀ target, p.embedded? f = some target → target < x.2 := by
  obtain ⟨⟨s, l⟩, index⟩ := x
  obtain ⟨hs, hl⟩ := List.getElem?_zip_eq_some.1 (List.mem_zipIdx_iff_getElem?.1 hx)
  obtain ⟨s', slots, hs', hread⟩ := h.reads_of hl
  obtain rfl := Option.some.inj (hs.symm.trans hs')
  exact ⟨⟨slots, hread⟩, fun f hf target => h.earlier hl hf⟩

theorem Plannable.swapsOf_eq : Plans.swapsOf p layouts = .ok (p.planned layouts).swaps := by
  change List.mapM _ _ = Except.ok (List.map _ layouts.zipIdx)
  rw [← h.map_snd_zipIdx, List.map_map]
  refine Checked.mapM_eq_ok fun x hx => ?_
  obtain ⟨⟨slots, hread⟩, hearlier⟩ := h.reads_of_mem hx
  exact swapPlan_eq_ok hread hearlier

theorem Plannable.bitSwapsOf_eq :
    Plans.bitSwapsOf p layouts = .ok (p.planned layouts).bitSwaps := by
  change List.mapM _ _ = Except.ok (List.map _ layouts.zipIdx)
  rw [← h.map_snd_zipIdx, List.map_map]
  refine Checked.mapM_eq_ok fun x hx => ?_
  obtain ⟨⟨slots, hread⟩, hearlier⟩ := h.reads_of_mem hx
  exact bitSwapPlan?_eq_ok hread hearlier

theorem Plannable.reports_eq : Plans.reports p layouts = (p.planned layouts).diagnostics := by
  unfold Plans.reports planned
  conv_rhs => rw [← h.map_snd_zip, List.flatMap_map]
  refine List.flatMap_congr fun x hx => ?_
  obtain ⟨index, hindex⟩ := List.mem_iff_getElem?.1 hx
  obtain ⟨⟨slots, hread⟩, -⟩ := h.reads_of_mem (x := (x, index))
    (List.mem_zipIdx_iff_getElem?.2 hindex)
  have hname : x.2.name = x.1.name := hread.name
  rw [hname, ← hread.walk_eq]

/-- Planning gives the plans of the project. -/
theorem Plannable.ofLayouts_eq : Plans.ofLayouts p layouts = .ok (p.planned layouts) := by
  rw [Plans.ofLayouts, h.swapsOf_eq, Checked.ok_bind, h.bitSwapsOf_eq, Checked.ok_bind,
    h.reports_eq]
  rfl

end

theorem planned_swaps (p : Project) (layouts : List Layout) (index : Nat) :
    (p.planned layouts).swaps[index]? = layouts[index]?.map (p.swapPlan index) := by
  rw [planned, List.getElem?_map, List.getElem?_zipIdx]
  cases layouts[index]? <;> simp

theorem planned_bitSwap? (p : Project) (layouts : List Layout) (index : Nat) :
    (p.planned layouts).bitSwap? index =
      layouts[index]?.bind (p.bitSwapPlan? layouts index) := by
  rw [Plans.bitSwap?, planned, List.getElem?_map, List.getElem?_zipIdx]
  cases layouts[index]? <;> simp

/-- The plan of a record is that of its layout. -/
theorem Plannable.exists_layout (h : p.Plannable layouts) {i : Nat} {s : Record} {plan : SwapPlan}
    (hs : p.records[i]? = some s) (hp : (p.planned layouts).swaps[i]? = some plan) :
    ∃ l slots, layouts[i]? = some l ∧ Layout.Reads p.types.sizeOf s slots l ∧
      plan = p.swapPlan i l := by
  rw [planned_swaps, Option.map_eq_some_iff] at hp
  obtain ⟨l, hl, rfl⟩ := hp
  obtain ⟨_, slots, hs', hread⟩ := h.reads_of hl
  obtain rfl := Option.some.inj (hs.symm.trans hs')
  exact ⟨l, slots, hl, hread, rfl⟩

end Project

/-! ## Statements of pieces -/

/-- The statement for a member of a storage unit. -/
def FieldLayout.bitOp (u : UnitLayout) (f : FieldLayout) : BitSwapOp :=
  BitSwapPlan.fieldOp f (f.bitLength.getD 0) u

namespace Piece

variable {target? : FieldLayout → Option Nat}

/-- The statement for a plain member. -/
def memberOps (target? : FieldLayout → Option Nat) (f : FieldLayout) : List BitSwapOp :=
  match target? f with
  | some target => [.nested f.name target f.extents f.offset f.elementSize]
  | none => []

/-- The statement that closes a unit. -/
def closing (u : UnitLayout) : BitSwapOp := .reflectOutput u.offset u.byteSize

/-- The statements that enter a unit and turn its members. -/
def unitOps (u : UnitLayout) (fs : List FieldLayout) : List BitSwapOp :=
  .reflectInput u.offset u.byteSize :: fs.map (FieldLayout.bitOp u)

/-- The statements for a piece. -/
def bitOps (target? : FieldLayout → Option Nat) : Piece → List BitSwapOp
  | member f => memberOps target? f
  | unit u fs => unitOps u fs ++ [closing u]

/-- The statements for a list of pieces, where `current`, the unit entered last, is closed when the
next one is entered. -/
def statements (target? : FieldLayout → Option Nat) (current : Option UnitLayout) :
    List Piece → List BitSwapOp
  | [] => current.toList.map closing
  | member f :: rest => memberOps target? f ++ statements target? current rest
  | unit u fs :: rest =>
    current.toList.map closing ++ unitOps u fs ++ statements target? (some u) rest

/-- Closing units late only moves statements. -/
theorem statements_perm (current : Option UnitLayout) (pieces : List Piece) :
    (statements target? current pieces).Perm
      (current.toList.map closing ++ pieces.flatMap (bitOps target?)) := by
  induction pieces generalizing current with
  | nil => simp [statements]
  | cons q rest ih =>
    cases q with
    | member f =>
      rw [statements, List.flatMap_cons]
      exact ((ih current).append_left _).trans (List.perm_append_comm_assoc _ _ _)
    | unit u fs =>
      rw [statements, List.flatMap_cons, List.append_assoc, bitOps, List.append_assoc]
      exact (((ih (some u)).append_left _).append_left _)

theorem mem_statements {pieces : List Piece} {op : BitSwapOp}
    (h : op ∈ statements target? none pieces) : ∃ q ∈ pieces, op ∈ q.bitOps target? :=
  List.mem_flatMap.1 ((statements_perm none pieces).subset h)

end Piece

namespace BitSwapPlan

variable {target? : FieldLayout → Option Nat} {groups : List UnitLayout}
  {current : Option (Nat × UnitLayout)} {n : Nat} {u : UnitLayout} {sizeOf : String → Nat}

theorem close_eq (entered : Option UnitLayout) :
    close entered = entered.toList.map Piece.closing := by
  cases entered <;> rfl

/-- The members of the unit that was entered last. -/
theorem opsOf_unit (hu : groups[n]? = some u) {fs : List FieldLayout} (rest : List FieldLayout)
    (hg : ∀ f ∈ fs, f.group = some n) (hb : ∀ f ∈ fs, ∃ bits, f.bitLength = some bits) :
    opsOf target? groups (some (n, u)) (fs ++ rest) =
      fs.map (FieldLayout.bitOp u) ++ opsOf target? groups (some (n, u)) rest := by
  induction fs with
  | nil => rfl
  | cons f fs ih =>
    obtain ⟨bits, hbits⟩ := hb f (.head _)
    have ih := ih (fun g hm => hg g (.tail _ hm)) (fun g hm => hb g (.tail _ hm))
    rw [List.cons_append, opsOf]
    simp only [hbits, hg f (.head _), Option.bind_some, hu, Option.map_some, if_true, ih,
      FieldLayout.bitOp, Option.getD_some, List.map_cons, List.cons_append]

theorem opsOf_pieces {pieces : List Piece} (hn : Piece.Numbered n pieces)
    (hg : groups.drop n = pieces.filterMap Piece.unit?) (hs : ∀ q ∈ pieces, q.Sound sizeOf)
    (hc : ∀ x, current = some x → x.1 < n) :
    opsOf target? groups current (pieces.flatMap Piece.fields) =
      Piece.statements target? (current.map Prod.snd) pieces := by
  induction hn generalizing current with
  | nil n => exact close_eq _
  | @member n f rest hf _ ih =>
    have hq := hs (.member f) (.head _)
    have ih := ih hg (fun q hq => hs q (.tail _ hq)) hc
    rw [List.flatMap_cons, Piece.fields, List.singleton_append, opsOf, hq.bitLength,
      Piece.statements, Piece.memberOps, ← ih]
    cases target? f <;> rfl
  | @unit n u fs rest hf _ ih =>
    have hq := hs (.unit u fs) (.head _)
    have hu : groups[n]? = some u := by
      have := congrArg (·[0]?) hg
      simpa [Piece.unit?] using this
    have hrest : groups.drop (n + 1) = rest.filterMap Piece.unit? := by
      have := congrArg List.tail hg
      simpa [Piece.unit?] using this
    have ih : opsOf target? groups (some (n, u)) (rest.flatMap Piece.fields) =
        Piece.statements target? (some u) rest :=
      ih hrest (fun q hq => hs q (.tail _ hq)) fun x hx => by cases hx; exact Nat.lt_succ_self n
    have hb : ∀ f ∈ fs, ∃ bits, f.bitLength = some bits := fun f hf => by
      obtain ⟨bits, hbits, -⟩ := hq.run.isSome f hf
      exact ⟨bits, hbits⟩
    have hne : current.map Prod.fst ≠ some n := fun h => by
      obtain ⟨x, hx, hxn⟩ := Option.map_eq_some_iff.1 h
      exact absurd (hc x hx) (by omega)
    cases fs with
    | nil => exact absurd rfl hq.ne_nil
    | cons f fs =>
      -- the first bit-field enters the unit, the others find it entered
      obtain ⟨bits, hbits⟩ := hb f (.head _)
      rw [List.flatMap_cons, Piece.fields, List.cons_append, opsOf]
      simp only [hbits, hf f (.head _), Option.bind_some, hu, Option.map_some, if_neg hne]
      rw [opsOf_unit hu _ (fun g hm => hf g (.tail _ hm)) (fun g hm => hb g (.tail _ hm)), ih,
        Piece.statements, Piece.unitOps, close_eq]
      simp [FieldLayout.bitOp, hbits]

end BitSwapPlan

/-! ## Plans that cannot fail -/

namespace Piece

variable {sizeOf : String → Nat}

theorem MemberSound.arrayFits {f : FieldLayout} (h : MemberSound sizeOf f)
    (hl : f.offset + f.size < sizeLimit) : ArrayFits f.offset f.elementSize f.extents := by
  refine ⟨h.count, ?_⟩
  rwa [Nat.mul_comm, ← h.size]

theorem UnitSound.capacity_lt {u : UnitLayout} {fs : List FieldLayout} (h : UnitSound sizeOf u fs) :
    u.capacity < bitLimit := by
  obtain ⟨hlt, hc⟩ := unitCapacity_eq_ok.1 h.capacity
  omega

end Piece

/-- The statements of the bit swap of a record, if it has bit-fields. -/
theorem Project.planned_ops {p : Project} {layouts : List Layout} {index : Nat}
    {l : Layout} {pieces : List Piece}
    (hl : layouts[index]? = some l) (hc : l.Consists p.types.sizeOf pieces) :
    (p.planned layouts).bitSwap? index =
      if l.hasBitFields then
        some ⟨index, l.name, Piece.statements (BitSwapPlan.target? p layouts) none pieces⟩
      else none := by
  rw [planned_bitSwap?, hl, Option.bind_some, bitSwapPlan?, hc.fields,
    BitSwapPlan.opsOf_pieces hc.numbered (by rw [List.drop_zero, hc.groups]) hc.sound
      (fun x hx => by cases hx)]
  rfl

namespace Project.Bounded

variable {p : Project} {layouts : List Layout} (h : p.Bounded layouts)
include h

theorem member_runs {index : Nat} {l : Layout} {pieces : List Piece}
    (hl : layouts[index]? = some l) (hc : l.Consists p.types.sizeOf pieces) {f : FieldLayout}
    (hf : f ∈ l.fields) (hb : f.bitLength = none) :
    ArrayFits f.offset f.elementSize f.extents := by
  have hm := hc.member_mem hf hb
  have hfits := h.fits l (List.mem_of_getElem? hl)
  have hle := hc.inside _ hm
  simp only [Piece.span, FieldLayout.span] at hle
  exact (hc.sound _ hm : Piece.MemberSound _ f).arrayFits (by omega)

theorem entry_runs {index : Nat} {l : Layout} (hl : layouts[index]? = some l) {f : FieldLayout}
    (hf : f ∈ l.fields) {e : SwapEntry} (he : p.entry? f = some e) : e.Runs index := by
  obtain ⟨pieces, hc⟩ := h.consists l (List.mem_of_getElem? hl)
  obtain ⟨strategy, hs, rfl⟩ := Option.map_eq_some_iff.1 he
  cases hb : f.bitLength with
  | some bits =>
    rw [strategy?_bitField hb] at hs
    cases hs
    intro width hw
    cases hw
  | none =>
    have hfits := h.member_runs hl hc hf hb
    cases ht : p.embedded? f with
    | some target =>
      rw [strategy?_nested hb ht] at hs
      cases hs
      exact ⟨h.earlier hl hf ht, hfits⟩
    | none =>
      rw [strategy?_scalar hb ht, Option.bind_eq_some_iff] at hs
      obtain ⟨category, -, hs⟩ := hs
      unfold SwapEntry.Runs
      split
      · next target ht =>
        have ht : strategy = .nested target := ht
        exact absurd (ht ▸ hs) select?_ne_nested
      · exact fun width hw => ⟨Strategy.width?_of_select? hs hw, hfits⟩

theorem op_runs {index : Nat} {l : Layout} {pieces : List Piece} (hl : layouts[index]? = some l)
    (hc : l.Consists p.types.sizeOf pieces) {q : Piece} (hq : q ∈ pieces) {op : BitSwapOp}
    (ho : op ∈ q.bitOps (BitSwapPlan.target? p layouts)) : op.Runs index := by
  have hfits := h.fits l (List.mem_of_getElem? hl)
  have hle := hc.inside q hq
  have hfields : ∀ f ∈ q.fields, f ∈ l.fields := fun f hf =>
    hc.fields ▸ List.mem_flatMap.2 ⟨q, hq, hf⟩
  cases q with
  | member f =>
    have hs : Piece.MemberSound _ f := hc.sound _ hq
    have hf := hfields f (.head _)
    simp only [Piece.bitOps, Piece.memberOps] at ho
    cases ht : BitSwapPlan.target? p layouts f with
    | none => simp [ht] at ho
    | some target =>
      rw [ht, List.mem_singleton] at ho
      subst ho
      have he := (Option.filter_eq_some_iff.1 ht).1
      exact ⟨h.earlier hl hf he, h.member_runs hl hc hf hs.bitLength⟩
  | unit u fs =>
    have hs : Piece.UnitSound _ u fs := hc.sound _ hq
    simp only [Piece.span, UnitLayout.span] at hle
    simp only [Piece.bitOps, Piece.unitOps, List.cons_append, List.mem_cons, List.mem_append,
      List.mem_map] at ho
    obtain rfl | ⟨f, hf, rfl⟩ | rfl | hnil := ho
    · exact (show u.offset + u.byteSize < sizeLimit by omega)
    · obtain ⟨bits, hbits, -, hrun⟩ := hs.run.isSome f hf
      rw [FieldLayout.bitOp, hbits]
      simp only [Option.getD_some, BitSwapPlan.fieldOp]
      split
      · refine ⟨by omega, ?_⟩
        have hw := h.bits l (List.mem_of_getElem? hl) f (hfields f hf) bits hbits
        have hcap := hs.capacity_lt
        -- a bit-field that is wider than its unit starts at bit 0
        obtain hle | ⟨hzero, -⟩ := hs.field_cases hf hbits <;> omega
      · trivial
    · exact (show u.offset + u.byteSize < sizeLimit by omega)
    · exact absurd hnil List.not_mem_nil

/-- **The planned swap functions cannot stop with a fault.** -/
theorem runnable : (p.planned layouts).Runnable := by
  constructor
  · intro index plan hp e he
    rw [planned_swaps, Option.map_eq_some_iff] at hp
    obtain ⟨l, hl, rfl⟩ := hp
    obtain ⟨f, hf, he⟩ := List.mem_filterMap.1 he
    exact h.entry_runs hl hf he
  · intro index plan hp op ho
    have hl : ∃ l, layouts[index]? = some l := by
      rw [planned_bitSwap?, Option.bind_eq_some_iff] at hp
      obtain ⟨l, hl, -⟩ := hp
      exact ⟨l, hl⟩
    obtain ⟨l, hl⟩ := hl
    obtain ⟨pieces, hc⟩ := h.consists l (List.mem_of_getElem? hl)
    rw [planned_ops hl hc] at hp
    split at hp
    · cases hp
      obtain ⟨q, hq, ho⟩ := Piece.mem_statements ho
      exact h.op_runs hl hc hq ho
    · cases hp

end Project.Bounded

end RecordSwap
