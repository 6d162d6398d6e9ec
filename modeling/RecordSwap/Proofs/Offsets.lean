import RecordSwap.Proofs.Placing
import RecordSwap.Proofs.RowByRow

/-!
# Given offsets

What becomes of the offset that a row gives.

* `Joins`, `Opens`: a declared row joins the open storage unit, or is the one that opened it.
* `Record.Honoured`: a row that gives an offset has it, unless it joins a unit; then it has that of
  the row that opened the unit.
* `Layout.LiesAt`: each member lies behind the protocol header at its offset in a placement.
* `Pass.run_honoured`: what the pass over the rows of a record does with the offsets they give.
* `Draft.offsets_honoured`: the statement about placements, and about layouts of built projects.
* `Row.PinnedAt`, `Record.Pins`: rows that are given the offset they have got anyway.
* `Placement.ofRecord_pinned`: which changes nothing.
-/

namespace RecordSwap

/-! ## Units and their rows -/

/-- The declared row at `k` joins the unit that is open. -/
def Joins (answers : List (Option PackStep)) (k : Nat) : Prop :=
  ∃ shift, answers[k]? = some (some (.merged shift))

/-- The declared row at `j` opened the unit that the row at `k` joins. -/
structure Opens (answers : List (Option PackStep)) (j k : Nat) : Prop where
  before : j < k
  opened : answers[j]? = some (some .opened)
  joins : ∀ i, j < i → i ≤ k → Joins answers i

/-- The declared rows of a record have the offsets they give, moved by `base`, apart from bit-fields
that join a unit, which have the offset of the row that opened it. -/
structure Record.Honoured (sizeOf : String → Nat) (s : Record) (base : Nat)
    (offset? : String → Option Nat) (answers : List (Option PackStep)) : Prop where
  packed : Packer.empty.answers (s.declared.map (.ofRow sizeOf)) = .ok answers
  given : ∀ {k : Nat} {row : Row} {o : Nat}, s.declared[k]? = some row → row.offset = some o →
    ¬ Joins answers k → offset? row.name = some (o + base)
  shared : ∀ {k : Nat} {row : Row}, s.declared[k]? = some row → Joins answers k →
    ∃ j first o, Opens answers j k ∧ s.declared[j]? = some first ∧ offset? first.name = some o ∧
      offset? row.name = some o

/-- The offsets of a placement. -/
def Placement.Honours (types : TypeTable) (s : Record) (placement : Placement) : Prop :=
  ∃ answers, s.Honoured types.sizeOf 0 placement.offset? answers

/-- The offsets of a layout, in which the protocol header stands in front. -/
def Layout.Honours (types : TypeTable) (s : Record) (l : Layout) : Prop :=
  ∃ answers, s.Honoured types.sizeOf s.headerSize
    (fun name => (l.field? name).map FieldLayout.offset) answers

/-- Each member, whether its row gives an offset or not, lies behind the protocol header at the offset
that its row has in the placement. -/
def Layout.LiesAt (s : Record) (placement : Placement) (l : Layout) : Prop :=
  ∀ row ∈ s.declared, ∃ o, placement.offset? row.name = some o ∧
    (l.field? row.name).map FieldLayout.offset = some (o + s.headerSize)

theorem Opens.succ {answers : List (Option PackStep)} {j k : Nat} (h : Opens answers j k)
    (answer : Option PackStep) : Opens (answer :: answers) (j + 1) (k + 1) := by
  refine ⟨Nat.succ_lt_succ h.before, h.opened, fun i hj hk => ?_⟩
  cases i with
  | zero => omega
  | succ i => exact h.joins i (by omega) (by omega)

namespace Pass

variable {sizeOf : String → Nat} {st last : Pass} {rows : List Row} {offsets : List (String × Nat)}

/-- What a pass has done with the rows. A row that joins a unit has the start of the unit, which is
either opened by a row before it or open from the start on. -/
structure Honoured (st : Pass) (rows : List Row) (offsets : List (String × Nat))
    (answers : List (Option PackStep)) : Prop where
  names : offsets.map Prod.fst = rows.map Row.name
  given : ∀ {k : Nat} {row : Row} {o : Nat}, rows[k]? = some row → row.offset = some o →
    ¬ Joins answers k → offsets[k]? = some (row.name, o)
  shared : ∀ {k : Nat} {row : Row}, rows[k]? = some row → Joins answers k →
    (∃ j first o, Opens answers j k ∧ rows[j]? = some first ∧
      offsets[j]? = some (first.name, o) ∧ offsets[k]? = some (row.name, o)) ∨
    ((∀ i ≤ k, Joins answers i) ∧ st.packer.active.isSome ∧
      offsets[k]? = some (row.name, st.start))

theorem run_honoured (h : st.run sizeOf rows = .ok (offsets, last)) :
    ∃ answers, st.packer.answers (rows.map (.ofRow sizeOf)) = .ok answers ∧
      st.Honoured rows offsets answers := by
  induction rows generalizing st offsets with
  | nil =>
    cases h
    exact ⟨[], rfl, rfl, fun hk => by simp at hk, fun hk => by simp at hk⟩
  | cons row rest ih =>
    obtain ⟨start, st', offsets', hstep, hrest, rfl⟩ := run_cons_eq_ok.1 h
    obtain ⟨answer, n, hanswer, hstart, -, -, -, hstart'⟩ := step_eq_ok.1 hstep
    obtain ⟨answers, hanswers, hnames, hgiven, hshared⟩ := ih hrest
    have hcases := answer_ofRow hanswer
    refine ⟨answer :: answers, ?_, by simp [hnames], fun {k r o} hk ho hj => ?_,
      fun {k r} hk hj => ?_⟩
    · simp only [List.map_cons, Packer.answers, hanswer, hanswers, Checked.ok_bind,
        Checked.pure_eq_ok]
    · cases k with
      | succ k => exact hgiven hk ho hj
      | zero =>
        obtain rfl : row = r := Option.some.inj hk
        have hstart : start = o := by
          rcases hcases with ⟨-, rfl, -⟩ | ⟨-, rfl, -⟩ | ⟨-, -, u, -, -, rfl⟩
          · rw [hstart, startOf, ho, Option.getD_some]
          · rw [hstart, startOf, ho, Option.getD_some]
          · exact absurd ⟨u.filled, rfl⟩ hj
        rw [hstart]
        rfl
    · cases k with
      | zero =>
        obtain rfl : row = r := Option.some.inj hk
        obtain ⟨shift, hs⟩ := hj
        obtain rfl : answer = some (.merged shift) := Option.some.inj hs
        rcases hcases with ⟨-, hne, -⟩ | ⟨-, hne, -⟩ | ⟨-, -, u, hu, -, -⟩
        · cases hne
        · cases hne
        · refine .inr ⟨fun i hi => ?_, by rw [hu]; rfl, by rw [hstart]; rfl⟩
          obtain rfl : i = 0 := Nat.le_zero.1 hi
          exact ⟨shift, rfl⟩
      | succ k =>
        have hj : Joins answers k := hj
        rcases hshared hk hj with ⟨j, first, o, hopens, hfirst, hj, hk⟩ | ⟨hall, hsome, hk⟩
        · exact .inl ⟨j + 1, first, o, hopens.succ answer, hfirst, hj, hk⟩
        · -- the unit is open after this row, which opened it or joined it as well
          rcases hcases with ⟨-, -, hp⟩ | ⟨-, rfl, -⟩ | ⟨-, -, u, hu, -, rfl⟩
          · rw [hp] at hsome
            cases hsome
          · refine .inl ⟨0, row, start, ⟨Nat.succ_pos k, rfl, fun i hi hik => ?_⟩, rfl, rfl, ?_⟩
            · obtain ⟨i, rfl⟩ := Nat.exists_eq_succ_of_ne_zero (by omega : i ≠ 0)
              exact hall i (by omega)
            · rw [← hstart']
              exact hk
          · refine .inr ⟨fun i hi => ?_, by rw [hu]; rfl, ?_⟩
            · cases i with
              | zero => exact ⟨u.filled, rfl⟩
              | succ i => exact hall i (by omega)
            · have hsame : st'.start = st.start := hstart'.trans hstart
              rw [← hsame]
              exact hk

end Pass

/-! ## Placements -/

namespace Placement

variable {types : TypeTable} {s : Record} {placement : Placement}

theorem map_fst_offsets (h : ofRecord types s = .ok placement) :
    placement.offsets.map Prod.fst = s.declared.map Row.name := by
  obtain ⟨last, hrun, -⟩ := ofRecord_iff.1 h
  obtain ⟨answers, -, hall⟩ := Pass.run_honoured hrun
  exact hall.names

/-- The offset of a row is found under its name. -/
theorem offset?_of_getElem? (h : ofRecord types s = .ok placement) {k : Nat} {name : String}
    {o : Nat} (hk : placement.offsets[k]? = some (name, o)) : placement.offset? name = some o := by
  refine lookup_of_mem ?_ (List.mem_of_getElem? hk)
  rw [map_fst_offsets h]
  exact s.declared_nodup

/-- Every declared row has an offset. -/
theorem exists_offset? (h : ofRecord types s = .ok placement) {row : Row} (hr : row ∈ s.declared) :
    ∃ o, placement.offset? row.name = some o := by
  have hname : row.name ∈ placement.offsets.map Prod.fst := by
    rw [map_fst_offsets h]
    exact List.mem_map_of_mem hr
  obtain ⟨⟨name, o⟩, hm, hname⟩ := List.mem_map.1 hname
  obtain ⟨k, hk⟩ := List.mem_iff_getElem?.1 hm
  exact ⟨o, hname ▸ offset?_of_getElem? h hk⟩

theorem honours (h : ofRecord types s = .ok placement) : placement.Honours types s := by
  obtain ⟨last, hrun, -⟩ := ofRecord_iff.1 h
  obtain ⟨answers, hanswers, hall⟩ := Pass.run_honoured hrun
  refine ⟨answers, hanswers, fun hk ho hj => offset?_of_getElem? h (hall.given hk ho hj),
    fun hk hj => ?_⟩
  rcases hall.shared hk hj with ⟨j, first, o, hopens, hfirst, hoj, hok⟩ | ⟨-, hsome, -⟩
  · exact ⟨j, first, o, hopens, hfirst, offset?_of_getElem? h hoj, offset?_of_getElem? h hok⟩
  · cases hsome

end Placement

/-! ## Layouts -/

namespace Layout

variable {c : Frame} {p : Project} {s : Record} {placement : Placement} {l : Layout}

/-- Each member comes from its row. -/
theorem Frame.fields_rows {units : Nat} {slots : List Slot} {fields : List FieldLayout}
    (h : c.fields units slots = .ok fields) :
    List.Forall₂ (fun row f => ∃ size group shift, c.field row size group shift = .ok f)
      (slots.flatMap Slot.rows) fields := by
  induction slots generalizing units fields with
  | nil =>
    cases h
    exact .nil
  | cons slot rest ih =>
    cases slot with
    | member row size =>
      obtain ⟨f, fields', hf, hrest, rfl⟩ := exists_of_fields_member h
      exact .cons ⟨size, none, 0, hf⟩ (ih hrest)
    | unit size first others =>
      obtain ⟨packed, fields', hpacked, hrest, rfl⟩ := exists_of_fields_unit h
      refine List.rel_append ?_ (ih hrest)
      rw [show Slot.rows _ = (first :: others).map PackedField.row from rfl,
        List.forall₂_map_left_iff]
      exact (forall₂_of_mapM hpacked).imp fun q f hf => ⟨size, some units, q.shift, hf⟩

theorem Frame.field_offset {row : Row} {size : Nat} {group : Option Nat} {shift : Nat}
    {f : FieldLayout} (h : c.field row size group shift = .ok f) :
    f.name = row.name ∧ f.offset = (c.placement.offset? row.name).getD 0 + c.headerSize := by
  obtain ⟨offset, count, total, hoffset, -, -, rfl⟩ := exists_of_field h
  obtain ⟨-, rfl⟩ := addSize_eq_ok.1 hoffset
  exact ⟨rfl, rfl⟩

/-- A layout puts each member behind the header at the offset of its row. -/
theorem ofRecord_offset (h : ofRecord p s placement = .ok l) {row : Row} (hr : row ∈ s.declared)
    {o : Nat} (ho : placement.offset? row.name = some o) :
    (l.field? row.name).map FieldLayout.offset = some (o + s.headerSize) := by
  obtain ⟨slots', hreads⟩ := ofRecord_reads h
  obtain ⟨slots, fields, groups, total, hslots, hfields, -, -, rfl⟩ := exists_of_ofRecord h
  rw [(Slot.ofRows_ok hslots).1] at hr
  obtain ⟨k, hk⟩ := List.mem_iff_getElem?.1 hr
  obtain ⟨f, hf, size, group, shift, hfield⟩ := getElem?_of_forall₂ (Frame.fields_rows hfields) hk
  obtain ⟨hname, hoffset⟩ := Frame.field_offset hfield
  have hfound := field?_eq_some hreads.nodup_names (List.mem_of_getElem? hf)
  rw [hname] at hfound
  rw [hfound, Option.map_some, hoffset, ho]
  rfl

theorem liesAt {types : TypeTable} (hp : Placement.ofRecord types s = .ok placement)
    (h : ofRecord p s placement = .ok l) : l.LiesAt s placement := by
  intro row hr
  obtain ⟨o, ho⟩ := Placement.exists_offset? hp hr
  exact ⟨o, ho, ofRecord_offset h hr ho⟩

theorem honours {types : TypeTable} (hp : Placement.ofRecord types s = .ok placement)
    (h : ofRecord p s placement = .ok l) : l.Honours types s := by
  obtain ⟨answers, hpacked, hgiven, hshared⟩ := Placement.honours hp
  refine ⟨answers, hpacked, fun hk ho hj => ?_, fun hk hj => ?_⟩
  · exact ofRecord_offset h (List.mem_of_getElem? hk) (hgiven hk ho hj)
  · obtain ⟨j, first, o, hopens, hfirst, hoj, hok⟩ := hshared hk hj
    exact ⟨j, first, o + s.headerSize, hopens, hfirst,
      ofRecord_offset h (List.mem_of_getElem? hfirst) hoj,
      ofRecord_offset h (List.mem_of_getElem? hk) hok⟩

end Layout

/-- Each layout is made of the record and the placement at its index. -/
theorem Project.exists_of_layouts {p : Project} {layouts : List Layout}
    (h : p.layouts = .ok layouts) {i : Nat} {l : Layout} (hi : layouts[i]? = some l) :
    ∃ s placement, p.records[i]? = some s ∧ p.placements[i]? = some placement ∧
      Layout.ofRecord p s placement = .ok l := by
  obtain ⟨⟨s, placement⟩, hzip, hl⟩ := getElem?_of_forall₂_right (forall₂_of_mapM h) hi
  obtain ⟨hs, hp⟩ := List.getElem?_zip_eq_some.1 hzip
  exact ⟨s, placement, hs, hp, hl⟩

/-- With distinct names every record is settled in the type table of the built project. -/
theorem Draft.placements_settled {d : Draft} {p : Project} (h : d.build = .ok p)
    (hd : (p.records.map Record.name).Nodup) :
    List.Forall₂ (Placement.Settled p.types) p.records p.placements := by
  obtain ⟨horder, placed, hplaced, hplacements, htypes, -⟩ := build_eq_ok h
  have hseq := Record.order_sequenced horder hd
  obtain ⟨hagree, hall⟩ := Placed.settled hseq hplaced
  obtain ⟨same, hsame, -, hsettled, -⟩ := Placed.ofRecords_of_settled hseq hagree hall
  obtain rfl := Except.ok.inj (hplaced.symm.trans hsame)
  rwa [hplacements, htypes]

/-- **Given offsets.** A record has a placement unless a number overflows. In every placement a
declared row that gives an offset has it, unless it joins a storage unit; then it has the offset of
the row that opened the unit. The layouts of a built project add the size of the protocol header to
the offset of every declared row. If the records have distinct names, these layouts exist, and the
placements and units are those that the type table of the project gives. -/
theorem Draft.offsets_honoured (d : Draft) (types : TypeTable) (s : Record) :
    (Placement.ofRecord types s = .error .overflow ∨
      ∃ placement, Placement.ofRecord types s = .ok placement ∧ placement.Honours types s) ∧
    ∀ p, d.build = .ok p →
      (∀ layouts, p.layouts = .ok layouts → ∀ (i : Nat) (s : Record) (l : Layout),
        p.records[i]? = some s → layouts[i]? = some l →
        ∃ types placement, p.placements[i]? = some placement ∧
          Placement.ofRecord types s = .ok placement ∧ l.LiesAt s placement ∧
          l.Honours types s) ∧
      ((p.records.map Record.name).Nodup → ∃ layouts, p.layouts = .ok layouts ∧
        List.Forall₂ (fun s l => ∃ placement, Placement.ofRecord p.types s = .ok placement ∧
          l.LiesAt s placement ∧ l.Honours p.types s) p.records layouts) := by
  refine ⟨?_, fun p h => ⟨fun layouts hl i s l hs hi => ?_, fun hd => ?_⟩⟩
  · rcases Placement.ofRecord_ends types s with ⟨placement, hp⟩ | he
    · exact .inr ⟨placement, hp, Placement.honours hp⟩
    · exact .inl he
  · obtain ⟨-, placed, hplaced, hplacements, -⟩ := build_eq_ok h
    obtain ⟨-, -, -, hof⟩ := Placed.ofRecords_ok hplaced
    obtain ⟨s', placement, hs', hp, hlayout⟩ := p.exists_of_layouts hl hi
    obtain rfl := Option.some.inj (hs.symm.trans hs')
    obtain ⟨types, hplace, -⟩ := (hof i s placement hs (hplacements ▸ hp)).placed
    exact ⟨types, placement, hp, hplace, Layout.liesAt hplace hlayout, Layout.honours hplace hlayout⟩
  · obtain ⟨layouts, hlayouts, -⟩ := exists_layouts h hd
    refine ⟨layouts, hlayouts, ?_⟩
    refine (forall₂_of_zip_mapM (placements_settled h hd) hlayouts).imp fun s l hl => ?_
    obtain ⟨placement, hsettled, hl⟩ := hl
    exact ⟨placement, hsettled.placed, Layout.liesAt hsettled.placed hl,
      Layout.honours hsettled.placed hl⟩

/-- A word that lies over others has the offset it gives, behind the header. -/
theorem Draft.offsets_honoured_sample :
    Sample.overlay.build = .ok Sample.overlaid ∧
      (Sample.overlaid.records.map Record.name).Nodup ∧ ∃ layouts l,
        Sample.overlaid.layouts = .ok layouts ∧ layouts[1]? = some l ∧
        (l.field? "code").map FieldLayout.offset = some 18 := by
  obtain ⟨-, hall⟩ := offsets_honoured Sample.overlay Sample.overlaid.types Sample.panel
  obtain ⟨-, hdistinct⟩ := hall Sample.overlaid Sample.overlay_build
  have hd := Sample.overlaid_wellNamed.nodup
  obtain ⟨layouts, hlayouts, hhonours⟩ := hdistinct hd
  obtain ⟨l, hl, -, -, -, answers, hpacked, hgiven, -⟩ :=
    getElem?_of_forall₂ hhonours (i := 1) (x := Sample.panel) rfl
  have hanswers : Packer.empty.answers
      (Sample.panel.declared.map (.ofRow Sample.overlaid.types.sizeOf)) =
        .ok [none, none, some .opened, some .opened] := by rfl
  obtain rfl := Except.ok.inj (hpacked.symm.trans hanswers)
  refine ⟨Sample.overlay_build, hd, layouts, l, hlayouts, hl, ?_⟩
  have hcode : Sample.panel.declared[1]? = some Sample.panel.rows[1] := rfl
  exact hgiven hcode rfl fun ⟨shift, hj⟩ => nomatch hj

namespace Sample

/-- Two bit-fields of one unit, of which the second gives an offset. -/
def nibbles : Record where
  name := "Nibbles"
  rows := [
    { name := "low", dataType := "uint8", bitLength := some 3 },
    { name := "high", dataType := "uint8", bitLength := some 4, offset := some 5 }]

/-- A word at the last address. -/
def brink : Record where
  name := "Brink"
  rows := [{ name := "word", dataType := "uint16", offset := some 0xffffffffffffffff }]

end Sample

/-- A bit-field that joins a unit does not have the offset it gives, and a record has no placement
if a member that gives its offset would end after the last address. -/
theorem Placement.given_offset_lost :
    (∃ placement row, ofRecord .builtin Sample.nibbles = .ok placement ∧
      Sample.nibbles.declared[1]? = some row ∧ row.offset = some 5 ∧
      placement.offset? row.name = some 0) ∧
    ofRecord .builtin Sample.brink = .error .overflow := by
  have hplace : ofRecord .builtin Sample.nibbles = .ok ⟨[("low", 0), ("high", 0)], 1⟩ := by
    decide +kernel
  exact ⟨⟨_, Sample.nibbles.rows[1], hplace, by decide +kernel, rfl, by decide +kernel⟩,
    by decide +kernel⟩

/-! ## Pinned offsets -/

/-- A row that is given the offset it has in a placement, or left as it is. -/
def Row.PinnedAt (placement : Placement) (row row' : Row) : Prop :=
  row' = row ∨ ∃ o, placement.offset? row.name = some o ∧ row' = { row with offset := some o }

/-- Some rows of a record are given the offsets they have in a placement. -/
structure Record.Pins (placement : Placement) (s s' : Record) : Prop where
  record : s' = { s with rows := s'.rows }
  rows : List.Forall₂ (Row.PinnedAt placement) s.rows s'.rows

namespace Row.PinnedAt

variable {placement : Placement} {row row' : Row} (h : row.PinnedAt placement row')
include h

theorem name : row'.name = row.name := by
  rcases h with rfl | ⟨o, -, rfl⟩ <;> rfl

theorem dataType : row'.dataType = row.dataType := by
  rcases h with rfl | ⟨o, -, rfl⟩ <;> rfl

theorem isElement : row'.isElement = row.isElement := by
  rcases h with rfl | ⟨o, -, rfl⟩ <;> rfl

theorem ofRow (sizeOf : String → Nat) :
    Packer.Call.ofRow sizeOf row' = Packer.Call.ofRow sizeOf row := by
  rcases h with rfl | ⟨o, -, rfl⟩ <;> rfl

theorem span (sizeOf : String → Nat) : row'.span sizeOf = row.span sizeOf := by
  rcases h with rfl | ⟨o, -, rfl⟩ <;> rfl

/-- A row that starts where it is pinned starts there in the same state as well. -/
theorem startOf (st : Pass) (answer : Option PackStep)
    (ho : placement.offset? row.name = some (st.startOf row answer)) :
    st.startOf row' answer = st.startOf row answer := by
  rcases h with rfl | ⟨o, ho', rfl⟩
  · rfl
  · obtain rfl := Option.some.inj (ho'.symm.trans ho)
    unfold Pass.startOf
    split <;> rfl

end Row.PinnedAt

namespace Pass

variable {sizeOf : String → Nat} {placement : Placement} {st : Pass}

theorem step_pinned {st' : Pass} {row row' : Row} {start : Nat}
    (h : st.step sizeOf row = .ok (start, st')) (hp : row.PinnedAt placement row')
    (ho : placement.offset? row.name = some start) : st.step sizeOf row' = .ok (start, st') := by
  obtain ⟨answer, n, hanswer, hstart, hn, hlt, hcursor, hst⟩ := step_eq_ok.1 h
  have hsame : st.startOf row' answer = st.startOf row answer := hp.startOf st answer (hstart ▸ ho)
  exact step_eq_ok.2 ⟨answer, n, hp.ofRow sizeOf ▸ hanswer, hstart.trans hsame.symm,
    (hp.span sizeOf).trans hn, hlt, hcursor, hst⟩

/-- Pinned rows go through the same states. -/
theorem run_pinned {rows rows' : List Row} {offsets : List (String × Nat)} {last : Pass}
    (h : st.run sizeOf rows = .ok (offsets, last))
    (hp : List.Forall₂ (Row.PinnedAt placement) rows rows')
    (ho : ∀ x ∈ offsets, placement.offset? x.1 = some x.2) :
    st.run sizeOf rows' = .ok (offsets, last) := by
  induction hp generalizing st offsets with
  | nil => exact h
  | cons hrow _ ih =>
    obtain ⟨start, st', offsets', hstep, hrest, rfl⟩ := run_cons_eq_ok.1 h
    have hstep' := step_pinned hstep hrow (ho _ (.head _))
    have hrest' := ih hrest fun x hx => ho x (.tail _ hx)
    exact run_cons_eq_ok.2 ⟨start, st', offsets', hstep', hrest', by rw [hrow.name]⟩

end Pass

namespace Record.Pins

variable {placement : Placement} {s s' : Record}

theorem declaredAfter {rows rows' : List Row}
    (h : List.Forall₂ (Row.PinnedAt placement) rows rows') (seen : List String) :
    List.Forall₂ (Row.PinnedAt placement) (Record.declaredAfter seen rows)
      (Record.declaredAfter seen rows') := by
  induction h generalizing seen with
  | nil => exact .nil
  | cons hrow _ ih =>
    rw [Record.declaredAfter, Record.declaredAfter, hrow.isElement, hrow.name]
    split
    · exact ih seen
    · exact .cons hrow (ih _)

theorem declared (h : s.Pins placement s') :
    List.Forall₂ (Row.PinnedAt placement) s.declared s'.declared :=
  declaredAfter h.rows []

theorem name (h : s.Pins placement s') : s'.name = s.name := by
  rw [h.record]

end Record.Pins

/-- **Pinning.** Giving some rows of a record the offsets they have got changes neither the
placement nor the reports. -/
theorem Placement.ofRecord_pinned {types : TypeTable} {s s' : Record} {placement : Placement}
    (h : ofRecord types s = .ok placement) (hp : s.Pins placement s') :
    ofRecord types s' = .ok placement ∧ unknownTypes types s' = unknownTypes types s := by
  constructor
  · obtain ⟨last, hrun, hsize⟩ := ofRecord_iff.1 h
    refine ofRecord_iff.2 ⟨last, Pass.run_pinned hrun hp.declared fun x hx => ?_, hsize⟩
    obtain ⟨k, hk⟩ := List.mem_iff_getElem?.1 hx
    exact offset?_of_getElem? h hk
  · rw [unknownTypes, unknownTypes, hp.name]
    have hrows := hp.declared
    generalize s.declared = rows at hrows
    generalize s'.declared = rows' at hrows
    induction hrows with
    | nil => rfl
    | cons hrow _ ih => simp only [List.filterMap_cons, hrow.name, hrow.dataType, ih]

/-- A bit-field in the middle of a unit and a word that lies over it are pinned. -/
theorem Placement.ofRecord_pinned_sample :
    let rows : List Row := [
      { name := "grid", dataType := "uint16", extents := [2, 3] },
      { name := "low", dataType := "uint8", bitLength := some 3 },
      { name := "high", dataType := "uint8", bitLength := some 4, offset := some 1 },
      { name := "word", dataType := "uint32", offset := some 9 },
      { name := "tail", dataType := "blob" }]
    let pinned : List Row := [
      { name := "grid", dataType := "uint16", extents := [2, 3] },
      { name := "low", dataType := "uint8", bitLength := some 3 },
      { name := "high", dataType := "uint8", bitLength := some 4, offset := some 12 },
      { name := "word", dataType := "uint32", offset := some 9 },
      { name := "tail", dataType := "blob", offset := some 13 }]
    let placement : Placement :=
      ⟨[("grid", 0), ("low", 12), ("high", 12), ("word", 9), ("tail", 13)], 13⟩
    ofRecord .builtin { name := "S", rows := rows } = .ok placement ∧
      Record.Pins placement { name := "S", rows := rows } { name := "S", rows := pinned } ∧
      ofRecord .builtin { name := "S", rows := pinned } = .ok placement ∧
      unknownTypes .builtin { name := "S", rows := pinned } = [⟨"S", "tail", .unknownType "blob"⟩] := by
  intro rows pinned placement
  have hplace : ofRecord .builtin { name := "S", rows := rows } = .ok placement := by
    decide +kernel
  have hpins : Record.Pins placement { name := "S", rows := rows } { name := "S", rows := pinned } :=
    ⟨rfl, .cons (.inl rfl) <| .cons (.inl rfl) <| .cons (.inr ⟨12, rfl, rfl⟩) <|
      .cons (.inl rfl) <| .cons (.inr ⟨13, rfl, rfl⟩) .nil⟩
  obtain ⟨hsame, hreports⟩ := ofRecord_pinned hplace hpins
  exact ⟨hplace, hpins, hsame, hreports.trans (by decide +kernel)⟩

end RecordSwap
