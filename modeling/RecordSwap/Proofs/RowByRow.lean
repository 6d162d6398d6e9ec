import RecordSwap.Proofs.Calls
import RecordSwap.Proofs.Packing

/-!
# Placement row by row

A record is placed slot by slot, once its bit-fields are packed. One pass that packs and places its
declared rows at the same time gives the same placement, and shows at each row what becomes of it.

* `Packer.Call.ofRow`: the call on the packer that a row stands for.
* `Pass.step`, `Pass.run`: places one row, and rows one after the other.
* `Pass.run_iff`: the pass and the slots agree, by induction on the rows; while a unit is open its
  end is not past the largest end so far (`Pass.Sound`).
* `Placement.ofRecord_iff`: the placement of a record is what the pass over its rows gives.
* `Placement.ofRecord_ends`, `Placed.ofRecords_ends`: placing can only fail by overflow.
-/

namespace RecordSwap

/-- The call on the packer that a row stands for. -/
def Packer.Call.ofRow (sizeOf : String → Nat) (row : Row) : Packer.Call :=
  match row.bitField? with
  | none => .reset
  | some bits => .pack row.dataType bits (sizeOf row.dataType)

/-- Bytes that a row takes by itself; a bit-field takes a whole unit. -/
def Row.span (sizeOf : String → Nat) (row : Row) : Checked Nat :=
  match row.bitField? with
  | none => do mulSize (sizeOf row.dataType) (← row.elementCount)
  | some _ => pure (sizeOf row.dataType)

/-- The state between two rows. -/
structure Pass where
  packer : Packer := .empty
  /-- The largest end so far. -/
  cursor : Nat := 0
  /-- Where the last slot starts. -/
  start : Nat := 0
  deriving DecidableEq, Repr

namespace Pass

/-- Start of a row. A bit-field that joins the open unit starts where the unit does, any other row
where it says, otherwise at the largest end so far. -/
def startOf (st : Pass) (row : Row) : Option PackStep → Nat
  | some (.merged _) => st.start
  | some .opened | none => row.offset.getD st.cursor

/-- Places one row; the first result is its start. -/
def step (sizeOf : String → Nat) (st : Pass) (row : Row) : Checked (Nat × Pass) := do
  let (answer, packer) ← st.packer.answer (.ofRow sizeOf row)
  let start := st.startOf row answer
  let stop ← addSize start (← row.span sizeOf)
  pure (start, ⟨packer, max st.cursor stop, start⟩)

/-- Places rows one after the other; the first result are their names and starts. -/
def run (sizeOf : String → Nat) (st : Pass) : List Row → Checked (List (String × Nat) × Pass)
  | [] => pure ([], st)
  | row :: rest => do
    let (start, st) ← st.step sizeOf row
    let (offsets, last) ← st.run sizeOf rest
    pure ((row.name, start) :: offsets, last)

theorem step_eq_ok {sizeOf : String → Nat} {st st' : Pass} {row : Row} {start : Nat} :
    st.step sizeOf row = .ok (start, st') ↔
      ∃ answer n, st.packer.answer (.ofRow sizeOf row) = .ok (answer, st'.packer) ∧
        start = st.startOf row answer ∧ row.span sizeOf = .ok n ∧ start + n < sizeLimit ∧
        st'.cursor = max st.cursor (start + n) ∧ st'.start = start := by
  unfold step
  constructor
  · intro h
    obtain ⟨⟨answer, packer⟩, hanswer, h⟩ := Checked.bind_eq_ok.1 h
    obtain ⟨n, hn, h⟩ := Checked.bind_eq_ok.1 h
    obtain ⟨stop, hstop, h⟩ := Checked.bind_eq_ok.1 h
    cases h
    obtain ⟨hlt, rfl⟩ := addSize_eq_ok.1 hstop
    exact ⟨answer, n, hanswer, rfl, hn, hlt, rfl, rfl⟩
  · rintro ⟨answer, n, hanswer, rfl, hn, hlt, hcursor, hstart⟩
    obtain ⟨packer, cursor, start⟩ := st'
    dsimp only at hanswer hcursor hstart
    simp only [hanswer, hn, addSize_eq_ok.2 ⟨hlt, rfl⟩, hcursor, hstart, Checked.ok_bind,
      Checked.pure_eq_ok]

theorem run_cons_eq_ok {sizeOf : String → Nat} {st last : Pass} {row : Row} {rest : List Row}
    {offsets : List (String × Nat)} :
    st.run sizeOf (row :: rest) = .ok (offsets, last) ↔
      ∃ start st' offsets', st.step sizeOf row = .ok (start, st') ∧
        st'.run sizeOf rest = .ok (offsets', last) ∧ offsets = (row.name, start) :: offsets' := by
  rw [run]
  constructor
  · intro h
    obtain ⟨⟨start, st'⟩, hstep, h⟩ := Checked.bind_eq_ok.1 h
    obtain ⟨⟨offsets', last'⟩, hrun, h⟩ := Checked.bind_eq_ok.1 h
    cases h
    exact ⟨start, st', offsets', hstep, hrun, rfl⟩
  · rintro ⟨start, st', offsets', hstep, hrun, rfl⟩
    simp only [hstep, hrun, Checked.ok_bind, Checked.pure_eq_ok]

/-! ## Slots and rows -/

/-- The largest end so far fits its word, and the open unit does not end after it. -/
structure Sound (sizeOf : String → Nat) (st : Pass) : Prop where
  fits : st.cursor < sizeLimit
  unit : ∀ u, st.packer.active = some u → st.start + sizeOf u.dataType ≤ st.cursor

/-- What can become of a row: it closes the open unit, opens one, or joins the one that is open. -/
theorem answer_ofRow {sizeOf : String → Nat} {p p' : Packer} {row : Row}
    {answer : Option PackStep} (h : p.answer (.ofRow sizeOf row) = .ok (answer, p')) :
    (row.bitField? = none ∧ answer = none ∧ p' = .empty) ∨
    ((∃ bits, row.bitField? = some bits) ∧ answer = some .opened ∧
      ∃ u, p'.active = some u ∧ u.dataType = row.dataType) ∨
    ((∃ bits, row.bitField? = some bits) ∧ (∃ u, p'.active = some u ∧ u.dataType = row.dataType) ∧
      ∃ u, p.active = some u ∧ u.dataType = row.dataType ∧ answer = some (.merged u.filled)) := by
  unfold Packer.Call.ofRow at h
  split at h
  · next hb =>
    cases h
    exact .inl ⟨hb, rfl, rfl⟩
  · next bits hb =>
    obtain ⟨⟨_, q⟩, hpack, h⟩ := Checked.bind_eq_ok.1 h
    cases h
    rcases Packer.pack_cases hpack with
      ⟨u, hu, ht, -, rfl, hq⟩ | ⟨rfl, ⟨capacity, -, hq⟩, -⟩
    · exact .inr (.inr ⟨⟨bits, hb⟩, ⟨_, hq, ht⟩, u, hu, ht, rfl⟩)
    · exact .inr (.inl ⟨⟨bits, hb⟩, rfl, _, hq, rfl⟩)

theorem span_of_bitField {sizeOf : String → Nat} {row : Row}
    (h : ∃ bits, row.bitField? = some bits) : row.span sizeOf = .ok (sizeOf row.dataType) := by
  obtain ⟨bits, hb⟩ := h
  rw [Row.span, hb]
  rfl

theorem Sound.step {sizeOf : String → Nat} {st st' : Pass} {row : Row} {start : Nat}
    (hst : st.Sound sizeOf) (h : st.step sizeOf row = .ok (start, st')) : st'.Sound sizeOf := by
  obtain ⟨answer, n, hanswer, -, hn, hlt, hcursor, hstart⟩ := step_eq_ok.1 h
  have hfits := hst.fits
  refine ⟨by omega, fun u hu => ?_⟩
  have hopen (hb : ∃ bits, row.bitField? = some bits)
      (hv : ∃ v, st'.packer.active = some v ∧ v.dataType = row.dataType) :
      st'.start + sizeOf u.dataType ≤ st'.cursor := by
    obtain ⟨v, hv, ht⟩ := hv
    obtain rfl : v = u := Option.some.inj (hv.symm.trans hu)
    obtain rfl := Except.ok.inj ((span_of_bitField hb).symm.trans hn)
    rw [ht]
    omega
  rcases answer_ofRow hanswer with ⟨-, -, hp⟩ | ⟨hb, -, hv⟩ | ⟨hb, hv, -⟩
  · rw [hp] at hu
    cases hu
  · exact hopen hb hv
  · exact hopen hb hv

/-- What a row adds to the bit-fields that still join the open unit and the slots after it. -/
def push (sizeOf : String → Nat) (row : Row) :
    Option PackStep → List PackedField × List Slot → List PackedField × List Slot
  | none, (_, slots) => ([], .member row (sizeOf row.dataType) :: slots)
  | some .opened, (joining, slots) =>
    ([], .unit (sizeOf row.dataType) ⟨row, row.bitField?.getD 0, 0⟩ joining :: slots)
  | some (.merged shift), (joining, slots) =>
    (⟨row, row.bitField?.getD 0, shift⟩ :: joining, slots)

theorem scan_cons (sizeOf : String → Nat) (p : Packer) (row : Row) (rest : List Row) :
    Slot.scan sizeOf p (row :: rest) = (do
      let (answer, p) ← p.answer (.ofRow sizeOf row)
      let read ← Slot.scan sizeOf p rest
      pure (push sizeOf row answer read)) := by
  rw [Slot.scan, Packer.Call.ofRow]
  cases hb : row.bitField? with
  | none => rfl
  | some bits =>
    dsimp only [Packer.answer]
    cases p.pack row.dataType bits (sizeOf row.dataType) with
    | error e => rfl
    | ok packed =>
      obtain ⟨step, p'⟩ := packed
      simp only [Checked.ok_bind, Checked.pure_eq_ok]
      cases Slot.scan sizeOf p' rest with
      | error e => rfl
      | ok read => cases step <;> simp [push, hb]

theorem placeFrom_cons_eq_ok {cursor size : Nat} {slot : Slot} {slots : List Slot}
    {starts : List Nat} :
    Slot.placeFrom cursor (slot :: slots) = .ok (starts, size) ↔
      ∃ n starts', slot.size = .ok n ∧ slot.firstRow.offset.getD cursor + n < sizeLimit ∧
        Slot.placeFrom (max cursor (slot.firstRow.offset.getD cursor + n)) slots =
          .ok (starts', size) ∧ starts = slot.firstRow.offset.getD cursor :: starts' := by
  simp only [Slot.placeFrom]
  constructor
  · intro h
    obtain ⟨n, hn, h⟩ := Checked.bind_eq_ok.1 h
    obtain ⟨stop, hstop, h⟩ := Checked.bind_eq_ok.1 h
    obtain ⟨⟨starts', last⟩, hrest, h⟩ := Checked.bind_eq_ok.1 h
    cases h
    obtain ⟨hlt, rfl⟩ := addSize_eq_ok.1 hstop
    exact ⟨n, starts', hn, hlt, hrest, rfl⟩
  · rintro ⟨n, starts', hn, hlt, hrest, rfl⟩
    simp only [hn, addSize_eq_ok.2 ⟨hlt, rfl⟩, hrest, Checked.ok_bind, Checked.pure_eq_ok]

/-- Names and starts of the rows of slots, after those of the bit-fields that still join a unit at
`start`. -/
def offsetsOf (start : Nat) (joining : List PackedField) (slots : List Slot) (starts : List Nat) :
    List (String × Nat) :=
  (joining.map fun p => (p.row.name, start)) ++
    (slots.zip starts).flatMap fun (slot, start) => slot.rows.map fun r => (r.name, start)

/-- Names and starts of rows, and the largest end, by way of their slots. -/
def Slotwise (sizeOf : String → Nat) (st : Pass) (rows : List Row) (offsets : List (String × Nat))
    (size : Nat) : Prop :=
  ∃ joining slots starts, Slot.scan sizeOf st.packer rows = .ok (joining, slots) ∧
    Slot.placeFrom st.cursor slots = .ok (starts, size) ∧
    offsets = offsetsOf st.start joining slots starts

variable {sizeOf : String → Nat} {st : Pass} {row : Row} {rest : List Row}
  {offsets : List (String × Nat)} {size : Nat}

/-- One row, by way of the slots and in the pass. -/
theorem slotwise_push {answer : Option PackStep} {p : Packer} {joining : List PackedField}
    {slots : List Slot} (hst : st.Sound sizeOf)
    (hanswer : st.packer.answer (.ofRow sizeOf row) = .ok (answer, p))
    (hscan : Slot.scan sizeOf p rest = .ok (joining, slots)) :
    (∃ starts, Slot.placeFrom st.cursor (push sizeOf row answer (joining, slots)).2 =
        .ok (starts, size) ∧
      offsets = offsetsOf st.start (push sizeOf row answer (joining, slots)).1
        (push sizeOf row answer (joining, slots)).2 starts) ↔
    ∃ n starts, row.span sizeOf = .ok n ∧ st.startOf row answer + n < sizeLimit ∧
      Slot.placeFrom (max st.cursor (st.startOf row answer + n)) slots = .ok (starts, size) ∧
      offsets = (row.name, st.startOf row answer) ::
        offsetsOf (st.startOf row answer) joining slots starts := by
  rcases answer_ofRow hanswer with ⟨hb, rfl, rfl⟩ | ⟨hb, rfl, -⟩ | ⟨hb, -, u, hu, ht, rfl⟩
  · -- nothing joins after a member that is no bit-field
    obtain rfl : joining = [] := (Slot.scan_ok hscan).2.2
    have hspan : row.span sizeOf = (Slot.member row (sizeOf row.dataType)).size := by
      rw [Row.span, hb]
      rfl
    simp only [push, placeFrom_cons_eq_ok, ← hspan]
    constructor
    · rintro ⟨_, ⟨n, starts, hn, hlt, hrest, rfl⟩, rfl⟩
      exact ⟨n, starts, hn, hlt, hrest, rfl⟩
    · rintro ⟨n, starts, hn, hlt, hrest, rfl⟩
      exact ⟨_, ⟨n, starts, hn, hlt, hrest, rfl⟩, rfl⟩
  · have hspan : row.span sizeOf = .ok (sizeOf row.dataType) := span_of_bitField hb
    simp only [push, placeFrom_cons_eq_ok, hspan]
    constructor
    · rintro ⟨_, ⟨n, starts, hn, hlt, hrest, rfl⟩, rfl⟩
      refine ⟨n, starts, hn, hlt, hrest, ?_⟩
      simp [offsetsOf, Slot.rows, Slot.firstRow, startOf]
    · rintro ⟨n, starts, hn, hlt, hrest, rfl⟩
      refine ⟨_, ⟨n, starts, hn, hlt, hrest, rfl⟩, ?_⟩
      simp [offsetsOf, Slot.rows, Slot.firstRow, startOf]
  · -- the unit that is joined is as long as the row and does not end after the cursor
    have hle := hst.unit u hu
    have hfits := hst.fits
    rw [ht] at hle
    have hstart : st.startOf row (some (.merged u.filled)) = st.start := rfl
    have hmax : max st.cursor (st.start + sizeOf row.dataType) = st.cursor := Nat.max_eq_left hle
    simp only [push, span_of_bitField hb, hstart]
    constructor
    · rintro ⟨starts, hplace, rfl⟩
      exact ⟨_, starts, rfl, by omega, hmax.symm ▸ hplace, rfl⟩
    · rintro ⟨n, starts, hn, -, hplace, rfl⟩
      cases hn
      exact ⟨starts, hmax ▸ hplace, rfl⟩

theorem slotwise_cons (hst : st.Sound sizeOf) :
    Slotwise sizeOf st (row :: rest) offsets size ↔
      ∃ start st' offsets', st.step sizeOf row = .ok (start, st') ∧
        Slotwise sizeOf st' rest offsets' size ∧ offsets = (row.name, start) :: offsets' := by
  unfold Slotwise
  rw [scan_cons]
  constructor
  · rintro ⟨joining, slots, starts, hscan, hplace, rfl⟩
    obtain ⟨⟨answer, p⟩, hanswer, hscan⟩ := Checked.bind_eq_ok.1 hscan
    obtain ⟨⟨joining', slots'⟩, hrest, hscan⟩ := Checked.bind_eq_ok.1 hscan
    have hpush := Except.ok.inj hscan
    have hpushed : Slot.placeFrom st.cursor (push sizeOf row answer (joining', slots')).2 =
        .ok (starts, size) := hpush ▸ hplace
    obtain ⟨n, starts', hn, hlt, hplace', hoffsets⟩ :=
      (slotwise_push hst hanswer hrest).1 ⟨starts, hpushed, rfl⟩
    rw [hpush] at hoffsets
    exact ⟨_, ⟨p, _, _⟩, _, step_eq_ok.2 ⟨answer, n, hanswer, rfl, hn, hlt, rfl, rfl⟩,
      ⟨joining', slots', starts', hrest, hplace', rfl⟩, hoffsets⟩
  · rintro ⟨start, st', offsets', hstep, ⟨joining, slots, starts, hrest, hplace, rfl⟩, rfl⟩
    obtain ⟨answer, n, hanswer, rfl, hn, hlt, hcursor, hstart⟩ := step_eq_ok.1 hstep
    rw [hcursor] at hplace
    obtain ⟨starts', hplace', hoffsets⟩ :=
      (slotwise_push hst hanswer hrest).2 ⟨n, starts, hn, hlt, hplace, rfl⟩
    refine ⟨_, _, starts', ?_, hplace', by rw [hstart, hoffsets]⟩
    simp only [hanswer, hrest, Checked.ok_bind, Checked.pure_eq_ok]

/-- **The pass and the slots agree**: they place the same rows, with the same starts and the same
largest end. -/
theorem run_iff {rows : List Row} (hst : st.Sound sizeOf) :
    (∃ last, st.run sizeOf rows = .ok (offsets, last) ∧ last.cursor = size) ↔
      Slotwise sizeOf st rows offsets size := by
  induction rows generalizing st offsets with
  | nil =>
    constructor
    · rintro ⟨last, hrun, rfl⟩
      cases hrun
      exact ⟨[], [], [], rfl, rfl, rfl⟩
    · rintro ⟨joining, slots, starts, hscan, hplace, rfl⟩
      cases hscan
      cases hplace
      exact ⟨st, rfl, rfl⟩
  | cons row rest ih =>
    rw [slotwise_cons hst]
    constructor
    · rintro ⟨last, hrun, hsize⟩
      obtain ⟨start, st', offsets', hstep, hrest, rfl⟩ := run_cons_eq_ok.1 hrun
      exact ⟨start, st', offsets', hstep, (ih (hst.step hstep)).1 ⟨last, hrest, hsize⟩, rfl⟩
    · rintro ⟨start, st', offsets', hstep, hrest, rfl⟩
      obtain ⟨last, hlast, hsize⟩ := (ih (hst.step hstep)).2 hrest
      exact ⟨last, run_cons_eq_ok.2 ⟨start, st', offsets', hstep, hlast, rfl⟩, hsize⟩

theorem sound_empty (sizeOf : String → Nat) : Sound sizeOf {} :=
  ⟨by decide, fun _ hu => nomatch hu⟩

end Pass

namespace Placement

variable {types : TypeTable} {s : Record} {placement : Placement}

/-- **The placement of a record is what one pass over its declared rows gives**: their names and
starts in order, and the largest end. -/
theorem ofRecord_iff : ofRecord types s = .ok placement ↔
    ∃ last, Pass.run types.sizeOf {} s.declared = .ok (placement.offsets, last) ∧
      last.cursor = placement.size := by
  rw [Pass.run_iff (Pass.sound_empty _), ofRecord]
  constructor
  · intro h
    obtain ⟨slots, hslots, h⟩ := Checked.bind_eq_ok.1 h
    obtain ⟨⟨starts, size⟩, hplace, h⟩ := Checked.bind_eq_ok.1 h
    cases h
    obtain ⟨joining, hscan⟩ := Slot.ofRows_eq_ok.1 hslots
    obtain rfl : joining = [] := (Slot.scan_ok hscan).2.2
    exact ⟨[], slots, starts, hscan, hplace, rfl⟩
  · rintro ⟨joining, slots, starts, hscan, hplace, hoffsets⟩
    obtain rfl : joining = [] := (Slot.scan_ok hscan).2.2
    obtain ⟨offsets, size⟩ := placement
    have hslots : Slot.ofRows types.sizeOf s.declared = .ok slots :=
      Slot.ofRows_eq_ok.2 ⟨[], hscan⟩
    have hplace : Slot.placeFrom 0 slots = .ok (starts, size) := hplace
    rw [hslots, Checked.ok_bind, hplace]
    exact congrArg (fun offsets => (Except.ok ⟨offsets, size⟩ : Checked Placement)) hoffsets.symm

end Placement

/-! ## Placements that end -/

theorem Packer.ends_openUnit (dataType : String) (bits byteSize : Nat) :
    (Packer.openUnit dataType bits byteSize).Ends :=
  (Checked.ends_fit _ _).bind fun _ => Checked.ends_pure _

theorem Packer.ends_answer (p : Packer) (call : Packer.Call) : (p.answer call).Ends := by
  cases call with
  | reset => exact Checked.ends_pure _
  | pack dataType bits byteSize =>
    refine Checked.Ends.bind ?_ fun _ => Checked.ends_pure _
    have hopen := ends_openUnit dataType bits byteSize
    unfold pack
    split
    · exact hopen
    · split
      · refine (Checked.ends_fit _ _).bind fun filled => ?_
        split
        · exact Checked.ends_pure _
        · exact hopen
      · exact hopen

theorem Slot.ends_scan (sizeOf : String → Nat) (p : Packer) (rows : List Row) :
    (Slot.scan sizeOf p rows).Ends := by
  induction rows generalizing p with
  | nil => exact Checked.ends_pure _
  | cons row rest ih =>
    rw [Pass.scan_cons]
    exact (p.ends_answer _).bind fun read => (ih read.2).bind fun _ => Checked.ends_pure _

theorem Slot.ends_size (slot : Slot) : slot.size.Ends := by
  cases slot with
  | member row n => exact (Checked.ends_product _).bind fun _ => Checked.ends_fit _ _
  | unit n _ _ => exact Checked.ends_pure n

theorem Slot.ends_placeFrom (cursor : Nat) (slots : List Slot) :
    (Slot.placeFrom cursor slots).Ends := by
  induction slots generalizing cursor with
  | nil => exact Checked.ends_pure _
  | cons slot rest ih =>
    simp only [Slot.placeFrom]
    exact slot.ends_size.bind fun _ => (Checked.ends_fit _ _).bind fun _ =>
      (ih _).bind fun _ => Checked.ends_pure _

/-- A record has a placement, or a number overflows. -/
theorem Placement.ofRecord_ends (types : TypeTable) (s : Record) :
    (Placement.ofRecord types s).Ends := by
  have hslots : (Slot.ofRows types.sizeOf s.declared).Ends := by
    unfold Slot.ofRows
    rcases Slot.ends_scan types.sizeOf .empty s.declared with ⟨read, h⟩ | h <;> rw [h]
    · exact Checked.ends_pure read.2
    · exact .inr rfl
  exact hslots.bind fun slots => (Slot.ends_placeFrom 0 slots).bind fun _ => Checked.ends_pure _

/-- Records have placements, or a number overflows. -/
theorem Placed.ofRecords_ends (types : TypeTable) (records : List Record) :
    (Placed.ofRecords types records).Ends := by
  induction records generalizing types with
  | nil => exact Checked.ends_pure _
  | cons s rest ih =>
    exact (Placement.ofRecord_ends types s).bind fun _ =>
      (Checked.ends_fit _ _).bind fun _ => (ih _).bind fun _ => Checked.ends_pure _

end RecordSwap
