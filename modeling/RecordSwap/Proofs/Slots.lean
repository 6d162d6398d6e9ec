import Mathlib.Algebra.GroupWithZero.Nat
import RecordSwap.Placement

/-!
# Slots

What reading the declared rows of a record gives.

* `Packer.pack_cases`: the two things that can become of a bit-field.
* `PackedField.Chain`: bit-fields that follow one another in one unit and fit it.
* `Slot.Sound`: a plain member, or a unit whose first bit-field is followed by such a chain.
* `Slot.ofRows_ok`: the slots hold the rows in order, and each of them is sound.
* `Record.declared_nodup`: the declared rows of a record have distinct names.
-/

namespace RecordSwap

theorem unitCapacity_eq_ok {byteSize capacity : Nat} :
    unitCapacity byteSize = .ok capacity ↔
      8 * (byteSize % bitLimit) < bitLimit ∧ capacity = 8 * (byteSize % bitLimit) :=
  mulBits_eq_ok

/-! ## Packing -/

theorem Packer.openUnit_eq_ok {dataType : String} {bits byteSize : Nat} {step : PackStep}
    {p : Packer} (h : openUnit dataType bits byteSize = .ok (step, p)) :
    step = .opened ∧ ∃ capacity, unitCapacity byteSize = .ok capacity ∧
      p.active = some ⟨dataType, bits, capacity⟩ := by
  obtain ⟨capacity, hc, h⟩ := Checked.bind_eq_ok.1 h
  cases h
  exact ⟨rfl, capacity, hc, rfl⟩

/-- A bit-field joins the open unit if it has its type and fits, and opens a new unit otherwise. -/
theorem Packer.pack_cases {p p' : Packer} {dataType : String} {bits byteSize : Nat}
    {step : PackStep} (h : p.pack dataType bits byteSize = .ok (step, p')) :
    (∃ u, p.active = some u ∧ u.dataType = dataType ∧ u.filled + bits ≤ u.capacity ∧
      step = .merged u.filled ∧ p'.active = some { u with filled := u.filled + bits }) ∨
    (step = .opened ∧ (∃ capacity, unitCapacity byteSize = .ok capacity ∧
      p'.active = some ⟨dataType, bits, capacity⟩) ∧
      ∀ u, p.active = some u → u.dataType = dataType → u.capacity < u.filled + bits) := by
  unfold pack at h
  split at h
  · next hn =>
    obtain ⟨hstep, hnew⟩ := openUnit_eq_ok h
    exact .inr ⟨hstep, hnew, fun u hu => by simp [hn] at hu⟩
  · next u hu =>
    split at h
    · next ht =>
      obtain ⟨filled, hf, h⟩ := Checked.bind_eq_ok.1 h
      obtain ⟨-, rfl⟩ := addBits_eq_ok.1 hf
      split at h
      · next hc =>
        cases h
        exact .inl ⟨u, hu, ht, hc, rfl, rfl⟩
      · next hc =>
        obtain ⟨hstep, hnew⟩ := openUnit_eq_ok h
        refine .inr ⟨hstep, hnew, fun v hv _ => ?_⟩
        rw [hu, Option.some.injEq] at hv
        subst hv
        omega
    · next ht =>
      obtain ⟨hstep, hnew⟩ := openUnit_eq_ok h
      refine .inr ⟨hstep, hnew, fun v hv hvt => ?_⟩
      rw [hu, Option.some.injEq] at hv
      subst hv
      exact absurd hvt ht

/-- Bit-fields of one type that follow one another from bit `filled` on, up to `capacity`. -/
inductive PackedField.Chain (dataType : String) (capacity : Nat) : Nat → List PackedField → Prop
  | nil (filled : Nat) : Chain dataType capacity filled []
  | cons {filled : Nat} {p : PackedField} {rest : List PackedField} : p.shift = filled →
      p.row.bitField? = some p.bits → p.row.dataType = dataType → filled + p.bits ≤ capacity →
      Chain dataType capacity (filled + p.bits) rest → Chain dataType capacity filled (p :: rest)

/-- What the open unit says about the bit-fields that still join it. -/
def Packer.Joining (p : Packer) (fields : List PackedField) : Prop :=
  match p.active with
  | none => fields = []
  | some u => PackedField.Chain u.dataType u.capacity u.filled fields

theorem Packer.joining_nil (p : Packer) : p.Joining [] := by
  unfold Joining
  split
  · rfl
  · exact .nil _

namespace Slot

/-- What the rows say about a slot. -/
inductive Sound (sizeOf : String → Nat) : Slot → Prop
  | member {row : Row} : row.bitField? = none → Sound sizeOf (.member row (sizeOf row.dataType))
  | unit {first : PackedField} {rest : List PackedField} {capacity : Nat} :
      first.row.bitField? = some first.bits → first.shift = 0 →
      unitCapacity (sizeOf first.row.dataType) = .ok capacity →
      PackedField.Chain first.row.dataType capacity first.bits rest →
      Sound sizeOf (.unit (sizeOf first.row.dataType) first rest)

/-- Reading rows with a unit open: the bit-fields that join it, and the slots after it. -/
theorem scan_ok {sizeOf : String → Nat} {packer : Packer} {rows : List Row}
    {joining : List PackedField} {slots : List Slot}
    (h : scan sizeOf packer rows = .ok (joining, slots)) :
    rows = joining.map PackedField.row ++ slots.flatMap Slot.rows ∧
      (∀ slot ∈ slots, slot.Sound sizeOf) ∧ packer.Joining joining := by
  induction rows generalizing packer joining slots with
  | nil =>
    cases h
    exact ⟨rfl, fun _ hs => absurd hs List.not_mem_nil, packer.joining_nil⟩
  | cons row rest ih =>
    rw [scan] at h
    split at h
    · next hb =>
      obtain ⟨⟨joining', slots'⟩, hscan, h⟩ := Checked.bind_eq_ok.1 h
      cases h
      obtain ⟨hrows, hsound, hnil⟩ := ih hscan
      have hnil : joining' = [] := hnil
      subst hnil
      refine ⟨?_, fun slot hs => ?_, packer.joining_nil⟩
      · rw [hrows]
        simp [Slot.rows]
      · rcases List.mem_cons.1 hs with rfl | hs
        · exact .member hb
        · exact hsound slot hs
    · next bits hb =>
      obtain ⟨⟨step, packer'⟩, hpack, h⟩ := Checked.bind_eq_ok.1 h
      obtain ⟨⟨joining', slots'⟩, hscan, h⟩ := Checked.bind_eq_ok.1 h
      obtain ⟨hrows, hsound, hchain⟩ := ih hscan
      obtain ⟨u, hu, ht, hc, rfl, hp⟩ | ⟨rfl, ⟨capacity, hcap, hp⟩, -⟩ := Packer.pack_cases hpack
      · cases h
        rw [Packer.Joining, hp] at hchain
        refine ⟨by rw [hrows]; rfl, hsound, ?_⟩
        rw [Packer.Joining, hu]
        exact .cons (p := ⟨row, bits, u.filled⟩) rfl hb ht.symm hc hchain
      · -- what joined the unit after this row is the chain of the new slot
        cases h
        rw [Packer.Joining, hp] at hchain
        refine ⟨by rw [hrows]; simp [Slot.rows], fun slot hs => ?_, packer.joining_nil⟩
        rcases List.mem_cons.1 hs with rfl | hs
        · exact @Sound.unit sizeOf ⟨row, bits, 0⟩ joining' capacity hb rfl hcap hchain
        · exact hsound slot hs

theorem ofRows_eq_ok {sizeOf : String → Nat} {rows : List Row} {slots : List Slot} :
    ofRows sizeOf rows = .ok slots ↔ ∃ joining, scan sizeOf .empty rows = .ok (joining, slots) := by
  unfold ofRows
  cases scan sizeOf .empty rows with
  | error e => simp [Functor.map, Except.map]
  | ok r =>
    obtain ⟨joining, slots'⟩ := r
    simp [Functor.map, Except.map]

/-- The slots of a list of rows hold the rows in order, and each is sound. -/
theorem ofRows_ok {sizeOf : String → Nat} {rows : List Row} {slots : List Slot}
    (h : ofRows sizeOf rows = .ok slots) :
    rows = slots.flatMap Slot.rows ∧ ∀ slot ∈ slots, slot.Sound sizeOf := by
  obtain ⟨joining, hscan⟩ := ofRows_eq_ok.1 h
  obtain ⟨hrows, hsound, hnil⟩ := scan_ok hscan
  have hnil : joining = [] := hnil
  refine ⟨?_, hsound⟩
  rw [hrows, hnil]
  rfl

theorem scan_congr {sizeOf sizeOf' : String → Nat} {rows : List Row}
    (h : ∀ r ∈ rows, sizeOf r.dataType = sizeOf' r.dataType) (packer : Packer) :
    scan sizeOf packer rows = scan sizeOf' packer rows := by
  induction rows generalizing packer with
  | nil => rfl
  | cons row rest ih =>
    have ih := ih fun r hr => h r (.tail _ hr)
    simp only [scan, h row (.head _), ih]

theorem ofRows_congr {sizeOf sizeOf' : String → Nat} {rows : List Row}
    (h : ∀ r ∈ rows, sizeOf r.dataType = sizeOf' r.dataType) :
    ofRows sizeOf rows = ofRows sizeOf' rows := by
  rw [ofRows, ofRows, scan_congr h]

end Slot

/-! ## Declared rows -/

namespace Record

theorem declaredAfter_nodup (seen : List String) (rows : List Row) :
    ((declaredAfter seen rows).map Row.name).Nodup ∧
      ∀ r ∈ declaredAfter seen rows, r.name ∉ seen := by
  induction rows generalizing seen with
  | nil => simp [declaredAfter]
  | cons row rest ih =>
    rw [declaredAfter]
    split
    · exact ih seen
    · next hc =>
      obtain ⟨hn, hs⟩ := ih (row.name :: seen)
      simp only [Bool.or_eq_true, not_or, List.contains_iff_mem] at hc
      refine ⟨List.nodup_cons.2 ⟨fun hm => ?_, hn⟩, fun r hr => ?_⟩
      · obtain ⟨r, hr, hrn⟩ := List.mem_map.1 hm
        exact hs r hr (by simp [hrn])
      · rcases List.mem_cons.1 hr with rfl | hr
        · exact hc.2
        · exact fun hm => hs r hr (.tail _ hm)

theorem declared_nodup (s : Record) : (s.declared.map Row.name).Nodup :=
  (declaredAfter_nodup [] s.rows).1

end Record

end RecordSwap
