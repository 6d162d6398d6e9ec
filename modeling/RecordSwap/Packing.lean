import RecordSwap.Record

/-!
# Packing

Adjacent bit-fields of one type share a storage unit.

* `Packer`: the unit that is open while the members of a record are read in order. A bit-field
  joins it when it has the unit's type and fits, and opens a new unit otherwise, even if it is wider
  than its own type; any other member closes it.
* `Slot`: one piece of a record's storage, a plain member or a unit with its bit-fields.
* `Slot.ofRows`: the slots of the declared rows of a record.
-/

namespace RecordSwap

/-- What becomes of one bit-field. -/
inductive PackStep where
  /-- It opens a unit and takes its lowest bits. -/
  | opened
  /-- It joins the open unit at bit `shift`. -/
  | merged (shift : Nat)
  deriving DecidableEq, Repr

/-- A storage unit that is being filled. -/
structure OpenUnit where
  dataType : String
  /-- Bits taken so far. -/
  filled : Nat
  /-- Bits in all. -/
  capacity : Nat
  deriving DecidableEq, Repr

/-- Bits of a storage unit of `byteSize` bytes. The byte count is a 64-bit word of which the lower
32 bits are taken. -/
def unitCapacity (byteSize : Nat) : Checked Nat := mulBits 8 (byteSize % bitLimit)

/-- The packing state between two members. -/
structure Packer where
  active : Option OpenUnit := none
  deriving DecidableEq, Repr

namespace Packer

/-- No unit is open. -/
def empty : Packer := {}

/-- Opens a unit with one bit-field. -/
def openUnit (dataType : String) (bits byteSize : Nat) : Checked (PackStep × Packer) := do
  let capacity ← unitCapacity byteSize
  pure (.opened, ⟨some ⟨dataType, bits, capacity⟩⟩)

/-- Packs one bit-field of a type whose elements have `byteSize` bytes. -/
def pack (p : Packer) (dataType : String) (bits byteSize : Nat) : Checked (PackStep × Packer) :=
  match p.active with
  | none => openUnit dataType bits byteSize
  | some u =>
    if u.dataType = dataType then do
      let filled ← addBits u.filled bits
      if filled ≤ u.capacity then pure (.merged u.filled, ⟨some { u with filled }⟩)
      else openUnit dataType bits byteSize
    else openUnit dataType bits byteSize

end Packer

/-! ## Slots -/

/-- A bit-field and its first bit in the storage unit. -/
structure PackedField where
  row : Row
  bits : Nat
  shift : Nat
  deriving DecidableEq, Repr

/-- Bits that are taken in a unit after the first `start` bits and then these bit-fields. -/
def PackedField.filledTo (start : Nat) (fields : List PackedField) : Nat :=
  fields.foldl (fun filled field => filled + field.bits) start

@[simp] theorem PackedField.filledTo_nil (start : Nat) : filledTo start [] = start := rfl

@[simp] theorem PackedField.filledTo_cons (start : Nat) (field : PackedField)
    (fields : List PackedField) :
    filledTo start (field :: fields) = filledTo (start + field.bits) fields := rfl

/-- One piece of a record's storage. -/
inductive Slot where
  /-- A member that is no bit-field. -/
  | member (row : Row) (elementSize : Nat)
  /-- A storage unit, the bit-field that opened it and those that joined it. -/
  | unit (byteSize : Nat) (first : PackedField) (rest : List PackedField)
  deriving DecidableEq, Repr

namespace Slot

/-- Reads the rest of the rows while `packer` holds the open unit. The first result are the
bit-fields that still join that unit, the second the slots after it. -/
def scan (sizeOf : String → Nat) (packer : Packer) :
    List Row → Checked (List PackedField × List Slot)
  | [] => pure ([], [])
  | row :: rest => do
    let size := sizeOf row.dataType
    match row.bitField? with
    | none =>
      let (_, slots) ← scan sizeOf .empty rest
      pure ([], .member row size :: slots)
    | some bits =>
      let (step, packer) ← packer.pack row.dataType bits size
      let (joining, slots) ← scan sizeOf packer rest
      match step with
      | .opened => pure ([], .unit size ⟨row, bits, 0⟩ joining :: slots)
      | .merged shift => pure (⟨row, bits, shift⟩ :: joining, slots)

/-- The slots of the declared rows of a record, in order. -/
def ofRows (sizeOf : String → Nat) (rows : List Row) : Checked (List Slot) :=
  Prod.snd <$> scan sizeOf .empty rows

/-- The row that decides where a slot starts. -/
def firstRow : Slot → Row
  | member row _ => row
  | unit _ first _ => first.row

/-- The rows that share a slot. -/
def rows : Slot → List Row
  | member row _ => [row]
  | unit _ first rest => first.row :: rest.map PackedField.row

/-- Bytes that a slot takes. -/
def size : Slot → Checked Nat
  | member row elementSize => do mulSize elementSize (← row.elementCount)
  | unit byteSize _ _ => pure byteSize

end Slot

end RecordSwap
