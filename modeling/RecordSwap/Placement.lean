import RecordSwap.Diagnostic
import RecordSwap.Packing
import RecordSwap.Types

/-!
# Placement

Where the members of a record lie, the protocol header excluded. Members follow one another without
padding unless a row gives an offset; the bit-fields of one storage unit share its offset.

* `Slot.placeFrom`: start of each slot, and the end of the record.
* `Placement.ofRecord`: offsets of the declared members, the size, and the members of unknown type.
-/

namespace RecordSwap

/-- Places slots one after the other. A slot starts where its first row says, otherwise at the
largest end so far, `cursor`. The results are the starts and the largest end of all. -/
def Slot.placeFrom (cursor : Nat) : List Slot → Checked (List Nat × Nat)
  | [] => pure ([], cursor)
  | slot :: rest => do
    let start := slot.firstRow.offset.getD cursor
    let stop ← addSize start (← slot.size)
    let (starts, last) ← placeFrom (max cursor stop) rest
    pure (start :: starts, last)

/-- Offsets of the declared members of a record and its size. -/
structure Placement where
  offsets : List (String × Nat) := []
  size : Nat := 0
  deriving DecidableEq, Repr

namespace Placement

/-- Offset of a member. -/
def offset? (p : Placement) (name : String) : Option Nat := p.offsets.lookup name

/-- The members whose type the table does not know. -/
def unknownTypes (types : TypeTable) (s : Record) : List Diagnostic :=
  s.declared.filterMap fun r =>
    match types.sizeOf? r.dataType with
    | some _ => none
    | none => some ⟨s.name, r.name, .unknownType r.dataType⟩

/-- Places the declared members of a record. Records that it embeds have to be in the table. -/
def ofRecord (types : TypeTable) (s : Record) : Checked Placement := do
  let slots ← Slot.ofRows types.sizeOf s.declared
  let (starts, size) ← Slot.placeFrom 0 slots
  pure {
    offsets := (slots.zip starts).flatMap fun (slot, start) =>
      slot.rows.map fun r => (r.name, start)
    size }

end Placement

end RecordSwap
