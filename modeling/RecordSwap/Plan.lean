import RecordSwap.Layout
import RecordSwap.Strategy

/-!
# Plans

What the swap functions of each record do.

* `Layout.walk`: the members that a planner comes to as it goes over the rows of a record again.
* `SwapPlan`: one `SwapEntry` for each member that is converted, in declaration order.
* `BitSwapPlan`: the statements that turn the storage units of bit-fields. A unit is reflected
  before its fields are taken out of the foreign image, and after they are put into it.
* `Plans.ofLayouts`: the plans of all records, and what is reported of their members. Embedded
  records are referred to by index.
-/

namespace RecordSwap

/-- How one declared member is converted. -/
structure SwapEntry where
  name : String
  strategy : Strategy
  extents : List Nat
  offset : Nat
  elementSize : Nat
  deriving DecidableEq, Repr

namespace SwapEntry

/-- Whether the member is an array. -/
def isArray (e : SwapEntry) : Bool := !e.extents.isEmpty

/-- Number of elements, one for a scalar. -/
def elementCount (e : SwapEntry) : Checked Nat := product e.extents

end SwapEntry

/-- Body of the byte swap function of one record. -/
structure SwapPlan where
  /-- Index of the record. -/
  index : Nat
  name : String
  entries : List SwapEntry
  /-- Whether the bit swap function of the record is called at the end. -/
  callsBitSwap : Bool
  deriving DecidableEq, Repr

/-- One statement of a bit swap function. -/
inductive BitSwapOp where
  /-- Reflects a storage unit of the input, from foreign to local. -/
  | reflectInput (offset size : Nat)
  /-- Reflects a storage unit of the output, from local to foreign. -/
  | reflectOutput (offset size : Nat)
  /-- Turns the bits of a field end for end. -/
  | mirror (field : String) (bits groupOffset groupSize shift : Nat)
  /-- Copies a field of a single bit. -/
  | copy (field : String)
  /-- Swaps the bit-fields of an embedded record. -/
  | nested (field : String) (target : Nat) (extents : List Nat) (offset elementSize : Nat)
  deriving DecidableEq, Repr

/-- Body of the bit swap function of one record. -/
structure BitSwapPlan where
  /-- Index of the record. -/
  index : Nat
  name : String
  ops : List BitSwapOp
  deriving DecidableEq, Repr

/-- The plans of all records, in dependency order. -/
structure Plans where
  swaps : List SwapPlan
  /-- A record without bit-fields of its own has no bit swap function. -/
  bitSwaps : List (Option BitSwapPlan)
  /-- Members that no swap covers. -/
  diagnostics : List Diagnostic
  deriving DecidableEq, Repr

/-! ## Passes over the rows -/

/-- The members that a pass over rows comes to. Rows of array elements and of names that have been
handled are skipped, the others are looked up. -/
def Layout.walk (l : Layout) (handled : List String) : List Row → List FieldLayout
  | [] => []
  | r :: rest =>
    if r.isElement || handled.contains r.name then l.walk handled rest
    else (l.field? r.name).toList ++ l.walk (r.name :: handled) rest

/-! ## Byte swaps -/

namespace Project

/-- The record that a member embeds, as far as its type is a record. -/
def embedded? (p : Project) (f : FieldLayout) : Option Nat :=
  if p.types.isRecord f.dataType then p.index? f.dataType else none

/-- How a member is converted; none if no swap covers it. -/
def strategy? (p : Project) (f : FieldLayout) : Option Strategy :=
  if f.bitLength.isSome then some .bitField
  else match p.types.category? f.dataType with
    | some .record => (p.embedded? f).map .nested
    | some category => Strategy.select? category f.elementSize
    | none => none

/-- The report on a scalar of known type that no swap covers. -/
def unswapped? (p : Project) (record : String) (f : FieldLayout) : Option Diagnostic :=
  if f.bitLength.isSome then none
  else match p.types.category? f.dataType with
    | some .record | none => none
    | some category =>
      match Strategy.select? category f.elementSize with
      | some _ => none
      | none => some ⟨record, f.name, .unrecognizedTypeSize f.dataType f.elementSize⟩

end Project

namespace SwapPlan

/-- The entry of a member of the record at `index`. An embedded record has to stand before it. -/
def planned? (p : Project) (index : Nat) (f : FieldLayout) : Checked (Option SwapEntry) :=
  match p.strategy? f with
  | none => pure none
  | some strategy =>
    let entry : SwapEntry := ⟨f.name, strategy, f.extents, f.offset, f.elementSize⟩
    match strategy with
    | .nested target => if target < index then pure (some entry) else throw .forwardEmbedding
    | _ => pure (some entry)

/-- Plans the byte swap of the record `s` at `index`. -/
def ofLayout (p : Project) (index : Nat) (s : Record) (l : Layout) : Checked SwapPlan := do
  let fields := l.walk [] s.rows
  let entries ← fields.mapM (planned? p index)
  pure { index, name := s.name, entries := entries.filterMap id
         callsBitSwap := fields.any (·.bitLength.isSome) }

end SwapPlan

/-! ## Bit swaps -/

namespace BitSwapPlan

/-- The embedded record of a member, if it has bit-fields of its own. -/
def target? (p : Project) (layouts : List Layout) (f : FieldLayout) : Option Nat :=
  (p.embedded? f).filter fun target => (layouts[target]?).any Layout.hasBitFields

/-- The statement for one bit-field. -/
def fieldOp (f : FieldLayout) (bits : Nat) (u : UnitLayout) : BitSwapOp :=
  if bits > 1 then .mirror f.name bits u.offset u.byteSize f.shift else .copy f.name

/-- The statement that ends the work on a storage unit. -/
def close : Option UnitLayout → List BitSwapOp
  | some u => [.reflectOutput u.offset u.byteSize]
  | none => []

/-- The statements for a list of members. The members are packed once more: a storage unit is
entered where the packer opens one, and `entered`, the one before it, is closed only then. -/
def opsFrom (target? : FieldLayout → Option Nat) (groups : List UnitLayout) (packer : Packer)
    (entered : Option UnitLayout) : List FieldLayout → Checked (List BitSwapOp)
  | [] => pure (close entered)
  | f :: rest =>
    match f.bitLength, f.group.bind (groups[·]?) with
    | some bits, some u => do
      let (step, packer) ← packer.pack f.dataType bits f.elementSize
      match step with
      | .opened => do
        let ops ← opsFrom target? groups packer (some u) rest
        pure (close entered ++ .reflectInput u.offset u.byteSize :: fieldOp f bits u :: ops)
      | .merged _ => do
        let ops ← opsFrom target? groups packer entered rest
        pure (fieldOp f bits u :: ops)
    | some _, none => opsFrom target? groups packer entered rest
    | none, _ => do
      let ops ← opsFrom target? groups .empty entered rest
      match target? f with
      | some target => pure (.nested f.name target f.extents f.offset f.elementSize :: ops)
      | none => pure ops

/-- Plans the bit swap of the record `s` at `index`, if it has bit-fields of its own. Records after
it are not known to have any yet. -/
def ofLayout (p : Project) (layouts : List Layout) (index : Nat) (s : Record) (l : Layout) :
    Checked (Option BitSwapPlan) :=
  if l.hasBitFields then do
    let known := layouts.take (index + 1)
    let ops ← opsFrom (target? p known) l.groups .empty none (l.walk [] s.rows)
    pure (some { index, name := s.name, ops })
  else pure none

end BitSwapPlan

namespace Plans

/-- The byte swaps of all records. -/
def swapsOf (p : Project) (layouts : List Layout) : Checked (List SwapPlan) :=
  (p.records.zip layouts).zipIdx.mapM fun ((s, l), index) => SwapPlan.ofLayout p index s l

/-- The bit swaps of all records; a record without bit-fields has none. -/
def bitSwapsOf (p : Project) (layouts : List Layout) : Checked (List (Option BitSwapPlan)) :=
  (p.records.zip layouts).zipIdx.mapM fun ((s, l), index) =>
    BitSwapPlan.ofLayout p layouts index s l

/-- What is reported of the members of all records. -/
def reports (p : Project) (layouts : List Layout) : List Diagnostic :=
  (p.records.zip layouts).flatMap fun (s, l) =>
    (l.walk [] s.rows).filterMap (p.unswapped? s.name)

/-- Plans all records of a project, one after the other. -/
def ofLayouts (p : Project) (layouts : List Layout) : Checked Plans := do
  let swaps ← swapsOf p layouts
  let bitSwaps ← bitSwapsOf p layouts
  pure { swaps, bitSwaps, diagnostics := reports p layouts }

/-- The bit swap of the record at `index`. -/
def bitSwap? (plans : Plans) (index : Nat) : Option BitSwapPlan := (plans.bitSwaps[index]?).join

end Plans

end RecordSwap
