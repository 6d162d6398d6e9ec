import RecordSwap.Project

/-!
# Layouts

What the declaration of a record shows: offsets and sizes with the protocol header included, storage
units, and the column of the comments.

* `FieldLayout`, `UnitLayout`, `Layout`: the computed values.
* `Layout.ofRecord`: the layout of one record of a project.
* `FieldLayout.declaration`, `Layout.closingLine`, `HeaderMember.declaration`: the printed lines
  that decide the width of the column.
-/

namespace RecordSwap

/-- A member of the protocol header. -/
structure HeaderMember where
  name : String
  offset : Nat
  size : Nat
  /-- Reference to the type of the header, printed in the comment. -/
  tag : String
  deriving DecidableEq, Repr

/-- The members of the protocol header. -/
def headerMembers : List HeaderMember := [
  ⟨"CFS_PRI_HEADER", 0, primaryHeaderSize, "#CCSDS_PriHdr_t"⟩,
  ⟨"CFS_SEC_HEADER", primaryHeaderSize, secondaryHeaderSize, "#CCSDS_CmdSecHdr_t"⟩]

/-- Declaration of a header member. -/
def HeaderMember.declaration (m : HeaderMember) : String := s!"   char {m.name}[{m.size}];"

/-- One declared member. -/
structure FieldLayout where
  name : String
  dataType : String
  extents : List Nat
  /-- Width of a bit-field. -/
  bitLength : Option Nat
  offset : Nat
  elementSize : Nat
  /-- Bytes of all elements. -/
  size : Nat
  /-- Index of the storage unit of a bit-field. -/
  group : Option Nat
  /-- First bit of a bit-field in its storage unit. -/
  shift : Nat
  description : String
  /-- Streams that carry the member, with their rates. -/
  rates : List (String × String)
  deriving DecidableEq, Repr

namespace FieldLayout

/-- Whether the member is an array. -/
def isArray (f : FieldLayout) : Bool := !f.extents.isEmpty

/-- Number of elements, one for a scalar. -/
def elementCount (f : FieldLayout) : Checked Nat := product f.extents

/-- Extents as they are printed after a name, `[2][3]`. -/
def extentText (f : FieldLayout) : String :=
  if f.isArray then "[" ++ "][".intercalate (f.extents.map toString) ++ "]" else ""

/-- Declaration as it is printed, such as `   uint8 flags:3;`. -/
def declaration (f : FieldLayout) : String :=
  let bits := match f.bitLength with
    | some n => s!":{n}"
    | none => ""
  s!"   {f.dataType} {f.name}" ++ f.extentText ++ bits ++ ";"

end FieldLayout

/-- One storage unit of bit-fields. -/
structure UnitLayout where
  dataType : String
  filledBits : Nat
  capacity : Nat
  byteSize : Nat
  offset : Nat
  deriving DecidableEq, Repr

/-- The layout of one record. -/
structure Layout where
  name : String
  description : String
  /-- Whether the protocol header stands in front of the members. -/
  header : Bool
  /-- Column at which the comments start. -/
  width : Nat
  totalSize : Nat
  fields : List FieldLayout
  groups : List UnitLayout
  deriving DecidableEq, Repr

namespace Layout

/-- Whether the record has bit-fields of its own. -/
def hasBitFields (l : Layout) : Bool := !l.groups.isEmpty

/-- The layout of a member. -/
def field? (l : Layout) (name : String) : Option FieldLayout := l.fields.find? (·.name = name)

/-- Last line of the declaration of a record. -/
def closingLine (name : String) : String := s!"\x7d {name};"

/-- Column of the comments: the longest printed line, counted in bytes, and one blank. -/
def columnWidth (name : String) (header : Bool) (fields : List FieldLayout) : Nat :=
  let headerLines := if header then headerMembers.map HeaderMember.declaration else []
  let lines := closingLine name :: headerLines ++ fields.map FieldLayout.declaration
  (lines.map String.utf8ByteSize).foldl max 0 + 1

/-- What the layout of a member depends on besides its slot. -/
structure Frame where
  /-- Size of the protocol header. -/
  headerSize : Nat
  placement : Placement
  dataStreams : List String

/-- Offset of a member, protocol header included. -/
def Frame.offset (c : Frame) (name : String) : Checked Nat :=
  addSize ((c.placement.offset? name).getD 0) c.headerSize

/-- Layout of one member. -/
def Frame.field (c : Frame) (row : Row) (elementSize : Nat) (group : Option Nat) (shift : Nat) :
    Checked FieldLayout := do
  let offset ← c.offset row.name
  let size ← mulSize elementSize (← row.elementCount)
  pure {
    name := row.name
    dataType := row.dataType
    extents := row.extents
    bitLength := row.bitField?
    offset, elementSize, size, group, shift
    description := row.description
    rates := c.dataStreams.filterMap fun stream => (row.rate? stream).map (stream, ·) }

/-- Layouts of the members in a list of slots; `units` counts the storage units before them. -/
def Frame.fields (c : Frame) (units : Nat) : List Slot → Checked (List FieldLayout)
  | [] => pure []
  | .member row size :: rest => do
    let field ← c.field row size none 0
    let fields ← c.fields units rest
    pure (field :: fields)
  | .unit size first others :: rest => do
    let packed ← (first :: others).mapM fun p => c.field p.row size (some units) p.shift
    let fields ← c.fields (units + 1) rest
    pure (packed ++ fields)

/-- Layouts of the storage units in a list of slots. -/
def Frame.groups (c : Frame) : List Slot → Checked (List UnitLayout)
  | [] => pure []
  | .member _ _ :: rest => c.groups rest
  | .unit byteSize first others :: rest => do
    let capacity ← unitCapacity byteSize
    let offset ← c.offset first.row.name
    let groups ← c.groups rest
    pure ({
      dataType := first.row.dataType
      filledBits := PackedField.filledTo 0 (first :: others)
      capacity, byteSize, offset } :: groups)

/-- Layout of a record with the given placement. -/
def ofRecord (p : Project) (s : Record) (placement : Placement) : Checked Layout := do
  let frame : Frame := ⟨s.headerSize, placement, p.dataStreams⟩
  let slots ← Slot.ofRows p.types.sizeOf s.declared
  let fields ← frame.fields 0 slots
  let groups ← frame.groups slots
  let totalSize ← addSize placement.size s.headerSize
  pure {
    name := s.name
    description := s.description
    header := s.hasHeader
    width := columnWidth s.name s.hasHeader fields
    totalSize, fields, groups }

end Layout

/-- Layouts of all records, in dependency order. -/
def Project.layouts (p : Project) : Checked (List Layout) :=
  (p.records.zip p.placements).mapM fun (s, placement) => Layout.ofRecord p s placement

end RecordSwap
