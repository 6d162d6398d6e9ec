/-!
# Types

The type table: primitive types with their sizes and categories, and the sizes of the records that
are already placed.

* `Category`: what kind of value a type holds.
* `Primitive`: one primitive type.
* `PrimitiveTable`: primitives in slots, in the order of their first definition, and the slot of
  each name.
* `TypeTable`: primitives and record sizes. A primitive hides a record of the same name (`sizeOf?`,
  `category?`).
* `TypeTable.aliases`: the pairs of names that need a definition in the generated header.
-/

namespace RecordSwap

/-- What kind of value a type holds. -/
inductive Category where
  | character
  | signedInteger
  | unsignedInteger
  | floatingPoint
  | pointer
  | record
  deriving DecidableEq, Repr

namespace Category

/-- Characters and integers are swapped as plain words. -/
def isIntegral : Category → Bool
  | character | signedInteger | unsignedInteger => true
  | floatingPoint | pointer | record => false

/-- Name of a category in project files. -/
def name : Category → String
  | character => "character"
  | signedInteger => "signed_integer"
  | unsignedInteger => "unsigned_integer"
  | floatingPoint => "floating_point"
  | pointer => "pointer"
  | record => "structure"

/-- Reads the name of a category; two-word names may also be written with a blank. -/
def ofName? : String → Option Category
  | "character" => some character
  | "signed_integer" | "signed integer" => some signedInteger
  | "unsigned_integer" | "unsigned integer" => some unsignedInteger
  | "floating_point" | "floating point" => some floatingPoint
  | "pointer" => some pointer
  | "structure" => some record
  | _ => none

theorem ofName?_name (c : Category) : ofName? c.name = some c := by
  cases c <;> rfl

end Category

/-- One primitive type. -/
structure Primitive where
  /-- Name used in the record tables, such as `uint16`. -/
  name : String
  /-- Underlying C type, such as `unsigned short`. -/
  cName : String
  /-- Size of one element in bytes. -/
  size : Nat
  category : Category
  deriving DecidableEq, Repr

/-! ## Primitives by name -/

/-- Primitive types, each in a slot of its own, and the slots by name, the latest first. -/
structure PrimitiveTable where
  /-- Definitions in the order in which their names came up. -/
  slots : List Primitive := []
  index : List (String × Nat) := []
  deriving DecidableEq, Repr

namespace PrimitiveTable

/-- Slot of a name. -/
def slot? (t : PrimitiveTable) (name : String) : Option Nat := t.index.lookup name

/-- Defines a primitive. An earlier definition of the name is replaced in its slot, and a name that
comes up for the first time gets the next one. -/
def insert (t : PrimitiveTable) (p : Primitive) : PrimitiveTable :=
  match t.slot? p.name with
  | some slot => { t with slots := t.slots.set slot p }
  | none => { slots := t.slots ++ [p], index := (p.name, t.slots.length) :: t.index }

/-- What stands in the slot of a name. -/
def find? (t : PrimitiveTable) (name : String) : Option Primitive :=
  (t.slot? name).bind fun slot => t.slots[slot]?

end PrimitiveTable

/-- Primitive types, and record sizes, the latest first. -/
structure TypeTable where
  primitives : PrimitiveTable := {}
  records : List (String × Nat) := []
  deriving DecidableEq, Repr

namespace TypeTable

/-- The table without any type. -/
def empty : TypeTable := {}

/-- Defines a primitive; an earlier definition of the name is replaced in its place. -/
def insert (t : TypeTable) (p : Primitive) : TypeTable :=
  { t with primitives := t.primitives.insert p }

/-- Defines several primitives, one after the other. -/
def insertAll (t : TypeTable) (ps : List Primitive) : TypeTable := ps.foldl insert t

/-- Notes the size of a record. -/
def defineRecord (t : TypeTable) (name : String) (size : Nat) : TypeTable :=
  { t with records := (name, size) :: t.records }

/-- The primitive types every project starts from. -/
def builtinPrimitives : List Primitive := [
  ⟨"int8", "signed char", 1, .signedInteger⟩,
  ⟨"int16", "short", 2, .signedInteger⟩,
  ⟨"int32", "int", 4, .signedInteger⟩,
  ⟨"int64", "long long", 8, .signedInteger⟩,
  ⟨"uint8", "unsigned char", 1, .unsignedInteger⟩,
  ⟨"uint16", "unsigned short", 2, .unsignedInteger⟩,
  ⟨"uint32", "unsigned int", 4, .unsignedInteger⟩,
  ⟨"uint64", "unsigned long long", 8, .unsignedInteger⟩,
  ⟨"float", "float", 4, .floatingPoint⟩,
  ⟨"double", "double", 8, .floatingPoint⟩,
  ⟨"char", "char", 1, .character⟩,
  ⟨"address", "int *", 4, .pointer⟩]

/-- The table every project starts from. -/
def builtin : TypeTable := empty.insertAll builtinPrimitives

/-! ## Queries -/

/-- Definition of a primitive. -/
def primitive? (t : TypeTable) (name : String) : Option Primitive := t.primitives.find? name

/-- Size last noted for a record. -/
def recordSize? (t : TypeTable) (name : String) : Option Nat := t.records.lookup name

/-- Size of one element of a type. -/
def sizeOf? (t : TypeTable) (name : String) : Option Nat :=
  match t.primitive? name with
  | some p => some p.size
  | none => t.recordSize? name

/-- Size of one element of a type, where an unknown type takes no space. -/
def sizeOf (t : TypeTable) (name : String) : Nat := (t.sizeOf? name).getD 0

/-- Category of a type. -/
def category? (t : TypeTable) (name : String) : Option Category :=
  match t.primitive? name with
  | some p => some p.category
  | none => (t.recordSize? name).map fun _ => .record

/-- Whether the name stands for a record. -/
def isRecord (t : TypeTable) (name : String) : Bool := t.category? name = some .record

/-- Pairs of a type name and its C name where both are present and differ. -/
def aliases (t : TypeTable) : List (String × String) :=
  t.primitives.slots.filterMap fun p =>
    if p.name ≠ "" ∧ p.cName ≠ "" ∧ p.name ≠ p.cName then some (p.name, p.cName) else none

end TypeTable

end RecordSwap
