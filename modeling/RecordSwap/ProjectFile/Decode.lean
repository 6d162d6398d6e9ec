import RecordSwap.Document.Node
import RecordSwap.ProjectFile

/-!
# Project files from documents

Reading the contents of a project file from a tree of data.

* `FileFormat`: the two formats of project files and what differs between them.
* `ProjectFile.ofNode?`: the contents of a file; none if the tree has another shape. Unknown fields
  are passed over, known ones may stand only once.
-/

namespace RecordSwap

open Document

/-- FileFormat of a project file. -/
inductive FileFormat where
  | json
  | yaml
  deriving DecidableEq, Repr

namespace FileFormat

/-- Whether the fields of a record may also be given as a sequence, in their order. -/
def isPositional : FileFormat → Bool
  | json => true
  | yaml => false

def rateDepth : FileFormat → Nat
  | json => 121
  | yaml => 122

end FileFormat

namespace Document.Node

/-! ## Values -/

def optional? (read : Node → Option α) (node : Node) : Option (Option α) :=
  if node.isNull then some none else (read node).map some

def natural? (bound : Nat) : Node → Option Nat
  | scalar (.natural n) _ => if n < bound then some n else none
  | _ => none

def list? (read : Node → Option α) (node : Node) : Option (List α) :=
  match node with
  | sequence items => items.mapM read
  | node => if node.isMissing then some [] else none

def put (key : String) (a : α) : List (String × α) → List (String × α)
  | [] => [(key, a)]
  | (k, b) :: rest => if k = key then (key, a) :: rest else (k, b) :: put key a rest

/-- A dictionary. The last value of a key counts. -/
def dictionary? (read : Node → Option α) (node : Node) : Option (List (String × α)) :=
  match node with
  | mapping entries =>
    entries.foldlM (fun found (k, v) => do
      let key ← k.text?
      let a ← read v
      pure (put key a found)) []
  | node => if node.isMissing then some [] else none

/-! ## Fields -/

def fields? (format : FileFormat) (names : List String) (node : Node) :
    Option (List (String × Node)) :=
  match node with
  | mapping entries =>
    entries.foldlM (fun found (k, v) => do
      let key ← k.text?
      if !names.contains key then pure found
      else if found.any (·.1 = key) then none
      else pure ((key, v) :: found)) []
  | sequence items =>
    if format.isPositional ∧ items.length ≤ names.length then some (names.zip items) else none
  | node => if node.isMissing then some [] else none

def required? (fields : List (String × Node)) (name : String) (read : Node → Option α) : Option α :=
  (fields.lookup name).bind read

/-- A field with a value of its own where it is not given. -/
def given? (fields : List (String × Node)) (name : String) (absent : α)
    (read : Node → Option α) : Option α :=
  match fields.lookup name with
  | some node => read node
  | none => some absent

end Document.Node

open Document.Node

/-! ## Parts of a project file -/

def Rate.ofNode? (format : FileFormat) (node : Node) : Option Rate :=
  if node.isReadable format.rateDepth then
    match node with
    | .scalar .null _ => some .null
    | .scalar (.flag b) _ => some (.flag b)
    | .scalar (.natural n) _ => some (.number (toString n))
    | .scalar (.number n) _ => some (.number n)
    | .scalar (.text s) _ => some (.text s)
    | .scalar .unreadable _ => none
    | .sequence _ => some .sequence
    | .mapping _ => some .mapping
  else none

/-- One extent in a sequence: a natural number, or a zero with a minus sign. -/
def ArraySize.extentOfNode? : Node → Option Nat
  | .scalar (.number "0") _ => some 0
  | node => natural? sizeLimit node

/-- An array size: a text, or a sequence of extents. -/
def ArraySize.ofNode? : Node → Option ArraySize
  | .scalar (.text s) _ => some (.text s)
  | .sequence items => (items.mapM extentOfNode?).map .list
  | _ => none

def RowEntry.ofNode? (format : FileFormat) (node : Node) : Option RowEntry := do
  let fs ← fields? format
    ["name", "type", "array_size", "bit_length", "description", "rates", "offset"] node
  some {
    name := ← required? fs "name" text?
    dataType := ← required? fs "type" text?
    arraySize := ← given? fs "array_size" none (optional? ArraySize.ofNode?)
    bitLength := ← given? fs "bit_length" none (optional? (natural? bitLimit))
    description := ← given? fs "description" "" text?
    rates := ← given? fs "rates" [] (dictionary? (Rate.ofNode? format))
    offset := ← given? fs "offset" none (optional? (natural? sizeLimit)) }

def RecordEntry.ofNode? (format : FileFormat) (node : Node) : Option RecordEntry := do
  let fs ← fields? format ["name", "description", "message_id", "system", "rows"] node
  some {
    name := ← required? fs "name" text?
    description := ← given? fs "description" "" text?
    messageId := ← given? fs "message_id" none (optional? text?)
    system := ← given? fs "system" none (optional? text?)
    rows := ← given? fs "rows" [] (list? (RowEntry.ofNode? format)) }

/-- A category: its name, or in JSON also a mapping from its name to null. -/
def Category.ofNode? (format : FileFormat) : Node → Option Category
  | .mapping [(k, v)] =>
    if format = .json ∧ v.isNull then k.text?.bind Category.ofName? else none
  | node => node.text?.bind Category.ofName?

def Primitive.ofNode? (format : FileFormat) (node : Node) : Option Primitive := do
  let fs ← fields? format ["name", "c_name", "size", "category"] node
  some {
    name := ← required? fs "name" text?
    cName := ← given? fs "c_name" "" text?
    size := ← required? fs "size" (natural? sizeLimit)
    category := ← required? fs "category" (Category.ofNode? format) }

def ProjectFile.ofNode? (format : FileFormat) (node : Node) : Option ProjectFile := do
  let fs ← fields? format
    ["project", "system", "data_streams", "includes", "groups", "banner_template", "data_types",
      "structures"] node
  some {
    project := ← given? fs "project" "typeswap" text?
    system := ← given? fs "system" none (optional? text?)
    dataStreams := ← given? fs "data_streams" [] (list? text?)
    includes := ← given? fs "includes" [] (list? text?)
    groups := ← given? fs "groups" [] (list? text?)
    bannerTemplate := ← given? fs "banner_template" none (optional? text?)
    dataTypes := ← given? fs "data_types" [] (list? (Primitive.ofNode? format))
    records := ← given? fs "structures" [] (list? (RecordEntry.ofNode? format)) }

end RecordSwap
