import RecordSwap.Project
import RecordSwap.Text.Blank

/-!
# Project files

What a project file says, what it may say, and the project it describes.

* `ProjectFile`, `RecordEntry`, `RowEntry`: the contents of a file.
* `ArraySize.extents`: the extents of an array, given as a list or as a text such as `2, 3`.
* `ProjectFile.violation?`: the first rule that a file breaks, in the order of the file.
* `ProjectFile.toProject`: builds the project.
-/

namespace RecordSwap

/-! ## Rules -/

/-- A rule that a project file breaks. -/
inductive Violation where
  | unnamedRecord
  /-- A row without a name or a type. -/
  | incompleteRow (record : String)
  | zeroBits (record row : String)
  /-- A piece of an array size that is not a natural number of 64 bits. -/
  | badExtent (extent text : String)
  deriving DecidableEq, Repr

def Violation.message : Violation → String
  | unnamedRecord => "Invalid configuration: structure without a name"
  | incompleteRow record =>
    s!"Invalid configuration: row in '{record}' needs both a name and a type"
  | zeroBits record row => s!"Invalid configuration: '{record}.{row}' has a zero bit length"
  | badExtent extent text =>
    s!"Invalid configuration: bad array dimension '{extent}' in '{text}'"

/-! ## Array sizes -/

/-- The size of an array. -/
inductive ArraySize where
  /-- Extents with commas between them. -/
  | text (s : String)
  | list (extents : List Nat)
  deriving DecidableEq, Repr

namespace ArraySize

/-- Digits, with or without a plus sign before them. -/
def unsigned : List Char → List Char
  | '+' :: digits => digits
  | digits => digits

/-- Reads one extent: decimal digits of a size, with or without a plus sign. -/
def extent? (cs : List Char) : Option Nat :=
  let digits := unsigned cs
  let n := Nat.ofDigitChars 10 digits 0
  if digits ≠ [] ∧ digits.all Char.isDigit ∧ n < sizeLimit then some n else none

/-- The pieces of a text between commas, without white space around them and without empty ones. -/
def pieces (s : String) : List (List Char) :=
  ((s.toList.splitOn ',').map Text.trimChars).filter (· ≠ [])

def extents : ArraySize → Except Violation (List Nat)
  | list extents => pure extents
  | text s => (pieces s).mapM fun piece =>
    match extent? piece with
    | some n => pure n
    | none => throw (.badExtent (String.ofList piece) s)

end ArraySize

/-! ## Contents -/

/-- A rate as it is given in a file. -/
inductive Rate where
  | text (s : String)
  /-- A number, as it is printed. -/
  | number (text : String)
  | flag (b : Bool)
  | null
  | sequence
  | mapping
  deriving DecidableEq, Repr

/-- What is printed for a rate: texts that are not empty, and numbers. -/
def Rate.text? : Rate → Option String
  | text s => if s = "" then none else some s
  | number n => some n
  | _ => none

/-- A row as it is given in a file. -/
structure RowEntry where
  name : String
  dataType : String
  arraySize : Option ArraySize := none
  bitLength : Option Nat := none
  description : String := ""
  /-- Rate in each data stream. -/
  rates : List (String × Rate) := []
  offset : Option Nat := none
  deriving DecidableEq, Repr

/-- A record as it is given in a file. -/
structure RecordEntry where
  name : String
  description : String := ""
  messageId : Option String := none
  system : Option String := none
  rows : List RowEntry := []
  deriving DecidableEq, Repr

/-- The contents of a project file. -/
structure ProjectFile where
  project : String := "typeswap"
  system : Option String := none
  dataStreams : List String := []
  includes : List String := []
  groups : List String := []
  bannerTemplate : Option String := none
  /-- Types besides the built-in ones. -/
  dataTypes : List Primitive := []
  records : List RecordEntry := []
  deriving DecidableEq, Repr

/-! ## Checking -/

/-- The first rule that a row of a record breaks. -/
def RowEntry.violation? (record : String) (r : RowEntry) : Option Violation :=
  if Text.isBlankText r.name ∨ Text.isBlankText r.dataType then some (.incompleteRow record)
  else if r.bitLength = some 0 then some (.zeroBits record r.name)
  else
    match r.arraySize.map ArraySize.extents with
    | some (.error v) => some v
    | _ => none

def RecordEntry.violation? (s : RecordEntry) : Option Violation :=
  if Text.isBlankText s.name then some .unnamedRecord
  else s.rows.findSome? (·.violation? s.name)

def ProjectFile.violation? (f : ProjectFile) : Option Violation :=
  f.records.findSome? RecordEntry.violation?

def ProjectFile.validate (f : ProjectFile) : Except Violation Unit :=
  match f.violation? with
  | some v => throw v
  | none => pure ()

/-! ## Building -/

def RowEntry.toRow (record : String) (r : RowEntry) : Except Violation Row := do
  let extents ← match r.arraySize with
    | some size => size.extents
    | none => pure []
  let row : Row := {
    owner := record
    name := r.name
    dataType := r.dataType
    extents
    bitLength := r.bitLength
    description := r.description
    offset := r.offset }
  pure (r.rates.foldl (fun row (stream, rate) =>
    match rate.text? with
    | some text => row.withRate stream text
    | none => row) row)

def RecordEntry.toRecord (s : RecordEntry) : Except Violation Record := do
  let rows ← s.rows.mapM (·.toRow s.name)
  pure {
    name := s.name
    description := s.description
    messageId := s.messageId
    system := s.system
    rows }

namespace ProjectFile

def types (f : ProjectFile) : TypeTable := TypeTable.builtin.insertAll f.dataTypes

def toDraft (f : ProjectFile) : Except Violation Draft := do
  let records ← f.records.mapM RecordEntry.toRecord
  pure {
    name := f.project
    system := f.system
    dataStreams := f.dataStreams
    includes := f.includes
    groups := f.groups
    types := f.types
    records }

end ProjectFile

/-- Why a file does not lead to a project. -/
inductive ProjectError where
  | invalid (v : Violation)
  | build (e : BuildError)
  deriving DecidableEq, Repr

def ProjectError.message? : ProjectError → Option String
  | invalid v => some v.message
  | build e => e.message?

def ProjectFile.toProject (f : ProjectFile) : Except ProjectError Project := do
  let draft ← f.toDraft.mapError .invalid
  draft.build.mapError .build

end RecordSwap
