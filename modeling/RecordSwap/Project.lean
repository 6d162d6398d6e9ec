import RecordSwap.Dependency
import RecordSwap.Placement

/-!
# Projects

A project holds the records of one run in dependency order, each with its placement, and the type
table that knows their sizes.

* `Draft`: what a project is built from.
* `Draft.build`: groups the flat rows, drops records without a member, orders and places the rest.
* `Project.index?`: the record a name stands for, the first one that bears it.
* `Project.systemName`, `Project.baseName`: where the names of the generated files come from.
-/

namespace RecordSwap

/-- Why a draft cannot be built. -/
inductive BuildError where
  /-- A record contains itself through its members. -/
  | cyclicReference (name : String)
  /-- A size or an offset does not fit its word. -/
  | fault (fault : Fault)
  deriving DecidableEq, Repr

/-- Text of an error; none for a fault. -/
def BuildError.message? : BuildError → Option String
  | cyclicReference name => some s!"Structure '{name}' references itself through its members"
  | fault _ => none

/-- The records of one run, in dependency order, ready for layout and planning. -/
structure Project where
  name : String
  /-- System label of the project; it wins over those of the records. -/
  system : Option String
  /-- Names of the data streams, in the order in which rates are printed. -/
  dataStreams : List String
  /-- Lines that are copied into the header. -/
  includes : List String
  /-- Table groups that the run covers. -/
  groups : List String
  records : List Record
  /-- Placement of each record. -/
  placements : List Placement
  types : TypeTable
  /-- Anomalies met while the project was built. -/
  diagnostics : List Diagnostic
  deriving DecidableEq, Repr

namespace Project

/-- Index of the first record of a name. -/
def index? (p : Project) (name : String) : Option Nat :=
  p.records.findIdx? (·.name = name)

/-- Offset of a member of the record at `index`, protocol header excluded. -/
def memberOffset? (p : Project) (index : Nat) (name : String) : Option Nat :=
  p.placements[index]?.bind (·.offset? name)

/-- Size of the record at `index`, protocol header excluded. -/
def baseSize (p : Project) (index : Nat) : Nat := (p.placements[index]?.map Placement.size).getD 0

/-- The records that no record embeds. -/
def roots (p : Project) : List Record :=
  let embedded := p.records.flatMap fun s => s.declared.map Row.dataType
  p.records.filter fun s => !embedded.contains s.name

/-- The system label: the project's own, otherwise that of the first root record, otherwise
empty. -/
def systemName (p : Project) : String :=
  match p.system.filter (· ≠ "") with
  | some system => system
  | none => (p.roots.head?.bind Record.system).getD ""

/-- Base name of the generated files. -/
def baseName (p : Project) : String := p.systemName ++ "_types"

end Project

/-- What a project is built from: whole records, and flat rows that name their records. -/
structure Draft where
  name : String := ""
  system : Option String := none
  dataStreams : List String := []
  includes : List String := []
  groups : List String := []
  types : TypeTable := .builtin
  records : List Record := []
  rows : List Row := []
  deriving DecidableEq, Repr

/-- Placements of a list of records, the type table that knows their sizes, and the members of
unknown type. -/
structure Placed where
  types : TypeTable
  placements : List Placement := []
  diagnostics : List Diagnostic := []
  deriving DecidableEq, Repr

namespace Placed

/-- Places records one after the other; each one can be embedded in those after it. -/
def ofRecords (types : TypeTable) : List Record → Checked Placed
  | [] => pure { types }
  | s :: rest => do
    let placement ← Placement.ofRecord types s
    let size ← addSize placement.size s.headerSize
    let placed ← ofRecords (types.defineRecord s.name size) rest
    pure { placed with
      placements := placement :: placed.placements
      diagnostics := Placement.unknownTypes types s ++ placed.diagnostics }

end Placed

namespace Draft

/-- The records of a draft after its flat rows have been added. -/
def allRecords (d : Draft) : List Record := Record.addRows d.records d.rows

/-- The records that declare a member. -/
def kept (d : Draft) : List Record := d.allRecords.filter (!·.declared.isEmpty)

/-- A report for each record that declares no member. -/
def emptyReports (d : Draft) : List Diagnostic :=
  (d.allRecords.filter (·.declared.isEmpty)).map fun s => ⟨s.name, "", .emptyRecord⟩

/-- Builds the project: empty records are dropped, the rest is ordered and placed. -/
def build (d : Draft) : Except BuildError Project := do
  let records ← (Record.order d.kept).mapError .cyclicReference
  let placed ← (Placed.ofRecords d.types records).mapError .fault
  pure {
    name := d.name
    system := d.system
    dataStreams := d.dataStreams
    includes := d.includes
    groups := d.groups
    records
    placements := placed.placements
    types := placed.types
    diagnostics := d.emptyReports ++ placed.diagnostics }

end Draft

end RecordSwap
