import RecordSwap.Checked

/-!
# Records

The rows of a record table and the records they describe.

* `Row`: one row, that is one member, one element of an array member, or a repeated member.
* `Record`: a named list of rows with its own description, message identifier and system label.
* `Record.declared`: the rows that declare a member: the first row of each name, without the rows
  of single array elements.
* `Record.gather`: sorts flat rows into the records they name.
-/

namespace RecordSwap

/-- One row of a record table. -/
structure Row where
  /-- Name of the record the row belongs to. -/
  owner : String := ""
  /-- Name of the member. -/
  name : String
  /-- Name of a primitive type or of a record. -/
  dataType : String
  /-- Array extents, outermost first; a scalar has none. -/
  extents : List Nat := []
  bitLength : Option Nat := none
  description : String := ""
  /-- Rate of the member in each data stream that carries it. -/
  rates : List (String × String) := []
  /-- Byte offset of the member, protocol header excluded, where it is given. -/
  offset : Option Nat := none
  deriving DecidableEq, Repr

namespace Row

/-- A row such as `samples[2]` stands for one element of an array that has a row of its own. -/
def isElement (r : Row) : Bool := r.name.toList.getLast? = some ']'

/-- Whether the member is an array. -/
def isArray (r : Row) : Bool := !r.extents.isEmpty

/-- Bit length of a bit-field. Arrays are never packed. -/
def bitField? (r : Row) : Option Nat := if r.isArray then none else r.bitLength

/-- Number of elements, one for a scalar. -/
def elementCount (r : Row) : Checked Nat := product r.extents

/-- Sets the rate in one stream, replacing an earlier one. -/
def withRate (r : Row) (stream rate : String) : Row :=
  { r with rates := r.rates.filter (·.1 ≠ stream) ++ [(stream, rate)] }

/-- Rate in a stream; an empty rate counts as none. -/
def rate? (r : Row) (stream : String) : Option String :=
  (r.rates.lookup stream).filter (· ≠ "")

end Row

/-- A record table. -/
structure Record where
  name : String
  description : String := ""
  /-- Message identifier; a non-empty one puts the protocol header in front of the members. -/
  messageId : Option String := none
  /-- System label, from which the names of the generated files are taken. -/
  system : Option String := none
  rows : List Row := []
  deriving DecidableEq, Repr

/-- Size of the primary protocol header in bytes. -/
def primaryHeaderSize : Nat := 6

/-- Size of the secondary protocol header in bytes. -/
def secondaryHeaderSize : Nat := 6

namespace Record

/-- Whether the protocol header stands in front of the members. -/
def hasHeader (s : Record) : Bool := s.messageId.any (· ≠ "")

/-- Size of the protocol header, if any. -/
def headerSize (s : Record) : Nat :=
  if s.hasHeader then primaryHeaderSize + secondaryHeaderSize else 0

/-- The rows that declare a member whose name is not in `seen`: the first row of each name, rows of
array elements left out. -/
def declaredAfter (seen : List String) : List Row → List Row
  | [] => []
  | r :: rest =>
    if r.isElement || seen.contains r.name then declaredAfter seen rest
    else r :: declaredAfter (r.name :: seen) rest

/-- The rows that declare a member. -/
def declared (s : Record) : List Row := declaredAfter [] s.rows

/-- Appends a row to the first record of its owner's name, or to a new record at the end. -/
def addRow (row : Row) : List Record → List Record
  | [] => [{ name := row.owner, rows := [row] }]
  | s :: rest =>
    if s.name = row.owner then { s with rows := s.rows ++ [row] } :: rest
    else s :: addRow row rest

/-- Appends flat rows to the records they name, creating those that are missing. -/
def addRows (records : List Record) (rows : List Row) : List Record :=
  rows.foldl (fun records row => addRow row records) records

/-- The records that flat rows describe, in the order of their first rows. -/
def gather (rows : List Row) : List Record := addRows [] rows

end Record

end RecordSwap
