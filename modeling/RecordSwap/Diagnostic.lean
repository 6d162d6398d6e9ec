/-!
# Diagnostics

Anomalies of the tables that are worked around and reported.

* `Anomaly`: what is wrong.
* `Diagnostic`: where it is wrong, with its one-line text `Diagnostic.message`.
-/

namespace RecordSwap

/-- What is wrong with a member or a record. -/
inductive Anomaly where
  /-- A scalar whose size no swap covers; it is left as it is. -/
  | unrecognizedTypeSize (dataType : String) (size : Nat)
  /-- A type that is neither a primitive nor a record; it takes no space. -/
  | unknownType (dataType : String)
  /-- A record that declares no member; it is left out. -/
  | emptyRecord
  deriving DecidableEq, Repr

/-- An anomaly of the member `member` of the record `record`; the member is empty when the whole
record is meant. -/
structure Diagnostic where
  record : String
  member : String
  anomaly : Anomaly
  deriving DecidableEq, Repr

/-- One-line text of a diagnostic. -/
def Diagnostic.message (d : Diagnostic) : String :=
  match d.anomaly with
  | .unrecognizedTypeSize dataType size =>
    s!"{d.record}.{d.member}: {dataType} has no swap for {size} bytes, left as-is"
  | .unknownType dataType => s!"{d.record}.{d.member}: unknown data type '{dataType}'"
  | .emptyRecord => s!"{d.record}: no members, structure skipped"

end RecordSwap
