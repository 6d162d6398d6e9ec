import RecordSwap.Types

/-!
# Strategies

How one member changes between the local and the foreign byte order.

* `Strategy.select?`: the strategy of a scalar, by category and size.
* `Strategy.width?`: the number of bytes that the strategy reverses.
-/

namespace RecordSwap

/-- Direction of a conversion. -/
inductive Direction where
  /-- From the host's order to the foreign order. -/
  | localToForeign
  /-- From the foreign order to the host's order. -/
  | foreignToLocal
  deriving DecidableEq, Repr

namespace Direction

/-- Value of the `direction` argument of the generated functions. -/
def flag : Direction → Nat
  | localToForeign => 0
  | foreignToLocal => 1

/-- The opposite direction. -/
def reverse : Direction → Direction
  | localToForeign => foreignToLocal
  | foreignToLocal => localToForeign

end Direction

/-- How one member is converted. -/
inductive Strategy where
  /-- One byte, copied. -/
  | singleByte
  | word16
  | word32
  | word64
  | float32
  | double64
  | pointer32
  | pointer64
  /-- Converted together with its pack group. -/
  | bitField
  /-- An embedded record, converted by the functions of the record at index `target`. -/
  | nested (target : Nat)
  deriving DecidableEq, Repr

namespace Strategy

/-- Strategy of a scalar. There is none for a record, nor for a size that no swap covers. -/
def select? (category : Category) (size : Nat) : Option Strategy :=
  if category.isIntegral then
    match size with
    | 1 => some singleByte
    | 2 => some word16
    | 4 => some word32
    | 8 => some word64
    | _ => none
  else
    match category, size with
    | .floatingPoint, 4 => some float32
    | .floatingPoint, 8 => some double64
    | .pointer, 4 => some pointer32
    | .pointer, 8 => some pointer64
    | _, _ => none

/-- Number of bytes that are reversed in each element. -/
def width? : Strategy → Option Nat
  | word16 => some 2
  | word32 | float32 | pointer32 => some 4
  | word64 | double64 | pointer64 => some 8
  | singleByte | bitField | nested _ => none

/-- A strategy that reverses bytes reverses whole elements. -/
theorem width?_of_select? {c : Category} {size : Nat} {s : Strategy} {w : Nat}
    (h : select? c size = some s) (hw : s.width? = some w) : w = size := by
  unfold select? at h
  split at h <;> split at h <;> first | (cases h; simp_all [width?]) | simp at h

end Strategy

end RecordSwap
