import RecordSwap.Checked

/-!
# Bits

Bit operations on storage units and byte spans. Bits are counted from the least significant bit of
the first byte.

* `reflect`: turns the bits of a span of at most eight bytes end for end.
* `mirror`: turns the lowest bits of a word end for end.
* `readUnit`, `writeUnit`: the little-endian word in the first eight bytes of a unit.
* `extractField`, `insertField`, `mirrorField`: one bit-field of a unit.
-/

namespace RecordSwap

/-- A span of bytes. -/
abbrev Bytes : Type := List UInt8

/-- The contents of a storage unit. -/
abbrev Word : Type := BitVec 64

/-- Longest span that is reflected, and longest storage unit that is read, in bytes. -/
def unitBytes : Nat := 8

/-- Bits of a word. -/
def wordBits : Nat := 64

/-- Turns the bits of a byte end for end. -/
def reverseByte (b : UInt8) : UInt8 := ⟨b.toBitVec.reverse⟩

/-- Turns the bits of a span end for end; a span of more than eight bytes stays as it is. -/
def reflect (bytes : Bytes) : Bytes :=
  if bytes.length ≤ unitBytes then bytes.reverse.map reverseByte else bytes

/-- Turns the lowest `width` bits of a word end for end and drops the others. -/
def mirror (value : Word) (width : Nat) : Word :=
  if width = 0 then 0 else value.reverse >>> (wordBits - width)

/-! ## Storage units -/

/-- The little-endian word in the first eight bytes. -/
def readUnit (bytes : Bytes) : Word :=
  (bytes.take unitBytes).foldr (fun b word => (word <<< 8) ||| b.toBitVec.setWidth 64) 0

/-- Writes a word into the first eight bytes, the lowest byte first. -/
def writeUnit (bytes : Bytes) (value : Word) : Bytes :=
  bytes.mapIdx fun i b => if i < unitBytes then ⟨(value >>> (8 * i)).setWidth 8⟩ else b

/-- The lowest `bits` bits. -/
def fieldMask (bits : Nat) : Word := BitVec.allOnes 64 >>> (wordBits - bits)

/-- Whether a field lies inside a word and is not empty. -/
def fieldFits (shift bits : Nat) : Checked Bool :=
  if bits = 0 then pure false
  else do pure (decide ((← addBits shift bits) ≤ wordBits))

/-- The `bits` bits of a unit from bit `shift` on. -/
def fieldValue (unit : Bytes) (shift bits : Nat) : Word :=
  (readUnit unit >>> shift) &&& fieldMask bits

/-- A unit with the `bits` bits from bit `shift` on set to the lowest bits of `value`. -/
def withField (unit : Bytes) (shift bits : Nat) (value : Word) : Bytes :=
  let mask := fieldMask bits <<< shift
  writeUnit unit ((readUnit unit &&& ~~~mask) ||| ((value <<< shift) &&& mask))

/-- Value of a field, if it lies inside a word. -/
def extractField (unit : Bytes) (shift bits : Nat) : Checked (Option Word) := do
  pure (if ← fieldFits shift bits then some (fieldValue unit shift bits) else none)

/-- Stores a value into a field; nothing happens if it does not lie inside a word. -/
def insertField (unit : Bytes) (shift bits : Nat) (value : Word) : Checked Bytes := do
  pure (if ← fieldFits shift bits then withField unit shift bits value else unit)

/-- Turns the bits of a field end for end. -/
def mirrorField (unit : Bytes) (shift bits : Nat) : Checked Bytes := do
  match ← extractField unit shift bits with
  | some value => insertField unit shift bits (mirror value bits)
  | none => pure unit

end RecordSwap
