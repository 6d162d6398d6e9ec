import RecordSwap.C.Function
import RecordSwap.Plan

/-!
# The swap source

The generated C file with the swap functions of all records.

* `SwapPlan.statements`, `BitSwapPlan.statements`: the bodies of the two functions of a record.
* `sourceText`: the whole file. All byte swap functions come first, then the bit swap functions,
  each in dependency order.
-/

namespace RecordSwap

open C

namespace C

/-- Macro that swaps an object of `bytes` bytes as a word of `bits` bits. -/
def objectMacro (name : String) (bits bytes : Nat) : String :=
  s!"#define {name}(pIn, pOut) p{bits} = (uint{bits}*) pIn; " ++
  s!"tmp_{bits} = bswap_{bits}(*p{bits}); memcpy(pOut, &tmp_{bits}, {bytes})"

/-- Definitions that every swap source starts with. -/
def helperLines : List String := [
  "uint32 *p32, tmp_32;",
  "uint64 *p64, tmp_64;",
  objectMacro "swap_float" 32 4,
  objectMacro "swap_double" 64 8,
  objectMacro "swap_pointer_8" 64 8,
  objectMacro "swap_pointer_4" 32 4,
  "",
  "/* Swaps a bit field of value 'val' containing 'num' bits, and returns the resulting " ++
    "'mirrored' value */",
  "static int bit_field_swap(int val, int num)",
  "\x7b",
  "   int ret_val = 0, n_1 = num - 1, i = 0;",
  "   for (i = 0; i < num; i++)",
  "   \x7b",
  "      ret_val|= (((val>>i) &1) << (n_1 - i));",
  "   \x7d",
  "   return ret_val;",
  "\x7d",
  "",
  "/* Reverses the order of the bits in a n-byte object (only supports 1 <= n <= 8) */",
  "static void reflect_bits(char *data, int n)",
  "\x7b",
  "   if (n > 8) return;",
  "   int i = 0;",
  "   /* Need to go through all the bytes, since 2 nibbles (1 byte) are reflected each " ++
    "iteration of the 'for' loop */",
  "   for (i = 0; i < n; i++)",
  "   \x7b",
  "      unsigned char *t1 = (unsigned char *) &(data[i]);",
  "      unsigned char *t2 = (unsigned char *) &(data[n - 1 - i]);",
  "      unsigned char v1 = ((*t1 & 1)  << 7) + ((*t1 &  2) << 5) + " ++
    "((*t1 &  4)<<3) + ((*t1 &   8)<<1);",
  "      unsigned char v2 = ((*t2 & 16) >> 1) + ((*t2 & 32) >> 3) + " ++
    "((*t2 & 64)>>5) + ((*t2 & 128)>>7);",
  "      *t1 = ((*t1) & 0xF0) | v2;",
  "      *t2 = ((*t2) & 0x0F) | v1;",
  "   \x7d",
  "\x7d"]

def byteSwapComment : String := linesText [
  "/* inPtr and outPtr are pointers to the input and output data. 'direction' is a " ++
    "flag for if the conversion ",
  "   is from foreign to local endian (direction = 1), or from native to foreign " ++
    "byte order (direction = 0) */"]

def bitSwapComment : String := linesText [
  "/* inPtr and outPtr are pointers to the input and output data. 'direction' is a " ++
    "flag for if the conversion ",
  "   is from foreign-to-local endian (direction = 1), or from native to foreign " ++
    "byte order (direction = 0) */"]

end C

def Project.nameAt (p : Project) (index : Nat) : String :=
  ((p.records[index]?).map Record.name).getD ""

/-- A statement for one member, in a loop if the member is an array. -/
def C.Statement.forEach (extents : List Nat) (s : Simple) : Checked Statement :=
  if extents.isEmpty then pure (.plain s) else return .loop (← product extents) s

namespace SwapEntry

/-- How an element of a member is swapped, as far as it takes a statement of its own. -/
def simple? (p : Project) (e : SwapEntry) : Option Simple :=
  let element : Element := ⟨e.name, e.extents.length⟩
  match e.strategy with
  | .singleByte | .bitField => none
  | .word16 => some (.word "bswap_16" element)
  | .word32 => some (.word "bswap_32" element)
  | .word64 => some (.word "bswap_64" element)
  | .float32 => some (.object "swap_float" element)
  | .double64 => some (.object "swap_double" element)
  | .pointer32 => some (.object "swap_pointer_4" element)
  | .pointer64 => some (.object "swap_pointer_8" element)
  | .nested target => some (.call .byte (p.nameAt target) element)

/-- The statement for one member. A bit-field has none here, and single bytes are copied whole. -/
def statements (p : Project) (e : SwapEntry) : Checked (List Statement) :=
  match e.strategy with
  | .bitField => pure []
  | .singleByte => pure [.plain (if e.isArray then .move e.name else .copy e.name)]
  | _ =>
    match e.simple? p with
    | some s => return [← Statement.forEach e.extents s]
    | none => pure []

end SwapEntry

def SwapPlan.statements (p : Project) (plan : SwapPlan) : Checked (List Statement) := do
  let entries ← plan.entries.mapM (·.statements p)
  pure (entries.flatten ++ if plan.callsBitSwap then [.plain (.callOwn plan.name)] else [])

/-- The statement for one operation of a bit swap. -/
def BitSwapOp.statement (p : Project) : BitSwapOp → Checked Statement
  | .reflectInput offset size =>
    pure (.guarded .foreignToLocal (.reflect "inPtr" offset size))
  | .reflectOutput offset size =>
    pure (.guarded .localToForeign (.reflect "outPtr" offset size))
  | .mirror field bits _ _ _ => pure (.plain (.mirror field bits))
  | .copy field => pure (.plain (.copy field))
  | .nested field target extents _ _ =>
    Statement.forEach extents (.call .bit (p.nameAt target) ⟨field, extents.length⟩)

def BitSwapPlan.statements (p : Project) (plan : BitSwapPlan) : Checked (List Statement) :=
  plan.ops.mapM (·.statement p)

def SwapPlan.functionText (p : Project) (plan : SwapPlan) : Checked String :=
  return C.functionText byteSwapComment .byte plan.name (← plan.statements p)

def BitSwapPlan.functionText (p : Project) (plan : BitSwapPlan) : Checked String :=
  return C.functionText bitSwapComment .bit plan.name (← plan.statements p)

def sourcePrelude (banner baseName : String) : String :=
  banner ++ linesText [
    "#include <byteswap.h>", "#include <string.h>", s!"#include \"{baseName}.h\"", ""] ++
    linesText helperLines

def sourceText (p : Project) (plans : Plans) (banner baseName : String) : Checked String := do
  let byteSwaps ← plans.swaps.mapM (·.functionText p)
  let bitSwaps ← (plans.bitSwaps.filterMap id).mapM (·.functionText p)
  pure (sourcePrelude banner baseName ++ String.join byteSwaps ++ String.join bitSwaps)

end RecordSwap
