import RecordSwap.C.Function
import RecordSwap.Layout
import RecordSwap.Text.Blank
import RecordSwap.Text.Case
import RecordSwap.Text.Pad

/-!
# The types header

The generated C file that declares all records, with comments in one column.

* `includeGuard`: the name that keeps the header from being read twice.
* `Layout.declarationLines`: the declaration of one record, line by line.
* `headerText`: the whole file.
-/

namespace RecordSwap

open C

/-- Name that keeps the header of a base name from being read twice. -/
def includeGuard (baseName : String) : String := "_" ++ Text.upper baseName ++ "_H_"

/-! ## One record -/

/-- A declaration with its comment: offset and remark. -/
def memberLine (width : Nat) (declaration : String) (offset : Nat) (remark : String) :
    Checked String := do
  let line ← Text.padColumn width declaration
  pure (line ++ " /* [" ++ Text.padLeft 5 (toString offset) ++ s!"] {remark} */")

def FieldLayout.sizeText (f : FieldLayout) : String :=
  if f.bitLength.isSome then ""
  else if f.isArray then
    "(" ++ "x".intercalate (f.extents.map toString) ++ s!"x{f.elementSize}={f.size} bytes)"
  else s!"({f.elementSize} bytes)"

def FieldLayout.rateText (f : FieldLayout) : String :=
  String.join (f.rates.map fun (stream, rate) => s!"\x7b{stream} @{rate} Hz\x7d")

/-- Remark on a member: size, rates and description. -/
def FieldLayout.remark (f : FieldLayout) : String :=
  Text.trim (f.sizeText ++ f.rateText ++ "  " ++ f.description)

def HeaderMember.remark (m : HeaderMember) : String := s!"({m.size} bytes)  {m.tag}"

namespace Layout

def openingLines (l : Layout) : List String :=
  let description := if l.description = "" then "" else "\n   Description: " ++ l.description
  [s!"/* Structure: {l.name} ({l.totalSize} bytes total)" ++ description ++ " */",
    "typedef struct", "\x7b"]

/-- The lines of the protocol header, if there is one. -/
def headerMemberLines (l : Layout) : Checked (List String) :=
  if l.header then
    headerMembers.mapM fun m => memberLine l.width m.declaration m.offset m.remark
  else pure []

def totalLine (l : Layout) : Checked String := do
  let line ← Text.padColumn l.width (closingLine l.name)
  pure (line ++ s!" /* Total size of {l.totalSize} bytes */")

def declarationLines (l : Layout) : Checked (List String) := do
  let header ← l.headerMemberLines
  let members ← l.fields.mapM fun f => memberLine l.width f.declaration f.offset f.remark
  let total ← l.totalLine
  pure (l.openingLines ++ header ++ members ++ [total])

end Layout

/-! ## The file -/

/-- Definitions of the type names that differ from their C names. -/
def aliasLines (types : TypeTable) : List String :=
  types.aliases.map fun (name, cName) => s!"#define {name} {cName}"

/-- Prototypes of the two swap functions of a record. -/
def prototypeLines (l : Layout) : List String :=
  [SwapKind.byte, SwapKind.bit].map fun kind => "void " ++ kind.signature l.name ++ ";"

def headerText (p : Project) (layouts : List Layout) (banner baseName : String) :
    Checked String := do
  let guardName := includeGuard baseName
  let includes := if p.includes.isEmpty then [] else p.includes ++ [""]
  let records ← layouts.mapM fun l => return (← l.declarationLines) ++ [""]
  pure (banner ++ linesText (
    [s!"#ifndef {guardName}", s!"#define {guardName}", ""] ++ includes ++
    aliasLines p.types ++ [""] ++ records.flatten ++
    ["/* Byte and bit swap function prototypes */"] ++ layouts.flatMap prototypeLines ++
    ["", s!"#endif /* #ifndef {guardName} */"]))

end RecordSwap
