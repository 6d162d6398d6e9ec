import RecordSwap.Strategy

/-!
# C functions

The statements that the generated swap functions are made of, and their text.

* `SwapKind.signature`: the head of a swap function.
* `Simple`: one assignment or call. `Statement`: one statement of a body, alone, in a loop or under
  a condition.
* `bodyText`: the lines of a body; the loop counter is declared just before the first loop.
* `functionText`: a whole function.
-/

namespace RecordSwap.C

/-- The two swap functions of a record. -/
inductive SwapKind where
  | byte
  | bit
  deriving DecidableEq, Repr

namespace SwapKind

def stem : SwapKind → String
  | byte => "byte_swap_"
  | bit => "bit_swap_"

def functionName (kind : SwapKind) (record : String) : String := kind.stem ++ record

def signature (kind : SwapKind) (record : String) : String :=
  kind.functionName record ++ s!"({record} *inPtr, {record} *outPtr, int direction)"

end SwapKind

/-- One element of a member. The elements of an array are counted by `i`; an array of several
dimensions is walked through a pointer to its first element. -/
structure Element where
  member : String
  /-- Number of dimensions. -/
  rank : Nat
  deriving DecidableEq, Repr

def Element.text (e : Element) (pointer : String) : String :=
  match e.rank with
  | 0 => s!"{pointer}->{e.member}"
  | 1 => s!"{pointer}->{e.member}[i]"
  | rank => s!"(&{pointer}->{e.member}" ++ String.join (List.replicate rank "[0]") ++ ")[i]"

def Element.address (e : Element) (pointer : String) : String := "&(" ++ e.text pointer ++ ")"

/-- One assignment or call. -/
inductive Simple where
  /-- Copies a member. -/
  | copy (member : String)
  /-- Copies an array of single bytes. -/
  | move (member : String)
  /-- Swaps an integer through a function of one argument. -/
  | word (function : String) (element : Element)
  /-- Swaps an object in place of which only the address can be given. -/
  | object (function : String) (element : Element)
  /-- Swaps an embedded record. -/
  | call (kind : SwapKind) (record : String) (element : Element)
  /-- Swaps the bit-fields of the record itself. -/
  | callOwn (record : String)
  /-- Turns the bits of a field end for end. -/
  | mirror (member : String) (bits : Nat)
  /-- Turns the bits of a storage unit end for end. -/
  | reflect (pointer : String) (offset size : Nat)
  deriving DecidableEq, Repr

def Simple.text : Simple → String
  | copy m => s!"outPtr->{m} = inPtr->{m};"
  | move m => s!"memmove(outPtr->{m}, inPtr->{m}, sizeof(outPtr->{m}));"
  | word f e => e.text "outPtr" ++ s!" = {f}(" ++ e.text "inPtr" ++ ");"
  | object f e => s!"{f}(" ++ e.address "inPtr" ++ ", " ++ e.address "outPtr" ++ ");"
  | call kind record e =>
    kind.functionName record ++ "(" ++ e.address "inPtr" ++ ", " ++ e.address "outPtr" ++
      ", direction);"
  | callOwn record =>
    SwapKind.bit.functionName record ++
      "(inPtr, outPtr, direction); /* Swap all bit fields in this structure */"
  | mirror m bits => s!"outPtr->{m} = bit_field_swap(inPtr->{m}, {bits});"
  | reflect pointer offset size => s!"reflect_bits(&(((char*)({pointer}))[{offset}]), {size});"

/-- One statement of a function body. -/
inductive Statement where
  | plain (s : Simple)
  /-- Runs the counter `i` from 0 up to `count`. -/
  | loop (count : Nat) (s : Simple)
  /-- Runs in one direction only. -/
  | guarded (direction : Direction) (s : Simple)
  deriving DecidableEq, Repr

def condition : Direction → String
  | .foreignToLocal => "direction"
  | .localToForeign => "!direction"

def counterLine : String := "   int i = 0;\n"

def indented (s : String) : String := "   " ++ s ++ "\n"

def block (head : String) (s : Simple) : String :=
  indented head ++ indented "\x7b" ++ indented ("   " ++ s.text) ++ indented "\x7d"

/-- Lines of one statement, the declaration of the counter left out. -/
def Statement.text : Statement → String
  | plain s => indented s.text
  | loop count s => block s!"for (i = 0; i < {count}; i++)" s
  | guarded direction s => block ("if (" ++ condition direction ++ ")") s

/-- Lines of a body. `declared` tells whether the counter is declared already. -/
def bodyText (declared : Bool) : List Statement → String
  | [] => ""
  | .loop count s :: rest =>
    (if declared then "" else counterLine) ++ (Statement.loop count s).text ++ bodyText true rest
  | s :: rest => s.text ++ bodyText declared rest

def linesText (lines : List String) : String := String.join (lines.map (· ++ "\n"))

/-- Text of a swap function, after a blank line and its comment. -/
def functionText (comment : String) (kind : SwapKind) (record : String) (body : List Statement) :
    String :=
  "\n" ++ comment ++ "inline void " ++ kind.signature record ++ "\n\x7b\n" ++ bodyText false body ++
    "\x7d /* End of " ++ kind.signature record ++ " */\n"

end RecordSwap.C
