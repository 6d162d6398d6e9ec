import RecordSwap.Document.Node

/-!
# Printing documents

Writing a `Node` as JSON text, an item a line.

* `quote`: a text in quotes.
* `Node.pretty`: a tree, each level indented by two blanks.
-/

namespace RecordSwap.Document

def hexDigit (n : Nat) : Char := if n < 10 then Char.ofNat (48 + n) else Char.ofNat (87 + n)

def quoteChar (c : Char) : List Char :=
  if c = '"' then ['\\', '"']
  else if c = '\\' then ['\\', '\\']
  else if c = '\x08' then ['\\', 'b']
  else if c = '\x0c' then ['\\', 'f']
  else if c = '\n' then ['\\', 'n']
  else if c = '\r' then ['\\', 'r']
  else if c = '\t' then ['\\', 't']
  else if c.toNat < 0x20 then
    ['\\', 'u', '0', '0', hexDigit (c.toNat / 16), hexDigit (c.toNat % 16)]
  else [c]

def quote (s : String) : String := "\"" ++ String.ofList (s.toList.flatMap quoteChar) ++ "\""

def Scalar.print : Scalar → String
  | null | unreadable => "null"
  | flag b => if b then "true" else "false"
  | natural n => toString n
  | number digits => digits
  | text s => quote s

namespace Node

def margin (level : Nat) : String := String.ofList (List.replicate (2 * level) ' ')

mutual

def pretty (level : Nat) : Node → String
  | scalar value _ => value.print
  | sequence items =>
    if items.isEmpty then "[]"
    else "[\n" ++ ",\n".intercalate (prettyItems (level + 1) items) ++ "\n" ++ margin level ++ "]"
  | mapping entries =>
    if entries.isEmpty then "\x7b\x7d"
    else
      "\x7b\n" ++ ",\n".intercalate (prettyEntries (level + 1) entries) ++ "\n" ++ margin level ++
        "\x7d"

def prettyItems (level : Nat) : List Node → List String
  | [] => []
  | item :: items => (margin level ++ pretty level item) :: prettyItems level items

def prettyEntries (level : Nat) : List (Node × Node) → List String
  | [] => []
  | (k, v) :: entries =>
    (margin level ++ pretty level k ++ ": " ++ pretty level v) :: prettyEntries level entries

end

end Node

end RecordSwap.Document
