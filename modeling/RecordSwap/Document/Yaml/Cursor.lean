/-!
# Positions in a YAML text

* `isSpace`, `isBreak`, `isBreakOrEnd`, `isGapOrEnd`: the character classes that structure a text.
* `Cursor`: the characters that are left, with line, column and index of the first of them.
* `isAllowed`: the characters that a text may hold at all.
-/

namespace RecordSwap.Document.Yaml

/-! ## Characters -/

def isAllowed (c : Char) : Bool :=
  let n := c.toNat
  n = 0x9 || n = 0xA || n = 0xD || (0x20 ≤ n && n ≤ 0x7E) || n = 0x85 ||
    (0xA0 ≤ n && n ≤ 0xFFFD && n ≠ 0xFEFF) || 0x10000 ≤ n

def isSpace (c : Char) : Bool := c = ' ' || c = '\t'

def isBreak (c : Char) : Bool :=
  c = '\r' || c = '\n' || c = '\x85' || c = '\u2028' || c = '\u2029'

def isBreakOrEnd : Option Char → Bool
  | some c => isBreak c
  | none => true

def isGapOrEnd : Option Char → Bool
  | some c => isSpace c || isBreak c
  | none => true

/-! ## Positions -/

/-- A position in a text. -/
structure Cursor where
  rest : List Char
  /-- Number of characters of the whole text, which bounds every loop over it. -/
  size : Nat
  line : Nat := 0
  column : Nat := 0
  index : Nat := 0
  deriving DecidableEq, Repr

namespace Cursor

def peek? (c : Cursor) : Option Char := c.rest.head?

def peekAt? (c : Cursor) (n : Nat) : Option Char := c.rest[n]?

def skip (c : Cursor) (n : Nat) : Cursor :=
  { c with rest := c.rest.drop n, column := c.column + n, index := c.index + n }

/-- Passes over the end of a line; a carriage return and a line feed count as one. -/
def skipBreak (c : Cursor) : Cursor :=
  let n := match c.rest with
    | '\r' :: '\n' :: _ => 2
    | _ => 1
  { c with rest := c.rest.drop n, line := c.line + 1, column := 0, index := c.index + n }

/-- The end of a line as it counts in a scalar: a line feed, except for two separators of their
own. -/
def breakChar (c : Char) : Char := if c = '\u2028' || c = '\u2029' then c else '\n'

def skipWhile (c : Cursor) (fits : Char → Bool) : Cursor := c.skip (c.rest.takeWhile fits).length

/-- Whether a line of its own marks the start or the end of a document here. -/
def atDocumentMark (c : Cursor) : Bool :=
  c.column = 0 && (c.rest.take 3 = ['-', '-', '-'] || c.rest.take 3 = ['.', '.', '.']) &&
    isGapOrEnd (c.peekAt? 3)

end Cursor

end RecordSwap.Document.Yaml
