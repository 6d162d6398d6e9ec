import RecordSwap.Document.Yaml.Scalar

/-!
# YAML tokens

Cutting a YAML text into tokens. In block collections the tokens that open and close a collection
come from the indentation; a key without a mark of its own is found only when the colon after it is
read, and its tokens are then put in front of it.

* `Token`: the tokens.
* `Scanner`: the state between two tokens.
* `tokens?`: the tokens of a text. Anchors, aliases, tags and directives are refused.
-/

namespace RecordSwap.Document.Yaml

/-- A token. -/
inductive Token where
  | documentStart
  | documentEnd
  | blockSequenceStart
  | blockMappingStart
  | blockEnd
  | flowSequenceStart
  | flowSequenceEnd
  | flowMappingStart
  | flowMappingEnd
  | blockEntry
  | flowEntry
  | key
  | value
  | plain (text : String)
  | quoted (text : String)
  deriving DecidableEq, Repr

/-- A place where a key may have started. -/
structure KeyStart where
  /-- Whether only a key may stand there. -/
  required : Bool
  /-- Tokens before the key. -/
  tokensBefore : Nat
  line : Nat
  column : Nat
  index : Nat
  deriving DecidableEq, Repr

/-- State between two tokens. -/
structure Scanner where
  cursor : Cursor
  /-- Tokens so far, the last one first. -/
  tokens : List Token := []
  /-- Number of tokens so far. -/
  count : Nat := 0
  /-- For each open flow collection, the key that may have started outside it. -/
  outerKeys : List (Option KeyStart) := []
  /-- The key that may have started in the current collection. -/
  keyStart : Option KeyStart := none
  /-- Columns of the open block collections, the innermost first. -/
  indents : List Nat := []
  /-- Whether a key may start here. -/
  keyAllowed : Bool := true

namespace Scanner

/-! ## Parts of a step -/

def inFlow (s : Scanner) : Bool := !s.outerKeys.isEmpty

def push (s : Scanner) (t : Token) : Scanner :=
  { s with tokens := t :: s.tokens, count := s.count + 1 }

/-- Puts a token in front of all but the first `n` tokens. -/
def insert (s : Scanner) (n : Nat) (t : Token) : Scanner :=
  { s with tokens := s.tokens.insertIdx (s.count - n) t, count := s.count + 1 }

def skip (s : Scanner) (n : Nat) : Scanner := { s with cursor := s.cursor.skip n }

/-- Whether a column lies right of the innermost block collection. -/
def isDeeper (s : Scanner) (column : Nat) : Bool := s.indents.head?.all (· < column)

/-- Opens a block collection at a column, unless one is open there already. Its token goes behind
the first `n` tokens. -/
def openBlock (s : Scanner) (column n : Nat) (t : Token) : Scanner :=
  if !s.inFlow && s.isDeeper column then
    { s.insert n t with indents := column :: s.indents }
  else s

/-- Closes the block collections right of a column, or all of them. -/
def closeBlocks (s : Scanner) (column : Option Nat) : Scanner :=
  if s.inFlow then s
  else
    let closed := s.indents.takeWhile fun indent => column.all (· < indent)
    closed.foldl (fun s _ => s.push .blockEnd)
      { s with indents := s.indents.drop closed.length }

/-- Gives up the key that may have started; refuses if a key has to be there. -/
def dropKey (s : Scanner) : Option Scanner :=
  if s.keyStart.any KeyStart.required then none else some { s with keyStart := none }

def noteKey (s : Scanner) : Option Scanner :=
  if s.keyAllowed then do
    let s ← s.dropKey
    let c := s.cursor
    some { s with
      keyStart := some {
        required := !s.inFlow && s.indents.head? = some c.column
        tokensBefore := s.count
        line := c.line
        column := c.column
        index := c.index } }
  else some s

/-- A key without a mark lies on one line and has at most this many characters. -/
def keyLength : Nat := 1024

/-- Whether a key that started there can still end here. -/
def isCurrent (c : Cursor) (k : KeyStart) : Bool := k.line = c.line && c.index ≤ k.index + keyLength

def dropStaleKeys (s : Scanner) : Option Scanner :=
  let stale (k : Option KeyStart) : Bool := k.any fun k => !isCurrent s.cursor k
  let kept (k : Option KeyStart) : Option KeyStart := if stale k then none else k
  if (s.keyStart :: s.outerKeys).any fun k => stale k && k.any KeyStart.required then none
  else some { s with keyStart := kept s.keyStart, outerKeys := s.outerKeys.map kept }

/-- Passes over white space and comments. A tab counts as white space where no key may start. -/
def skipGaps : Nat → Scanner → Scanner
  | 0, s => s
  | fuel + 1, s =>
    let c := s.cursor.skipWhile fun ch =>
      ch = ' ' || (ch = '\t' && (s.inFlow || !s.keyAllowed))
    let c := if c.peek? = some '#' then c.skipWhile fun ch => !isBreak ch else c
    if c.peek?.any isBreak then
      skipGaps fuel { s with cursor := c.skipBreak, keyAllowed := s.keyAllowed || !s.inFlow }
    else { s with cursor := c }

/-! ## Steps -/

def documentMark (s : Scanner) : Option Scanner := do
  let s ← (s.closeBlocks none).dropKey
  let t := if s.cursor.peek? = some '-' then Token.documentStart else .documentEnd
  some { (s.push t).skip 3 with keyAllowed := false }

def openFlow (s : Scanner) (t : Token) : Option Scanner := do
  let s ← s.noteKey
  some { (s.push t).skip 1 with
    outerKeys := s.keyStart :: s.outerKeys
    keyStart := none
    keyAllowed := true }

def closeFlow (s : Scanner) (t : Token) : Option Scanner := do
  let s ← s.dropKey
  let s := match s.outerKeys with
    | k :: rest => { s with keyStart := k, outerKeys := rest }
    | [] => s
  some { (s.push t).skip 1 with keyAllowed := false }

def nextFlow (s : Scanner) : Option Scanner := do
  let s ← s.dropKey
  some { (s.push .flowEntry).skip 1 with keyAllowed := true }

def blockEntry (s : Scanner) : Option Scanner := do
  if !s.inFlow ∧ !s.keyAllowed then none
  let s ← (s.openBlock s.cursor.column s.count .blockSequenceStart).dropKey
  some { (s.push .blockEntry).skip 1 with keyAllowed := true }

def markedKey (s : Scanner) : Option Scanner := do
  if !s.inFlow ∧ !s.keyAllowed then none
  let s ← (s.openBlock s.cursor.column s.count .blockMappingStart).dropKey
  some { (s.push .key).skip 1 with keyAllowed := !s.inFlow }

def value (s : Scanner) : Option Scanner :=
  match s.keyStart with
  | some k =>
    let s := { s.insert k.tokensBefore .key with keyStart := none }
    let s := s.openBlock k.column k.tokensBefore .blockMappingStart
    some { (s.push .value).skip 1 with keyAllowed := false }
  | none =>
    if !s.inFlow ∧ !s.keyAllowed then none
    else
      let s := s.openBlock s.cursor.column s.count .blockMappingStart
      some { (s.push .value).skip 1 with keyAllowed := !s.inFlow }

def blockScalar (s : Scanner) (folds : Bool) : Option Scanner := do
  let s ← s.dropKey
  let (text, c) ← block? folds s.indents.head? s.cursor
  some { s.push (.quoted text) with cursor := c, keyAllowed := true }

def quotedScalar (s : Scanner) (double : Bool) : Option Scanner := do
  let s ← s.noteKey
  let (text, c) ← quoted? double s.cursor
  some { s.push (.quoted text) with cursor := c, keyAllowed := false }

def plainScalar (s : Scanner) : Option Scanner := do
  let s ← s.noteKey
  let (text, c, newLine) ← plain? s.inFlow (s.indents.head?.elim 0 (· + 1)) s.cursor
  some { s.push (.plain text) with cursor := c, keyAllowed := newLine }

/-- Characters that cannot start a plain scalar without further ado. -/
def isIndicator (c : Char) : Bool := "-?:,[]\x7b\x7d#&*!|>'\"%@`".toList.contains c

/-- Whether a plain scalar may start with a character before `next`. -/
def startsPlain (s : Scanner) (ch : Char) (next : Option Char) : Bool :=
  !isIndicator ch || (ch = '-' && !next.any isSpace) ||
    (!s.inFlow && (ch = '?' || ch = ':') && !isGapOrEnd next)

/-- Reads the next token, which starts with `ch`. -/
def token (s : Scanner) (ch : Char) : Option Scanner :=
  let next := s.cursor.peekAt? 1
  if s.cursor.column = 0 ∧ ch = '%' then none
  else if s.cursor.atDocumentMark then s.documentMark
  else if ch = '[' then s.openFlow .flowSequenceStart
  else if ch = '\x7b' then s.openFlow .flowMappingStart
  else if ch = ']' then s.closeFlow .flowSequenceEnd
  else if ch = '\x7d' then s.closeFlow .flowMappingEnd
  else if ch = ',' then s.nextFlow
  else if ch = '-' ∧ isGapOrEnd next then s.blockEntry
  else if ch = '?' ∧ (s.inFlow ∨ isGapOrEnd next) then s.markedKey
  else if ch = ':' ∧ (s.inFlow ∨ isGapOrEnd next) then s.value
  else if ch = '|' ∧ !s.inFlow then s.blockScalar false
  else if ch = '>' ∧ !s.inFlow then s.blockScalar true
  else if ch = '\'' then s.quotedScalar false
  else if ch = '"' then s.quotedScalar true
  else if s.startsPlain ch next then s.plainScalar
  else none

/-- Reads the tokens that are left. Each one uses up a character. -/
def finish : Nat → Scanner → Option (List Token)
  | 0, _ => none
  | fuel + 1, s => do
    let s ← (skipGaps (s.cursor.size + 1) s).dropStaleKeys
    match s.cursor.peek? with
    | none =>
      let s ← (s.closeBlocks none).dropKey
      some s.tokens.reverse
    | some ch => finish fuel (← (s.closeBlocks (some s.cursor.column)).token ch)

end Scanner

/-- The characters of a text without a byte order mark in front. -/
def withoutMark : List Char → List Char
  | '\ufeff' :: cs => cs
  | cs => cs

def tokens? (text : String) : Option (List Token) :=
  let cs := withoutMark text.toList
  let size := cs.length
  if cs.all isAllowed then Scanner.finish (size + 1) { cursor := { rest := cs, size } } else none

end RecordSwap.Document.Yaml
