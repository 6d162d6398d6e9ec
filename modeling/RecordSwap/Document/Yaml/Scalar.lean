import RecordSwap.Document.Yaml.Cursor

/-!
# YAML scalars

Reading one scalar at a position. The results are the text and the position after it; a reader
refuses a scalar that is not well formed.

* `Gap`: the white space between two parts of a scalar, which folds into one blank or some line
  ends.
* `quoted?`: scalars in single or double quotes, the latter with escapes.
* `plain?`: scalars without quotes.
* `block?`: scalars that follow `|` or `>`, with their indentation.
-/

namespace RecordSwap.Document.Yaml

/-! ## Gaps -/

/-- White space between two parts of a scalar. -/
structure Gap where
  /-- Blanks on the first line. -/
  spaces : List Char := []
  /-- Whether a line has ended. -/
  broken : Bool := false
  /-- The first line end, unless it was written as an escape. -/
  first : List Char := []
  /-- The other line ends. -/
  others : List Char := []
  deriving DecidableEq, Repr

namespace Gap

def addBreak (g : Gap) (c : Char) : Gap :=
  let b := Cursor.breakChar c
  if g.broken then { g with others := g.others ++ [b] } else { broken := true, first := [b] }

/-- What stands for a gap in the text: its blanks, or a blank for one line end, or the line ends
after the first one. -/
def folded (g : Gap) : List Char :=
  if !g.broken then g.spaces
  else if g.first = ['\n'] then if g.others.isEmpty then [' '] else g.others
  else g.first ++ g.others

/-- Reads white space. After a line end, a tab left of column `tabLimit` is refused. -/
def read? (tabLimit : Nat) : Nat → Gap → Cursor → Option (Gap × Cursor)
  | 0, g, c => some (g, c)
  | fuel + 1, g, c =>
    match c.peek? with
    | none => some (g, c)
    | some ch =>
      if isSpace ch then
        if g.broken then
          if ch = '\t' ∧ c.column < tabLimit then none else read? tabLimit fuel g (c.skip 1)
        else read? tabLimit fuel { g with spaces := g.spaces ++ [ch] } (c.skip 1)
      else if isBreak ch then read? tabLimit fuel (g.addBreak ch) c.skipBreak
      else some (g, c)

end Gap

/-! ## Quoted scalars -/

def simpleEscape : Char → Option Char
  | '0' => some '\x00'
  | 'a' => some '\x07'
  | 'b' => some '\x08'
  | 't' | '\t' => some '\t'
  | 'n' => some '\n'
  | 'v' => some '\x0b'
  | 'f' => some '\x0c'
  | 'r' => some '\r'
  | 'e' => some '\x1b'
  | ' ' => some ' '
  | '"' => some '"'
  | '/' => some '/'
  | '\\' => some '\\'
  | 'N' => some '\x85'
  | '_' => some '\xa0'
  | 'L' => some '\u2028'
  | 'P' => some '\u2029'
  | _ => none

def escapeLength : Char → Option Nat
  | 'x' => some 2
  | 'u' => some 4
  | 'U' => some 8
  | _ => none

def hexValue? (cs : List Char) : Option Nat :=
  cs.foldlM (fun n c =>
    let digit :=
      if c.isDigit then c.toNat - '0'.toNat
      else if 'a' ≤ c ∧ c ≤ 'f' then c.toNat - 'a'.toNat + 10
      else if 'A' ≤ c ∧ c ≤ 'F' then c.toNat - 'A'.toNat + 10
      else 16
    if digit < 16 then some (n * 16 + digit) else none) 0

/-- Reads an escape after its backslash: the character, and the number of characters read. -/
def escape? (cs : List Char) : Option (Char × Nat) := do
  let letter ← cs.head?
  match simpleEscape letter with
  | some c => some (c, 1)
  | none =>
    let n ← escapeLength letter
    let ds := (cs.drop 1).take n
    if ds.length < n then none
    let value ← hexValue? ds
    if value.isValidChar then some (Char.ofNat value, n + 1) else none

/-- The part of a quoted scalar up to white space or the closing quote. An escaped line end also
ends it, and is reported. -/
def quotedPart? (double : Bool) : Nat → List Char → Cursor → Option (List Char × Bool × Cursor)
  | 0, _, _ => none
  | fuel + 1, done, c =>
    match c.rest with
    | [] => some (done, false, c)
    | ch :: rest =>
      if isSpace ch || isBreak ch then some (done, false, c)
      else if !double && ch = '\'' && rest.head? = some '\'' then
        quotedPart? double fuel ('\'' :: done) (c.skip 2)
      else if ch = (if double then '"' else '\'') then some (done, false, c)
      else if double && ch = '\\' then
        if rest.head?.any isBreak then some (done, true, (c.skip 1).skipBreak)
        else
          match escape? rest with
          | some (e, n) => quotedPart? double fuel (e :: done) (c.skip (n + 1))
          | none => none
      else quotedPart? double fuel (ch :: done) (c.skip 1)

/-- The rest of a quoted scalar; `done` holds its characters so far, the last one first. -/
def quotedRest? (double : Bool) : Nat → List Char → Cursor → Option (String × Cursor)
  | 0, _, _ => none
  | fuel + 1, done, c => do
    if c.atDocumentMark then none
    let (done, escaped, c) ← quotedPart? double (c.size + 1) done c
    if c.peek? = some (if double then '"' else '\'') then
      some (String.ofList done.reverse, c.skip 1)
    else
      let (gap, c) ← Gap.read? 0 c.size { broken := escaped } c
      if c.rest.isEmpty then none
      quotedRest? double fuel (gap.folded.reverse ++ done) c

def quoted? (double : Bool) (c : Cursor) : Option (String × Cursor) :=
  quotedRest? double (c.size + 1) [] (c.skip 1)

/-! ## Plain scalars -/

def isFlowMark (c : Char) : Bool := c = ',' || c = '[' || c = ']' || c = '\x7b' || c = '\x7d'

/-- The part of a plain scalar up to white space or a mark; in a flow collection a colon before a
mark is refused. -/
def plainPart? (flow : Bool) : List Char → Option (List Char)
  | [] => some []
  | c :: rest =>
    if isSpace c || isBreak c then some []
    else if flow && c = ':' && rest.head?.any (fun d => isFlowMark d || d = '?') then none
    else if c = ':' && isGapOrEnd rest.head? then some []
    else if flow && isFlowMark c then some []
    else (plainPart? flow rest).map (c :: ·)

/-- The rest of a plain scalar after a gap. The gap does not count if nothing follows it. The
results are the text, the position after it, and whether that is on a new line. -/
def plainRest? (flow : Bool) (indent : Nat) :
    Nat → List Char → Gap → Cursor → Option (String × Cursor × Bool)
  | 0, _, _, _ => none
  | fuel + 1, done, gap, c => do
    let stop := some (String.ofList done, c, gap.broken)
    if c.atDocumentMark ∨ c.peek? = some '#' then stop
    else
      let part ← plainPart? flow c.rest
      if part.isEmpty then stop
      else
        let done := done ++ gap.folded ++ part
        let c := c.skip part.length
        if !(c.peek?.any fun ch => isSpace ch || isBreak ch) then
          some (String.ofList done, c, false)
        else
          let (gap, c) ← Gap.read? indent c.size {} c
          if !flow ∧ c.column < indent then some (String.ofList done, c, gap.broken)
          else plainRest? flow indent fuel done gap c

/-- Reads a scalar without quotes; its later lines are indented by `indent`. -/
def plain? (flow : Bool) (indent : Nat) (c : Cursor) : Option (String × Cursor × Bool) :=
  plainRest? flow indent (c.size + 1) [] {} c

/-! ## Block scalars -/

/-- What happens to the line ends at the end of a block scalar. -/
inductive Chomping where
  /-- The last line end stays. -/
  | clip
  /-- No line end stays. -/
  | strip
  /-- All line ends stay. -/
  | keep
  deriving DecidableEq, Repr

def chomping? : Option Char → Option Chomping
  | some '+' => some .keep
  | some '-' => some .strip
  | _ => none

def indentMark? : Option Char → Option Nat
  | some c => if c.isDigit ∧ c ≠ '0' then some (c.toNat - '0'.toNat) else none
  | none => none

def blockMarks (c : Cursor) : Chomping × Option Nat × Cursor :=
  match chomping? c.peek?, indentMark? c.peek? with
  | some chomping, _ =>
    match indentMark? (c.peekAt? 1) with
    | some n => (chomping, some n, c.skip 2)
    | none => (chomping, none, c.skip 1)
  | none, some n =>
    match chomping? (c.peekAt? 1) with
    | some chomping => (chomping, some n, c.skip 2)
    | none => (.clip, some n, c.skip 1)
  | none, none => (.clip, none, c)

/-- Passes over indentation and empty lines. `indent` is unknown before the first line of text; then
the widest indentation is reported. The results are the line ends, the widest indentation and the
position. -/
def blockBreaks? (indent : Option Nat) :
    Nat → List Char → Nat → Cursor → Option (List Char × Nat × Cursor)
  | 0, _, _, _ => none
  | fuel + 1, breaks, widest, c => do
    let blanks := (c.rest.takeWhile (· = ' ')).length
    let c := c.skip (match indent with
      | some n => min blanks (n - c.column)
      | none => blanks)
    let widest := max widest c.column
    let inside := indent.all fun n => c.column < n
    if inside ∧ c.peek? = some '\t' then none
    match c.peek? with
    | some ch =>
      if isBreak ch then
        blockBreaks? indent fuel (breaks ++ [Cursor.breakChar ch]) widest c.skipBreak
      else some (breaks, widest, c)
    | none => some (breaks, widest, c)

/-- State between two lines of a block scalar. -/
structure BlockLines where
  /-- Characters so far, the last one first. -/
  done : List Char := []
  /-- The line end after the last line of text. -/
  lead : List Char := []
  /-- The line ends of the empty lines after it. -/
  breaks : List Char
  /-- Whether the last line of text starts with a blank. -/
  indented : Bool := false

/-- The lines of a block scalar at an indentation. -/
def blockLines? (folds : Bool) (indent : Nat) :
    Nat → BlockLines → Cursor → Option (BlockLines × Cursor)
  | 0, _, _ => none
  | fuel + 1, b, c => do
    if c.column ≠ indent ∨ c.rest.isEmpty then some (b, c)
    else
      let indented := c.peek?.any isSpace
      let lead :=
        if folds ∧ b.lead = ['\n'] ∧ !b.indented ∧ !indented then
          if b.breaks.isEmpty then [' '] else []
        else b.lead
      let text := c.rest.takeWhile fun ch => !isBreak ch
      let done := text.reverse ++ b.breaks.reverse ++ lead.reverse ++ b.done
      let c := c.skip text.length
      let (lead, c) := match c.peek? with
        | some ch => ([Cursor.breakChar ch], c.skipBreak)
        | none => ([], c)
      let (breaks, _, c) ← blockBreaks? (some indent) (c.size + 1) [] 0 c
      blockLines? folds indent fuel { done, lead, breaks, indented } c

/-- Reads a scalar after its `|` or `>`. `parent` is the indentation of the collection around it, if
there is one. -/
def block? (folds : Bool) (parent : Option Nat) (c : Cursor) : Option (String × Cursor) := do
  let (chomping, mark, c) := blockMarks (c.skip 1)
  if mark.isNone ∧ c.peek? = some '0' then none
  let c := c.skipWhile isSpace
  let c := if c.peek? = some '#' then c.skipWhile fun ch => !isBreak ch else c
  if !isBreakOrEnd c.peek? then none
  let c := if c.rest.isEmpty then c else c.skipBreak
  let fuel := c.size + 1
  let given := mark.map fun n => parent.getD 0 + n
  let (breaks, widest, c) ← blockBreaks? given fuel [] 0 c
  let indent := given.getD (max widest (parent.elim 1 (· + 1)))
  let (b, c) ← blockLines? folds indent fuel { breaks } c
  let tail := match chomping with
    | .strip => []
    | .clip => b.lead
    | .keep => b.lead ++ b.breaks
  some (String.ofList (b.done.reverse ++ tail), c)

end RecordSwap.Document.Yaml
