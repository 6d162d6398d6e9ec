import RecordSwap.Document.Node
import RecordSwap.Number.Shortest
import RecordSwap.Text.Reader

/-!
# JSON documents

Reading JSON text into a `Node`. The grammar is followed strictly; what it leaves open is:

* a number is a natural number of 64 bits, a negative one of 64 bits with a sign, or a `Binary64`,
  computed from as many leading digits as fit a word of 64 bits (`Literal.scalar`);
* a number out of range and an escape that stands for no character make a scalar unreadable, and
  not the document.
-/

namespace RecordSwap.Document.Json

open Text Text.Reader

/-! ## Numbers -/

/-- The parts of a number. -/
structure Literal where
  negative : Bool
  digits : List Char
  /-- Digits after the point, if there is one. -/
  fraction : Option (List Char)
  /-- Sign and digits of the power of ten, if there is one. -/
  exponent : Option (Bool × List Char)
  deriving DecidableEq, Repr

namespace Literal

def naturalLimit : Nat := 0x10000000000000000

def exponentLimit : Nat := 0x80000000

/-- The greatest power of ten that a number is multiplied by at once. -/
def maxPower : Nat := 308

/-- Takes digits into a significand as long as it fits a word; the rest is left over. -/
def significand (n : Nat) : List Char → Nat × List Char
  | [] => (n, [])
  | c :: rest =>
    let next := n * 10 + (c.toNat - '0'.toNat)
    if next < naturalLimit then significand next rest else (n, c :: rest)

/-- Multiplies a number by a power of ten, one rounded step after the other. -/
def scaled (fuel : Nat) (x : Binary64) (exponent : Int) : Option Binary64 :=
  let power (n : Nat) : Option Binary64 := Binary64.ofNat? (Nat.pow 10 n)
  if exponent.natAbs ≤ maxPower then do
    let p ← power exponent.natAbs
    if 0 ≤ exponent then x.mul? p else x.div? p
  else if x.isZero then some x
  else if 0 ≤ exponent then none
  else
    match fuel with
    | 0 => some x
    | fuel + 1 => do
      let p ← power maxPower
      let y ← x.div? p
      scaled fuel y (exponent + maxPower)

/-- A number with a sign as it is printed; unreadable if it is out of range. -/
def ofBinary (negative : Bool) : Option Binary64 → Scalar
  | some x => .number (({ x with negative } : Binary64).text fileDecimals)
  | none => .unreadable

/-- A significand times a power of ten, with a sign. After three divisions by the greatest power
nothing is left of any significand. -/
def decimal (negative : Bool) (n : Nat) (exponent : Int) : Scalar :=
  ofBinary negative ((Binary64.ofNat? n).bind fun x => scaled 3 x exponent)

/-- A significand times two powers of ten, the second one as it is written. -/
def withExponent (l : Literal) (n : Nat) (shift : Int) : Scalar :=
  match l.exponent with
  | none => decimal l.negative n shift
  | some (down, ds) =>
    let e := Nat.ofDigitChars 10 ds 0
    if e < exponentLimit then decimal l.negative n (if down then shift - e else shift + e)
    else if n ≠ 0 ∧ !down then .unreadable
    else ofBinary l.negative (some .zero)

def scalar (l : Literal) : Scalar :=
  let (n, left) := significand 0 l.digits
  match l.fraction, l.exponent, left with
  | none, none, [] =>
    if !l.negative then .natural n
    else if n = 0 ∨ naturalLimit / 2 < n then ofBinary true (Binary64.ofNat? n)
    else .number ("-" ++ toString n)
  | fraction, _, left =>
    let after := fraction.getD []
    let (n, unused) := significand n after
    l.withExponent n (left.length - (after.length - unused.length : Nat))

end Literal

/-! ## Tokens -/

def isGap (c : Char) : Bool := c = ' ' || c = '\t' || c = '\r' || c = '\n'

def digits : Reader (List Char) := many1 (satisfy Char.isDigit)

/-- The digits before a point; a zero stands alone. -/
def wholeDigits : Reader (List Char) := do
  let ds ← digits
  if ds.head? = some '0' ∧ ds.length ≠ 1 then failure else pure ds

def number : Reader Literal := do
  let negative ← accepts "-"
  let whole ← wholeDigits
  let fraction ← (do char '.'; return some (← digits)) <|> do
    if (← peek?) = some '.' then failure else pure none
  let exponent ← (do
    discard (oneOf ["e", "E"])
    let down ← (do discard (char '+'); pure false) <|> accepts "-"
    return some (down, ← digits)) <|> do
    if (← peek?).any fun c => c = 'e' || c = 'E' then failure else pure none
  pure ⟨negative, whole, fraction, exponent⟩

def hexQuad : Reader Nat := do
  let digit : Reader Nat := do
    let c ← any
    if c.isDigit then pure (c.toNat - '0'.toNat)
    else if 'a' ≤ c ∧ c ≤ 'f' then pure (c.toNat - 'a'.toNat + 10)
    else if 'A' ≤ c ∧ c ≤ 'F' then pure (c.toNat - 'A'.toNat + 10)
    else failure
  let a ← digit
  let b ← digit
  let c ← digit
  let d ← digit
  pure (((a * 16 + b) * 16 + c) * 16 + d)

/-- One unit of a text: a character, or half of one that is written as two escapes. -/
inductive TextUnit where
  | whole (c : Char)
  | high (n : Nat)
  | low (n : Nat)
  deriving DecidableEq, Repr

def simpleEscape : Char → Option Char
  | '"' => some '"'
  | '\\' => some '\\'
  | '/' => some '/'
  | 'b' => some '\x08'
  | 'f' => some '\x0c'
  | 'n' => some '\n'
  | 'r' => some '\r'
  | 't' => some '\t'
  | _ => none

def textUnit : Reader TextUnit := do
  let c ← any
  if c = '"' ∨ c.toNat < 0x20 then failure
  else if c ≠ '\\' then pure (.whole c)
  else
    let e ← any
    if e = 'u' then
      let n ← hexQuad
      if 0xD800 ≤ n ∧ n < 0xDC00 then pure (.high (n - 0xD800))
      else if 0xDC00 ≤ n ∧ n < 0xE000 then pure (.low (n - 0xDC00))
      else pure (.whole (Char.ofNat n))
    else
      match simpleEscape e with
      | some c => pure (.whole c)
      | none => failure

/-- The characters of a text; none if half of one is left alone. -/
def joinUnits : List TextUnit → Option (List Char)
  | [] => some []
  | .whole c :: rest => (joinUnits rest).map (c :: ·)
  | .high h :: .low l :: rest =>
    (joinUnits rest).map (Char.ofNat (0x10000 + h * 0x400 + l) :: ·)
  | _ => none

def quoted : Reader Node := do
  char '"'
  let units ← many textUnit
  char '"'
  match joinUnits units with
  | some cs =>
    let s := String.ofList cs
    pure (.scalar (.text s) (some s))
  | none => pure (.scalar .unreadable none)

/-! ## Values -/

def scalar : Reader Node :=
  quoted <|>
  (do literal "null"; pure (.scalar .null none)) <|>
  (do literal "true"; pure (.scalar (.flag true) none)) <|>
  (do literal "false"; pure (.scalar (.flag false) none)) <|>
  (return .scalar (← number).scalar none)

/-- Items between two marks, with commas between them. -/
def between (opening closing : Char) (item : Reader α) : Reader (List α) := do
  char opening
  skipWhile isGap
  (do char closing; pure []) <|> do
    let first ← item
    let others ← many (do char ','; skipWhile isGap; item)
    char closing
    pure (first :: others)

def entry (value : Reader Node) : Reader (Node × Node) := do
  let k ← quoted
  skipWhile isGap
  char ':'
  let v ← value
  pure (k, v)

/-- A value with the white space around it, nested at most `depth` times. -/
def value : Nat → Reader Node
  | 0 => failure
  | depth + 1 => do
    skipWhile isGap
    let item := value depth
    let node ← match ← peek? with
      | some '[' => pure (Node.sequence (← between '[' ']' item))
      | some '\x7b' => pure (Node.mapping (← between '\x7b' '\x7d' (entry item)))
      | _ => scalar
    skipWhile isGap
    pure node

/-- Reads a JSON document. Values cannot be nested deeper than there are characters. -/
def read? (s : String) : Option Node := whole (do value ((← bound) + 1)) s

end RecordSwap.Document.Json
