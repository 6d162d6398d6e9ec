import RecordSwap.Document.Node
import RecordSwap.Number.Shortest

/-!
# Plain scalars

What a YAML scalar without quotes means.

* `Plain.natural?`, `Plain.negative?`: whole numbers, also in bases 16, 8 and 2. A number with a
  leading zero is a text.
* `Plain.decimal?`: numbers with a point or an exponent.
* `Scalar.ofPlain`: the meaning of a scalar.
-/

namespace RecordSwap.Document

namespace Plain

def digit? (base : Nat) (c : Char) : Option Nat :=
  let n :=
    if c.isDigit then c.toNat - '0'.toNat
    else if 'a' ≤ c ∧ c ≤ 'z' then c.toNat - 'a'.toNat + 10
    else if 'A' ≤ c ∧ c ≤ 'Z' then c.toNat - 'A'.toNat + 10
    else base
  if n < base then some n else none

/-- A natural number in a base; it needs at least one digit. -/
def digits? (base : Nat) (cs : List Char) : Option Nat :=
  if cs.isEmpty then none
  else cs.foldlM (fun n c => (digit? base c).map (n * base + ·)) 0

def basePrefixes : List (List Char × Nat) := [(['0', 'x'], 16), (['0', 'o'], 8), (['0', 'b'], 2)]

/-- A natural number behind the mark of its base. -/
def marked? (cs : List Char) : Option Nat :=
  basePrefixes.findSome? fun (mark, base) =>
    if mark.isPrefixOf cs then digits? base (cs.drop mark.length) else none

def hasLeadingZero (cs : List Char) : Bool :=
  let ds := match cs with
    | '-' :: ds | '+' :: ds => ds
    | ds => ds
  ds.length > 1 && ds.head? = some '0' && ds.all Char.isDigit

/-- A natural number, with or without a plus sign. -/
def natural? (cs : List Char) : Option Nat :=
  let ds := match cs with
    | '+' :: ds => ds
    | ds => ds
  (marked? ds).or (if hasLeadingZero cs then none else digits? 10 ds)

def negative? : List Char → Option Nat
  | '-' :: ds => (marked? ds).or (if hasLeadingZero ds then none else digits? 10 ds)
  | _ => none

/-- A decimal without a sign: digits, a point among them or not, and a power of ten or none. -/
def magnitude? (cs : List Char) : Option (Nat × Int) := do
  let isMark (c : Char) : Bool := c = 'e' || c = 'E'
  let (whole, rest) := cs.span Char.isDigit
  let (fraction, rest) := match rest with
    | '.' :: rest => rest.span Char.isDigit
    | rest => ([], rest)
  if whole.isEmpty ∧ fraction.isEmpty then none
  let exponent ← match rest with
    | [] => some 0
    | mark :: '-' :: ds => if isMark mark then (digits? 10 ds).map fun n => -(n : Int) else none
    | mark :: '+' :: ds => if isMark mark then (digits? 10 ds).map Int.ofNat else none
    | mark :: ds => if isMark mark then (digits? 10 ds).map Int.ofNat else none
  some (Nat.ofDigitChars 10 (whole ++ fraction) 0, exponent - fraction.length)

/-- A decimal with a sign or without; none if it is out of range. -/
def decimal? (cs : List Char) : Option Binary64 :=
  let read (negative : Bool) (ds : List Char) : Option Binary64 :=
    (magnitude? ds).bind fun (n, e) => Binary64.ofDecimal? negative n e
  match cs with
  | '-' :: ds => read true ds
  | '+' :: ds => read false ds
  | ds => read false ds

/-- Numbers that no digits stand for, as they are printed. -/
def special? (s : String) : Option String :=
  if [".inf", ".Inf", ".INF", "+.inf", "+.Inf", "+.INF"].contains s then some ".inf"
  else if ["-.inf", "-.Inf", "-.INF"].contains s then some "-.inf"
  else if [".nan", ".NaN", ".NAN"].contains s then some ".nan"
  else none

/-- Natural numbers of 64 bits lie below this bound. -/
def wordLimit : Nat := 0x10000000000000000

/-- A whole number that needs more than 64 bits, but not more than 128, is unreadable. A larger one
counts as a decimal. A zero with a minus sign is no natural number. -/
def whole? (cs : List Char) : Option Scalar :=
  match natural? cs, negative? cs with
  | some n, _ =>
    if n < wordLimit then some (.natural n)
    else if n < wordLimit * wordLimit then some .unreadable
    else none
  | none, some n =>
    if n = 0 then some (.number "0")
    else if n ≤ wordLimit / 2 then some (.number ("-" ++ toString n))
    else if n ≤ wordLimit * wordLimit / 2 then some .unreadable
    else none
  | none, none => none

def number? (s : String) : Option Scalar :=
  let cs := s.toList
  let fractional :=
    if hasLeadingZero cs then none
    else (special? s).or ((decimal? cs).map (Binary64.text fileDecimals))
  (whole? cs).or (fractional.map .number)

end Plain

def Scalar.ofPlain (s : String) : Scalar :=
  if ["", "~", "null", "Null", "NULL"].contains s then .null
  else if ["true", "True", "TRUE"].contains s then .flag true
  else if ["false", "False", "FALSE"].contains s then .flag false
  else (Plain.number? s).getD (.text s)

end RecordSwap.Document
