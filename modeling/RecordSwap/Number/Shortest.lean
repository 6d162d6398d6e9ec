import RecordSwap.Number.Binary64

/-!
# Shortest decimals

The fewest decimal digits that read back as a given binary number, and their text.

* `Binary64.shortest`: the digits and their exponent.
* `DecimalStyle`, `Binary64.text`: how the digits are written out.
-/

namespace RecordSwap

namespace Binary64

/-- Twice-scaled ends of the interval of values that round to a number: the value is `4 * m`, the
ends are the first and the second number, all in units of `2 ^ (exponent - 2)`. -/
def interval (x : Binary64) : Nat × Nat :=
  let low :=
    if x.mantissa = mantissaLimit / 2 ∧ minExponent < x.exponent then 4 * x.mantissa - 1
    else 4 * x.mantissa - 2
  (low, 4 * x.mantissa + 2)

/-- Whether the decimal `digits * 10 ^ e` rounds to the number. The ends of the interval do so when
the mantissa is even. -/
def reads (x : Binary64) (digits : Nat) (e : Int) : Bool :=
  let (low, high) := x.interval
  -- compare digits * 10 ^ e with bound * 2 ^ (exponent - 2)
  let (num, den) := scale digits 1 (x.exponent - 2)
  let power := Nat.pow 10 e.natAbs
  let (num, den) := if 0 ≤ e then (num * power, den) else (num, den * power)
  if x.mantissa % 2 = 0 then low * den ≤ num && num ≤ high * den
  else low * den < num && num < high * den

/-- Numerator and denominator of `value / 10 ^ e`. -/
def scaleDecimal (x : Binary64) (e : Int) : Nat × Nat :=
  let (num, den) := x.ratio
  let power := Nat.pow 10 e.natAbs
  if 0 ≤ e then (num, den * power) else (num * power, den)

def digitCount (n : Nat) : Nat := (Nat.toDigits 10 n).length

/-- The power `p` with `10 ^ (p - 1) ≤ value < 10 ^ p`, for a value other than zero. -/
def magnitude (x : Binary64) : Int :=
  let (num, den) := x.ratio
  let guess : Int := (digitCount num : Int) - digitCount den
  let (n, d) := x.scaleDecimal guess
  if n < d then guess else guess + 1

/-- The nearer one of the two decimals with unit `10 ^ e` around the value that reads back. -/
def onGrid? (x : Binary64) (e : Int) : Option (Nat × Int) :=
  let (num, den) := x.scaleDecimal e
  let below := num / den
  let nearest := roundDiv num den
  let other := if nearest = below then below + 1 else below
  if x.reads nearest e then some (nearest, e)
  else if x.reads other e then some (other, e)
  else none

def dropZeros : Nat → Nat → Int → Nat × Int
  | 0, digits, e => (digits, e)
  | fuel + 1, digits, e =>
    if digits % 10 = 0 ∧ digits ≠ 0 then dropZeros fuel (digits / 10) (e + 1) else (digits, e)

/-- The fewest digits that read back, and the power of ten of the last one. -/
def shortest (x : Binary64) : Nat × Int :=
  if x.isZero then (0, 0)
  else
    let p := x.magnitude
    let found := (List.range 17).findSome? fun n => x.onGrid? (p - (n + 1 : Nat))
    let (digits, e) := found.getD (0, 0)
    dropZeros 20 digits e

end Binary64

/-- How decimals are written out. -/
structure DecimalStyle where
  /-- Positional down to this power of the leading digit, exclusive. -/
  minPoint : Int
  /-- Positional up to this many digits before the point. -/
  maxPoint : Int
  deriving DecidableEq, Repr

namespace Binary64

/-- Text of a number: positional with a point and at least one digit after it, or with an exponent
and without a point after a single digit. -/
def text (style : DecimalStyle) (x : Binary64) : String :=
  let sign := if x.negative then "-" else ""
  let (n, e) := x.shortest
  let digits := toString n
  let point : Int := digits.length + e
  let body :=
    if x.isZero then "0.0"
    else if 0 ≤ e ∧ point ≤ style.maxPoint then
      digits ++ String.ofList (List.replicate e.toNat '0') ++ ".0"
    else if 0 < point ∧ point ≤ style.maxPoint then
      String.ofList (digits.toList.take point.toNat) ++ "." ++
        String.ofList (digits.toList.drop point.toNat)
    else if style.minPoint < point ∧ point ≤ 0 then
      "0." ++ String.ofList (List.replicate (-point).toNat '0') ++ digits
    else
      let fraction := digits.toList.drop 1
      let mantissa := String.ofList (digits.toList.take 1) ++
        if fraction.isEmpty then "" else "." ++ String.ofList fraction
      mantissa ++ "e" ++ toString (point - 1)
  sign ++ body

end Binary64

/-- Numbers in project files are positional from `0.00001` to sixteen digits before the point. -/
def fileDecimals : DecimalStyle := ⟨-5, 16⟩

end RecordSwap
