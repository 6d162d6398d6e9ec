/-!
# Binary floating-point numbers

The finite numbers of the 64-bit binary format, in exact arithmetic.

* `Binary64`: sign, mantissa and exponent.
* `Binary64.ofRatio?`: the number nearest to a quotient, a tie going to the even mantissa.
* `Binary64.mul?`, `Binary64.div?`: products and quotients, rounded in that way.
* `Binary64.ofDecimal?`: the number nearest to a decimal.
-/

namespace RecordSwap

/-- The number `mantissa * 2 ^ exponent` with a sign. The mantissa has at most 53 bits, and exactly
53 unless the exponent is the least one. -/
structure Binary64 where
  negative : Bool := false
  mantissa : Nat
  exponent : Int
  deriving DecidableEq, Repr

namespace Binary64

def precision : Nat := 53

/-- Mantissas lie below this bound, two to the power of the precision. -/
def mantissaLimit : Nat := 1 <<< precision

def minExponent : Int := -1074

def maxExponent : Int := 971

def zero : Binary64 := ⟨false, 0, minExponent⟩

def isZero (x : Binary64) : Bool := x.mantissa = 0

/-- The quotient rounded to the nearest natural number, a tie going to the even one. -/
def roundDiv (num den : Nat) : Nat :=
  let q := num / den
  let r := num % den
  if 2 * r < den then q
  else if den < 2 * r then q + 1
  else q + q % 2

/-- Numerator and denominator of `num / den / 2 ^ e`. -/
def scale (num den : Nat) (e : Int) : Nat × Nat :=
  if 0 ≤ e then (num, den <<< e.toNat) else (num <<< (-e).toNat, den)

/-- The number nearest to `num / den`; none if it is out of range. -/
def ofRatio? (negative : Bool) (num den : Nat) : Option Binary64 :=
  if num = 0 then some ⟨negative, 0, minExponent⟩
  else
    let guess : Int := max ((num.log2 : Int) - den.log2 - (precision - 1)) minExponent
    let (n, d) := scale num den guess
    let e := if n / d < mantissaLimit / 2 then max (guess - 1) minExponent else guess
    let (n, d) := scale num den e
    let m := roundDiv n d
    let (m, e) := if m < mantissaLimit then (m, e) else (m / 2, e + 1)
    if e ≤ maxExponent then some ⟨negative, m, e⟩ else none

def ratio (x : Binary64) : Nat × Nat := scale x.mantissa 1 (-x.exponent)

def ofNat? (n : Nat) : Option Binary64 := ofRatio? false n 1

def mul? (x y : Binary64) : Option Binary64 :=
  let (a, b) := x.ratio
  let (c, d) := y.ratio
  ofRatio? (x.negative != y.negative) (a * c) (b * d)

/-- Rounded quotient by a number that is not zero; none if it is out of range. -/
def div? (x y : Binary64) : Option Binary64 :=
  let (a, b) := x.ratio
  let (c, d) := y.ratio
  ofRatio? (x.negative != y.negative) (a * d) (b * c)

/-- Decimals above this power of ten are out of range, and those below its inverse are zero. -/
def decimalRange : Nat := 400

/-- The number nearest to `digits * 10 ^ exponent`; none if it is out of range. -/
def ofDecimal? (negative : Bool) (digits : Nat) (exponent : Int) : Option Binary64 :=
  let magnitude := (digits.log2 / 3 : Nat) + exponent
  if digits = 0 then some ⟨negative, 0, minExponent⟩
  else if (decimalRange : Int) + digits.log2 < exponent then none
  else if magnitude < -(decimalRange : Int) then some ⟨negative, 0, minExponent⟩
  else if 0 ≤ exponent then ofRatio? negative (digits * Nat.pow 10 exponent.toNat) 1
  else ofRatio? negative digits (Nat.pow 10 (-exponent).toNat)

end Binary64

end RecordSwap
