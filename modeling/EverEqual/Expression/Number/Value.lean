import EverEqual.Expression.Number
import EverEqual.Numeric.Quantity

/-!
# The values of number literals

A whole number is what its digits make. Any other number is first worked out as a binary number of
many digits, because its exponent may be large; if that is of a moderate size, the number is exact
after all. A number is none at all if its exponent is beyond all bounds, or if a digit is too large
for its base.

* `Numeral.approximate?`: the number to many binary digits;
* `Numeral.value?`: the value, or the factor of the imaginary unit.
-/

namespace EverEqual.Expression

open Numeric

/-- The digits to which powers of five are worked out, more than those of a rounded number. -/
def powerDigits : Nat := precision + 64

/-- A number times a power of another one, by repeated squaring, where each product is rounded;
nothing if a product is too large. -/
def timesPower (z f : Option Binary) (n : Nat) : Option Binary :=
  if n = 0 then z
  else
    let product := do ((← z).mul (← f)).limited? powerDigits
    let square := do ((← f).mul (← f)).limited? (powerDigits + 64)
    timesPower (if n % 2 = 1 then product else z) square (n / 2)
termination_by n

/-- The greatest power of five that is not worked out by squaring. -/
def plainPower : Nat := 27

/-- A power of five, unless it is too large. -/
def powerOfFive? (n : Nat) : Option Binary :=
  if n ≤ plainPower then some (.ofInt (Nat.pow 5 n))
  else timesPower (some (.ofInt (Nat.pow 5 plainPower))) (some (.ofInt 5)) (n - plainPower)

/-- The greatest exponent that is read. -/
def exponentLimit : Nat := 9223372036854775807

namespace Numeral

/-- The base in which the digits count. A leading zero makes only whole numbers octal. -/
def base (n : Numeral) : Nat :=
  if n.radix = .zero && !n.isWhole then 10 else n.radix.base

/-- All digits as one whole number. -/
def digits (n : Numeral) : Nat :=
  digitsValue n.base (n.whole ++ n.fraction.getD [])

/-- The number of digits after the point. -/
def places (n : Numeral) : Nat :=
  ((n.fraction.getD []).filter (· ≠ '_')).length

/-- The exponent that is written, if it can be read. -/
def exponentValue? (n : Numeral) : Option Int :=
  match n.exponent with
  | none => some 0
  | some e =>
    let size := digitsValue 10 e.digits
    if e.sign = some '-' then if size ≤ exponentLimit + 1 then some (-size) else none
    else if size ≤ exponentLimit then some size else none

/-- The exponents of two and of five that the digits are to be multiplied by. -/
def scale? (n : Numeral) : Option (Int × Int) :=
  n.exponentValue?.map fun e =>
    if n.base = 10 then (e - n.places, e - n.places) else (e - 4 * n.places, 0)

/-- The number to many binary digits: zero if it is too small, and nothing if it is too large. -/
def approximate? (n : Numeral) : Option Binary := do
  let (twos, fives) ← n.scale?
  let x : Binary := ⟨n.digits, twos⟩
  if x.isZero then return .zero
  else if x.size < -Binary.sizeLimit || x.size ≥ Binary.sizeLimit then none
  else if fives < 0 then
    match powerOfFive? fives.natAbs with
    | some p => (x.quotient precision p).limited? precision
    | none => return .zero
  else
    let p ← powerOfFive? fives.natAbs
    (x.mul p).limited? precision

/-- The exact number. -/
def exactValue? (n : Numeral) : Option Rat :=
  n.scale?.map fun (twos, fives) =>
    (n.digits : Rat) * if fives = 0 then powerOfTwo twos else powerOfTen fives

/-- Whether all digits are below the base. -/
def hasDigitsOfBase (n : Numeral) : Bool :=
  (n.whole ++ n.fraction.getD []).all fun c =>
    c = '_' || (Text.digitValue? c).any (· < n.base)

/-- The number that a numeral stands for, or the factor of the imaginary unit. -/
def value? (n : Numeral) : Option Quantity := do
  if n.isWhole then return .whole n.digits
  else if !n.hasDigitsOfBase then none
  else
    let x ← n.approximate?
    if x.isZero then return .ratio 0
    else if x.size.natAbs < exactLimit then return .ratio (← n.exactValue?)
    else return .rounded x

end Numeral

end EverEqual.Expression
