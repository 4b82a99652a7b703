import EverEqual.Numeric.Binary

/-!
# Floating numbers

The values of a floating number type are the binary numbers with so many digits, whose first digit
is not beyond a given place; near zero they have fewer digits. A number is rounded to the nearest of
them, where a half goes to the even one, or is too large.

* `Format`: a kind of floating numbers;
* `Format.round?`: the nearest one to a fraction.
-/

namespace EverEqual.Numeric

/-- A kind of floating numbers. -/
structure Format where
  /-- The number of digits. -/
  digits : Nat
  /-- The place of the first digit in the smallest number with all digits. -/
  least : Int
  /-- All numbers are below two to this power. -/
  limit : Int
deriving DecidableEq, Repr, Inhabited

namespace Format

/-- Numbers of 32 bits. -/
def single : Format := ⟨24, -126, 128⟩

/-- Numbers of 64 bits. -/
def double : Format := ⟨53, -1022, 1024⟩

end Format

/-- The exponent of the greatest power of two that is not greater than a positive fraction. -/
def floorLog2 (r : Rat) : Int :=
  let e : Int := bitLength r.num.natAbs - bitLength r.den
  if powerOfTwo e ≤ r then e else e - 1

namespace Format

variable (f : Format)

/-- The nearest number to a fraction that is not negative. -/
def roundAbs (r : Rat) : Rat :=
  if r = 0 then 0
  else
    let unit := powerOfTwo (max (floorLog2 r) f.least - (f.digits - 1))
    let units := r / unit
    (Rounding.nearest.quotient units.num.natAbs units.den : Nat) * unit

/-- The nearest number to a fraction, unless it is too large. -/
def round? (r : Rat) : Option Rat :=
  let n := f.roundAbs (if r < 0 then -r else r)
  if powerOfTwo f.limit ≤ n then none else some (if r < 0 then -n else n)

/-- How far the sizes of numbers can be from those of all floating numbers before they are not
looked at. -/
def horizon : Int := 2048

/-- The nearest number to a binary number, unless it is too large. -/
def roundBinary? (x : Binary) : Option Rat :=
  if x.isZero || x.size < -horizon then some 0
  else if x.size > horizon then none
  else f.round? x.toRat

end Format

end EverEqual.Numeric
