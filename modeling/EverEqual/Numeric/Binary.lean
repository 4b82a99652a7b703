/-!
# Binary numbers

A binary number is a whole number times a power of two. Numbers that have to be kept short are
rounded to so many binary digits: to the nearest such number, where a half goes to the even one, or
toward or away from zero. A number whose size is beyond all bounds is none, and one that is too
close to zero is zero.

* `Rounding.quotient`: the quotient of two numbers as a whole number;
* `Binary`: the numbers, with `Binary.size`, the place of the first digit;
* `Binary.round`: a number with so many digits;
* `Binary.add`, `Binary.mul`, `Binary.quotient`, `Binary.compare`: the operations.
-/

namespace EverEqual.Numeric

/-- Which neighbour a number between two whole numbers goes to. -/
inductive Rounding
  /-- The nearer one; a half goes to the even one. -/
  | nearest
  | towardZero
  | awayFromZero
deriving DecidableEq, Repr, Inhabited

/-- The quotient of two numbers as a whole number. -/
def Rounding.quotient (mode : Rounding) (n d : Nat) : Nat :=
  let q := n / d
  let r := n % d
  match mode with
  | nearest => if 2 * r > d || (2 * r = d && q % 2 = 1) then q + 1 else q
  | towardZero => q
  | awayFromZero => if r = 0 then q else q + 1

/-- The number of binary digits of a number. -/
def bitLength (n : Nat) : Nat :=
  if n = 0 then 0 else n.log2 + 1

/-- A power of two as a fraction. -/
def powerOfTwo (e : Int) : Rat :=
  if 0 ≤ e then (Nat.pow 2 e.toNat : Rat) else mkRat 1 (Nat.pow 2 (-e).toNat)

/-- The number `mantissa * 2 ^ exponent`. -/
structure Binary where
  mantissa : Int
  exponent : Int
deriving DecidableEq, Repr, Inhabited

namespace Binary

/-- The number zero. -/
def zero : Binary := ⟨0, 0⟩

/-- A whole number. -/
def ofInt (n : Int) : Binary := ⟨n, 0⟩

/-- Whether a number is zero. -/
def isZero (x : Binary) : Bool := x.mantissa = 0

/-- The place of the first digit: a number other than zero is less than two to the power of its
size, and at least half of that. -/
def size (x : Binary) : Int :=
  bitLength x.mantissa.natAbs + x.exponent

/-- The value of a number as a fraction. -/
def toRat (x : Binary) : Rat :=
  (x.mantissa : Rat) * powerOfTwo x.exponent

/-- A number with at most so many digits. -/
def round (mode : Rounding) (digits : Nat) (x : Binary) : Binary :=
  let extra := bitLength x.mantissa.natAbs - digits
  if extra = 0 then x
  else
    ⟨x.mantissa.sign * mode.quotient x.mantissa.natAbs (Nat.pow 2 extra), x.exponent + extra⟩

/-- The greatest size of a number. -/
def sizeLimit : Int := 2147483648

/-- A number of which the size is within bounds: none if it is too large, and zero if it is too
small. -/
def bounded? (x : Binary) : Option Binary :=
  if x.isZero || x.size < -sizeLimit then some zero
  else if x.size < sizeLimit then some x
  else none

/-- The nearest number with at most so many digits, if it is within bounds. -/
def limited? (digits : Nat) (x : Binary) : Option Binary := do
  let y ← x.bounded?
  (y.round .nearest digits).bounded?

/-- The opposite of a number. -/
def neg (x : Binary) : Binary := ⟨-x.mantissa, x.exponent⟩

/-- How much smaller than another number a number can be before its digits do not count. -/
def reach : Int := 4096

/-- A number that is to be added to another one. If it is too small for its digits to count, a digit
below all digits of the other one stands for it. -/
def beside (x y : Binary) : Binary :=
  if y.isZero || x.isZero || x.size - reach ≤ y.size then y
  else ⟨y.mantissa.sign, x.size - reach⟩

/-- The mantissa of a number if its exponent were a given one, which is not greater. -/
def mantissaAt (exponent : Int) (x : Binary) : Int :=
  x.mantissa * Nat.pow 2 (x.exponent - exponent).toNat

/-- The sum of two numbers, as far as digits count. -/
def add (x y : Binary) : Binary :=
  let a := beside y x
  let b := beside x y
  let e := min a.exponent b.exponent
  ⟨a.mantissaAt e + b.mantissaAt e, e⟩

/-- The product of two numbers. -/
def mul (x y : Binary) : Binary :=
  ⟨x.mantissa * y.mantissa, x.exponent + y.exponent⟩

/-- The quotient of two numbers to more than so many digits; the last digit tells whether something
is left. -/
def quotient (digits : Nat) (x y : Binary) : Binary :=
  let n := x.mantissa.natAbs
  let d := y.mantissa.natAbs
  let shift := digits + 2 + bitLength d - bitLength n
  let q := n * Nat.pow 2 shift / d
  let left := if n * Nat.pow 2 shift % d = 0 then 0 else 1
  ⟨x.mantissa.sign * y.mantissa.sign * (2 * q + left : Nat), x.exponent - y.exponent - shift - 1⟩

/-- The order of two numbers. -/
def compare (x y : Binary) : Ordering :=
  let difference := x.add y.neg
  Ord.compare difference.mantissa 0

/-- The whole number that a number is, if it is one. -/
def toInt? (x : Binary) : Option Int :=
  if 0 ≤ x.exponent then some (x.mantissaAt 0)
  else
    let unit : Int := Nat.pow 2 (-x.exponent).toNat
    if x.mantissa % unit = 0 then some (x.mantissa / unit) else none

/-- A fraction with at most so many digits. -/
def ofRat (digits : Nat) (r : Rat) : Binary :=
  if r.den = 1 then (ofInt r.num).round .nearest digits
  else (quotient digits (ofInt r.num) (ofInt r.den)).round .nearest digits

end Binary

end EverEqual.Numeric
