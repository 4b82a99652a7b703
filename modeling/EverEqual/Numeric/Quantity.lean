import EverEqual.Numeric.Decimal

/-!
# Quantities

The values of real constants. A whole number is exact. A number with a fraction is exact too as long
as its two parts are not too long; beyond that it is a binary number of many digits, and stays one.
Two quantities of different kinds are both taken as the more general one.

* `Quantity`: the three kinds;
* `Quantity.add?`, `Quantity.sub?`, `Quantity.mul?`, `Quantity.div?`, `Quantity.neg`: the
  operations, which have no result that is too large;
* `Quantity.toInt?`: the whole number that a quantity is, apart from errors of rounding;
* `Quantity.round?`: the nearest floating number.
-/

namespace EverEqual.Numeric

/-- A real number. -/
inductive Quantity
  | whole (n : Int)
  | ratio (r : Rat)
  /-- A number that was rounded. -/
  | rounded (x : Binary)
deriving DecidableEq, Repr, Inhabited

/-- The number of digits of a number that is rounded. -/
def precision : Nat := 512

/-- The parts of a fraction have fewer digits than this, and so have whole numbers that are worked
out from rounded ones. -/
def exactLimit : Nat := 4096

/-- Whether a number is not too long for a part of a fraction. -/
def isShort (n : Nat) : Bool := bitLength n < exactLimit

namespace Quantity

/-- A fraction, which is rounded if one of its parts is too long. -/
def ofRat (r : Rat) : Quantity :=
  if isShort r.num.natAbs && isShort r.den then .ratio r else .rounded (.ofRat precision r)

/-- A binary number that is rounded, unless it is too large. -/
def ofBinary? (x : Binary) : Option Quantity :=
  (x.limited? precision).map .rounded

/-- The value of a quantity that was not rounded. -/
def toRat? : Quantity → Option Rat
  | whole n => some n
  | ratio r => some r
  | rounded _ => none

/-- A quantity as a rounded number. -/
def toBinary : Quantity → Binary
  | whole n => (Binary.ofInt n).round .nearest precision
  | ratio r => .ofRat precision r
  | rounded x => x

/-- A whole number as a fraction, if it is not too long; other quantities stay as they are. -/
def toFraction : Quantity → Quantity
  | whole n => if isShort n.natAbs then .ratio n else .rounded (whole n).toBinary
  | q => q

/-- Whether a quantity is a whole number by its kind. -/
def isWhole : Quantity → Bool
  | whole _ => true
  | _ => false

/-- The sign of a quantity. -/
def sign : Quantity → Int
  | whole n => n.sign
  | ratio r => r.num.sign
  | rounded x => x.mantissa.sign

/-- Whether a quantity is zero. -/
def isZero (q : Quantity) : Bool := q.sign = 0

/-- An operation on two quantities, by what it is on each kind. -/
def combine (onWhole : Int → Int → Option Quantity) (onRatio : Rat → Rat → Option Quantity)
    (onBinary : Binary → Binary → Option Quantity) (p q : Quantity) : Option Quantity :=
  match p, q with
  | whole m, whole n => onWhole m n
  | p, q =>
    match p.toRat?, q.toRat? with
    | some r, some s => onRatio r s
    | _, _ => onBinary p.toBinary q.toBinary

/-- The sum of two quantities. -/
def add? : Quantity → Quantity → Option Quantity :=
  combine (fun m n => some (.whole (m + n))) (fun r s => some (ofRat (r + s)))
    fun x y => ofBinary? (x.add y)

/-- The difference of two quantities. -/
def sub? : Quantity → Quantity → Option Quantity :=
  combine (fun m n => some (.whole (m - n))) (fun r s => some (ofRat (r - s)))
    fun x y => ofBinary? (x.add y.neg)

/-- The product of two quantities. -/
def mul? : Quantity → Quantity → Option Quantity :=
  combine (fun m n => some (.whole (m * n))) (fun r s => some (ofRat (r * s)))
    fun x y => ofBinary? (x.mul y)

/-- The quotient of two quantities, unless the second one is zero. -/
def div? (p q : Quantity) : Option Quantity :=
  if q.isZero then none
  else
    combine (fun m n => some (ofRat ((m : Rat) / n))) (fun r s => some (ofRat (r / s)))
      (fun x y => ofBinary? (x.quotient precision y)) p q

/-- The opposite of a quantity. -/
def neg : Quantity → Quantity
  | whole n => .whole (-n)
  | ratio r => ofRat (-r)
  | rounded x => .rounded x.neg

/-- The order of two quantities. -/
def compare (p q : Quantity) : Ordering :=
  match p.toRat?, q.toRat? with
  | some r, some s => if r < s then .lt else if r = s then .eq else .gt
  | _, _ => p.toBinary.compare q.toBinary

/-- The digits that errors of rounding are thought to be in. -/
def doubtfulDigits : Nat := 4

/-- The whole number that a quantity is. A rounded number also is one if it is so without its last
few digits, rounded in one of the two ways. -/
def toInt? : Quantity → Option Int
  | whole n => some n
  | ratio r => if r.den = 1 then some r.num else none
  | rounded x =>
    if x.isZero then some 0
    else if x.size.natAbs ≥ exactLimit then none
    else
      let near (mode : Rounding) := (x.round mode (precision - doubtfulDigits)).toInt?
      x.toInt? <|> near .towardZero <|> near .awayFromZero

/-- The nearest floating number, unless it is too large. -/
def round? (f : Format) : Quantity → Option Rat
  | whole n => f.round? n
  | ratio r => f.round? r
  | rounded x => f.roundBinary? x

/-- A quantity as it is shown. All digits are shown of a number that is whole by its kind. -/
def text : Quantity → String
  | whole n => toString n
  | q => q.toBinary.text

end Quantity

end EverEqual.Numeric
