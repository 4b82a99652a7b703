import EverEqual.Numeric.Format

/-!
# Numbers as texts

A number is shown by a few decimal digits: six of them, or the fewest that read back as the same
floating number. It is positional if it is neither small nor large, and has an exponent otherwise. A
number beyond the range of floating numbers is shown approximately.

* `Decimal`: digits with the place of the first one;
* `Decimal.ofRat`: a number to so many digits;
* `Decimal.shortest`: the fewest digits that read back;
* `Decimal.text`: positional or with an exponent;
* `Binary.text`: a binary number as it is shown.
-/

namespace EverEqual.Numeric

/-- A power of ten as a fraction. -/
def powerOfTen (e : Int) : Rat :=
  if 0 ≤ e then (Nat.pow 10 e.toNat : Rat) else mkRat 1 (Nat.pow 10 (-e).toNat)

/-- The exponent of the greatest power of ten that is not greater than a positive fraction. -/
def floorLog10 (r : Rat) : Int :=
  let e := (floorLog2 r * 30103).fdiv 100000
  if powerOfTen (e + 1) ≤ r then e + 1 else if powerOfTen e ≤ r then e else e - 1

/-- Decimal digits of a positive number, and the exponent of the first one. -/
structure Decimal where
  digits : Nat
  exponent : Int
deriving DecidableEq, Repr, Inhabited

/-- A list of digits without the zeros at its end. -/
def trimZeros (cs : List Char) : List Char :=
  (cs.reverse.dropWhile (· = '0')).reverse

namespace Decimal

/-- A positive number to so many digits, where a half goes to the even neighbour. -/
def ofRat (count : Nat) (r : Rat) : Decimal :=
  let e := floorLog10 r
  let units := r / powerOfTen (e + 1 - count)
  let n := Rounding.nearest.quotient units.num.natAbs units.den
  if n = Nat.pow 10 count then ⟨Nat.pow 10 (count - 1), e + 1⟩ else ⟨n, e⟩

/-- The nearest number of so many digits that reads back as a floating number, if there is one. -/
def readsBack? (r : Rat) (count : Nat) : Option Decimal :=
  let e := floorLog10 r
  let unit := powerOfTen (e + 1 - count)
  let units := r / unit
  let below := Rounding.towardZero.quotient units.num.natAbs units.den
  let near := Rounding.nearest.quotient units.num.natAbs units.den
  let reads (n : Nat) : Bool := Format.double.round? (n * unit) = some r
  let far := if near = below then below + 1 else below
  let found := if reads near then some near else if reads far then some far else none
  found.map fun n => if n = Nat.pow 10 count then ⟨Nat.pow 10 (count - 1), e + 1⟩ else ⟨n, e⟩

/-- The most digits that a floating number needs. -/
def mostDigits : Nat := 17

/-- The fewest digits of a positive floating number that read back. -/
def shortest (r : Rat) : Decimal :=
  (((List.range mostDigits).map (· + 1)).findSome? (readsBack? r)).getD (ofRat mostDigits r)

/-- The number of digits that are shown of a number. -/
def shownDigits : Nat := 6

/-- The text of a number: positional if it is neither small nor large. -/
def text (d : Decimal) : String :=
  let digits := trimZeros (toString d.digits).toList
  let point (before after : List Char) :=
    String.ofList (if after.isEmpty then before else before ++ '.' :: after)
  if -4 ≤ d.exponent && d.exponent < shownDigits then
    if d.exponent < 0 then
      point ['0'] (List.replicate (-d.exponent - 1).toNat '0' ++ digits)
    else
      let whole := d.exponent.toNat + 1
      point (digits.take whole ++ List.replicate (whole - digits.length) '0') (digits.drop whole)
  else
    let size := toString d.exponent.natAbs
    point (digits.take 1) (digits.drop 1) ++ (if d.exponent < 0 then "e-" else "e+") ++
      (if size.length < 2 then "0" ++ size else size)

end Decimal

/-- A floating number other than zero. If it is not whole, but six digits do not show that, it gets
all the digits it needs. -/
def floatText (isWhole : Bool) (r : Rat) : String :=
  let positive := if r < 0 then -r else r
  let short := (Decimal.ofRat Decimal.shownDigits positive).text
  let text :=
    if !isWhole && !short.toList.contains '.' then (Decimal.shortest positive).text else short
  if r < 0 then "-" ++ text else text

/-- The decimal logarithm of two. -/
def logTwo : Float := 0.30102999566398119521373889472449302676818988146210854131

/-- A positive floating number as a fraction. -/
def ofFloat (x : Float) : Rat :=
  let (m, e) := x.frExp
  (m.scaleB 53).toUInt64.toNat * powerOfTwo (e - 53)

/-- A number beyond the range of floating numbers, approximately: a number between one and ten, and
the exponent of ten. -/
def farText (x : Binary) : String :=
  let digits := x.mantissa.natAbs
  let m := Format.double.roundAbs (mkRat digits (Nat.pow 2 (bitLength digits)))
  let place := Float.ofInt x.size * logTwo
  let e := place.toInt64.toInt
  let m := Float.ofNat m.num.natAbs / Float.ofNat m.den * (10.0 : Float) ^ (place - Float.ofInt e)
  let (m, e) :=
    if m < 1 - 0.5e-6 then (m * 10, e - 1) else if m ≥ 10 then (m / 10, e + 1) else (m, e)
  (if x.mantissa < 0 then "-" else "") ++
    (Decimal.ofRat Decimal.shownDigits (ofFloat m)).text ++
    (if e < 0 then "e-" else "e+") ++ toString e.natAbs

/-- A binary number as it is shown. -/
def Binary.text (x : Binary) : String :=
  if x.isZero then "0"
  else
    match Format.double.roundBinary? x with
    | none => farText x
    | some r => if r = 0 then farText x else floatText (0 ≤ x.exponent || x.toInt?.isSome) r

end EverEqual.Numeric
