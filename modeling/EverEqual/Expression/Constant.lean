import EverEqual.Numeric.Quantity
import EverEqual.Text.Quoted
import EverEqual.Types.Basic

/-!
# Constants

The values of constant expressions: truth values, texts and numbers, real or complex. A complex
number stays one even if its imaginary part is zero. Declared constants come without their values;
they are unknown, and so is what is worked out from them, or what is too large to be worked out.

* `Constant.unary`, `Constant.binary`, `Constant.compare`, `Constant.shift`: the operations;
* `Basic.represent?`: a constant as a value of a type;
* `Constant.render`: a constant as a message shows it;
* `Constant.key?`, `Constant.case?`: what tells a constant from another one.
-/

namespace EverEqual

/-- A whole number type: whether it has negative numbers, and its width in bits. -/
structure Width where
  signed : Bool
  bits : Nat
deriving DecidableEq, Repr, Inhabited

namespace Basic

/-- The width of a whole number type. -/
def width? : Basic → Option Width
  | int | int64 => some ⟨true, 64⟩
  | int8 => some ⟨true, 8⟩
  | int16 => some ⟨true, 16⟩
  | int32 | rune => some ⟨true, 32⟩
  | uint | uint64 | uintptr => some ⟨false, 64⟩
  | uint8 | byte => some ⟨false, 8⟩
  | uint16 => some ⟨false, 16⟩
  | uint32 => some ⟨false, 32⟩
  | _ => none

/-- Whether a type is that of a constant that has not been given one yet. -/
def isUntyped : Basic → Bool
  | untypedBool | untypedInt | untypedRune | untypedFloat | untypedComplex | untypedString
  | untypedNil => true
  | _ => false

/-- The type that a value without a type gets. -/
def default : Basic → Basic
  | untypedBool => bool
  | untypedInt => int
  | untypedRune => rune
  | untypedFloat => float64
  | untypedComplex => complex128
  | untypedString => string
  | b => b

/-- Whether values are complex numbers. -/
def isComplex : Basic → Bool
  | complex64 | complex128 | untypedComplex => true
  | _ => false

/-- The order of the types of numbers without a type; that of a sum is the greater one. -/
def untypedRank : Basic → Nat
  | untypedInt => 1
  | untypedRune => 2
  | untypedFloat => 3
  | untypedComplex => 4
  | _ => 0

end Basic

namespace Expression

open Numeric

/-- The value of a constant expression. -/
inductive Constant
  | unknown
  | bool (b : Bool)
  | text (bytes : List UInt8)
  | real (q : Quantity)
  | complex (re im : Quantity)
deriving DecidableEq, Repr, Inhabited

/-- An operation on the bits of two whole numbers, negative ones as if they had infinitely many bits
set in front. -/
def bitwise (f : Bool → Bool → Bool) (a b : Int) : Int :=
  let size (n : Int) : Nat := (if n < 0 then -n - 1 else n).toNat
  let isNegative := f (a < 0) (b < 0)
  let bits := Nat.bitwise (fun x y => f (x != decide (a < 0)) (y != decide (b < 0)) != isNegative)
    (size a) (size b)
  if isNegative then -(bits : Int) - 1 else bits

namespace Constant

/-- A whole number. -/
def ofInt (n : Int) : Constant := .real (.whole n)

/-- The number that may be too large to be worked out. -/
def ofQuantity? (q : Option Quantity) : Constant :=
  (q.map real).getD unknown

/-- The number with two parts, which may be too large to be worked out. -/
def ofParts? (re im : Option Quantity) : Constant :=
  match re, im with
  | some re, some im => complex re im
  | _, _ => unknown

/-- The real and the imaginary part of a number. -/
def parts? : Constant → Option (Quantity × Quantity)
  | real q => some (q, .whole 0)
  | complex re im => some (re, im)
  | _ => none

/-- The real number that a constant is. -/
def toReal? : Constant → Option Quantity
  | real q => some q
  | complex re im => if im.isZero then some re else none
  | _ => none

/-- The whole number that a constant is. -/
def toInt? (c : Constant) : Option Int :=
  c.toReal?.bind Quantity.toInt?

/-- Whether a constant is the number zero. -/
def isZero (c : Constant) : Bool :=
  c.parts?.any fun (re, im) => re.isZero && im.isZero

/-- Whether the squares of both parts of a number are zero, because they are so small. -/
def vanishes (c : Constant) : Bool :=
  let isSmall (q : Quantity) := (q.mul? q).any Quantity.isZero
  c.parts?.any fun (re, im) => isSmall re && isSmall im

/-- An operator in front of a constant of a type. -/
def unary (op : String) (type : Basic) (c : Constant) : Constant :=
  match op, c with
  | "+", real q => real q
  | "-", real q => real q.neg
  | "+", complex re im => complex re im
  | "-", complex re im => complex re.neg im.neg
  | "!", bool b => bool (!b)
  | "^", c =>
    match c.toInt?, type.width? with
    | some n, some ⟨false, bits⟩ => ofInt (Nat.pow 2 bits - 1 - n)
    | some n, _ => ofInt (-n - 1)
    | none, _ => unknown
  | _, _ => unknown

/-- An operator between two whole numbers. -/
def wholeOperation? (op : String) : Option (Int → Int → Int) :=
  match op with
  | "/" => some Int.tdiv
  | "%" => some Int.tmod
  | "&" => some (bitwise fun x y => x && y)
  | "|" => some (bitwise fun x y => x || y)
  | "^" => some (bitwise fun x y => x != y)
  | "&^" => some (bitwise fun x y => x && !y)
  | _ => none

/-- An operator between two real numbers. -/
def realOperation (op : String) (p q : Quantity) : Constant :=
  match op with
  | "+" => ofQuantity? (p.add? q)
  | "-" => ofQuantity? (p.sub? q)
  | "*" => ofQuantity? (p.mul? q)
  | "/" => ofQuantity? (p.div? q)
  | _ => unknown

/-- The product of two numbers by their parts. -/
def product (a b c d : Quantity) : Constant :=
  ofParts? (do (← a.mul? c).sub? (← b.mul? d)) (do (← b.mul? c).add? (← a.mul? d))

/-- The quotient of two numbers by their parts. -/
def quotient (a b c d : Quantity) : Constant :=
  let size := do (← c.mul? c).add? (← d.mul? d)
  ofParts? (do (← (← a.mul? c).add? (← b.mul? d)).div? (← size))
    (do (← (← b.mul? c).sub? (← a.mul? d)).div? (← size))

/-- An operator between two numbers by their parts. -/
def complexOperation (op : String) (a b c d : Quantity) : Constant :=
  match op with
  | "+" => ofParts? (a.add? c) (b.add? d)
  | "-" => ofParts? (a.sub? c) (b.sub? d)
  | "*" => product a b c d
  | "/" => quotient a b c d
  | _ => unknown

/-- An operator between two constants; the flag says whether they are of a whole number type. -/
def binary (op : String) (isWhole : Bool) (c d : Constant) : Constant :=
  match c, d with
  | bool a, bool b =>
    if op = "&&" then bool (a && b) else if op = "||" then bool (a || b) else unknown
  | text a, text b => if op = "+" then text (a ++ b) else unknown
  | real p, real q =>
    match isWhole, wholeOperation? op, p.toInt?, q.toInt? with
    | true, some operation, some m, some n => ofInt (operation m n)
    | _, _, _, _ => realOperation op p q
  | c, d =>
    match c.parts?, d.parts? with
    | some (a, b), some (c, d) => complexOperation op a b c d
    | _, _ => unknown

/-- Whether a list of bytes comes before another one. -/
def bytesLess : List UInt8 → List UInt8 → Bool
  | _, [] => false
  | [], _ :: _ => true
  | a :: as, b :: bs => a < b || (a = b && bytesLess as bs)

/-- A comparison of two constants, by whether they are the same and whether one is less. -/
def compareBy (op : String) (same less : Bool) : Constant :=
  match op with
  | "==" => bool same
  | "!=" => bool (!same)
  | "<" => bool less
  | "<=" => bool (less || same)
  | ">" => bool (!less && !same)
  | ">=" => bool (!less)
  | _ => unknown

/-- A comparison of two constants. It does not hold if one of them is unknown. -/
def compare (op : String) : Constant → Constant → Constant
  | bool a, bool b => compareBy op (a = b) false
  | text a, text b => compareBy op (a = b) (bytesLess a b)
  | real p, real q => compareBy op (p.compare q = .eq) (p.compare q = .lt)
  | c, d =>
    match c.parts?, d.parts? with
    | some (a, b), some (c, d) => compareBy op (a.compare c = .eq && b.compare d = .eq) false
    | _, _ => bool false

/-- A whole number with its bits moved by a number of places. -/
def shift (op : String) (c : Constant) (places : Nat) : Constant :=
  match c.toInt? with
  | none => unknown
  | some n => ofInt (if op = "<<" then n * Nat.pow 2 places else n.fdiv (Nat.pow 2 places))

/-! ### Texts -/

/-- The most characters of a text that are shown. -/
def shownText : Nat := 72

/-- A text that is cut if it is long. -/
def shortened (s : String) : String :=
  let cs := s.toList
  if cs.length ≤ shownText then s else String.ofList (cs.take (shownText - 3)) ++ "..."

/-- A constant as a message shows it; a complex one with both of its parts. -/
def render : Constant → String
  | unknown => "unknown"
  | bool b => if b then "true" else "false"
  | text bytes => shortened (Text.quoteBytes bytes)
  | real q => q.text
  | complex re im => "(" ++ re.text ++ " + " ++ im.text ++ "i)"

end Constant

end Expression

/-- The most bits of a whole number without a type. -/
def Expression.constantBits : Nat := 512

/-- Whether a number is among those of a whole number type. -/
def Width.holds (w : Width) (n : Int) : Bool :=
  if w.signed then
    let half : Int := Nat.pow 2 (w.bits - 1)
    n < half && -half ≤ n
  else 0 ≤ n && n < Nat.pow 2 w.bits

namespace Basic

open Expression Numeric

/-- The floating numbers of a type, or those that its parts are made of. -/
def format? : Basic → Option Format
  | float32 | complex64 => some .single
  | float64 | complex128 => some .double
  | _ => none

/-- A number as one of a floating type, which may be rounded; it is unchanged if it has no type. -/
def roundReal? (b : Basic) (q : Quantity) : Option Quantity :=
  match b.format? with
  | some f => (q.round? f).map .ratio
  | none => some q

/-- A number as a value of a numeric type. -/
def number? (b : Basic) (c : Constant) : Option Constant :=
  if b.isInteger then do
    let n ← c.toInt?
    if (b.width?.map (·.holds n)).getD true then some (.ofInt n) else none
  else if b.isComplex then do
    let (re, im) ← c.parts?
    if b.isUntyped then some c else some (.complex (← b.roundReal? re) (← b.roundReal? im))
  else if b.isNumeric then do
    let q ← c.toReal?
    if b.isUntyped then some c else some (.real (← b.roundReal? q))
  else none

/-- A constant as a value of a predeclared type, unless the type has none for it. A constant that is
unknown is taken to be a value of any type. -/
def represent? (b : Basic) (c : Constant) : Option Constant :=
  match c with
  | .unknown => some c
  | .bool _ => if b.isBoolean then some c else none
  | .text _ => if b.isString then some c else none
  | .real _ | .complex _ _ => b.number? c

end Basic

namespace Expression.Constant

open Numeric

/-! ### Constants that are the same -/

/-- A whole number that can be told from another one, because it is not too long for any type. -/
def wordKey? (n : Int) : Option Constant :=
  if Width.holds ⟨true, 64⟩ n || Width.holds ⟨false, 64⟩ n then some (ofInt n) else none

/-- A real number as a key: a whole one, or the nearest floating number. -/
def realKey? (q : Quantity) : Option Constant :=
  match q.toInt? with
  | some n => wordKey? n
  | none => (q.round? .double).map (real ∘ .ratio)

/-- What a key of a map is the same as another one by. -/
def key? : Constant → Option Constant
  | real q => realKey? q
  | complex re im =>
    if im.isZero then realKey? re
    else do return complex (.ratio (← re.round? .double)) (.ratio (← im.round? .double))
  | c => some c

/-- What a case of a choice is the same as another one by: whole and floating numbers and texts. -/
def case? : Constant → Option Constant
  | real (.whole n) => wordKey? n
  | real q => do
    let r ← q.round? .double
    if q.compare (.ratio r) = .eq then some (real (.ratio r)) else none
  | text bytes => some (text bytes)
  | _ => none

end Expression.Constant

end EverEqual
