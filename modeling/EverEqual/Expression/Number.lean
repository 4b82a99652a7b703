import EverEqual.Text.Integer

/-!
# Number literals

A number is written with digits of a base, perhaps a fraction, an exponent and the mark of an
imaginary number. The base is ten unless a prefix says otherwise; a leading zero alone makes a whole
number octal. Digits may be grouped by single underscores, each between two digits or after the
prefix.

* `Numeral.read`: the numeral at the start of a text;
* `Numeral.isWellFormed`: whether its parts fit together;
* `digitsValue`: the number that digits make.
-/

namespace EverEqual.Expression

/-- How the base of a number is announced. -/
inductive Radix
  | decimal
  /-- A leading zero. -/
  | zero
  | hexadecimal
  | octal
  | binary
deriving DecidableEq, Repr, Inhabited

namespace Radix

/-- The base of whole numbers. -/
def base : Radix → Nat
  | decimal => 10
  | zero | octal => 8
  | hexadecimal => 16
  | binary => 2

/-- The announcement at the start of a number, and what follows it. -/
def read : List Char → Radix × List Char
  | '0' :: c :: cs =>
    if c = 'x' || c = 'X' then (hexadecimal, cs)
    else if c = 'o' || c = 'O' then (octal, cs)
    else if c = 'b' || c = 'B' then (binary, cs)
    else (zero, c :: cs)
  | ['0'] => (zero, [])
  | cs => (decimal, cs)

end Radix

/-- Whether a character is a digit from zero to nine. -/
def isDecimal (c : Char) : Bool := '0' ≤ c && c ≤ '9'

/-- Whether a character is a hexadecimal digit. -/
def isHexadecimal (c : Char) : Bool :=
  isDecimal c || ('a' ≤ c && c ≤ 'f') || ('A' ≤ c && c ≤ 'F')

/-- The exponent of a number: the letter, the sign if there is one, and the digits. -/
structure Exponent where
  letter : Char
  sign : Option Char
  digits : List Char
deriving DecidableEq, Repr, Inhabited

/-- A number as it is written. -/
structure Numeral where
  /-- The characters of it. -/
  text : List Char
  radix : Radix
  /-- The digits and underscores before the point. -/
  whole : List Char
  /-- The digits and underscores after the point, if there is one. -/
  fraction : Option (List Char)
  exponent : Option Exponent
  isImaginary : Bool
deriving DecidableEq, Repr, Inhabited

/-- The digits and underscores at the start of a text, and what follows them. -/
def spanDigits (radix : Radix) (cs : List Char) : List Char × List Char :=
  cs.span fun c => c = '_' || if radix = .hexadecimal then isHexadecimal c else isDecimal c

/-- The exponent at the start of a text, and what follows it. -/
def readExponent : List Char → Option Exponent × List Char
  | c :: cs =>
    if ['e', 'E', 'p', 'P'].contains c then
      let (sign, cs) := match cs with
        | '+' :: cs => (some '+', cs)
        | '-' :: cs => (some '-', cs)
        | cs => (none, cs)
      let (digits, cs) := spanDigits .decimal cs
      (some ⟨c, sign, digits⟩, cs)
    else (none, c :: cs)
  | [] => (none, [])

/-- Whether underscores stand between digits. The first argument says whether letters are digits,
the second what came before: an underscore, a digit or neither. -/
def separatesDigits (letters : Bool) : Option Bool → List Char → Bool
  | before, [] => before ≠ some false
  | before, '_' :: cs => before = some true && separatesDigits letters (some false) cs
  | before, c :: cs =>
    if isDecimal c || (letters && isHexadecimal c) then separatesDigits letters (some true) cs
    else before ≠ some false && separatesDigits letters none cs

namespace Numeral

/-- The numeral at the start of a text, and what follows it. -/
def read (cs : List Char) : Numeral × List Char :=
  let (radix, rest) := Radix.read cs
  let (whole, rest) := spanDigits radix rest
  let (fraction, rest) := match rest with
    | '.' :: rest =>
      let (digits, rest) := spanDigits radix rest
      (some digits, rest)
    | rest => (none, rest)
  let (exponent, rest) := readExponent rest
  let (isImaginary, rest) := match rest with
    | 'i' :: rest => (true, rest)
    | rest => (false, rest)
  let text := cs.take (cs.length - rest.length)
  (⟨text, radix, whole, fraction, exponent, isImaginary⟩, rest)

/-- Whether a numeral is that of a whole number. -/
def isWhole (n : Numeral) : Bool :=
  n.fraction.isNone && n.exponent.isNone && !n.isImaginary

/-- Whether a list of digits and underscores has a digit. -/
def hasDigit (cs : List Char) : Bool := cs.any (· ≠ '_')

/-- Whether the exponent fits the base and has digits. A fraction in base sixteen needs one. -/
def exponentFits (n : Numeral) : Bool :=
  match n.exponent with
  | none => !(n.radix = .hexadecimal && n.fraction.isSome)
  | some e =>
    hasDigit e.digits &&
      if e.letter = 'p' || e.letter = 'P' then n.radix = .hexadecimal
      else n.radix = .decimal || n.radix = .zero

/-- Whether all digits of a whole number are below its base. -/
def digitsFit (n : Numeral) : Bool :=
  !n.isWhole || n.whole.all fun c => c = '_' || (Text.digitValue? c).any (· < n.radix.base)

/-- Whether underscores stand between digits; a prefix counts as a digit. -/
def isGroupedWell (n : Numeral) : Bool :=
  let announced := n.radix ≠ .decimal && n.radix ≠ .zero
  separatesDigits (n.radix = .hexadecimal) (if announced then some true else none)
    (if announced then n.text.drop 2 else n.text)

/-- Whether the parts of a numeral fit together. -/
def isWellFormed (n : Numeral) : Bool :=
  (n.radix = .zero || hasDigit (n.whole ++ n.fraction.getD [])) &&
    !(n.fraction.isSome && (n.radix = .octal || n.radix = .binary)) &&
    n.exponentFits && n.digitsFit && n.isGroupedWell

end Numeral

/-- The number that digits in a base make; underscores are skipped. -/
def digitsValue (base : Nat) (cs : List Char) : Nat :=
  cs.foldl (fun n c => if c = '_' then n else n * base + (Text.digitValue? c).getD 0) 0

end EverEqual.Expression
