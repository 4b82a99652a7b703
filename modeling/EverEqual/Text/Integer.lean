/-!
# Whole numbers

Reading a whole number of 64 bits with a sign. The base is ten unless the digits start with `0x`,
`0b`, `0o` or `0`; digits may be grouped by single underscores that stand between digits or after
the base.

* `readDigits`: the digits in a base, from the left; a number that no longer fits ends the reading;
* `groupsWell`: where underscores may stand;
* `readInt`: the number, or why there is none.
-/

namespace EverEqual.Text

/-- Why a text is no number. -/
inductive IntegerError
  | malformed
  | outOfRange
deriving DecidableEq, Repr, Inhabited

/-- The text of an integer error. -/
def IntegerError.message : IntegerError → String
  | malformed => "invalid syntax"
  | outOfRange => "value out of range"

/-- The value of a digit or letter. -/
def digitValue? (c : Char) : Option Nat :=
  if '0' ≤ c && c ≤ '9' then some (c.toNat - '0'.toNat)
  else if 'a' ≤ c && c ≤ 'z' then some (c.toNat - 'a'.toNat + 10)
  else if 'A' ≤ c && c ≤ 'Z' then some (c.toNat - 'A'.toNat + 10)
  else none

/-- The first number that does not fit into 64 bits. -/
def wordBound : Nat := 0x10000000000000000

/-- The first number that does not fit into 64 bits beside a sign. -/
def signedBound : Nat := 0x8000000000000000

/-- The number that digits in a base add to a number read so far. Underscores are skipped. -/
def readDigits (base : Nat) : Nat → List Char → Except IntegerError Nat
  | n, [] => .ok n
  | n, '_' :: cs => readDigits base n cs
  | n, c :: cs =>
    match digitValue? c with
    | none => .error .malformed
    | some d =>
      if d ≥ base then .error .malformed
      else if n * base + d ≥ wordBound then .error .outOfRange
      else readDigits base (n * base + d) cs

/-- The base of a number and its digits. -/
def splitBase : List Char → Nat × List Char
  | '0' :: c :: d :: cs =>
    if c = 'b' || c = 'B' then (2, d :: cs)
    else if c = 'o' || c = 'O' then (8, d :: cs)
    else if c = 'x' || c = 'X' then (16, d :: cs)
    else (8, c :: d :: cs)
  | '0' :: cs => (8, cs)
  | cs => (10, cs)

/-- Whether underscores stand well: after a digit and before a digit. The flag says whether a digit,
or the base, came just before. -/
def groupsWell (isDigit : Char → Bool) : Bool → List Char → Bool
  | _, [] => true
  | _, ['_'] => false
  | before, '_' :: c :: cs => before && isDigit c && groupsWell isDigit true cs
  | _, c :: cs => groupsWell isDigit (isDigit c) cs

/-- Whether the underscores of a number without sign stand well. -/
def underscoresStandWell (cs : List Char) : Bool :=
  let decimal (c : Char) := '0' ≤ c && c ≤ '9'
  let hexadecimal (c : Char) := decimal c || ('a' ≤ c && c ≤ 'f') || ('A' ≤ c && c ≤ 'F')
  match cs with
  | '0' :: c :: rest =>
    if c = 'x' || c = 'X' then groupsWell hexadecimal true rest
    else if c = 'b' || c = 'B' || c = 'o' || c = 'O' then groupsWell decimal true rest
    else groupsWell decimal false cs
  | _ => groupsWell decimal false cs

/-- The number without sign that a text stands for. -/
def readNat (cs : List Char) : Except IntegerError Nat :=
  match cs with
  | [] => .error .malformed
  | _ => do
    let (base, digits) := splitBase cs
    let n ← readDigits base 0 digits
    if cs.contains '_' && !underscoresStandWell cs then .error .malformed else .ok n

/-- The number of 64 bits that a text stands for. -/
def readInt (s : String) : Except IntegerError Int :=
  let (negative, cs) := match s.toList with
    | '-' :: cs => (true, cs)
    | '+' :: cs => (false, cs)
    | cs => (false, cs)
  do
    let n ← readNat cs
    if negative then
      if n > signedBound then .error .outOfRange else .ok (-(n : Int))
    else if n ≥ signedBound then .error .outOfRange
    else .ok n

end EverEqual.Text
