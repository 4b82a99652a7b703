import EverEqual.Text.Utf8
import EverEqual.Expression.Number

/-!
# Text and character literals

A text stands between double quotes, where a backslash starts an escape, or between back quotes,
where all characters stand for themselves and carriage returns are dropped. A character stands
between single quotes. An escape stands for a character or, by its number, for a single byte; so the
value of a text is a list of bytes.

* `readEscape`: the escape after a backslash;
* `readText`, `readRawText`, `readCharacter`: the literals, after their first quote.

The readers also give the characters that they took, so that nothing of the text is lost.
-/

namespace EverEqual.Expression

/-- What an escape, or a plain character, stands for. -/
inductive Unit8
  /-- A single byte. -/
  | byte (b : Nat)
  | char (c : Char)
deriving DecidableEq, Repr, Inhabited

namespace Unit8

/-- The number of a byte or character. -/
def code : Unit8 → Nat
  | byte b => b
  | char c => c.toNat

/-- The bytes of it in a text. -/
def bytes : Unit8 → List UInt8
  | byte b => [UInt8.ofNat b]
  | char c => String.utf8EncodeChar c

end Unit8

/-- The character with a code point, if there is one. -/
def charOf? (n : Nat) : Option Char :=
  if n < 0xd800 || (0xe000 ≤ n && n < 0x110000) then some (Char.ofNat n) else none

/-- The number that digits in a base make, if there are as many as asked for. -/
def digitsIn? (base width : Nat) (cs : List Char) : Option Nat :=
  let digits := cs.take width
  if digits.length = width && digits.all fun c => (Text.digitValue? c).any (· < base) then
    some (digitsValue base digits)
  else none

/-- An escape by number: so many digits in a base. -/
def numberEscape (base width : Nat) (isByte : Bool) (cs : List Char) : Option (Unit8 × Nat) := do
  let n ← digitsIn? base width cs
  if isByte then if n < 256 then some (.byte n, width) else none
  else return (.char (← charOf? n), width)

/-- The escape after a backslash inside quotes of a given kind, and how many characters it takes. -/
def readEscape (mark : Char) : List Char → Option (Unit8 × Nat)
  | [] => none
  | c :: cs =>
    match c with
    | 'a' => some (.char '\x07', 1)
    | 'b' => some (.char '\x08', 1)
    | 'f' => some (.char '\x0c', 1)
    | 'n' => some (.char '\n', 1)
    | 'r' => some (.char '\r', 1)
    | 't' => some (.char '\t', 1)
    | 'v' => some (.char '\x0b', 1)
    | '\\' => some (.char '\\', 1)
    | 'x' => (numberEscape 16 2 true cs).map fun (u, n) => (u, n + 1)
    | 'u' => (numberEscape 16 4 false cs).map fun (u, n) => (u, n + 1)
    | 'U' => (numberEscape 16 8 false cs).map fun (u, n) => (u, n + 1)
    | _ => if c = mark then some (.char c, 1) else numberEscape 8 3 true (c :: cs)

/-- A literal: what it stands for, and the characters that it took. -/
structure Literal where
  units : List Unit8
  text : List Char
deriving DecidableEq, Repr, Inhabited

/-- The bytes that a literal stands for. -/
def Literal.bytes (l : Literal) : List UInt8 :=
  l.units.flatMap Unit8.bytes

/-- The literal between quotes of a given kind, after the first one, and what follows it. It ends
on its line. -/
def readQuoted (mark : Char) : Nat → List Char → Option (Literal × List Char)
  | 0, _ => none
  | _, [] => none
  | fuel + 1, c :: cs =>
    if c = mark then some (⟨[], [c]⟩, cs)
    else if c = '\n' then none
    else do
      let (u, taken, rest) ← if c = '\\' then do
          let (u, n) ← readEscape mark cs
          pure (u, c :: cs.take n, cs.drop n)
        else pure (.char c, [c], cs)
      let (l, rest) ← readQuoted mark fuel rest
      return (⟨u :: l.units, taken ++ l.text⟩, rest)

/-- A text after its first double quote, and what follows it. -/
def readText (cs : List Char) : Option (Literal × List Char) :=
  readQuoted '"' (cs.length + 1) cs

/-- A text after its first back quote, and what follows it. -/
def readRawText (cs : List Char) : Option (Literal × List Char) :=
  let (raw, rest) := cs.span (· ≠ '\x60')
  match rest with
  | c :: rest => some (⟨(raw.filter (· ≠ '\r')).map .char, raw ++ [c]⟩, rest)
  | [] => none

/-- A character after its first quote, and what follows it. -/
def readCharacter (cs : List Char) : Option (Literal × List Char) := do
  let (l, rest) ← readQuoted '\x27' (cs.length + 1) cs
  if l.units.length = 1 then some (l, rest) else none

end EverEqual.Expression
