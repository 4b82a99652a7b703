import EverEqual.Text.Graphic
import EverEqual.Text.Utf8

/-!
# Quoted text

A text between double quotes. What can be printed stands for itself, except the quote and the
backslash; the rest is written as a short escape or by its code point in hexadecimal.

* `escape`: the form of one character;
* `quote`, `quoteChar`: the form of a text, and of a character between single quotes;
* `quoteBytes`: the form of bytes that need not be a text.
-/

namespace EverEqual.Text

/-- A hexadecimal digit in lower case. -/
def hexDigit (n : Nat) : Char :=
  Char.ofNat (if n < 10 then '0'.toNat + n else 'a'.toNat + (n - 10))

/-- The last digits of a number in hexadecimal, as many as asked for. -/
def hexDigits : Nat → Nat → List Char
  | 0, _ => []
  | width + 1, n => hexDigits width (n / 16) ++ [hexDigit (n % 16)]

/-- The form of one character inside quotes of a given kind. -/
def escape (mark c : Char) : List Char :=
  let n := c.toNat
  if c = mark || c = '\\' then ['\\', c]
  else if isPrintable c then [c]
  else if n = 7 then ['\\', 'a']
  else if n = 8 then ['\\', 'b']
  else if n = 12 then ['\\', 'f']
  else if n = 10 then ['\\', 'n']
  else if n = 13 then ['\\', 'r']
  else if n = 9 then ['\\', 't']
  else if n = 11 then ['\\', 'v']
  else if n < 32 || n = 127 then ['\\', 'x'] ++ hexDigits 2 n
  else if n < 0x10000 then ['\\', 'u'] ++ hexDigits 4 n
  else ['\\', 'U'] ++ hexDigits 8 n

/-- A text between double quotes. -/
def quote (s : String) : String :=
  String.ofList (['"'] ++ s.toList.flatMap (escape '"') ++ ['"'])

/-- The form of a character or stray byte inside double quotes. -/
def escapePiece : Piece → List Char
  | .char c => escape '"' c
  | .stray b => ['\\', 'x'] ++ hexDigits 2 b.toNat

/-- Bytes between double quotes. -/
def quoteBytes (bs : List UInt8) : String :=
  String.ofList (['"'] ++ (pieces bs).flatMap escapePiece ++ ['"'])

/-- A character between single quotes. -/
def quoteChar (c : Char) : String :=
  String.ofList (['\x27'] ++ escape '\x27' c ++ ['\x27'])

end EverEqual.Text
