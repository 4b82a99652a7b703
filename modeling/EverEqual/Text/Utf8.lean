/-!
# Bytes and characters

A text is stored as bytes, up to four of them for a character. Bytes that come from elsewhere need
not be those of a text: a byte that starts no character is stray.

* `bytesOf`: the bytes of a text;
* `charAt?`: the character that starts at a byte, if one does;
* `pieces`: the characters and stray bytes of a list of bytes.
-/

namespace EverEqual.Text

/-- The bytes of a text. -/
def bytesOf (s : String) : List UInt8 :=
  s.toUTF8.toList

/-- What a list of bytes is made of. -/
inductive Piece
  | char (c : Char)
  /-- A byte that starts no character. -/
  | stray (b : UInt8)
deriving DecidableEq, Repr, Inhabited

/-- The last six bits of a byte that goes on with a character; such a byte is in the upper half,
below its last quarter. -/
def continuation? (b : UInt8) : Option Nat :=
  if 0x80 ≤ b && b ≤ 0xbf then some (b.toNat - 0x80) else none

/-- The least code point that needs a number of continuation bytes. -/
def leastWith : Nat → Nat
  | 0 => 0
  | 1 => 0x80
  | 2 => 0x800
  | _ => 0x10000

/-- The number of continuation bytes that a first byte asks for, and the bits that it brings. -/
def lead? (b : UInt8) : Option (Nat × Nat) :=
  if b < 0x80 then some (0, b.toNat)
  else if b < 0xc0 then none
  else if b < 0xe0 then some (1, b.toNat - 0xc0)
  else if b < 0xf0 then some (2, b.toNat - 0xe0)
  else if b < 0xf8 then some (3, b.toNat - 0xf0)
  else none

/-- The code point that bits and a number of continuation bytes make. -/
def extend? : Nat → Nat → List UInt8 → Option Nat
  | 0, code, _ => some code
  | _ + 1, _, [] => none
  | k + 1, code, b :: bs => do extend? k (code * 64 + (← continuation? b)) bs

/-- The character that starts at a byte, and how many bytes after it belong to it. A character is
written with as few bytes as possible. -/
def charAt? (b : UInt8) (rest : List UInt8) : Option (Char × Nat) := do
  let (extra, bits) ← lead? b
  let code ← extend? extra bits rest
  if leastWith extra ≤ code && (code < 0xd800 || (0xe000 ≤ code && code < 0x110000)) then
    some (Char.ofNat code, extra)
  else none

/-- The pieces of a list of bytes, after skipping some bytes. -/
def piecesAfter : Nat → List UInt8 → List Piece
  | _, [] => []
  | skip + 1, _ :: bs => piecesAfter skip bs
  | 0, b :: bs =>
    match charAt? b bs with
    | some (c, extra) => .char c :: piecesAfter extra bs
    | none => .stray b :: piecesAfter 0 bs

/-- The characters and stray bytes of a list of bytes. -/
def pieces (bs : List UInt8) : List Piece :=
  piecesAfter 0 bs

end EverEqual.Text
