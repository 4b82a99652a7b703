/-!
# White space

The characters of the Unicode property White_Space, and cutting them off both ends of a text.

* `isBlank`: the property;
* `trim`: the text between the first and the last character that is not white space.
-/

namespace EverEqual.Text

/-- Whether a character is white space. -/
def isBlank (c : Char) : Bool :=
  let n := c.toNat
  (9 ≤ n && n ≤ 13) || n = 0x20 || n = 0x85 || n = 0xa0 || n = 0x1680 ||
    (0x2000 ≤ n && n ≤ 0x200a) || n = 0x2028 || n = 0x2029 || n = 0x202f || n = 0x205f || n = 0x3000

/-- The characters from the first that is not white space to the last. -/
def trimList (cs : List Char) : List Char :=
  ((cs.dropWhile isBlank).reverse.dropWhile isBlank).reverse

/-- A text without white space at its ends. -/
def trim (s : String) : String :=
  String.ofList (trimList s.toList)

end EverEqual.Text
