/-!
# Classes of characters

A class of characters is given by the code points at which membership changes, in increasing order:
the first one is the first member, the next one the first that is no longer a member, and so on.
-/

namespace EverEqual.Text

/-- A class of characters, by the code points at which membership changes. -/
structure CharClass where
  changes : List Nat

/-- Whether a code point is in the class, if the membership just before the list is as given. -/
def memberAfter (code : Nat) : Bool → List Nat → Bool
  | member, [] => member
  | member, c :: cs => if code < c then member else memberAfter code (!member) cs

/-- Whether a character is in a class. -/
def CharClass.contains (k : CharClass) (c : Char) : Bool :=
  memberAfter c.toNat false k.changes

end EverEqual.Text
