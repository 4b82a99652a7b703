/-!
# Matching by name

Two lists of named things are matched by their names. Every entry on the left whose name occurs on
the right is paired with the last entry there of that name, and the pairs are put in the order of
the names; entries of one name stay in the order they had.

* `pairsByName`: the pairs in the order of the left list;
* `matchByName`: the pairs in the order of their names.
-/

namespace EverEqual

variable {α : Type}

/-- The last entry of a list with a given name. -/
def lastNamed? (name : α → String) (xs : List α) (s : String) : Option α :=
  xs.reverse.find? fun x => name x = s

/-- The entries on the left paired with those of the same name on the right. -/
def pairsByName (name : α → String) (left right : List α) : List (α × α) :=
  left.filterMap fun l => (lastNamed? name right (name l)).map fun r => (l, r)

/-- The pairs in the order of their names. -/
def matchByName (name : α → String) (left right : List α) : List (α × α) :=
  (pairsByName name left right).mergeSort fun a b => name a.1 ≤ name b.1

end EverEqual
