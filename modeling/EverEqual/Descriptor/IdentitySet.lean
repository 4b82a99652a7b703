/-!
# Ordered sets and maps of identities

An identity is the text by which a type is known. The sets of identities that a descriptor keeps
are lists in increasing order without repetition, and its maps are lists of entries in increasing
order of their keys. Text is ordered by its characters, which is also the order of its UTF-8 bytes.

* `IdentitySet.insert`, `IdentityMap.insert`: adding an element, or an entry that replaces an
  earlier one of the same key;
* `mem_insert`, `find?_insert`: what is in the result.
-/

namespace EverEqual

/-- The text by which a type is known. -/
abbrev Identity := String

/-- A set of identities, kept in increasing order. -/
abbrev IdentitySet := List Identity

namespace IdentitySet

/-- The set with one identity added. -/
def insert (id : Identity) : IdentitySet → IdentitySet
  | [] => [id]
  | x :: xs => if id = x then x :: xs else if id < x then id :: x :: xs else x :: insert id xs

@[simp] theorem mem_insert {a id : Identity} {s : IdentitySet} :
    a ∈ insert id s ↔ a = id ∨ a ∈ s := by
  induction s with
  | nil => simp [insert]
  | cons x xs ih =>
    unfold insert
    split
    · next h => subst h; simp
    · split
      · simp
      · simp only [List.mem_cons, ih]
        constructor
        · rintro (h | h | h) <;> simp [h]
        · rintro (h | h | h) <;> simp [h]

/-- The set with every identity of a list added. -/
def insertAll (ids : List Identity) (s : IdentitySet) : IdentitySet :=
  ids.foldl (fun s id => insert id s) s

@[simp] theorem mem_insertAll {a : Identity} {ids : List Identity} {s : IdentitySet} :
    a ∈ insertAll ids s ↔ a ∈ ids ∨ a ∈ s := by
  induction ids generalizing s with
  | nil => simp [insertAll]
  | cons id ids ih =>
    have h := ih (s := insert id s)
    simp only [insertAll, List.foldl_cons, List.mem_cons] at h ⊢
    rw [h, mem_insert]
    constructor
    · rintro (h | h | h) <;> simp [h]
    · rintro ((h | h) | h) <;> simp [h]

end IdentitySet

/-- A map from identities, kept as entries in increasing order of the keys. -/
abbrev IdentityMap (α : Type) := List (Identity × α)

namespace IdentityMap

variable {α : Type}

/-- The map with one entry added; it replaces an entry of the same key. -/
def insert (id : Identity) (a : α) : IdentityMap α → IdentityMap α
  | [] => [(id, a)]
  | (x, b) :: xs =>
    if id = x then (id, a) :: xs else if id < x then (id, a) :: (x, b) :: xs
    else (x, b) :: insert id a xs

/-- The value of a key. -/
def find? : IdentityMap α → Identity → Option α
  | [], _ => none
  | (x, a) :: xs, id => if id = x then some a else find? xs id

theorem find?_insert (m : IdentityMap α) (id key : Identity) (a : α) :
    (m.insert id a).find? key = if key = id then some a else m.find? key := by
  induction m with
  | nil => simp [insert, find?]
  | cons x xs ih =>
    obtain ⟨x, b⟩ := x
    unfold insert
    split
    · next h =>
      subst h
      by_cases h : key = id <;> simp [find?, h]
    · split
      · by_cases h : key = id <;> simp [find?, h]
      · next hne _ =>
        by_cases hk : key = x
        · subst hk
          simp [find?, Ne.symm hne]
        · simp [find?, hk, ih]

end IdentityMap

end EverEqual
