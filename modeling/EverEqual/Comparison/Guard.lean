import EverEqual.Descriptor.Basic
import Std.Data.ExtTreeSet

/-!
# The cycle guard

While two types are compared, the guard holds the pairs of identities on the way from the first
question to the current one, so that a question that depends on itself is noticed. It keeps the
pairs twice: as a stack, which says what is left next, and as a set, which answers quickly whether a
pair is among them.

* `Guard.active`, `Guard.push`, `Guard.pop`, `Guard.depth`: the operations;
* `Guard.Sound`: no pair is stacked twice and the set holds exactly the stacked pairs;
* `Guard.pop_push`: leaving a pair undoes entering it.
-/

namespace EverEqual

/-- An ordered pair of identities. -/
structure IdentityPair where
  left : Identity
  right : Identity
deriving DecidableEq, Repr, Inhabited

namespace IdentityPair

/-- Pairs are ordered by their left identity, then by their right one. -/
instance : Ord IdentityPair where
  compare := compareLex (compareOn IdentityPair.left) (compareOn IdentityPair.right)

instance : Std.TransOrd IdentityPair :=
  inferInstanceAs
    (Std.TransCmp (compareLex (compareOn IdentityPair.left) (compareOn IdentityPair.right)))

instance : Std.LawfulEqOrd IdentityPair where
  eq_of_compare {a b} h := by
    have h' : (compare a.left b.left).then (compare a.right b.right) = .eq := h
    rw [Ordering.then_eq_eq] at h'
    cases a
    cases b
    simp_all

end IdentityPair

/-- The pairs being compared. -/
structure Guard where
  /-- The pairs in the order of entering; the last one entered is first. -/
  stack : List IdentityPair := []
  /-- The same pairs as a set. -/
  members : Std.ExtTreeSet IdentityPair := {}

namespace Guard

/-- Whether a pair is being compared. -/
def active (guard : Guard) (p : IdentityPair) : Bool :=
  guard.members.contains p

/-- The guard after entering a pair. -/
def push (guard : Guard) (p : IdentityPair) : Guard :=
  ⟨p :: guard.stack, guard.members.insert p⟩

/-- The guard after leaving the pair that was entered last. -/
def pop (guard : Guard) : Guard :=
  match guard.stack with
  | [] => guard
  | p :: rest => ⟨rest, guard.members.erase p⟩

/-- The number of pairs being compared. -/
def depth (guard : Guard) : Nat := guard.stack.length

/-- No pair is stacked twice, and the set holds exactly the stacked pairs. -/
def Sound (guard : Guard) : Prop :=
  guard.stack.Nodup ∧ ∀ p, p ∈ guard.members ↔ p ∈ guard.stack

theorem sound_empty : Sound {} := by
  refine ⟨List.nodup_nil, fun p => ?_⟩
  simp

theorem active_eq_true_iff {guard : Guard} {p : IdentityPair} :
    guard.active p = true ↔ p ∈ guard.members := by
  simp [active]

/-- Leaving a pair undoes entering it, if the pair was not there before. -/
theorem pop_push {guard : Guard} {p : IdentityPair} (h : guard.active p = false) :
    (guard.push p).pop = guard := by
  obtain ⟨stack, members⟩ := guard
  have hp : p ∉ members := by
    intro hm
    rw [active_eq_true_iff.mpr hm] at h
    cases h
  simp only [push, pop, mk.injEq, true_and]
  refine Std.ExtTreeSet.ext_mem fun q => ?_
  simp only [Std.ExtTreeSet.mem_erase, Std.ExtTreeSet.mem_insert, Std.compare_eq_iff_eq]
  constructor
  · rintro ⟨hne, heq | hq⟩
    · exact absurd (Std.compare_eq_iff_eq.mpr heq) hne
    · exact hq
  · intro hq
    refine ⟨fun heq => hp ?_, Or.inr hq⟩
    rw [Std.compare_eq_iff_eq.mp heq]
    exact hq

/-- Entering a new pair keeps a guard sound. -/
theorem Sound.push {guard : Guard} (hs : guard.Sound) {p : IdentityPair}
    (h : guard.active p = false) : (guard.push p).Sound := by
  have hp : p ∉ guard.members := fun hm => by
    rw [active_eq_true_iff.mpr hm] at h
    cases h
  refine ⟨List.nodup_cons.mpr ⟨fun hm => hp ((hs.2 p).mpr hm), hs.1⟩, fun q => ?_⟩
  simp only [Guard.push, Std.ExtTreeSet.mem_insert, Std.compare_eq_iff_eq, List.mem_cons, hs.2 q]
  constructor
  · rintro (h | h) <;> simp [h]
  · rintro (h | h) <;> simp [h]

end Guard

end EverEqual
