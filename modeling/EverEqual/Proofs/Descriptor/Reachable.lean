import EverEqual.Descriptor.Attribute
import Mathlib.Data.Set.Card
import Mathlib.Data.Set.Finite.Lattice
import Mathlib.Logic.Relation

/-!
# What can be reached from a descriptor

A descriptor refers to the descriptors of its parts. Following references from one descriptor
reaches finitely many others, so there are finitely many identities among them, however the
references run in circles.

A descriptor is *finished* if it has been completed and passed the test that comes with it: a
nullable wraps something. This is what the rules rely on when they follow references.

* `Graph.Reach`, `Graph.identitiesFrom`: what is reached, and the identities that are met;
* `Graph.ncard_identitiesFrom_le`: there are no more of them than descriptors, and one;
* `Graph.mem_of_reach`: a list closed under references holds all that can be reached from it;
* `Graph.FinishedFrom`: all that can be reached is finished;
* `Node.finished_of_fill`: filling in a descriptor without a defect finishes it.
-/

namespace EverEqual

namespace Node

/-- The descriptor has been completed and passed the test that comes with it. -/
structure Finished (n : Node) : Prop where
  completed : n.completed = true
  sound : n.unsound = none

instance (n : Node) : Decidable n.Finished :=
  decidable_of_iff (n.completed = true ∧ n.unsound = none)
    ⟨fun h => ⟨h.1, h.2⟩, fun h => ⟨h.completed, h.sound⟩⟩

theorem unsound_eq_none_iff {n : Node} :
    n.unsound = none ↔ (n.kind = .nullable → n.underlying.isSome = true) := by
  unfold unsound
  cases n.underlying with
  | none => simp
  | some r => simp

theorem Finished.exists_underlying {n : Node} (h : n.Finished) (hk : n.kind = .nullable) :
    ∃ r, n.underlying = some r :=
  Option.isSome_iff_exists.mp (unsound_eq_none_iff.mp h.sound hk)

theorem finished_of_fill {g : Graph} {n m : Node} {as : List Attribute}
    (h : n.fill g as = (m, none)) : m.Finished := by
  unfold fill at h
  split at h
  · simp at h
  · next n' _ =>
    split at h
    · simp at h
    · next hu =>
      obtain ⟨rfl, -⟩ := Prod.mk.inj h
      exact ⟨rfl, hu⟩

end Node

namespace Graph

variable {g : Graph}

/-- The descriptor `x` refers to the descriptor `y`. -/
def Child (g : Graph) (x y : Ref) : Prop := y ∈ (g.node x).children

/-- Following references from `x` leads to `y`. -/
def Reach (g : Graph) : Ref → Ref → Prop := Relation.ReflTransGen g.Child

theorem mem_of_reach {xs : List Ref} (hxs : ∀ x ∈ xs, ∀ y ∈ (g.node x).children, y ∈ xs) {x y : Ref}
    (hx : x ∈ xs) (h : g.Reach x y) : y ∈ xs := by
  induction h with
  | refl => exact hx
  | tail _ hc ih => exact hxs _ ih _ hc

/-- Everything that can be reached from `x` is finished. -/
def FinishedFrom (g : Graph) (x : Ref) : Prop := ∀ y, g.Reach x y → (g.node y).Finished

theorem FinishedFrom.of_reach {x y : Ref} (h : g.FinishedFrom x) (hxy : g.Reach x y) :
    g.FinishedFrom y :=
  fun z hz => h z (hxy.trans hz)

theorem finishedFrom_of_closed (xs : List Ref)
    (hxs : ∀ x ∈ xs, ∀ y ∈ (g.node x).children, y ∈ xs) (hfin : ∀ x ∈ xs, (g.node x).Finished)
    {x : Ref} (hx : x ∈ xs) : g.FinishedFrom x :=
  fun _ hy => hfin _ (mem_of_reach hxs hx hy)

/-- The identities of what can be reached from `x`. -/
def identitiesFrom (g : Graph) (x : Ref) : Set Identity :=
  {id | ∃ y, g.Reach x y ∧ (g.node y).id = id}

theorem id_mem_identitiesFrom {x y : Ref} (h : g.Reach x y) :
    (g.node y).id ∈ g.identitiesFrom x :=
  ⟨y, h, rfl⟩

theorem node_of_size_le {x : Ref} (h : g.size ≤ x) : g.node x = { kind := .unknown, id := "" } := by
  unfold size at h
  simp [node, Array.getElem?_eq_none h]

theorem lt_size_of_completed {x : Ref} (h : (g.node x).completed = true) : x < g.size := by
  by_contra hx
  rw [node_of_size_le (Nat.le_of_not_lt hx)] at h
  simp at h

/-- The identities of a graph, and the empty one for what lies outside. -/
def identities (g : Graph) : Finset Identity :=
  insert "" ((Finset.range g.size).image fun y => (g.node y).id)

theorem id_mem_identities (y : Ref) : (g.node y).id ∈ g.identities := by
  unfold identities
  by_cases hy : y < g.size
  · exact Finset.mem_insert_of_mem (Finset.mem_image_of_mem _ (Finset.mem_range.mpr hy))
  · rw [node_of_size_le (Nat.le_of_not_lt hy)]
    exact Finset.mem_insert_self _ _

theorem card_identities_le : g.identities.card ≤ g.size + 1 := by
  calc g.identities.card
      ≤ ((Finset.range g.size).image fun y => (g.node y).id).card + 1 := Finset.card_insert_le _ _
    _ ≤ (Finset.range g.size).card + 1 := Nat.add_le_add_right Finset.card_image_le 1
    _ = g.size + 1 := by rw [Finset.card_range]

theorem identitiesFrom_subset (x : Ref) : g.identitiesFrom x ⊆ ↑g.identities := by
  rintro id ⟨y, -, rfl⟩
  exact Finset.mem_coe.mpr (id_mem_identities y)

theorem finite_identitiesFrom (x : Ref) : (g.identitiesFrom x).Finite :=
  (Finset.finite_toSet _).subset (identitiesFrom_subset x)

theorem ncard_identitiesFrom_le (x : Ref) : (g.identitiesFrom x).ncard ≤ g.size + 1 := by
  have hle := Set.ncard_le_ncard (identitiesFrom_subset (g := g) x) (Finset.finite_toSet _)
  rw [Set.ncard_coe_finset] at hle
  exact le_trans hle card_identities_le

end Graph

end EverEqual
