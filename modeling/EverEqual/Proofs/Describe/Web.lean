import EverEqual.Proofs.Describe.Portrait
import Mathlib.Data.Set.Basic
import Mathlib.Logic.Relation

/-!
# The web of types behind a description

A description comes across a type if it is asked for or if the plan of another such type names it.
Descriptors are remembered by texts, so a description is only right if texts tell types apart, and
it only ends if there are few texts. Both are demands on the world of declarations.

The ancestors of a type are its own, its bases and what these have as ancestors. A base from which
the descriptions lead back to the type may be half finished when the type is completed. What is
inherited without such a base is certain to be recorded.

* `World.Met`, `World.Leads`: what a description comes across, and in which order it may do so;
* `World.Orderly`: texts tell types apart, and there are few of them;
* `World.Ancestor`, `World.Certain`: ancestors, and those that do not depend on a circular base;
* `World.Settled`: no ancestor depends on a circular base;
* `World.orderly_of_closed`, `World.settled_of_not_circular`: ways to see that a world is in order.
-/

namespace EverEqual

namespace World

variable (w : World) (interfaces : List Ty) (roots : Set Ty)

/-- The types that the description of some types comes across. -/
inductive Met : Ty → Prop
  | root {t : Ty} (h : t ∈ roots) : Met t
  | part {t u : Ty} (ht : Met t) (hu : u ∈ (w.plan t).types) : Met u

/-- The description of what is remembered by one text asks for what is remembered by another. -/
def Leads (e f : Identity) : Prop :=
  ∃ t u, w.Met roots t ∧ w.entry t = e ∧ u ∈ (w.plan t).types ∧ w.entry u = f

/-- The description of some types is followed to its end: they unfold to fewer texts than the world
is followed deep. -/
def Followed : Prop :=
  ∃ E : Finset Identity, E.card < w.horizon ∧ ∀ u, w.Met roots u → w.entry u ∈ E

/-- The texts that a type goes by: what it is written as, what it is remembered by, and its
identity. -/
def names (t : Ty) : List Identity := [w.text t, w.entry t, (w.plan t).id]

/-- What is asked of a world for a description to be right: types that share a name look the same,
and all names together are fewer than the world is followed deep. -/
structure Orderly : Prop where
  coherent : ∀ t u, w.Met roots t → w.Met roots u → ∀ a ∈ w.names t, a ∈ w.names u →
    w.outline interfaces t = w.outline interfaces u
  followed : ∃ E : Finset Identity, E.card < w.horizon ∧ ∀ t, w.Met roots t → w.entry t ∈ E

/-- An ancestor of what is remembered by a text: an own one, a base, or an ancestor of a base that
may be followed. -/
inductive AncestorVia (via : Identity → Identity → Prop) : Identity → Identity → Prop
  | own {t : Ty} {a : Identity} (ht : w.Met roots t) (ha : a ∈ (w.outline interfaces t).own) :
      AncestorVia via (w.entry t) a
  | base {t u : Ty} (ht : w.Met roots t) (hu : w.Met roots u)
      (hbase : w.entry u ∈ (w.outline interfaces t).bases) :
      AncestorVia via (w.entry t) (w.plan u).id
  | inherited {t : Ty} {f a : Identity} (ht : w.Met roots t)
      (hbase : f ∈ (w.outline interfaces t).bases) (hvia : via (w.entry t) f)
      (ha : AncestorVia via f a) : AncestorVia via (w.entry t) a

/-- An ancestor of what is remembered by a text. -/
def Ancestor : Identity → Identity → Prop :=
  w.AncestorVia interfaces roots fun _ _ => True

/-- The description of what is remembered by one text leads back from another one. -/
def Circular (e f : Identity) : Prop :=
  Relation.ReflTransGen (w.Leads roots) f e

/-- An ancestor that is not inherited through a circular base. -/
def Certain : Identity → Identity → Prop :=
  w.AncestorVia interfaces roots fun e f => ¬ w.Circular roots e f

/-- No ancestor depends on a circular base. -/
def Settled : Prop :=
  ∀ t, w.Met roots t → ∀ a, w.Ancestor interfaces roots (w.entry t) a →
    a = (w.plan t).id ∨ w.Certain interfaces roots (w.entry t) a

variable {w interfaces roots} {t u : Ty}

theorem text_mem_names (t : Ty) : w.text t ∈ w.names t := by simp [names]

theorem entry_mem_names (t : Ty) : w.entry t ∈ w.names t := by simp [names]

theorem id_mem_names (t : Ty) : (w.plan t).id ∈ w.names t := by simp [names]

@[simp] theorem entry_outline (t : Ty) : (w.outline interfaces t).entry = w.entry t :=
  w.entry_portrait t

@[simp] theorem id_outline (t : Ty) : (w.outline interfaces t).id = (w.plan t).id :=
  w.id_portrait t

@[simp] theorem kind_outline (t : Ty) : (w.outline interfaces t).kind = (w.plan t).kind :=
  w.kind_portrait t

theorem leads_of_mem (ht : w.Met roots t) (hu : u ∈ (w.plan t).types) :
    w.Leads roots (w.entry t) (w.entry u) :=
  ⟨t, u, ht, rfl, hu, rfl⟩

theorem mem_parts_attach {P : Portrait Ty} {f : Feature}
    (hu : u ∈ (P.attach w interfaces f).parts) : u ∈ P.parts ∨ u ∈ f.types := by
  cases f <;>
    simp only [Portrait.parts, Portrait.attach, Feature.types, List.mem_append, Option.mem_toList,
      Option.some.injEq, List.mem_cons, List.not_mem_nil] at hu ⊢ <;>
    grind

theorem mem_types_of_mem_parts (hu : u ∈ (w.portrait interfaces t).parts) :
    u ∈ (w.plan t).types := by
  have key : ∀ (fs : List Feature) (P : Portrait Ty),
      u ∈ (fs.foldl (Portrait.attach w interfaces) P).parts →
        u ∈ P.parts ∨ u ∈ fs.flatMap Feature.types := by
    intro fs
    induction fs with
    | nil => exact fun P h => Or.inl h
    | cons f fs ih =>
      intro P h
      rw [List.flatMap_cons, List.mem_append]
      rcases ih _ h with h | h
      · exact (mem_parts_attach h).imp_right Or.inl
      · exact Or.inr (Or.inr h)
  rcases key _ _ hu with h | h
  · cases h
  · exact h

theorem mem_types_of_mem_bases (hu : u ∈ (w.portrait interfaces t).bases) :
    u ∈ (w.plan t).types :=
  mem_types_of_mem_parts (List.mem_append_right _ hu)

theorem Met.element {a : Ty} (ht : w.Met roots t)
    (ha : (w.portrait interfaces t).element = some a) : w.Met roots a := by
  have hmem : a ∈ (w.portrait interfaces t).parts := by simp [Portrait.parts, ha]
  exact .part ht (mem_types_of_mem_parts hmem)

theorem Met.tuple {a : Ty} (ht : w.Met roots t) (ha : a ∈ (w.portrait interfaces t).tuple) :
    w.Met roots a := by
  have hmem : a ∈ (w.portrait interfaces t).parts := by simp [Portrait.parts, ha]
  exact .part ht (mem_types_of_mem_parts hmem)

theorem Met.argument {a : Ty} (ht : w.Met roots t)
    (ha : a ∈ (w.portrait interfaces t).typeArgs) : w.Met roots a := by
  have hmem : a ∈ (w.portrait interfaces t).parts := by simp [Portrait.parts, ha]
  exact .part ht (mem_types_of_mem_parts hmem)

theorem Met.underlying {a : Ty} (ht : w.Met roots t)
    (ha : (w.portrait interfaces t).underlying = some a) : w.Met roots a := by
  have hmem : a ∈ (w.portrait interfaces t).parts := by simp [Portrait.parts, ha]
  exact .part ht (mem_types_of_mem_parts hmem)

section Congr

variable {interfaces' : List Ty} (hout : ∀ t, w.outline interfaces t = w.outline interfaces' t)
include hout

theorem AncestorVia.congr {via : Identity → Identity → Prop} {e a : Identity}
    (h : w.AncestorVia interfaces roots via e a) : w.AncestorVia interfaces' roots via e a := by
  induction h with
  | own ht ha => exact .own ht (hout _ ▸ ha)
  | base ht hu hbase => exact .base ht hu (hout _ ▸ hbase)
  | inherited ht hbase hvia _ ih => exact .inherited ht (hout _ ▸ hbase) hvia ih

theorem Orderly.congr (h : w.Orderly interfaces roots) : w.Orderly interfaces' roots where
  coherent := fun t u ht hu a hta hua => by rw [← hout, ← hout, h.coherent t u ht hu a hta hua]
  followed := h.followed

theorem Settled.congr (h : w.Settled interfaces roots) : w.Settled interfaces' roots :=
  fun t ht a ha =>
    (h t ht a (AncestorVia.congr (fun t => (hout t).symm) ha)).imp_right (AncestorVia.congr hout)

end Congr

namespace Orderly

variable (h : w.Orderly interfaces roots)
include h

theorem outline_eq_of_entry (ht : w.Met roots t) (hu : w.Met roots u)
    (he : w.entry t = w.entry u) : w.outline interfaces t = w.outline interfaces u :=
  h.coherent t u ht hu _ (entry_mem_names t) (he ▸ entry_mem_names u)

theorem id_eq_of_entry (ht : w.Met roots t) (hu : w.Met roots u) (he : w.entry t = w.entry u) :
    (w.plan t).id = (w.plan u).id := by
  have := congrArg Portrait.id (h.outline_eq_of_entry ht hu he)
  simpa using this

theorem kind_eq_of_entry (ht : w.Met roots t) (hu : w.Met roots u) (he : w.entry t = w.entry u) :
    (w.plan t).kind = (w.plan u).kind := by
  have := congrArg Portrait.kind (h.outline_eq_of_entry ht hu he)
  simpa using this

theorem outline_eq_of_id (ht : w.Met roots t) (hu : w.Met roots u)
    (hid : (w.plan t).id = (w.plan u).id) : w.outline interfaces t = w.outline interfaces u :=
  h.coherent t u ht hu _ (id_mem_names t) (hid ▸ id_mem_names u)

theorem entry_eq_of_id (ht : w.Met roots t) (hu : w.Met roots u)
    (hid : (w.plan t).id = (w.plan u).id) : w.entry t = w.entry u := by
  have := congrArg Portrait.entry (h.outline_eq_of_id ht hu hid)
  simpa using this

theorem kind_eq_of_id (ht : w.Met roots t) (hu : w.Met roots u)
    (hid : (w.plan t).id = (w.plan u).id) : (w.plan t).kind = (w.plan u).kind :=
  h.kind_eq_of_entry ht hu (h.entry_eq_of_id ht hu hid)

theorem id_underlying {a b : Ty} (ht : w.Met roots t) (hu : w.Met roots u)
    (hid : (w.plan t).id = (w.plan u).id) (ha : (w.portrait interfaces t).underlying = some a)
    (hb : (w.portrait interfaces u).underlying = some b) : (w.plan a).id = (w.plan b).id := by
  have hout := congrArg Portrait.underlying (h.outline_eq_of_id ht hu hid)
  have hentry : w.entry a = w.entry b := by
    simpa [outline, Portrait.map, ha, hb] using hout
  exact h.id_eq_of_entry (ht.underlying ha) (hu.underlying hb) hentry

theorem ancestor_iff_own (ht : w.Met roots t) (hbases : (w.portrait interfaces t).bases = [])
    (a : Identity) :
    w.Ancestor interfaces roots (w.entry t) a ↔ a ∈ (w.portrait interfaces t).own := by
  have hnone : (w.outline interfaces t).bases = [] := by
    simp [outline, Portrait.map, hbases]
  constructor
  · intro ha
    unfold Ancestor at ha
    generalize he : w.entry t = e at ha
    cases ha with
    | own ht' ha =>
      rw [h.outline_eq_of_entry ht' ht he.symm] at ha
      exact ha
    | base ht' _ hbase | inherited ht' hbase =>
      rw [h.outline_eq_of_entry ht' ht he.symm, hnone] at hbase
      cases hbase
  · exact fun ha => .own ht ha

end Orderly

/-! ### Worlds that are in order -/

/-- A list of types that plans do not lead out of holds everything that is come across. -/
theorem mem_of_met {L : List Ty} (hroots : ∀ t ∈ roots, t ∈ L)
    (hclosed : ∀ t ∈ L, ∀ u ∈ (w.plan t).types, u ∈ L) (ht : w.Met roots t) : t ∈ L := by
  induction ht with
  | root h => exact hroots _ h
  | part _ hu ih => exact hclosed _ ih _ hu

theorem followed_of_closed (L : List Ty) (hroots : ∀ t ∈ roots, t ∈ L)
    (hclosed : ∀ t ∈ L, ∀ u ∈ (w.plan t).types, u ∈ L) (hshort : L.length < w.horizon) :
    w.Followed roots := by
  refine ⟨(L.map w.entry).toFinset, ?_, fun t ht => ?_⟩
  · calc (L.map w.entry).toFinset.card ≤ (L.map w.entry).length := List.toFinset_card_le _
      _ = L.length := List.length_map _
      _ < w.horizon := hshort
  · exact List.mem_toFinset.mpr (List.mem_map_of_mem (mem_of_met hroots hclosed ht))

/-- A world is in order if a short list of types is closed and its names tell them apart. -/
theorem orderly_of_closed (L : List Ty) (hroots : ∀ t ∈ roots, t ∈ L)
    (hclosed : ∀ t ∈ L, ∀ u ∈ (w.plan t).types, u ∈ L)
    (hcoherent : ∀ t ∈ L, ∀ u ∈ L, ∀ a ∈ w.names t, a ∈ w.names u →
      w.outline interfaces t = w.outline interfaces u)
    (hshort : L.length < w.horizon) : w.Orderly interfaces roots where
  coherent := fun t u ht hu =>
    hcoherent t (mem_of_met hroots hclosed ht) u (mem_of_met hroots hclosed hu)
  followed := followed_of_closed L hroots hclosed hshort

/-- **Without circular bases no ancestor depends on one.** A type may embed itself. -/
theorem settled_of_not_circular
    (h : ∀ t u, w.Met roots t → w.Met roots u → u ∈ (w.portrait interfaces t).bases →
      w.entry u ≠ w.entry t → ¬ w.Circular roots (w.entry t) (w.entry u)) :
    w.Settled interfaces roots := by
  have key : ∀ e a, w.Ancestor interfaces roots e a → w.Certain interfaces roots e a := by
    intro e a ha
    induction ha with
    | own ht ha => exact .own ht ha
    | base ht hu hbase => exact .base ht hu hbase
    | @inherited t f a ht hbase _ _ ih =>
      obtain ⟨u, hu, rfl⟩ := List.mem_map.mp hbase
      by_cases he : w.entry u = w.entry t
      · rwa [he] at ih
      · exact .inherited ht hbase
          (h t u ht (.part ht (mem_types_of_mem_bases hu)) hu he) ih
  exact fun t _ a ha => Or.inr (key _ a ha)

/-- Descriptions that lead from one rank to a lower one do not run in circles. -/
theorem settled_of_rank (rank : Identity → Nat)
    (h : ∀ t, w.Met roots t → ∀ u ∈ (w.plan t).types,
      w.entry u = w.entry t ∨ rank (w.entry u) < rank (w.entry t)) :
    w.Settled interfaces roots := by
  have hle : ∀ e f, Relation.ReflTransGen (w.Leads roots) e f → rank f ≤ rank e := by
    intro e f hef
    induction hef with
    | refl => exact le_rfl
    | tail _ hlead ih =>
      obtain ⟨t, u, ht, rfl, hu, rfl⟩ := hlead
      rcases h t ht u hu with he | hlt
      · rwa [he]
      · exact hlt.le.trans ih
  refine settled_of_not_circular fun t u ht _ hbase hne hcirc => ?_
  have hlt := (h t ht u (mem_types_of_mem_bases hbase)).resolve_left hne
  exact absurd (hle _ _ hcirc) (Nat.not_le_of_lt hlt)

theorem settled_of_closed (L : List Ty) (hroots : ∀ t ∈ roots, t ∈ L)
    (hclosed : ∀ t ∈ L, ∀ u ∈ (w.plan t).types, u ∈ L) (rank : Identity → Nat)
    (h : ∀ t ∈ L, ∀ u ∈ (w.plan t).types,
      w.entry u = w.entry t ∨ rank (w.entry u) < rank (w.entry t)) :
    w.Settled interfaces roots :=
  settled_of_rank rank fun t ht => h t (mem_of_met hroots hclosed ht)

end World

end EverEqual
