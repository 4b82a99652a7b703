import EverEqual.Proofs.Describe.Core
import EverEqual.Proofs.Describe.Sketched

/-!
# Layers of pointers

Pointers are followed from a type, through aliases and declared pointer types, until a type is
reached that is no pointer; or there is no such type, as behind a pointer that points to itself.
Types that are written alike are behind the same layers, so the types on the way have texts of their
own, and there are no more of them than texts.

* `World.Behind`, `World.Passes`: a number of pointers leads to a type that is none, and the types
  on the way;
* `World.Behind.unique`, `World.Behind.lt_card`: how many they are;
* `World.Under`, `World.Under.mem_withoutPointers`: pointers without a name, which an equality
  method takes off its parameter.
-/

namespace EverEqual

namespace World

variable {w : World} {roots : Set Ty} {t u e t' u' : Ty} {k k' : Nat}

/-- A number of pointers leads from a type to one that is no pointer. -/
inductive Behind (w : World) : Nat → Ty → Ty → Prop
  | bare {t : Ty} (ht : w.pointee? t = none) : Behind w 0 t t
  | pointer {k : Nat} {t e u : Ty} (ht : w.pointee? t = some e) (heu : Behind w k e u) :
      Behind w (k + 1) t u

theorem Behind.pointee_eq_none (h : w.Behind k t u) : w.pointee? u = none := by
  induction h with
  | bare ht => exact ht
  | pointer _ _ ih => exact ih

/-- The types that are reached from a type by following pointers. -/
inductive Passes (w : World) (t : Ty) : Ty → Prop
  | start : Passes w t t
  | pointee {u e : Ty} (hu : Passes w t u) (he : w.pointee? u = some e) : Passes w t e

theorem Passes.head (ht : w.pointee? t = some e) (h : w.Passes e u) : w.Passes t u := by
  induction h with
  | start => exact .pointee .start ht
  | pointee _ hu ih => exact .pointee ih hu

theorem Passes.cases_head (h : w.Passes t u) :
    t = u ∨ ∃ e, w.pointee? t = some e ∧ w.Passes e u := by
  induction h with
  | start => exact .inl rfl
  | pointee _ hu ih =>
    rcases ih with rfl | ⟨e, he, hpass⟩
    · exact .inr ⟨_, hu, .start⟩
    · exact .inr ⟨e, he, .pointee hpass hu⟩

theorem Passes.eq_of_bare (h : w.Passes t u) (ht : w.pointee? t = none) : t = u := by
  rcases h.cases_head with rfl | ⟨e, he, -⟩
  · rfl
  · cases ht.symm.trans he

theorem Behind.le_of_passes (h : w.Behind k t t') (h' : w.Behind k' u u') (hpass : w.Passes t u) :
    k' ≤ k := by
  induction h generalizing k' u with
  | @bare t ht =>
    obtain rfl := hpass.eq_of_bare ht
    cases h' with
    | bare _ => exact Nat.le_refl 0
    | pointer he _ => cases ht.symm.trans he
  | @pointer k t e _ he _ ih =>
    rcases hpass.cases_head with rfl | ⟨e', he', hpass⟩
    · cases h' with
      | bare ht => exact Nat.zero_le _
      | pointer he' hbehind =>
        cases he.symm.trans he'
        exact Nat.succ_le_succ (ih hbehind .start)
    · cases he.symm.trans he'
      exact Nat.le_succ_of_le (ih h' hpass)

/-- No other type on the way is behind the same number of pointers. -/
theorem Behind.eq_of_passes (h : w.Behind k t t') (h' : w.Behind k u u') (hpass : w.Passes t u) :
    t = u := by
  cases h with
  | bare ht => exact hpass.eq_of_bare ht
  | pointer he hbehind =>
    rcases hpass.cases_head with rfl | ⟨e', he', hpass⟩
    · rfl
    · cases he.symm.trans he'
      exact absurd (hbehind.le_of_passes h' hpass) (Nat.not_succ_le_self _)

theorem kind_of_pointee_eq_none (h : w.pointee? t = none) : (w.plan t).kind ≠ .nullable := by
  intro hkind
  obtain ⟨e, he⟩ := exists_underlying [] hkind
  rw [underlying_portrait, h] at he
  cases he

theorem pointee_eq_none_of_kind (h : (w.plan t).kind ≠ .nullable) : w.pointee? t = none := by
  cases hpointee : w.pointee? t with
  | none => rfl
  | some e => exact absurd (kind_of_pointee hpointee) h

theorem Met.pointee (ht : w.Met roots t) (he : w.pointee? t = some e) : w.Met roots e :=
  ht.underlying ((underlying_portrait [] t).trans he)

theorem Passes.met (hu : w.Passes t u) (ht : w.Met roots t) : w.Met roots u := by
  induction hu with
  | start => exact ht
  | pointee _ he ih => exact ih.pointee he

theorem Discerning.entry_pointee (hw : w.Discerning roots) (ht : w.Met roots t)
    (ht' : w.Met roots t') (hentry : w.entry t = w.entry t') :
    (w.pointee? t).map w.entry = (w.pointee? t').map w.entry := by
  have hunder := congrArg Portrait.underlying (hw.sketch_eq_of_entry ht ht' hentry)
  have hsketch : ∀ v, (w.sketch v).underlying = (w.pointee? v).map w.entry := fun v => by
    rw [← underlying_portrait []]
    rfl
  rwa [hsketch, hsketch] at hunder

/-- Types of one text are behind the same layers. -/
theorem Behind.unique (hw : w.Discerning roots) (h : w.Behind k t u) (h' : w.Behind k' t' u')
    (ht : w.Met roots t) (ht' : w.Met roots t') (hentry : w.entry t = w.entry t') :
    k = k' ∧ w.entry u = w.entry u' := by
  induction h generalizing t' k' with
  | bare hnone =>
    cases h' with
    | bare _ => exact ⟨rfl, hentry⟩
    | pointer hsome _ =>
      have hpointee := hw.entry_pointee ht ht' hentry
      rw [hnone, hsome] at hpointee
      cases hpointee
  | pointer hsome _ ih =>
    have hpointee := hw.entry_pointee ht ht' hentry
    rw [hsome] at hpointee
    cases h' with
    | bare hnone =>
      rw [hnone] at hpointee
      cases hpointee
    | pointer hsome' hbehind =>
      rw [hsome'] at hpointee
      obtain ⟨rfl, hend⟩ := ih hbehind (ht.pointee hsome) (ht'.pointee hsome')
        (Option.some.inj hpointee)
      exact ⟨rfl, hend⟩

theorem Behind.exists_le (h : w.Behind k t u) (ht : w.Met roots t) {j : Nat} (hj : j ≤ k) :
    ∃ v, w.Met roots v ∧ w.Behind j v u := by
  induction h with
  | bare hnone =>
    obtain rfl := Nat.le_zero.mp hj
    exact ⟨_, ht, .bare hnone⟩
  | pointer hsome hbehind ih =>
    rcases Nat.lt_or_eq_of_le hj with hlt | rfl
    · exact ih (ht.pointee hsome) (Nat.le_of_lt_succ hlt)
    · exact ⟨_, ht, .pointer hsome hbehind⟩

theorem Behind.lt_card (hw : w.Discerning roots) {E : Finset Identity}
    (hE : ∀ v, w.Met roots v → w.entry v ∈ E) (h : w.Behind k t u) (ht : w.Met roots t) :
    k < E.card := by
  have hpassed : ∀ j : Fin (k + 1), ∃ v, w.Met roots v ∧ w.Behind j v u := fun j =>
    h.exists_le ht (Nat.le_of_lt_succ j.isLt)
  choose layer hmet hbehind using hpassed
  have hinj : Set.InjOn (fun j => w.entry (layer j)) (Finset.univ : Finset (Fin (k + 1))) := by
    intro i _ j _ hij
    exact Fin.ext ((hbehind i).unique hw (hbehind j) (hmet i) (hmet j) hij).1
  calc k < (Finset.univ : Finset (Fin (k + 1))).card := by simp
    _ ≤ E.card := Finset.card_le_card_of_injOn _ (fun j _ => hE _ (hmet j)) hinj

/-! ### Pointers without a name -/

/-- A number of pointers without a name leads from a type to one that is no pointer. -/
inductive Under (w : World) : Nat → Ty → Ty → Prop
  | bare {t : Ty} (ht : w.pointee? t = none) : Under w 0 t t
  | pointer {k : Nat} {t e u : Ty} (ht : w.unalias t = .pointer e) (heu : Under w k e u) :
      Under w (k + 1) t u

theorem pointee_of_unalias (h : w.unalias t = .pointer e) : w.pointee? t = some e :=
  pointee_eq_some.mpr (by rw [core, h]; rfl)

theorem Under.behind (h : w.Under k t u) : w.Behind k t u := by
  induction h with
  | bare ht => exact .bare ht
  | pointer ht _ ih => exact .pointer (pointee_of_unalias ht) ih

theorem Under.mem_withoutPointers (h : w.Under k t u) {fuel : Nat} (hfuel : k < fuel) :
    u ∈ w.withoutPointers fuel t := by
  obtain ⟨fuel, rfl⟩ := Nat.exists_eq_succ_of_ne_zero (Nat.ne_of_gt (Nat.zero_lt_of_lt hfuel))
  induction h generalizing fuel with
  | bare _ => exact List.mem_cons_self
  | pointer ht _ ih =>
    obtain ⟨fuel, rfl⟩ := Nat.exists_eq_succ_of_ne_zero
      (Nat.ne_of_gt (Nat.zero_lt_of_lt (Nat.lt_of_succ_lt_succ hfuel)))
    refine List.mem_cons_of_mem _ ?_
    rw [ht]
    exact ih fuel (Nat.lt_of_succ_lt_succ hfuel)

end World

end EverEqual
