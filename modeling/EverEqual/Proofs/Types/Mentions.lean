import EverEqual.Proofs.Types.Checked
import Mathlib.Logic.Relation

/-!
# What a type refers to

A type refers to its parts, an alias to its target, and a declared type that is no interface to its
arguments and its underlying type. Nothing below an interface counts. Twins refer to twins.

* `World.Refers`, `World.Mentions`: one step from a type to another one, and any number of steps;
* `World.followers`: what a type that is no alias refers to, in order;
* `World.Checked.followers_twin`: twins refer to twins.
-/

namespace EverEqual

namespace World

/-- One step from a type to a type that it is made of or stands for. -/
inductive Refers (w : World) : Ty → Ty → Prop
  | target {t u : Ty} (h : w.aliasTarget? t = some u) : Refers w t u
  | argument {n : TypeName} {xs : List Ty} {x : Ty} (hname : w.aliasTarget? (.named n xs) = none)
    (hconcrete : w.isInterface (.named n xs) = false) (hx : x ∈ xs) : Refers w (.named n xs) x
  | underlying {n : TypeName} {xs : List Ty} (hname : w.aliasTarget? (.named n xs) = none)
    (hconcrete : w.isInterface (.named n xs) = false) (hdeclared : (w.declaration? n).isSome) :
    Refers w (.named n xs) (w.underlying (.named n xs))
  | part {t u : Ty} (h : u ∈ t.parts) : Refers w t u

/-- A type refers to another one in any number of steps. -/
def Mentions (w : World) : Ty → Ty → Prop :=
  Relation.ReflTransGen w.Refers

/-- What a type that is no alias refers to: the arguments and the underlying type of a name, or the
parts. -/
def followers (w : World) : Ty → List Ty
  | .named n xs =>
    if w.isInterface (.named n xs) then []
    else xs ++ if (w.declaration? n).isSome then [w.underlying (.named n xs)] else []
  | t => t.parts

variable {w : World} {rank : String → Nat} {t u : Ty} {n : TypeName} {xs ys : List Ty}

theorem followers_of_not_named (ht : ∀ n xs, t ≠ .named n xs) : w.followers t = t.parts := by
  cases t with
  | named n xs => exact absurd rfl (ht n xs)
  | _ => rfl

theorem followers_of_isInterface (hi : w.isInterface (.named n xs) = true) :
    w.followers (.named n xs) = [] :=
  if_pos hi

theorem followers_of_concrete (hi : w.isInterface (.named n xs) = false) :
    w.followers (.named n xs) =
      xs ++ if (w.declaration? n).isSome then [w.underlying (.named n xs)] else [] :=
  if_neg (Bool.eq_false_iff.mp hi)

theorem refers_iff (ht : w.aliasTarget? t = none) : w.Refers t u ↔ u ∈ w.followers t := by
  constructor
  · intro h
    cases h with
    | target h => rw [ht] at h; cases h
    | argument _ hconcrete hx =>
      rw [followers_of_concrete hconcrete]
      exact List.mem_append_left _ hx
    | underlying _ hconcrete hdeclared =>
      rw [followers_of_concrete hconcrete, if_pos hdeclared]
      exact List.mem_append_right _ List.mem_cons_self
    | part h =>
      cases t with
      | named n xs => cases h
      | _ => exact h
  · intro h
    by_cases hname : ∃ n xs, t = .named n xs
    · obtain ⟨n, xs, rfl⟩ := hname
      cases hi : w.isInterface (.named n xs) with
      | true => rw [followers_of_isInterface hi] at h; cases h
      | false =>
        rw [followers_of_concrete hi] at h
        rcases List.mem_append.mp h with hx | hx
        · exact .argument ht hi hx
        · split at hx
          · next hdeclared =>
            obtain rfl := List.mem_singleton.mp hx
            exact .underlying ht hi hdeclared
          · cases hx
    · push Not at hname
      rw [followers_of_not_named hname] at h
      exact .part h

theorem Refers.eq_target {v : Ty} (h : w.Refers t u) (ht : w.aliasTarget? t = some v) : u = v := by
  cases h with
  | target h => exact Option.some.inj (h.symm.trans ht)
  | argument hname _ _ | underlying hname _ _ => rw [hname] at ht; cases ht
  | part h =>
    obtain ⟨n, xs, d, rfl, -⟩ := exists_of_aliasTarget? ht
    cases h

/-- What a type refers to, in a list. -/
def referred (w : World) (t : Ty) : List Ty :=
  match w.aliasTarget? t with
  | some u => [u]
  | none => w.followers t

theorem refers_iff_mem : w.Refers t u ↔ u ∈ w.referred t := by
  rw [referred]
  cases ht : w.aliasTarget? t with
  | some v =>
    rw [List.mem_singleton]
    exact ⟨fun h => h.eq_target ht, fun hu => hu ▸ .target ht⟩
  | none => exact refers_iff ht

instance : DecidableRel w.Refers := fun _ _ => decidable_of_iff _ refers_iff_mem.symm

theorem Mentions.mem (hu : w.Mentions t u) {ts : List Ty} (ht : t ∈ ts)
    (hclosed : ∀ s ∈ ts, ∀ u ∈ w.referred s, u ∈ ts) : u ∈ ts := by
  induction hu with
  | refl => exact ht
  | tail _ h ih => exact hclosed _ ih _ (refers_iff_mem.mp h)

theorem Mentions.parts (h : w.Mentions t u) {s : Ty} (hs : s ∈ u.parts) : w.Mentions t s :=
  h.tail (.part hs)

theorem unalias_twin (htwin : w.Twin t u) : w.Twin (w.unalias t) (w.unalias u) :=
  unaliasIn_rel (fun htu => aliasTarget?_rel htu.sameHead fun _ hargs => .filled _ _ hargs) htwin

namespace Checked

variable (h : w.Checked rank)

include h

/-- The arguments of an instance have no influence on whether it is an interface. -/
theorem isInterface_named : w.isInterface (.named n xs) = w.isInterface (.named n ys) := by
  cases hd : w.declaration? n with
  | none => rw [isInterface, isInterface, underlying_of_undeclared hd, underlying_of_undeclared hd]
  | some d =>
    have hform : ∀ zs, w.isInterface (.named n zs) = true ↔
        ∃ f ms es, w.body d = .interface f ms es := by
      intro zs
      rw [isInterface, h.underlying_named hd, Ty.subst_eq_mapChildren (h.body_ne_param hd)]
      cases w.body d with
      | interface f ms es => exact ⟨fun _ => ⟨f, ms, es, rfl⟩, fun _ => rfl⟩
      | _ =>
        constructor
        · intro hi
          cases hi
        · rintro ⟨f, ms, es, hb⟩
          cases hb
    rw [Bool.eq_iff_iff, hform xs, hform ys]

theorem underlying_twin (hxs : List.Forall₂ w.Twin xs ys) :
    w.Twin (w.underlying (.named n xs)) (w.underlying (.named n ys)) := by
  cases hd : w.declaration? n with
  | none =>
    rw [underlying_of_undeclared hd, underlying_of_undeclared hd]
    exact .refl w _
  | some d =>
    rw [h.underlying_named hd, h.underlying_named hd]
    exact .filled _ _ hxs

/-- **Twins refer to twins.** -/
theorem followers_twin (htwin : w.Twin t u) :
    List.Forall₂ w.Twin (w.followers t) (w.followers u) := by
  cases htwin.sameHead with
  | @named n xs ys hargs =>
    cases hi : w.isInterface (.named n xs) with
    | true =>
      rw [followers_of_isInterface hi, followers_of_isInterface (h.isInterface_named ▸ hi)]
      exact .nil
    | false =>
      rw [followers_of_concrete hi, followers_of_concrete (h.isInterface_named ▸ hi)]
      refine List.rel_append hargs ?_
      split
      · exact .cons (h.underlying_twin hargs) .nil
      · exact .nil
  | other ht hu hparts => rwa [followers_of_not_named ht, followers_of_not_named hu]

end Checked

end World

end EverEqual
