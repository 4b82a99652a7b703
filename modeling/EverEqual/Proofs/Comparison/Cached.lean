import EverEqual.Proofs.Comparison.Termination

/-!
# Answers by way of a cache

* `Cache.settle`: what becomes of an answer by way of a cache;
* `askCached_of_canBeEqual`: asking by way of a cache, in terms of the answer without one.
-/

namespace EverEqual

/-- What becomes of an answer by way of a cache: a kept one is given in its place, and otherwise it
is kept. -/
def Cache.settle (cache : Option Cache) (key : IdentityPair) (e : Bool) : Bool × Option Cache :=
  match cache with
  | none => (e, none)
  | some c =>
    match c.find? key with
    | some kept => (kept, some c)
    | none => (e, some (c.store key e))

theorem askCached_of_canBeEqual {g : Graph} {rules : List Rule} {l r : Ref} {e : Bool}
    (h : canBeEqual g rules (some l) (some r) = .ok e) (cache : Option Cache) :
    ∃ steps, askCached cache g rules (some l) (some r) =
      .ok (⟨(Cache.settle cache (Cache.key g l r) e).1, steps⟩,
        (Cache.settle cache (Cache.key g l r) e).2) := by
  unfold canBeEqual at h
  cases hrun : ask g rules (some l) (some r) with
  | error f =>
    rw [hrun] at h
    cases h
  | ok a =>
    rw [hrun] at h
    obtain rfl : a.equal = e := Except.ok.inj h
    unfold askCached Cache.settle
    cases cache with
    | none => exact ⟨a.steps, by simp only [hrun]; rfl⟩
    | some c =>
      cases hfind : c.find? (Cache.key g l r) with
      | some kept => exact ⟨[], by simp only [hfind]⟩
      | none => exact ⟨a.steps, by simp only [hfind, hrun]; rfl⟩

end EverEqual
