import EverEqual.Proofs.Describe.Complete

/-!
# Descriptions in steps

However deep a description goes, and whatever calls itself in between, all it does to a draft is to
reserve a descriptor for a type that is not remembered, and to fill in one that is reserved. What
each of the two keeps up, a description keeps up, without regard to how its calls are nested.

* `Draft.Step`, `Draft.Steps`: the two steps, and any number of them;
* `Draft.Steps.remembers`, `Draft.Steps.id_eq`: what is remembered stays so, with its identity;
* `World.steps_of_run`: a description takes such steps;
* `World.remembers_of_run`: a type whose text is not remembered is remembered by its entry when it
  has been described.
-/

namespace EverEqual

open Relation

namespace Draft

variable {w : World} {roots : Set Ty} {s s' : Draft} {e : Identity} {r : Ref}

/-- One step of a description. -/
inductive Step (w : World) (roots : Set Ty) : Draft → Draft → Prop
  /-- A descriptor is reserved for a type that is not remembered. -/
  | reserve {s : Draft} {t : Ty} (ht : w.Met roots t)
      (hfresh : s.describer.memo.lookup (w.entry t) = none) : Step w roots s (s.begin (w.plan t))
  /-- The descriptor reserved for a type is filled in, with an attribute for every feature. -/
  | fillIn {s : Draft} {t : Ty} {r : Ref} {as : List Attribute} {n : Node} (ht : w.Met roots t)
      (hid : (s.graph.node r).id = (w.plan t).id)
      (hlength : as.length = (w.plan t).features.length)
      (hfill : (s.graph.node r).fill s.graph as = (n, none)) : Step w roots s (s.finish r n)

/-- Any number of steps. -/
abbrev Steps (w : World) (roots : Set Ty) : Draft → Draft → Prop := ReflTransGen (Step w roots)

theorem node_finish_eq (s : Draft) (r x : Ref) (m : Node) :
    (s.finish r m).graph.node x = if x = r ∧ r < s.graph.size then m else s.graph.node x := by
  unfold finish
  rw [Graph.node_put]

theorem Step.size_le (h : Step w roots s s') : s.graph.size ≤ s'.graph.size := by
  cases h with
  | reserve _ _ =>
    rw [size_begin]
    exact Nat.le_succ _
  | fillIn _ _ _ _ => exact (s.size_finish _ _).ge

theorem Steps.size_le (h : Steps w roots s s') : s.graph.size ≤ s'.graph.size := by
  induction h with
  | refl => exact le_rfl
  | tail _ hstep ih => exact ih.trans hstep.size_le

theorem Step.id_eq (h : Step w roots s s') (hr : r < s.graph.size) :
    (s'.graph.node r).id = (s.graph.node r).id := by
  cases h with
  | reserve _ _ => rw [s.node_begin, if_neg (Nat.ne_of_lt hr)]
  | fillIn _ _ _ hfill =>
    rw [s.node_finish_eq]
    split
    · next hx => rw [Node.id_fill hfill, hx.1]
    · rfl

theorem Steps.id_eq (h : Steps w roots s s') (hr : r < s.graph.size) :
    (s'.graph.node r).id = (s.graph.node r).id := by
  induction h with
  | refl => rfl
  | tail hsteps hstep ih =>
    rw [hstep.id_eq (hr.trans_le (Steps.size_le hsteps)), ih]

theorem Step.remembers (h : Step w roots s s') (hr : s.Remembers e r) : s'.Remembers e r := by
  cases h with
  | reserve _ hfresh => exact (extends_begin hfresh).remembers e r hr
  | fillIn _ _ _ _ => exact hr

theorem Steps.remembers (h : Steps w roots s s') (hr : s.Remembers e r) : s'.Remembers e r := by
  induction h with
  | refl => exact hr
  | tail _ hstep ih => exact hstep.remembers ih

theorem steps_of_run_mapM {α β : Type} {f : α → DraftM β} {xs : List α} {ys : List β}
    (hf : ∀ x ∈ xs, ∀ s y s', (f x).run s = .ok (y, s') → Steps w roots s s')
    (hrun : (xs.mapM f).run s = .ok (ys, s')) :
    Steps w roots s s' ∧ ys.length = xs.length := by
  induction xs generalizing s ys with
  | nil =>
    cases hrun
    exact ⟨.refl, rfl⟩
  | cons x xs ih =>
    rw [List.mapM_cons] at hrun
    obtain ⟨y, s₁, hx, hrest⟩ := DraftM.of_run_bind hrun
    obtain ⟨ys', s₂, hxs, hlast⟩ := DraftM.of_run_bind hrest
    cases hlast
    have hfirst := hf x List.mem_cons_self s y s₁ hx
    obtain ⟨hsteps, hlength⟩ := ih (fun x hx => hf x (List.mem_cons_of_mem _ hx)) hxs
    exact ⟨hfirst.trans hsteps, congrArg Nat.succ hlength⟩

theorem exists_fill_of_run_complete {as : List Attribute}
    (hrun : (complete r as).run s = .ok ((), s')) :
    ∃ n, (s.graph.node r).fill s.graph as = (n, none) ∧ s' = s.finish r n := by
  by_cases hr : r ∈ s.describer.builder.pending
  · cases hfill : (s.graph.node r).fill s.graph as with
    | mk n defect =>
      cases defect with
      | none =>
        rw [run_complete hr hfill] at hrun
        cases hrun
        exact ⟨n, rfl, rfl⟩
      | some d =>
        simp only [complete, StateT.run_bind, StateT.run_get, pure_bind, Builder.complete, hfill]
          at hrun
        simp [hr] at hrun
        cases hrun
  · simp only [complete, StateT.run_bind, StateT.run_get, pure_bind, Builder.complete] at hrun
    simp [hr] at hrun
    cases hrun

end Draft

namespace World

variable {w : World} {roots : Set Ty} {s s' : Draft} {t : Ty} {r : Ref}

theorem steps_of_run_draw {describe : Ty → DraftM Ref} (ht : w.Met roots t)
    (hfresh : s.describer.memo.lookup (w.entry t) = none)
    (hparts : ∀ u ∈ (w.plan t).types, ∀ s x s', (describe u).run s = .ok (x, s') →
      Draft.Steps w roots s s')
    (hrun : ((w.plan t).draw w describe).run s = .ok (r, s')) :
    r = s.graph.size ∧ Draft.Steps w roots s s' ∧ s'.Remembers (w.entry t) r := by
  have hreserve : Draft.Step w roots s (s.begin (w.plan t)) := .reserve ht hfresh
  have hfeature : ∀ f ∈ (w.plan t).features, ∀ s a s',
      (Feature.draw w describe f).run s = .ok (a, s') → Draft.Steps w roots s s' := by
    intro f hf s a s' hdraw
    obtain ⟨refs, s₁, hrefs, hlast⟩ := DraftM.of_run_bind hdraw
    cases hlast
    exact (Draft.steps_of_run_mapM (fun u hu => hparts u (List.mem_flatMap.mpr ⟨f, hf, hu⟩))
      hrefs).1
  rw [run_draw] at hrun
  obtain ⟨as, s₁, hfeatures, hrest⟩ := DraftM.of_run_bind hrun
  obtain ⟨⟨⟩, s₂, hcomplete, hlast⟩ := DraftM.of_run_bind hrest
  cases hlast
  obtain ⟨hsteps, hlength⟩ := Draft.steps_of_run_mapM hfeature hfeatures
  obtain ⟨n, hfill, rfl⟩ := Draft.exists_fill_of_run_complete hcomplete
  have hsize : s.graph.size < (s.begin (w.plan t)).graph.size := by
    rw [Draft.size_begin]
    exact Nat.lt_succ_self _
  have hid : (s₁.graph.node s.graph.size).id = (w.plan t).id := by
    rw [Draft.Steps.id_eq hsteps hsize, s.node_begin, if_pos rfl]
  have hlastStep : Draft.Step w roots s₁ (s₁.finish s.graph.size n) := .fillIn ht hid hlength hfill
  have hbegun : (s.begin (w.plan t)).Remembers (w.entry t) s.graph.size :=
    Draft.remembers_begin.mpr (Or.inl ⟨rfl, rfl⟩)
  have hall : Draft.Steps w roots (s.begin (w.plan t)) (s₁.finish s.graph.size n) :=
    hsteps.tail hlastStep
  exact ⟨rfl, .head hreserve hall, Draft.Steps.remembers hall hbegun⟩

/-- **A description takes steps**, and each of them reserves a descriptor or fills one in. -/
theorem steps_of_run (k : Nat) (ht : w.Met roots t)
    (hrun : (w.describeIn k t).run s = .ok (r, s')) : Draft.Steps w roots s s' := by
  induction k generalizing t s r s' with
  | zero => cases hrun
  | succ k ih =>
    cases htext : s.describer.memo.lookup (w.text t) with
    | some x =>
      rw [run_describeIn_of_text k htext] at hrun
      cases hrun
      exact .refl
    | none =>
      cases hentry : s.describer.memo.lookup (w.entry t) with
      | some x =>
        rw [run_describeIn_of_entry k htext hentry] at hrun
        cases hrun
        exact .refl
      | none =>
        rw [run_describeIn_of_fresh k htext hentry] at hrun
        exact (steps_of_run_draw ht hentry (fun u hu _ _ _ => ih (.part ht hu)) hrun).2.1

/-- A type whose text is not remembered is remembered by its entry once it has been described. -/
theorem remembers_of_run {k : Nat} (ht : w.Met roots t)
    (htext : s.describer.memo.lookup (w.text t) = none)
    (hrun : (w.describeIn k t).run s = .ok (r, s')) : s'.Remembers (w.entry t) r := by
  cases k with
  | zero => cases hrun
  | succ k =>
    cases hentry : s.describer.memo.lookup (w.entry t) with
    | some x =>
      rw [run_describeIn_of_entry k htext hentry] at hrun
      cases hrun
      exact hentry
    | none =>
      rw [run_describeIn_of_fresh k htext hentry] at hrun
      exact (steps_of_run_draw ht hentry (fun u hu _ _ _ => steps_of_run k (.part ht hu)) hrun).2.2

end World

end EverEqual
