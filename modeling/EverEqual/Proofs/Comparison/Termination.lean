import EverEqual.Proofs.Comparison.Judgment
import EverEqual.Proofs.Descriptor.Reachable
import Mathlib.Data.Set.Prod
import Mathlib.Tactic.SplitIfs

/-!
# The walk ends

A walk from two descriptors ends with a verdict, whatever rules it uses and however the graph runs
in circles, if everything that can be reached is finished. No part gets smaller on the way; what
shrinks is the set of pairs of identities that the guard does not hold.

* `exists_of_mem_parts`: a rule hands on descriptors that are there, each reachable from its side;
* `Guard.Within`: the guard on a walk from two descriptors, with the bound on its depth;
* `Walker.run_compare_within`: a call inside such a walk ends, and shows only such guards;
* `walk_ends`: the whole walk.
-/

namespace EverEqual

/-! ### What a rule hands on -/

section Parts

variable {g : Graph} {x y : Ref}

theorem Node.exists_element {n : Node} (he : n.enumerable = true) (hn : n.nonGeneric = false) :
    ∃ r, n.element = some r := by
  cases h : n.element with
  | some r => exact ⟨r, rfl⟩
  | none => simp [Node.nonGeneric, he, h] at hn

theorem Node.mem_children_of_element {n : Node} {r : Ref} (h : n.element = some r) :
    r ∈ n.children := by
  simp [Node.children, h]

theorem Node.mem_children_of_underlying {n : Node} {r : Ref} (h : n.underlying = some r) :
    r ∈ n.children := by
  simp [Node.children, h]

theorem Node.mem_children_of_mem_tuple {n : Node} {r : Ref} (h : r ∈ n.tuple) :
    r ∈ n.children := by
  simp [Node.children, h]

theorem Node.mem_children_of_mem_typeArgs {n : Node} {r : Ref} (h : r ∈ n.typeArgs) :
    r ∈ n.children := by
  simp [Node.children, h]

theorem exists_of_mem_matched {ls rs : List Ref} {ps : List (Option Ref × Option Ref)}
    (h : Rule.matched ls rs = .parts ps) {p : Option Ref × Option Ref} (hp : p ∈ ps) :
    ∃ a b, p = (some a, some b) ∧ a ∈ ls ∧ b ∈ rs := by
  unfold Rule.matched at h
  obtain rfl := Resolution.parts.inj h
  obtain ⟨hl, hr⟩ := List.of_mem_zip hp
  obtain ⟨a, ha, hpa⟩ := List.mem_map.mp hl
  obtain ⟨b, hb, hpb⟩ := List.mem_map.mp hr
  exact ⟨a, b, Prod.ext hpa.symm hpb.symm, ha, hb⟩

/-- A rule hands on descriptors that are there: each is the operand itself or one that it refers
to. -/
theorem exists_of_mem_parts {rule : Rule} {ps : List (Option Ref × Option Ref)}
    (hx : (g.node x).Finished) (hy : (g.node y).Finished)
    (h : rule.resolve g x y = some (.parts ps)) {p : Option Ref × Option Ref} (hp : p ∈ ps) :
    ∃ a b, p = (some a, some b) ∧ g.Reach x a ∧ g.Reach y b := by
  have child : ∀ {z c : Ref}, c ∈ (g.node z).children → g.Reach z c := fun hc =>
    Relation.ReflTransGen.single hc
  cases rule with
  | nullable =>
    simp only [Rule.resolve] at h
    split_ifs at h with hl hr
    · obtain ⟨a, ha⟩ := hx.exists_underlying hl
      simp only [Option.some.injEq, Resolution.parts.injEq] at h
      subst h
      rw [List.mem_singleton] at hp
      exact ⟨a, y, by rw [hp, ha], child (Node.mem_children_of_underlying ha), .refl⟩
    · obtain ⟨b, hb⟩ := hy.exists_underlying hr
      simp only [Option.some.injEq, Resolution.parts.injEq] at h
      subst h
      rw [List.mem_singleton] at hp
      exact ⟨x, b, by rw [hp, hb], .refl, child (Node.mem_children_of_underlying hb)⟩
  | collection =>
    simp only [Rule.resolve] at h
    split_ifs at h with he hn
    · simp at h
    · simp only [Bool.or_eq_true, Bool.not_eq_true', not_or, Bool.not_eq_false,
        Bool.not_eq_true] at he hn
      obtain ⟨a, ha⟩ := Node.exists_element he.1 hn.1
      obtain ⟨b, hb⟩ := Node.exists_element he.2 hn.2
      have hps : ps = [((g.node x).element, (g.node y).element)] := by
        unfold Rule.compareElements at h
        split at h
        · simpa using h.symm
        · split_ifs at h
          · simpa using h.symm
          · simp at h
        · simp at h
      rw [hps, List.mem_singleton] at hp
      exact ⟨a, b, by rw [hp, ha, hb], child (Node.mem_children_of_element ha),
        child (Node.mem_children_of_element hb)⟩
  | tuple =>
    simp only [Rule.resolve] at h
    split_ifs at h
    · simp at h
    · obtain ⟨a, b, hpab, ha, hb⟩ := exists_of_mem_matched (Option.some.inj h) hp
      exact ⟨a, b, hpab, child (Node.mem_children_of_mem_tuple ha),
        child (Node.mem_children_of_mem_tuple hb)⟩
  | generic =>
    simp only [Rule.resolve] at h
    split_ifs at h
    obtain ⟨a, b, hpab, ha, hb⟩ := exists_of_mem_matched (Option.some.inj h) hp
    exact ⟨a, b, hpab, child (Node.mem_children_of_mem_typeArgs ha),
      child (Node.mem_children_of_mem_typeArgs hb)⟩
  | _ =>
    simp only [Rule.resolve] at h
    split_ifs at h <;> simp at h

theorem resolve_of_firstResolution {rules : List Rule} {rule : Rule} {resolution : Resolution}
    (h : firstResolution g rules x y = some (rule, resolution)) :
    rule.resolve g x y = some resolution := by
  obtain ⟨a, -, ha⟩ := List.exists_of_findSome?_eq_some h
  obtain ⟨res, hres, heq⟩ := Option.map_eq_some_iff.mp ha
  obtain ⟨rfl, rfl⟩ := Prod.mk.inj heq
  exact hres

end Parts

/-! ### The guard on the way -/

/-- The guard of a walk from `l` and `r`: no pair is stacked twice, the set holds the stacked pairs,
and each of them is made of an identity reachable on the left and one reachable on the right. -/
structure Guard.Within (g : Graph) (l r : Ref) (guard : Guard) : Prop where
  sound : guard.Sound
  left : ∀ p ∈ guard.stack, p.left ∈ g.identitiesFrom l
  right : ∀ p ∈ guard.stack, p.right ∈ g.identitiesFrom r

/-- The number of pairs of identities that can be met on a walk from `l` and `r`. -/
noncomputable def Graph.pairsFrom (g : Graph) (l r : Ref) : Nat :=
  (g.identitiesFrom l).ncard * (g.identitiesFrom r).ncard

section Within

variable {g : Graph} {l r : Ref} {guard : Guard}

theorem Guard.within_empty : Guard.Within g l r {} :=
  ⟨Guard.sound_empty, by simp, by simp⟩

theorem Guard.Within.push (h : guard.Within g l r) {x y : Ref} (hx : g.Reach l x)
    (hy : g.Reach r y) (hact : guard.active (g.pair x y) = false) :
    (guard.push (g.pair x y)).Within g l r := by
  refine ⟨h.sound.push hact, ?_, ?_⟩
  · intro p hp
    rcases List.mem_cons.mp hp with rfl | hp
    · exact Graph.id_mem_identitiesFrom hx
    · exact h.left p hp
  · intro p hp
    rcases List.mem_cons.mp hp with rfl | hp
    · exact Graph.id_mem_identitiesFrom hy
    · exact h.right p hp

theorem Guard.Within.depth_le (h : guard.Within g l r) : guard.depth ≤ g.pairsFrom l r := by
  let both (p : IdentityPair) : Identity × Identity := (p.left, p.right)
  have hinj : Function.Injective both := fun p q hpq => by
    obtain ⟨hl, hr⟩ := Prod.mk.inj hpq
    cases p
    cases q
    simp_all
  have hnodup : (guard.stack.map both).Nodup := h.sound.1.map hinj
  have hsub : ↑(guard.stack.map both).toFinset ⊆ g.identitiesFrom l ×ˢ g.identitiesFrom r := by
    intro q hq
    rw [Finset.mem_coe, List.mem_toFinset, List.mem_map] at hq
    obtain ⟨p, hp, rfl⟩ := hq
    exact ⟨h.left p hp, h.right p hp⟩
  have hcard := Set.ncard_le_ncard hsub
    ((Graph.finite_identitiesFrom l).prod (Graph.finite_identitiesFrom r))
  rw [Set.ncard_coe_finset, List.toFinset_card_of_nodup hnodup, List.length_map,
    Set.ncard_prod] at hcard
  exact hcard

theorem Graph.pairsFrom_lt_depthBound : g.pairsFrom l r < depthBound g :=
  Nat.lt_succ_of_le
    (Nat.mul_le_mul (Graph.ncard_identitiesFrom_le l) (Graph.ncard_identitiesFrom_le r))

end Within

/-- What may happen on a walk from `l` and `r`. -/
def Event.Within (g : Graph) (l r : Ref) : Event → Prop
  | .entered guard | .left guard => guard.Within g l r
  | .resolved step => step.depth ≤ g.pairsFrom l r

namespace Walker

variable {σ : Type} {w : Walker σ} {l r : Ref}

theorem run_conjunction_ok {f : Option Ref → Option Ref → WalkM σ Verdict} {guard : Guard}
    {P : σ → Prop} (ps : List (Option Ref × Option Ref))
    (hf : ∀ p ∈ ps, ∀ a, P a → ∃ v a', (f p.1 p.2).run ⟨guard, a⟩ = .ok (v, ⟨guard, a'⟩) ∧ P a')
    (v : Verdict) {a : σ} (ha : P a) :
    ∃ v' a', (conjunction f ps v).run ⟨guard, a⟩ = .ok (v', ⟨guard, a'⟩) ∧ P a' := by
  induction ps generalizing v a with
  | nil => exact ⟨v, a, rfl, ha⟩
  | cons p ps ih =>
    obtain ⟨v₁, a₁, hp, ha₁⟩ := hf p List.mem_cons_self a ha
    rw [run_conjunction_cons, hp]
    by_cases hinc : v.and v₁ = .incompatible
    · exact ⟨v.and v₁, a₁, if_pos hinc, ha₁⟩
    · obtain ⟨v₂, a₂, hps, ha₂⟩ := ih (fun q hq => hf q (List.mem_cons_of_mem _ hq)) (v.and v₁) ha₁
      exact ⟨v₂, a₂, (if_neg hinc).trans hps, ha₂⟩

/-- **A call inside a walk ends.** What is still left of the depth and what the guard holds exceed,
together, the number of pairs that the guard could hold. -/
theorem run_compare_within (hl : w.graph.FinishedFrom l) (hr : w.graph.FinishedFrom r)
    {P : σ → Prop} (hP : ∀ e a, Event.Within w.graph l r e → P a → P (w.observe e a)) :
    ∀ (fuel : Nat) {x y : Ref} {s : Walk σ}, w.graph.Reach l x → w.graph.Reach r y →
      s.guard.Within w.graph l r → P s.gathered →
      w.graph.pairsFrom l r < fuel + s.guard.depth →
      ∃ v a, (w.compare fuel (some x) (some y)).run s = .ok (v, ⟨s.guard, a⟩) ∧ P a := by
  intro fuel
  induction fuel with
  | zero =>
    intro x y s _ _ hs _ hfuel
    have := hs.depth_le
    omega
  | succ fuel ih =>
    intro x y s hx hy hs ha hfuel
    cases hact : s.guard.active (w.graph.pair x y) with
    | true => exact ⟨.assumed, s.gathered, run_compare_of_active hact, ha⟩
    | false =>
      have hpush := hs.push hx hy hact
      have hpop : (s.guard.push (w.graph.pair x y)).pop = s.guard := Guard.pop_push hact
      have hin := hP (.entered _) s.gathered hpush ha
      have hout : ∀ a, P a → P (w.observe (.left (s.guard.push (w.graph.pair x y)).pop) a) :=
        fun a ha => hP _ a (by rw [hpop]; exact hs) ha
      -- leaving the pair restores the guard
      have hleft : ∀ a : σ, w.departed ⟨s.guard.push (w.graph.pair x y), a⟩ =
          ⟨s.guard, w.observe (.left (s.guard.push (w.graph.pair x y)).pop) a⟩ := fun a => by
        simp [departed, hpop]
      have hrep : ∀ (rule : Rule) (v : Verdict) (a : σ), P a →
          P (w.reported rule (w.graph.pair x y) v
            ⟨s.guard.push (w.graph.pair x y), a⟩).gathered := fun rule v a ha =>
        hP _ a hpush.depth_le ha
      match hres : firstResolution w.graph w.rules x y with
      | none =>
        rw [run_compare_of_unresolved hact hres]
        exact ⟨_, _, congrArg _ (congrArg _ (hleft _)), hout _ hin⟩
      | some (rule, .settled v) =>
        rw [run_compare_of_settled hact hres]
        exact ⟨_, _, congrArg _ (congrArg _ (hleft _)), hout _ (hrep rule v _ hin)⟩
      | some (rule, .parts ps) =>
        have hf : ∀ p ∈ ps, ∀ a, P a → ∃ v a', (w.compare fuel p.1 p.2).run
            ⟨s.guard.push (w.graph.pair x y), a⟩ =
              .ok (v, ⟨s.guard.push (w.graph.pair x y), a'⟩) ∧ P a' := by
          intro p hp a ha
          obtain ⟨c, d, rfl, hc, hd⟩ := exists_of_mem_parts (hl x hx) (hr y hy)
            (resolve_of_firstResolution hres) hp
          refine ih (hx.trans hc) (hy.trans hd) hpush ha ?_
          simp only [Guard.depth, Guard.push, List.length_cons] at hfuel ⊢
          omega
        obtain ⟨v, a, hrun, ha'⟩ := run_conjunction_ok ps hf .compatible hin
        rw [run_compare_of_parts hact hres, entered, hrun]
        exact ⟨_, _, congrArg _ (congrArg _ (hleft _)), hout _ (hrep rule v _ ha')⟩

end Walker

theorem exists_verdict {g : Graph} {l r : Ref} (rules : List Rule) (hl : g.FinishedFrom l)
    (hr : g.FinishedFrom r) : ∃ v, verdict g rules (some l) (some r) = .ok v := by
  have hbound := g.pairsFrom_lt_depthBound (l := l) (r := r)
  obtain ⟨v, steps, hrun, -⟩ :=
    Walker.run_compare_within (w := ⟨g, rules, tracing⟩) (P := fun _ => True) hl hr
      (fun _ _ _ _ => trivial) (depthBound g) (s := ⟨{}, []⟩) .refl .refl Guard.within_empty
      trivial (Nat.lt_add_right _ hbound)
  have htop : Walker.run ⟨g, rules, tracing⟩ [] (some l) (some r) = .ok (v, steps) := by
    unfold Walker.run
    rw [hrun]
    rfl
  exact ⟨v, verdict_of_run htop⟩

/-- The observer that keeps everything that happens, the last event first. -/
def logging (e : Event) (events : List Event) : List Event := e :: events

/-- **The walk ends.** Whatever the rules, a walk from two descriptors ends with a verdict if all
that can be reached from them is finished, and the bound on its depth plays no part in that. Every
guard on the way is sound and holds only pairs of identities that can be reached, so its depth is
bounded by the number of those pairs. And every call, from whatever state, leaves the stack and the
set of the guard as it found them. -/
theorem walk_ends {g : Graph} {l r : Ref} (rules : List Rule) (hl : g.FinishedFrom l)
    (hr : g.FinishedFrom r) :
    (∃ v events,
      (∀ fuel, (g.identitiesFrom l).ncard * (g.identitiesFrom r).ncard < fuel →
        (Walker.compare ⟨g, rules, logging⟩ fuel (some l) (some r)).run ⟨{}, []⟩ =
          .ok (v, ⟨{}, events⟩)) ∧
      Walker.run ⟨g, rules, logging⟩ [] (some l) (some r) = .ok (v, events) ∧
      verdict g rules (some l) (some r) = .ok v ∧
      ∀ guard, Event.entered guard ∈ events ∨ Event.left guard ∈ events →
        guard.stack.Nodup ∧ (∀ p, p ∈ guard.members ↔ p ∈ guard.stack) ∧
        (∀ p ∈ guard.stack, p.left ∈ g.identitiesFrom l ∧ p.right ∈ g.identitiesFrom r) ∧
        guard.depth ≤ (g.identitiesFrom l).ncard * (g.identitiesFrom r).ncard) ∧
    ∀ {σ : Type} (w : Walker σ) (fuel : Nat) (a b : Option Ref) (s s' : Walk σ) (v : Verdict),
      (w.compare fuel a b).run s = .ok (v, s') →
        s'.guard.stack = s.guard.stack ∧ s'.guard.members = s.guard.members := by
  refine ⟨?_, fun w fuel a b s s' v hrun => ?_⟩
  · obtain ⟨v, events, hrun, hevents⟩ :=
      Walker.run_compare_within (w := ⟨g, rules, logging⟩)
        (P := fun events => ∀ e ∈ events, e.Within g l r) hl hr
        (fun e events he hall => List.forall_mem_cons.mpr ⟨he, hall⟩) (g.pairsFrom l r + 1)
        (s := ⟨{}, []⟩) .refl .refl Guard.within_empty (by simp)
        (Nat.lt_add_right _ (Nat.lt_succ_self _))
    have hfuel : ∀ fuel, g.pairsFrom l r < fuel →
        (Walker.compare ⟨g, rules, logging⟩ fuel (some l) (some r)).run ⟨{}, []⟩ =
          .ok (v, ⟨{}, events⟩) := fun fuel hlt => by
      obtain ⟨k, rfl⟩ := Nat.exists_eq_add_of_le hlt
      exact Walker.run_compare_add k hrun
    have htop : Walker.run ⟨g, rules, logging⟩ [] (some l) (some r) = .ok (v, events) := by
      unfold Walker.run
      rw [hfuel _ Graph.pairsFrom_lt_depthBound]
      rfl
    refine ⟨v, events, hfuel, htop, ?_, fun guard hguard => ?_⟩
    · obtain ⟨u, hu⟩ := exists_verdict rules hl hr
      rw [hu, (Walker.judged_of_run_empty htop).unique (judged_of_verdict hu)]
    · have hin : guard.Within g l r := hguard.elim (hevents _) (hevents _)
      exact ⟨hin.sound.1, hin.sound.2, fun p hp => ⟨hin.left p hp, hin.right p hp⟩, hin.depth_le⟩
  · have hguard := Walker.guard_run_compare hrun
    rw [hguard]
    exact ⟨rfl, rfl⟩

/-- An array of pointers to a copy of itself, that copy, and an array of itself. -/
def Graph.rings : Graph :=
  ⟨#[{ kind := .array, id := "A", element := some 1, completed := true },
     { kind := .nullable, id := "*A", underlying := some 2, completed := true },
     { kind := .array, id := "A", element := some 1, completed := true },
     { kind := .array, id := "B", element := some 3, completed := true }]⟩

theorem Graph.mem_of_reach_rings {x y : Ref} (hx : x ∈ [0, 1, 2, 3]) (h : rings.Reach x y) :
    y ∈ [0, 1, 2, 3] :=
  mem_of_reach (by decide) hx h

theorem Graph.finishedFrom_rings {x : Ref} (hx : x ∈ [0, 1, 2, 3]) : rings.FinishedFrom x :=
  fun y hy => (by decide : ∀ y ∈ [0, 1, 2, 3], (rings.node y).Finished) y (mem_of_reach_rings hx hy)

theorem walk_ends_rings :
    (Graph.rings.FinishedFrom 0 ∧ Graph.rings.FinishedFrom 3) ∧
      ∃ v events,
        Walker.run ⟨Graph.rings, Rule.defaults, logging⟩ [] (some 0) (some 3) = .ok (v, events) ∧
        verdict Graph.rings Rule.defaults (some 0) (some 3) = .ok v := by
  have h₀ := Graph.finishedFrom_rings (x := 0) (by decide)
  have h₃ := Graph.finishedFrom_rings (x := 3) (by decide)
  obtain ⟨⟨v, events, -, hrun, hv, -⟩, -⟩ := walk_ends Rule.defaults h₀ h₃
  exact ⟨⟨h₀, h₃⟩, v, events, hrun, hv⟩

end EverEqual
