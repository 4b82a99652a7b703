import EverEqual.Proofs.Comparison.Similar
import EverEqual.Proofs.Comparison.Termination
import Mathlib.Order.CompletePartialOrder
import Mathlib.Order.FixedPoints
import Mathlib.Data.Fintype.Pigeonhole
import Mathlib.Data.Finite.Prod

/-!
# The graph of pairs

Pairs of descriptors form a graph: there is an edge from a pair to every part that the first rule
that resolves it hands on, and a pair is rejected if the rules end on it without a part and without
compatibility. The walk goes through this graph depth-first, breaks off at the first incompatible
part and assumes what it meets again, so its verdict on a pair depends on the way that led there.
From an empty guard it does not: the verdict is a matter of what can be reached.

This needs descriptors of one identity to be alike, because the guard goes by identities. What then
replaces the search for a shortest path is the distance to a rejected pair. It is the same for pairs
of the same identities and gets smaller along the path, so the guard cannot hold the next pair.

* `Graph.Edge`, `Graph.Rejected`, `Graph.Consistent`: the graph, and identities that determine it;
* `Judged.exists_rejected`, `Judged.exists_return`, `Judged.mem_allowed`: what a verdict shows;
* `Judged.eq_incompatible`: a rejected pair within reach shows in the verdict;
* `Judged.eq_compatible_iff`: the compatible verdict as a least fixed point;
* `verdict_iff_reachable`: the verdict by what can be reached, and the answer as a least fixed
  point.
-/

namespace EverEqual

open Relation

namespace Graph

variable (g : Graph) (rules : List Rule)

/-- The first rule that resolves the pair `p` hands on `q` as a part. -/
def Edge (p q : Ref × Ref) : Prop :=
  ∃ rule ps, firstResolution g rules p.1 p.2 = some (rule, .parts ps) ∧ (some q.1, some q.2) ∈ ps

/-- The rules end on the pair `p` as incompatible, without handing on parts. -/
def Rejected (p : Ref × Ref) : Prop :=
  firstResolution g rules p.1 p.2 = none ∨
    ∃ rule, firstResolution g rules p.1 p.2 = some (rule, .settled .incompatible)

/-- Whether a descriptor can be reached from one of two. -/
def ReachEither (l r x : Ref) : Prop := g.Reach l x ∨ g.Reach r x

/-- Any two descriptors that can be reached from `l` or `r` and have one identity agree in every
attribute and in the identities of their parts. -/
def Consistent (l r : Ref) : Prop :=
  ∀ x y, g.ReachEither l r x → g.ReachEither l r y → (g.node x).id = (g.node y).id →
    (g.node x).Match (fun a b => (g.node a).id = (g.node b).id) (g.node y)

/-- One round of the rules: the pairs that are settled as compatible, or whose parts all are among
given pairs. -/
def allowing : Set (Ref × Ref) →o Set (Ref × Ref) where
  toFun known := {p |
    (∃ rule, firstResolution g rules p.1 p.2 = some (rule, .settled .compatible)) ∨
    ∃ rule ps, firstResolution g rules p.1 p.2 = some (rule, .parts ps) ∧
      ∀ q ∈ ps, ∃ a b, q = (some a, some b) ∧ (a, b) ∈ known}
  monotone' := by
    rintro S T hST p (hset | ⟨rule, ps, hres, hps⟩)
    · exact Or.inl hset
    · refine Or.inr ⟨rule, ps, hres, fun q hq => ?_⟩
      obtain ⟨a, b, hab, hS⟩ := hps q hq
      exact ⟨a, b, hab, hST hS⟩

/-- The pairs that the rules allow: the least set of pairs that is closed under them. -/
def allowed : Set (Ref × Ref) := OrderHom.lfp (g.allowing rules)

end Graph

/-! ### What a verdict shows -/

theorem resolve_ne_assumed {g : Graph} {x y : Ref} {rule : Rule} :
    rule.resolve g x y ≠ some (.settled .assumed) := by
  intro h
  cases rule with
  | collection =>
    simp only [Rule.resolve, Rule.compareElements] at h
    split_ifs at h
    · simp at h
    · split at h
      · simp at h
      · split_ifs at h <;> simp at h
      · simp at h
  | tuple | generic =>
    simp only [Rule.resolve, Rule.matched] at h
    split_ifs at h <;> simp at h
  | _ =>
    simp only [Rule.resolve] at h
    split_ifs at h <;> simp at h

namespace Judged

variable {g : Graph} {rules : List Rule} {stack : List IdentityPair} {x y : Ref}

theorem exists_rejected (h : Judged g rules stack x y .incompatible) :
    ∃ q, ReflTransGen (g.Edge rules) (x, y) q ∧ g.Rejected rules q := by
  generalize hv : Verdict.incompatible = v at h
  induction h with
  | again _ | assumed _ _ _ _ _ _ _ | compatible _ _ _ => cases hv
  | unresolved _ hres => exact ⟨_, .refl, Or.inl hres⟩
  | settled _ hres =>
    subst hv
    exact ⟨_, .refl, Or.inr ⟨_, hres⟩⟩
  | incompatible _ hres hp _ ih =>
    obtain ⟨q, hq, hrej⟩ := ih rfl
    exact ⟨q, .head ⟨_, _, hres, hp⟩ hq, hrej⟩

/-- An assumed verdict shows a way back: to a pair of the stack, or to a pair met before. -/
theorem exists_return (h : Judged g rules stack x y .assumed) :
    ∃ q, ReflTransGen (g.Edge rules) (x, y) q ∧
      (g.pair q.1 q.2 ∈ stack ∨ ∃ p, ReflTransGen (g.Edge rules) (x, y) p ∧
        TransGen (g.Edge rules) p q ∧ g.pair p.1 p.2 = g.pair q.1 q.2) := by
  generalize hv : Verdict.assumed = v at h
  induction h with
  | unresolved _ _ | incompatible _ _ _ _ | compatible _ _ _ => cases hv
  | again hmem => exact ⟨_, .refl, Or.inl hmem⟩
  | settled _ hres =>
    subst hv
    exact absurd (resolve_of_firstResolution hres) resolve_ne_assumed
  | assumed _ hres _ _ _ hp _ _ ih =>
    obtain ⟨q, hq, hback⟩ := ih rfl
    have hedge : g.Edge rules (_, _) (_, _) := ⟨_, _, hres, hp⟩
    refine ⟨q, .head hedge hq, ?_⟩
    rcases hback with hmem | ⟨p, hp', hpq, hsame⟩
    · rcases List.mem_cons.mp hmem with hsame | hmem
      · exact Or.inr ⟨_, .refl, .head' hedge hq, hsame.symm⟩
      · exact Or.inl hmem
    · exact Or.inr ⟨p, .head hedge hp', hpq, hsame⟩

theorem mem_allowed (hx : g.FinishedFrom x) (hy : g.FinishedFrom y)
    (h : Judged g rules stack x y .compatible) : (x, y) ∈ g.allowed rules := by
  generalize hv : Verdict.compatible = v at h
  induction h with
  | again _ | unresolved _ _ | incompatible _ _ _ _ | assumed _ _ _ _ _ _ _ => cases hv
  | settled _ hres =>
    subst hv
    rw [Graph.allowed, ← OrderHom.map_lfp]
    exact Or.inl ⟨_, hres⟩
  | compatible _ hres _ ih =>
    rw [Graph.allowed, ← OrderHom.map_lfp]
    refine Or.inr ⟨_, _, hres, fun q hq => ?_⟩
    obtain ⟨a, b, rfl, ha, hb⟩ :=
      exists_of_mem_parts (hx _ .refl) (hy _ .refl) (resolve_of_firstResolution hres) hq
    exact ⟨a, b, rfl, ih a b hq (hx.of_reach ha) (hy.of_reach hb) rfl⟩

end Judged

/-! ### What the rules allow -/

namespace Graph

variable {g : Graph} {rules : List Rule} {p q : Ref × Ref}

theorem mem_of_edge {known : Set (Ref × Ref)} (hp : p ∈ g.allowing rules known)
    (hpq : g.Edge rules p q) : q ∈ known := by
  obtain ⟨rule, ps, hres, hq⟩ := hpq
  rcases hp with ⟨_, hset⟩ | ⟨_, ps', hres', hps⟩
  · simp [hset] at hres
  · obtain ⟨-, rfl⟩ : _ ∧ ps' = ps := by simpa [hres'] using hres
    obtain ⟨a, b, hab, hin⟩ := hps _ hq
    obtain ⟨rfl, rfl⟩ : q.1 = a ∧ q.2 = b := by simpa using hab
    exact hin

theorem not_rejected_of_mem_allowing {known : Set (Ref × Ref)} (hp : p ∈ g.allowing rules known) :
    ¬ g.Rejected rules p := by
  rintro (hnone | ⟨_, hsome⟩) <;> rcases hp with ⟨rule, hres⟩ | ⟨rule, ps, hres, -⟩ <;> simp_all

theorem not_rejected_of_mem_allowed (hp : p ∈ g.allowed rules)
    (hpq : ReflTransGen (g.Edge rules) p q) : ¬ g.Rejected rules q := by
  let clear : Set (Ref × Ref) := {p | ∀ q, ReflTransGen (g.Edge rules) p q → ¬ g.Rejected rules q}
  have hclear : g.allowing rules clear ≤ clear := by
    intro p hp q hpq
    rcases hpq.cases_head with rfl | ⟨c, hpc, hcq⟩
    · exact not_rejected_of_mem_allowing hp
    · exact mem_of_edge hp hpc q hcq
  exact OrderHom.lfp_le _ hclear hp q hpq

theorem not_cycle_of_mem_allowed (hp : p ∈ g.allowed rules)
    (hpq : ReflTransGen (g.Edge rules) p q) : ¬ TransGen (g.Edge rules) q q := by
  let straight : Set (Ref × Ref) :=
    {p | ∀ q, ReflTransGen (g.Edge rules) p q → ¬ TransGen (g.Edge rules) q q}
  have hstraight : g.allowing rules straight ≤ straight := by
    intro p hp q hpq hcycle
    rcases hpq.cases_head with rfl | ⟨c, hpc, hcq⟩
    · obtain ⟨c, hpc, hcp⟩ := TransGen.head'_iff.mp hcycle
      exact mem_of_edge hp hpc p hcp hcycle
    · exact mem_of_edge hp hpc q hcq hcycle
  exact OrderHom.lfp_le _ hstraight hp q hpq

/-! ### Pairs of the same identities -/

/-- Two descriptors can be reached from `l` or `r` and have the same identity. -/
def Alike (g : Graph) (l r x y : Ref) : Prop :=
  g.ReachEither l r x ∧ g.ReachEither l r y ∧ (g.node x).id = (g.node y).id

/-- The same for pairs. -/
def PairAlike (g : Graph) (l r : Ref) (p q : Ref × Ref) : Prop :=
  g.Alike l r p.1 q.1 ∧ g.Alike l r p.2 q.2

variable {l r : Ref}

theorem ReachEither.child {x y : Ref} (hx : g.ReachEither l r x)
    (hy : y ∈ (g.node x).children) : g.ReachEither l r y :=
  hx.imp (·.tail hy) (·.tail hy)

theorem PairAlike.pair_eq (h : g.PairAlike l r p q) : g.pair p.1 p.2 = g.pair q.1 q.2 := by
  unfold pair
  rw [h.1.2.2, h.2.2.2]

theorem PairAlike.symm (h : g.PairAlike l r p q) : g.PairAlike l r q p :=
  ⟨⟨h.1.2.1, h.1.1, h.1.2.2.symm⟩, h.2.2.1, h.2.1, h.2.2.2.symm⟩

/-- In a consistent graph, having the same identity is a similarity. -/
theorem Consistent.similarity (h : g.Consistent l r) : Similarity g g (g.Alike l r) := by
  rintro x y ⟨hx, hy, hid⟩
  exact (h x y hx hy hid).imp_of_mem fun a ha b hb hab => ⟨hx.child ha, hy.child hb, hab⟩

theorem Consistent.exists_edge (h : g.Consistent l r) {p' : Ref × Ref} (hp : g.PairAlike l r p p')
    (hpq : g.Edge rules p q) : ∃ q', g.Edge rules p' q' ∧ g.PairAlike l r q q' := by
  obtain ⟨rule, ps, hres, hq⟩ := hpq
  have hrel := h.similarity.firstResolution hp.1 hp.2 rules
  rw [hres] at hrel
  cases hres' : firstResolution g rules p'.1 p'.2 with
  | none =>
    rw [hres'] at hrel
    cases hrel
  | some z =>
    rw [hres'] at hrel
    obtain ⟨rule', resolution⟩ := z
    cases hrel with
    | some hmatch =>
      obtain ⟨-, hmatch⟩ := hmatch
      cases hmatch with
      | parts hall =>
        obtain ⟨q', hq', hl, hr⟩ := exists_mem_of_forall₂ hall hq
        obtain ⟨a, b⟩ := q'
        cases hl with
        | some hl =>
          cases hr with
          | some hr => exact ⟨(_, _), ⟨_, _, hres', hq'⟩, hl, hr⟩

theorem Consistent.rejected (h : g.Consistent l r) {p' : Ref × Ref} (hp : g.PairAlike l r p p')
    (hrej : g.Rejected rules p) : g.Rejected rules p' := by
  have hrel := h.similarity.firstResolution hp.1 hp.2 rules
  rcases hrej with hres | ⟨rule, hres⟩
  · rw [hres] at hrel
    rcases none_or_some_of_rel hrel with ⟨-, hnone⟩ | ⟨_, _, hsome, -⟩
    · exact Or.inl hnone
    · cases hsome
  · rw [hres] at hrel
    rcases none_or_some_of_rel hrel with ⟨hnone, -⟩ | ⟨_, ⟨rule', resolution⟩, hsome, hres', hm⟩
    · cases hnone
    · cases hsome
      obtain ⟨-, hm⟩ := hm
      cases hm
      exact Or.inr ⟨rule', hres'⟩

theorem Consistent.exists_transGen (h : g.Consistent l r) {p' : Ref × Ref}
    (hp : g.PairAlike l r p p') (hpq : TransGen (g.Edge rules) p q) :
    ∃ q', TransGen (g.Edge rules) p' q' ∧ g.PairAlike l r q q' := by
  induction hpq with
  | single hpq =>
    obtain ⟨q', hpq', hq⟩ := h.exists_edge hp hpq
    exact ⟨q', .single hpq', hq⟩
  | tail _ hqs ih =>
    obtain ⟨q', hpq', hq⟩ := ih
    obtain ⟨s', hqs', hs⟩ := h.exists_edge hq hqs
    exact ⟨s', hpq'.tail hqs', hs⟩

/-! ### The distance to a rejected pair -/

/-- A rejected pair can be reached in a number of steps. -/
def RejectedIn (g : Graph) (rules : List Rule) : Nat → Ref × Ref → Prop
  | 0, p => g.Rejected rules p
  | n + 1, p => ∃ q, g.Edge rules p q ∧ RejectedIn g rules n q

theorem exists_rejectedIn (hpq : ReflTransGen (g.Edge rules) p q) (hq : g.Rejected rules q) :
    ∃ n, g.RejectedIn rules n p := by
  induction hpq using ReflTransGen.head_induction_on with
  | refl => exact ⟨0, hq⟩
  | head hpc _ ih =>
    obtain ⟨n, hn⟩ := ih
    exact ⟨n + 1, _, hpc, hn⟩

theorem Consistent.rejectedIn (h : g.Consistent l r) {n : Nat} {p' : Ref × Ref}
    (hp : g.PairAlike l r p p') (hn : g.RejectedIn rules n p) : g.RejectedIn rules n p' := by
  induction n generalizing p p' with
  | zero => exact h.rejected hp hn
  | succ n ih =>
    obtain ⟨q, hpq, hq⟩ := hn
    obtain ⟨q', hpq', hqq'⟩ := h.exists_edge hp hpq
    exact ⟨q', hpq', ih hqq' hq⟩

theorem reach_of_edge (hp₁ : (g.node p.1).Finished) (hp₂ : (g.node p.2).Finished)
    (hpq : g.Edge rules p q) : g.Reach p.1 q.1 ∧ g.Reach p.2 q.2 := by
  obtain ⟨rule, ps, hres, hq⟩ := hpq
  obtain ⟨a, b, hab, ha, hb⟩ :=
    exists_of_mem_parts hp₁ hp₂ (resolve_of_firstResolution hres) hq
  obtain ⟨rfl, rfl⟩ : q.1 = a ∧ q.2 = b := by simpa using hab
  exact ⟨ha, hb⟩

end Graph

/-- **A rejected pair within reach shows in the verdict.** The pair is as near to a rejected pair as
`n` says, and no pair of the stack is that near. -/
theorem Judged.eq_incompatible {g : Graph} {rules : List Rule} {l r : Ref}
    (hl : g.FinishedFrom l) (hr : g.FinishedFrom r) (hc : g.Consistent l r) (n : Nat)
    {stack : List IdentityPair} {x y : Ref} {v : Verdict} (hx : g.Reach l x) (hy : g.Reach r y)
    (hn : g.RejectedIn rules n (x, y)) (hleast : ∀ m < n, ¬ g.RejectedIn rules m (x, y))
    (hstack : ∀ p : Ref × Ref, g.Reach l p.1 → g.Reach r p.2 → g.pair p.1 p.2 ∈ stack →
      ∀ m ≤ n, ¬ g.RejectedIn rules m p)
    (h : Judged g rules stack x y v) : v = .incompatible := by
  induction n generalizing stack x y v with
  | zero =>
    cases h with
    | again hmem => exact absurd hn (hstack (x, y) hx hy hmem 0 le_rfl)
    | unresolved _ _ | incompatible _ _ _ _ => rfl
    | settled _ hres | assumed _ hres _ _ _ _ _ | compatible _ hres _ =>
      rcases hn with hnone | ⟨_, hsome⟩ <;> simp_all
  | succ n ih =>
    obtain ⟨c, hedge, hc'⟩ := hn
    obtain ⟨hxc, hyc⟩ := Graph.reach_of_edge (hl x hx) (hr y hy) hedge
    -- what is judged of the part `c`, inside a stack with the pair on top
    have hpart : ∀ {u}, Judged g rules (g.pair x y :: stack) c.1 c.2 u → u = .incompatible := by
      intro u hu
      refine ih (hx.trans hxc) (hy.trans hyc) hc' (fun m hm hrej => ?_) ?_ hu
      · exact hleast (m + 1) (by omega) ⟨c, hedge, hrej⟩
      · intro p hp₁ hp₂ hmem m hm hrej
        rcases List.mem_cons.mp hmem with hsame | hmem
        · have halike : g.PairAlike l r p (x, y) :=
            ⟨⟨Or.inl hp₁, Or.inl hx, congrArg IdentityPair.left hsame⟩,
              Or.inr hp₂, Or.inr hy, congrArg IdentityPair.right hsame⟩
          exact hleast m (by omega) (hc.rejectedIn halike hrej)
        · exact hstack p hp₁ hp₂ hmem m (by omega) hrej
    obtain ⟨rule, ps, hres, hmem⟩ := hedge
    cases h with
    | again hin => exact absurd ⟨c, ⟨rule, ps, hres, hmem⟩, hc'⟩ (hstack (x, y) hx hy hin _ le_rfl)
    | unresolved _ hres' | settled _ hres' => simp [hres] at hres'
    | incompatible _ _ _ _ => rfl
    | assumed _ hres' u hu hne _ _ =>
      obtain ⟨-, rfl⟩ : _ ∧ ps = _ := by simpa [hres] using hres'
      exact absurd (hpart (hu _ _ hmem)) (hne _ _ hmem)
    | compatible _ hres' hps =>
      obtain ⟨-, rfl⟩ : _ ∧ ps = _ := by simpa [hres] using hres'
      exact hpart (hps _ _ hmem)

/-! ### Cycles -/

namespace Graph

variable {g : Graph} {rules : List Rule} {l r : Ref} {p q : Ref × Ref}

theorem reach_of_reflTransGen (hl : g.FinishedFrom l) (hr : g.FinishedFrom r)
    (hp : ReflTransGen (g.Edge rules) (l, r) p) : g.Reach l p.1 ∧ g.Reach r p.2 := by
  induction hp with
  | refl => exact ⟨.refl, .refl⟩
  | tail _ hedge ih =>
    obtain ⟨h₁, h₂⟩ := reach_of_edge (hl _ ih.1) (hr _ ih.2) hedge
    exact ⟨ih.1.trans h₁, ih.2.trans h₂⟩

theorem transGen_add {f : Nat → Ref × Ref} (hf : ∀ n, TransGen (g.Edge rules) (f n) (f (n + 1)))
    (i k : Nat) : TransGen (g.Edge rules) (f i) (f (i + k + 1)) := by
  induction k with
  | zero => exact hf i
  | succ k ih => exact ih.trans (hf (i + k + 1))

/-- A way from a pair to one of the same identities leads to a cycle: it can be followed again and
again, and there are finitely many pairs. -/
theorem Consistent.exists_cycle (hl : g.FinishedFrom l) (hr : g.FinishedFrom r)
    (hc : g.Consistent l r) (hp : ReflTransGen (g.Edge rules) (l, r) p)
    (hpq : TransGen (g.Edge rules) p q) (hsame : g.pair p.1 p.2 = g.pair q.1 q.2) :
    ∃ z, ReflTransGen (g.Edge rules) (l, r) z ∧ TransGen (g.Edge rules) z z := by
  have hreach : ∀ {z}, ReflTransGen (g.Edge rules) (l, r) z → g.Reach l z.1 ∧ g.Reach r z.2 :=
    reach_of_reflTransGen hl hr
  -- two pairs on the way that have the same identities
  have halike : ∀ {z z'}, ReflTransGen (g.Edge rules) (l, r) z →
      ReflTransGen (g.Edge rules) (l, r) z' → g.pair z.1 z.2 = g.pair z'.1 z'.2 →
      g.PairAlike l r z z' := fun hz hz' h =>
    ⟨⟨Or.inl (hreach hz).1, Or.inl (hreach hz').1, congrArg IdentityPair.left h⟩,
      Or.inr (hreach hz).2, Or.inr (hreach hz').2, congrArg IdentityPair.right h⟩
  let Stage := {z // ReflTransGen (g.Edge rules) (l, r) z ∧ g.pair p.1 p.2 = g.pair z.1 z.2}
  have hnext : ∀ z : Stage, ∃ z' : Stage, TransGen (g.Edge rules) z.1 z'.1 := by
    rintro ⟨z, hz, hpz⟩
    obtain ⟨z', hzz', hqz'⟩ := hc.exists_transGen (halike hp hz hpz) hpq
    exact ⟨⟨z', hz.trans hzz'.to_reflTransGen, hsame.trans hqz'.pair_eq⟩, hzz'⟩
  choose next hstep using hnext
  let stage (n : Nat) : Stage := next^[n] ⟨p, hp, rfl⟩
  have hstage : ∀ n, TransGen (g.Edge rules) (stage n).1 (stage (n + 1)).1 := fun n => by
    simp only [stage, Function.iterate_succ_apply']
    exact hstep _
  have hbound : ∀ n, (stage n).1.1 < g.size ∧ (stage n).1.2 < g.size := fun n =>
    ⟨lt_size_of_completed (hl _ (hreach (stage n).2.1).1).completed,
      lt_size_of_completed (hr _ (hreach (stage n).2.1).2).completed⟩
  let place (n : Nat) : Fin g.size × Fin g.size :=
    (⟨(stage n).1.1, (hbound n).1⟩, ⟨(stage n).1.2, (hbound n).2⟩)
  obtain ⟨i, j, hij, hplace⟩ := Finite.exists_ne_map_eq_of_infinite place
  have heq : (stage i).1 = (stage j).1 := by
    obtain ⟨h₁, h₂⟩ := Prod.mk.inj hplace
    exact Prod.ext (Fin.mk.inj h₁) (Fin.mk.inj h₂)
  have hloop : ∀ i j, i < j → (stage i).1 = (stage j).1 →
      TransGen (g.Edge rules) (stage i).1 (stage i).1 := by
    intro i j hlt heq
    obtain ⟨k, rfl⟩ := Nat.exists_eq_add_of_lt hlt
    have h := transGen_add hstage i k
    rwa [← heq] at h
  rcases Nat.lt_or_gt_of_ne hij with hlt | hlt
  · exact ⟨_, (stage i).2.1, hloop i j hlt heq⟩
  · exact ⟨_, (stage j).2.1, hloop j i hlt heq.symm⟩

end Graph

/-! ### The verdict -/

namespace Judged

variable {g : Graph} {rules : List Rule} {l r : Ref} {v : Verdict}

theorem eq_incompatible_iff (hl : g.FinishedFrom l) (hr : g.FinishedFrom r)
    (hc : g.Consistent l r) (h : Judged g rules [] l r v) :
    v = .incompatible ↔ ∃ q, ReflTransGen (g.Edge rules) (l, r) q ∧ g.Rejected rules q := by
  constructor
  · rintro rfl
    exact h.exists_rejected
  · rintro ⟨q, hq, hrej⟩
    classical
    have hex := Graph.exists_rejectedIn hq hrej
    exact h.eq_incompatible hl hr hc (Nat.find hex) .refl .refl (Nat.find_spec hex)
      (fun m hm => Nat.find_min hex hm) (by simp)

theorem exists_cycle (hl : g.FinishedFrom l) (hr : g.FinishedFrom r) (hc : g.Consistent l r)
    (h : Judged g rules [] l r .assumed) :
    ∃ q, ReflTransGen (g.Edge rules) (l, r) q ∧ TransGen (g.Edge rules) q q := by
  obtain ⟨q, -, hmem | ⟨p, hp, hpq, hsame⟩⟩ := h.exists_return
  · cases hmem
  · exact hc.exists_cycle hl hr hp hpq hsame

theorem eq_compatible_iff (hl : g.FinishedFrom l) (hr : g.FinishedFrom r) (hc : g.Consistent l r)
    (h : Judged g rules [] l r v) : v = .compatible ↔ (l, r) ∈ g.allowed rules := by
  constructor
  · rintro rfl
    exact h.mem_allowed hl hr
  · intro hmem
    cases v with
    | incompatible =>
      obtain ⟨q, hq, hrej⟩ := (h.eq_incompatible_iff hl hr hc).mp rfl
      exact absurd hrej (Graph.not_rejected_of_mem_allowed hmem hq)
    | assumed =>
      obtain ⟨q, hq, hcycle⟩ := h.exists_cycle hl hr hc
      exact absurd hcycle (Graph.not_cycle_of_mem_allowed hmem hq)
    | compatible => rfl

end Judged

/-- **The verdict is a matter of what can be reached.** If all that can be reached from two
descriptors is finished and descriptors of one identity agree, the walk has a verdict: it is
incompatible if a rejected pair can be reached, otherwise assumed if a cycle can be reached, and
otherwise compatible. So the answer is true exactly on the least set of pairs closed under the
rules. -/
theorem verdict_iff_reachable {g : Graph} {l r : Ref} (rules : List Rule)
    (hl : g.FinishedFrom l) (hr : g.FinishedFrom r) (hc : g.Consistent l r) :
    ∃ v, verdict g rules (some l) (some r) = .ok v ∧
      (v = .incompatible ↔
        ∃ q, ReflTransGen (g.Edge rules) (l, r) q ∧ g.Rejected rules q) ∧
      (v = .assumed ↔
        (¬ ∃ q, ReflTransGen (g.Edge rules) (l, r) q ∧ g.Rejected rules q) ∧
          ∃ q, ReflTransGen (g.Edge rules) (l, r) q ∧ TransGen (g.Edge rules) q q) ∧
      (v = .compatible ↔
        (¬ ∃ q, ReflTransGen (g.Edge rules) (l, r) q ∧ g.Rejected rules q) ∧
          ¬ ∃ q, ReflTransGen (g.Edge rules) (l, r) q ∧ TransGen (g.Edge rules) q q) ∧
      (canBeEqual g rules (some l) (some r) = .ok true ↔
        (l, r) ∈ OrderHom.lfp (g.allowing rules)) := by
  obtain ⟨v, hv⟩ := exists_verdict rules hl hr
  have hj := judged_of_verdict hv
  have hrej := hj.eq_incompatible_iff hl hr hc
  have hcomp := hj.eq_compatible_iff hl hr hc
  refine ⟨v, hv, hrej, ?_, ?_, ?_⟩
  · constructor
    · rintro rfl
      exact ⟨fun hq => absurd (hrej.mpr hq) (by simp), hj.exists_cycle hl hr hc⟩
    · rintro ⟨hno, q, hq, hcycle⟩
      cases v with
      | incompatible => exact absurd (hrej.mp rfl) hno
      | assumed => rfl
      | compatible => exact absurd hcycle (Graph.not_cycle_of_mem_allowed (hcomp.mp rfl) hq)
  · constructor
    · intro h
      exact ⟨fun ⟨q, hq, hq'⟩ => Graph.not_rejected_of_mem_allowed (hcomp.mp h) hq hq',
        fun ⟨q, hq, hq'⟩ => Graph.not_cycle_of_mem_allowed (hcomp.mp h) hq hq'⟩
    · rintro ⟨hno, hstraight⟩
      cases v with
      | incompatible => exact absurd (hrej.mp rfl) hno
      | assumed => exact absurd (hj.exists_cycle hl hr hc) hstraight
      | compatible => rfl
  · rw [canBeEqual_of_verdict hv, ← Graph.allowed, ← hcomp]
    simp

theorem Graph.consistent_rings : Graph.rings.Consistent 0 3 := by
  have hmem : ∀ {x}, rings.ReachEither 0 3 x → x ∈ [0, 1, 2, 3] := fun hx =>
    hx.elim (mem_of_reach_rings (by decide)) (mem_of_reach_rings (by decide))
  intro x y hx hy hid
  have hx := hmem hx
  have hy := hmem hy
  simp only [List.mem_cons, List.not_mem_nil, or_false] at hx hy
  rcases hx with rfl | rfl | rfl | rfl <;> rcases hy with rfl | rfl | rfl | rfl <;>
    first
    | exact absurd hid (by decide)
    | exact ⟨rfl, rfl, .some rfl, .none, .none, .nil, rfl, .nil, fun _ => rfl, fun _ => rfl,
        fun _ => rfl⟩
    | exact ⟨rfl, rfl, .none, .none, .some rfl, .nil, rfl, .nil, fun _ => rfl, fun _ => rfl,
        fun _ => rfl⟩

theorem verdict_iff_reachable_rings :
    (Graph.rings.FinishedFrom 0 ∧ Graph.rings.FinishedFrom 3 ∧ Graph.rings.Consistent 0 3) ∧
      ∃ v, verdict Graph.rings Rule.defaults (some 0) (some 3) = .ok v ∧
        (canBeEqual Graph.rings Rule.defaults (some 0) (some 3) = .ok true ↔
          (0, 3) ∈ OrderHom.lfp (Graph.rings.allowing Rule.defaults)) := by
  have h₀ := Graph.finishedFrom_rings (x := 0) (by decide)
  have h₃ := Graph.finishedFrom_rings (x := 3) (by decide)
  obtain ⟨v, hv, -, -, -, hlfp⟩ :=
    verdict_iff_reachable Rule.defaults h₀ h₃ Graph.consistent_rings
  exact ⟨⟨h₀, h₃, Graph.consistent_rings⟩, v, hv, hlfp⟩

end EverEqual
