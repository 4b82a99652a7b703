import EverEqual.Proofs.Comparison.Unwrapped

/-!
# The two directions

Which of two operands is the left one matters to a single thing: conversions and typed equalities
are declared by the left one toward the right one. Without them, the verdict is the same in both
directions.

The walks in the two directions are not mirror images, because the left side is unwrapped first
whichever it is: of two nullables, each direction takes the layers off in another order, and meets
pairs that the other never meets. But all these pairs agree with the pair without any layers, and
there the rules make the same of both directions.

* `Node.Neutral`: a descriptor that declares neither conversions nor typed equalities;
* `Graph.decision_swap`: what the decision order makes of a pair in the other direction;
* `Graph.mirrored_or_agree`: a pair is decided like its mirror image, or it has a single part whose
  mirror image agrees with that of the pair;
* `Graph.agree_swap`: a pair agrees with its mirror image;
* `verdict_swap`: the verdicts and answers in both directions.
-/

namespace EverEqual

open Relation

/-- The type declares neither a conversion nor a typed equality. -/
structure Node.Neutral (n : Node) : Prop where
  conversions : n.conversions = []
  equatable : n.equatable = []

instance (n : Node) : Decidable n.Neutral :=
  decidable_of_iff (n.conversions = [] ∧ n.equatable = [])
    ⟨fun h => ⟨h.1, h.2⟩, fun h => ⟨h.conversions, h.equatable⟩⟩

/-- What is made of a pair, with the sides of all parts exchanged. -/
def Resolution.swap : Resolution → Resolution
  | .settled v => .settled v
  | .parts ps => .parts (ps.map Prod.swap)

/-! ### The decision order in the other direction -/

theorem Face.stage_ne_unwrapped {a b : Face} (ha : a.kind ≠ .nullable) (hb : b.kind ≠ .nullable) :
    a.stage b ≠ .left ∧ a.stage b ≠ .right :=
  ⟨fun h => ha (decided_of_stage h), fun h => hb (decided_of_stage h).2⟩

theorem Rule.sameKey_comm (m n : Node) : sameKey n m = sameKey m n := by
  unfold sameKey
  grind

theorem Rule.matched_swap (xs ys : List Ref) : matched ys xs = (matched xs ys).swap := by
  unfold matched Resolution.swap
  rw [← List.zip_swap]

namespace Graph

variable {g : Graph} {l r x y x' y' a b : Ref} {p : Ref × Ref}

theorem compareElements_swap (m n : Node) :
    Rule.compareElements g n m = (Rule.compareElements g m n).map Resolution.swap := by
  unfold Rule.compareElements
  cases m.key <;> cases n.key <;> simp only [Option.map_none, Option.map_some]
  · rfl
  · rw [Rule.sameKey_comm]
    split_ifs <;> rfl

theorem related_comm (hx : (g.node x).Neutral) (hy : (g.node y).Neutral) :
    g.Related y x ↔ g.Related x y := by
  have hneutral : ∀ {n : Node} {id : Identity}, n.Neutral →
      (n.convertsTo id).isSome = false ∧ n.equatableTo id = false := fun hn => by
    simp [Node.convertsTo, Node.equatableTo, hn.conversions, hn.equatable, IdentityMap.find?]
  unfold Related
  simp only [hneutral hx, hneutral hy]
  tauto

/-- Two types that are not nullable are decided like their mirror image. -/
theorem decision_swap (hx : (g.node x).Neutral) (hy : (g.node y).Neutral)
    (hkx : (g.node x).kind ≠ .nullable) (hky : (g.node y).kind ≠ .nullable) :
    g.decision y x (g.stage y x) = (g.decision x y (g.stage x y)).map Resolution.swap := by
  have hstage : g.stage y x = g.stage x y := Face.stage_comm hky hkx
  rw [hstage]
  cases hst : g.stage x y with
  | left => exact absurd hst (Face.stage_ne_unwrapped hkx hky).1
  | right => exact absurd hst (Face.stage_ne_unwrapped hkx hky).2
  | keyed => exact compareElements_swap _ _
  | tuple | generic => exact congrArg some (Rule.matched_swap _ _)
  | rest =>
    unfold decision
    simp only [related_comm hx hy]
    split_ifs <;> rfl
  | _ => rfl

/-! ### A pair and its mirror image -/

theorem Agree.symm {p q : Ref × Ref} (hpq : g.Agree p q) : g.Agree q p :=
  ⟨hpq.allowed.symm, hpq.rejecting.symm⟩

/-- Every chain of nullables within reach of two descriptors ends. -/
def Ends (g : Graph) (l r : Ref) : Prop := ∀ x, g.ReachEither l r x → ∃ z, g.Unwraps x z

theorem agree_of_unwraps (hc : g.Consistent l r) (hx : g.Unwraps x x') (hy : g.Unwraps y y')
    (ha : g.Unwraps a x') (hb : g.Unwraps b y') (hlx : g.ReachEither l r x)
    (hly : g.ReachEither l r y) (hla : g.ReachEither l r a) (hlb : g.ReachEither l r b) :
    g.Agree (x, y) (a, b) :=
  (agree_unwrapped hc hx hy hlx hly).trans (agree_unwrapped hc ha hb hla hlb).symm

theorem reachEither_of_edge {q : Ref × Ref} (hfin : ∀ x, g.ReachEither l r x → (g.node x).Finished)
    (hp₁ : g.ReachEither l r p.1) (hp₂ : g.ReachEither l r p.2)
    (hpq : g.Edge Rule.defaults p q) : g.ReachEither l r q.1 ∧ g.ReachEither l r q.2 := by
  obtain ⟨h₁, h₂⟩ := reach_of_edge (hfin _ hp₁) (hfin _ hp₂) hpq
  exact ⟨hp₁.imp (·.trans h₁) (·.trans h₁), hp₂.imp (·.trans h₂) (·.trans h₂)⟩

section Mirrored

variable (hc : g.Consistent l r) (hends : g.Ends l r)
  (hneutral : ∀ x, g.ReachEither l r x → (g.node x).Neutral)

include hc hends hneutral

/-- **A pair is decided like its mirror image, or it has a single part whose mirror image agrees
with that of the pair.** The second happens where a side is unwrapped. -/
theorem mirrored_or_agree (hlx : g.ReachEither l r x) (hly : g.ReachEither l r y) :
    g.decision y x (g.stage y x) = (g.decision x y (g.stage x y)).map Resolution.swap ∨
      ∃ a b, g.decision x y (g.stage x y) = some (.parts [(some a, some b)]) ∧
        g.Agree (y, x) (b, a) := by
  by_cases hunk : (g.node x).kind = .unknown ∨ (g.node y).kind = .unknown
  · left
    rw [show g.stage x y = .unknown from Face.stage_eq_unknown hunk,
      show g.stage y x = .unknown from Face.stage_eq_unknown hunk.symm]
    rfl
  by_cases hid : (g.node x).id = (g.node y).id
  · left
    rw [show g.stage x y = .identity from Face.stage_eq_identity hunk hid,
      show g.stage y x = .identity from Face.stage_eq_identity (mt Or.symm hunk) hid.symm]
    rfl
  obtain ⟨x', hx⟩ := hends x hlx
  obtain ⟨y', hy⟩ := hends y hly
  cases hx with
  | @wrapped _ a _ hnull hof hax =>
    right
    have hstage : g.stage x y = .left := Face.stage_eq_left hunk hid hnull
    refine ⟨a, y, by rw [hstage, decision, hof], ?_⟩
    exact agree_of_unwraps hc hy (.wrapped hnull hof hax) hy hax hly hlx hly
      (hlx.child (mem_children_of_underlying hof))
  | bare hkx =>
    cases hy with
    | @wrapped _ b _ hnull hof hby =>
      right
      have hstage : g.stage x y = .right := Face.stage_eq_right hunk hid hkx hnull
      refine ⟨x, b, by rw [hstage, decision, hof], ?_⟩
      exact agree_of_unwraps hc (.wrapped hnull hof hby) (.bare hkx) hby (.bare hkx) hly hlx
        (hly.child (mem_children_of_underlying hof)) hlx
    | bare hky => exact Or.inl (decision_swap (hneutral x hlx) (hneutral y hly) hkx hky)

variable (hfin : ∀ x, g.ReachEither l r x → (g.node x).Finished)

include hfin

/-- **The mirror image of an allowed pair is allowed.** -/
theorem mem_allowed_swap (hlx : g.ReachEither l r x) (hly : g.ReachEither l r y)
    (hxy : (x, y) ∈ g.allowed Rule.defaults) : (y, x) ∈ g.allowed Rule.defaults := by
  let mirrored : Set (Ref × Ref) := {p | g.ReachEither l r p.1 → g.ReachEither l r p.2 →
    p.swap ∈ g.allowed Rule.defaults}
  have hmirrored : g.allowing Rule.defaults mirrored ≤ mirrored := by
    rintro ⟨x, y⟩ hp hlx hly
    rcases mirrored_or_agree hc hends hneutral hlx hly with hmirror | ⟨a, b, hdec, hagree⟩
    · rw [Prod.swap_prod_mk, mem_allowed_iff, hmirror]
      rcases mem_allowing_iff.mp hp with hset | ⟨ps, hparts, hall⟩
      · exact Or.inl (by rw [hset]; rfl)
      · refine Or.inr ⟨ps.map Prod.swap, by rw [hparts]; rfl, fun q hq => ?_⟩
        obtain ⟨p, hps, rfl⟩ := List.mem_map.mp hq
        obtain ⟨a, b, rfl, hab⟩ := hall p hps
        have hedge : g.Edge Rule.defaults (x, y) (a, b) := edge_iff.mpr ⟨ps, hparts, hps⟩
        obtain ⟨ha, hb⟩ := reachEither_of_edge hfin hlx hly hedge
        exact ⟨b, a, rfl, hab ha hb⟩
    · have hedge : g.Edge Rule.defaults (x, y) (a, b) :=
        edge_iff.mpr ⟨_, hdec, List.mem_singleton_self _⟩
      obtain ⟨ha, hb⟩ := reachEither_of_edge hfin hlx hly hedge
      exact hagree.allowed.mpr (mem_of_edge hp hedge ha hb)
  exact OrderHom.lfp_le _ hmirrored hxy hlx hly

/-- **The mirror image of a pair leads to a rejected pair if the pair does.** The induction goes
along the way to the rejected pair. -/
theorem exists_rejected_swap (hlp : g.ReachEither l r p.1) (hrp : g.ReachEither l r p.2)
    {z : Ref × Ref} (hpz : ReflTransGen (g.Edge Rule.defaults) p z)
    (hz : g.Rejected Rule.defaults z) :
    ∃ z', ReflTransGen (g.Edge Rule.defaults) p.swap z' ∧ g.Rejected Rule.defaults z' := by
  induction hpz using ReflTransGen.head_induction_on with
  | refl =>
    obtain ⟨x, y⟩ := z
    rcases mirrored_or_agree hc hends hneutral hlp hrp with hmirror | ⟨a, b, hdec, -⟩
    · refine ⟨_, .refl, ?_⟩
      rw [Prod.swap_prod_mk, rejected_iff, hmirror]
      rcases rejected_iff.mp hz with hnone | hinc
      · exact Or.inl (by rw [hnone]; rfl)
      · exact Or.inr (by rw [hinc]; rfl)
    · exact absurd hz (not_rejected_of_parts hdec)
  | @head p c hpc hcz ih =>
    obtain ⟨x, y⟩ := p
    obtain ⟨hlc, hrc⟩ := reachEither_of_edge hfin hlp hrp hpc
    obtain ⟨z', hz', hrej⟩ := ih hlc hrc
    obtain ⟨ps, hparts, hmem⟩ := edge_iff.mp hpc
    rcases mirrored_or_agree hc hends hneutral hlp hrp with hmirror | ⟨a, b, hdec, hagree⟩
    · have hedge : g.Edge Rule.defaults (y, x) c.swap :=
        edge_iff.mpr ⟨ps.map Prod.swap, by rw [hmirror, hparts]; rfl,
          List.mem_map.mpr ⟨_, hmem, rfl⟩⟩
      exact ⟨z', .head hedge hz', hrej⟩
    · obtain rfl : ps = _ := by simpa [hparts] using hdec
      obtain rfl : c = (a, b) := by simpa [Prod.ext_iff] using hmem
      exact hagree.rejecting.mpr ⟨z', hz', hrej⟩

/-- **A pair agrees with its mirror image.** -/
theorem agree_swap (hlx : g.ReachEither l r x) (hly : g.ReachEither l r y) :
    g.Agree (x, y) (y, x) where
  allowed :=
    ⟨mem_allowed_swap hc hends hneutral hfin hlx hly,
      mem_allowed_swap hc hends hneutral hfin hly hlx⟩
  rejecting :=
    ⟨fun ⟨_, hz, hrej⟩ => exists_rejected_swap hc hends hneutral hfin hlx hly hz hrej,
      fun ⟨_, hz, hrej⟩ => exists_rejected_swap hc hends hneutral hfin hly hlx hz hrej⟩

end Mirrored

end Graph

/-- **Without conversions and typed equalities there is no direction.** If all that can be reached
from two descriptors is finished, descriptors of one identity agree, every chain of nullables ends,
and nothing declares a conversion or a typed equality, then the verdict on the two is the same in
both directions, and so is the answer. -/
theorem verdict_swap {g : Graph} {l r : Ref} (hl : g.FinishedFrom l) (hr : g.FinishedFrom r)
    (hc : g.Consistent l r) (hends : g.Ends l r)
    (hneutral : ∀ x, g.ReachEither l r x → (g.node x).Neutral) :
    (∃ v, verdict g Rule.defaults (some l) (some r) = .ok v ∧
      verdict g Rule.defaults (some r) (some l) = .ok v) ∧
    canBeEqual g Rule.defaults (some l) (some r) =
      canBeEqual g Rule.defaults (some r) (some l) := by
  have hagree : g.Agree (l, r) (r, l) :=
    Graph.agree_swap hc hends hneutral (fun x hx => hx.elim (hl x) (hr x)) (Or.inl .refl)
      (Or.inr .refl)
  obtain ⟨v, hv, hv'⟩ := hagree.exists_verdict hl hr hc hr hl hc.symm
  exact ⟨⟨v, hv, hv'⟩, (canBeEqual_of_verdict hv).trans (canBeEqual_of_verdict hv').symm⟩

/-- Three layers around an array that leads back to them, against one layer around an array of
itself: the two directions take the layers off in different orders, and both end in a circle. -/
theorem verdict_swap_rings :
    (Graph.layeredRings.FinishedFrom 5 ∧ Graph.layeredRings.FinishedFrom 6 ∧
      Graph.layeredRings.Consistent 5 6 ∧ Graph.layeredRings.Ends 5 6 ∧
      ∀ x, Graph.layeredRings.ReachEither 5 6 x → (Graph.layeredRings.node x).Neutral) ∧
    verdict Graph.layeredRings Rule.defaults (some 5) (some 6) = .ok .assumed ∧
    verdict Graph.layeredRings Rule.defaults (some 6) (some 5) = .ok .assumed := by
  have hclosed : ∀ x ∈ [0, 1, 2, 3, 4, 5, 6], ∀ y ∈ (Graph.layeredRings.node x).children,
      y ∈ [0, 1, 2, 3, 4, 5, 6] := by decide
  have hmem : ∀ x, Graph.layeredRings.ReachEither 5 6 x → x ∈ [0, 1, 2, 3, 4, 5, 6] := fun x hx =>
    hx.elim (Graph.mem_of_reach hclosed (by decide)) (Graph.mem_of_reach hclosed (by decide))
  have hfin : ∀ {x}, x ∈ [0, 1, 2, 3, 4, 5, 6] → Graph.layeredRings.FinishedFrom x :=
    Graph.finishedFrom_of_closed _ hclosed (by decide)
  have h₅ := hfin (x := 5) (by decide)
  have h₆ := hfin (x := 6) (by decide)
  have hc : Graph.layeredRings.Consistent 5 6 :=
    Graph.consistent_of_closed _ hclosed (by decide) (by decide) (by decide)
  have hends : Graph.layeredRings.Ends 5 6 := by
    intro x hx
    have h₁ : Graph.layeredRings.Unwraps 1 2 := .wrapped (by decide) rfl (.bare (by decide))
    have h₄ : Graph.layeredRings.Unwraps 4 2 := .wrapped (by decide) rfl h₁
    have hx := hmem x hx
    simp only [List.mem_cons, List.not_mem_nil, or_false] at hx
    rcases hx with rfl | rfl | rfl | rfl | rfl | rfl | rfl
    · exact ⟨0, .bare (by decide)⟩
    · exact ⟨2, h₁⟩
    · exact ⟨2, .bare (by decide)⟩
    · exact ⟨3, .bare (by decide)⟩
    · exact ⟨2, h₄⟩
    · exact ⟨2, .wrapped (by decide) rfl h₄⟩
    · exact ⟨3, .wrapped (by decide) rfl (.bare (by decide))⟩
  have hneutral : ∀ x, Graph.layeredRings.ReachEither 5 6 x →
      (Graph.layeredRings.node x).Neutral := fun x hx =>
    (by decide : ∀ x ∈ [0, 1, 2, 3, 4, 5, 6], (Graph.layeredRings.node x).Neutral) x (hmem x hx)
  obtain ⟨⟨v, hv, hv'⟩, -⟩ := verdict_swap h₅ h₆ hc hends hneutral
  have hrun : verdict Graph.layeredRings Rule.defaults (some 5) (some 6) = .ok .assumed := by
    decide
  exact ⟨⟨h₅, h₆, hc, hends, hneutral⟩, hrun, hv'.trans (hv.symm.trans hrun)⟩

end EverEqual
