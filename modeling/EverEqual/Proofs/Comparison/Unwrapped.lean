import EverEqual.Proofs.Comparison.Nested

/-!
# Unwrapped descriptors

A nullable stands for what it wraps, through any number of layers. The rules take the layers off one
by one, the left ones first, and on the way the pair can be settled early: a side can be unresolved,
and a layer of the one side can have the identity of the other side. The verdict does not depend on
this. If a layer is identical with the other side, then so is what both wrap in the end, and
otherwise the layer has a single part, the pair without it.

A nullable that leads back to itself wraps nothing in the end; such descriptors have no unwrapping.

* `Graph.Unwraps`: what is left of a descriptor without its layers;
* `Graph.Agree`: two pairs that the walk cannot tell apart from an empty guard;
* `Graph.agree_unwrapped`: a pair agrees with its unwrapped sides;
* `Graph.exists_wrap_nullable`: new layers around a descriptor leave its unwrapping as it is;
* `verdict_unwrapped`: the verdict is that on the unwrapped sides, and new layers leave the answers
  as they are.
-/

namespace EverEqual

open Relation

namespace Graph

/-- Taking off the layers of nullables around `x` ends at `z`. -/
inductive Unwraps (g : Graph) : Ref → Ref → Prop
  | bare {x : Ref} (hkind : (g.node x).kind ≠ .nullable) : Unwraps g x x
  | wrapped {x y z : Ref} (hkind : (g.node x).kind = .nullable)
      (hof : (g.node x).underlying = some y) (hyz : Unwraps g y z) : Unwraps g x z

variable {g h : Graph} {l r x y x' y' a b : Ref}

theorem mem_children_of_underlying (hof : (g.node x).underlying = some y) :
    y ∈ (g.node x).children := by
  simp [Node.children, hof]

theorem Unwraps.reach (hx : g.Unwraps x x') : g.Reach x x' := by
  induction hx with
  | bare _ => exact .refl
  | wrapped _ hof _ ih => exact .head (mem_children_of_underlying hof) ih

theorem Unwraps.kind_ne (hx : g.Unwraps x x') : (g.node x').kind ≠ .nullable := by
  induction hx with
  | bare hkind => exact hkind
  | wrapped _ _ _ ih => exact ih

theorem Unwraps.eq_of_kind (hx : g.Unwraps x x') (hkind : (g.node x).kind ≠ .nullable) :
    x' = x := by
  cases hx with
  | bare _ => rfl
  | wrapped hnull _ _ => exact absurd hnull hkind

theorem Unwraps.grown (hx : g.Unwraps x x') (hgh : g.Grown h) (hfin : g.FinishedFrom x) :
    h.Unwraps x x' := by
  induction hx with
  | bare hkind =>
    rw [← hgh.node_eq hfin] at hkind
    exact .bare hkind
  | wrapped hkind hof _ ih =>
    have hy := hfin.of_reach (.single (mem_children_of_underlying hof))
    rw [← hgh.node_eq hfin] at hkind hof
    exact .wrapped hkind hof (ih hy)

theorem Consistent.id_unwraps (hc : g.Consistent l r) (hx : g.Unwraps x x') (hy : g.Unwraps y y')
    (hlx : g.ReachEither l r x) (hly : g.ReachEither l r y) (hid : (g.node x).id = (g.node y).id) :
    (g.node x').id = (g.node y').id := by
  induction hx generalizing y with
  | bare hkind =>
    have hmatch := hc _ _ hlx hly hid
    rw [hmatch.kind] at hkind
    rw [hy.eq_of_kind hkind]
    exact hid
  | wrapped hkind hof _ ih =>
    have hmatch := hc _ _ hlx hly hid
    cases hy with
    | bare hkind' =>
      rw [hmatch.kind] at hkind
      exact absurd hkind hkind'
    | wrapped _ hof' hyz' =>
      have hparts := hmatch.underlying
      rw [hof, hof'] at hparts
      cases hparts with
      | some hids =>
        exact ih hyz' (hlx.child (mem_children_of_underlying hof))
          (hly.child (mem_children_of_underlying hof')) hids

/-! ### Pairs that agree -/

/-- The walk makes the same of two pairs: the rules allow both or neither, and a rejected pair can
be reached from both or from neither. -/
structure Agree (g : Graph) (p q : Ref × Ref) : Prop where
  allowed : p ∈ g.allowed Rule.defaults ↔ q ∈ g.allowed Rule.defaults
  rejecting : (∃ z, ReflTransGen (g.Edge Rule.defaults) p z ∧ g.Rejected Rule.defaults z) ↔
    ∃ z, ReflTransGen (g.Edge Rule.defaults) q z ∧ g.Rejected Rule.defaults z

variable {p q s : Ref × Ref}

theorem Agree.refl (p : Ref × Ref) : g.Agree p p := ⟨Iff.rfl, Iff.rfl⟩

theorem Agree.trans (hpq : g.Agree p q) (hqs : g.Agree q s) : g.Agree p s :=
  ⟨hpq.allowed.trans hqs.allowed, hpq.rejecting.trans hqs.rejecting⟩

theorem agree_of_mem_allowed (hp : p ∈ g.allowed Rule.defaults) (hq : q ∈ g.allowed Rule.defaults) :
    g.Agree p q := by
  refine ⟨iff_of_true hp hq, iff_of_false ?_ ?_⟩
  · rintro ⟨z, hz, hrej⟩
    exact not_rejected_of_mem_allowed hp hz hrej
  · rintro ⟨z, hz, hrej⟩
    exact not_rejected_of_mem_allowed hq hz hrej

theorem edge_iff_of_parts {ps : List (Option Ref × Option Ref)}
    (hdec : g.decision x y (g.stage x y) = some (.parts ps)) :
    g.Edge Rule.defaults (x, y) q ↔ (some q.1, some q.2) ∈ ps := by
  rw [edge_iff, hdec]
  constructor
  · rintro ⟨ps', hps, hmem⟩
    cases hps
    exact hmem
  · intro hmem
    exact ⟨ps, rfl, hmem⟩

theorem not_rejected_of_parts {ps : List (Option Ref × Option Ref)}
    (hdec : g.decision x y (g.stage x y) = some (.parts ps)) :
    ¬ g.Rejected Rule.defaults (x, y) := by
  rw [rejected_iff, hdec]
  rintro (h | h)
  · cases h
  · cases h

theorem agree_part (hdec : g.decision x y (g.stage x y) = some (.parts [(some a, some b)])) :
    g.Agree (x, y) (a, b) := by
  have hedge : ∀ {q}, g.Edge Rule.defaults (x, y) q ↔ q = (a, b) := by
    intro q
    rw [edge_iff_of_parts hdec]
    simp [Prod.ext_iff]
  constructor
  · rw [mem_allowed_iff_of_parts hdec]
    simp
  · constructor
    · rintro ⟨z, hz, hrej⟩
      rcases hz.cases_head with rfl | ⟨c, hc, hcz⟩
      · exact absurd hrej (not_rejected_of_parts hdec)
      · rw [hedge] at hc
        subst hc
        exact ⟨z, hcz, hrej⟩
    · rintro ⟨z, hz, hrej⟩
      exact ⟨z, .head (hedge.mpr rfl) hz, hrej⟩

/-- Descriptors that agree pairwise have the same verdict. -/
theorem Agree.exists_verdict (hl : g.FinishedFrom l) (hr : g.FinishedFrom r)
    (hc : g.Consistent l r) (hx : g.FinishedFrom x) (hy : g.FinishedFrom y)
    (hcxy : g.Consistent x y) (hagree : g.Agree (l, r) (x, y)) :
    ∃ v, verdict g Rule.defaults (some l) (some r) = .ok v ∧
      verdict g Rule.defaults (some x) (some y) = .ok v := by
  obtain ⟨v, hv⟩ := EverEqual.exists_verdict Rule.defaults hl hr
  obtain ⟨u, hu⟩ := EverEqual.exists_verdict Rule.defaults hx hy
  have hjv := judged_of_verdict hv
  have hju := judged_of_verdict hu
  have hcomp : v = .compatible ↔ u = .compatible := by
    rw [hjv.eq_compatible_iff hl hr hc, hju.eq_compatible_iff hx hy hcxy]
    exact hagree.allowed
  have hinc : v = .incompatible ↔ u = .incompatible := by
    rw [hjv.eq_incompatible_iff hl hr hc, hju.eq_incompatible_iff hx hy hcxy]
    exact hagree.rejecting
  have huv : v = u := by
    cases v <;> cases u <;> simp_all
  exact ⟨v, hv, huv ▸ hu⟩

/-! ### Taking off layers -/

theorem agree_unwrapped_right (hc : g.Consistent l r) (hlx : g.ReachEither l r x)
    (hkind : (g.node x).kind ≠ .nullable) (hy : g.Unwraps y y') (hly : g.ReachEither l r y) :
    g.Agree (x, y) (x, y') := by
  induction hy with
  | bare _ => exact .refl _
  | @wrapped y b y' hnull hof hby ih =>
    by_cases hunk : (g.node x).kind = .unknown
    · exact agree_of_mem_allowed (mem_allowed_of_unknown (Or.inl hunk))
        (mem_allowed_of_unknown (Or.inl hunk))
    · have hid : (g.node x).id ≠ (g.node y).id := by
        intro hid
        have hmatch := hc _ _ hlx hly hid
        rw [hmatch.kind] at hkind
        exact hkind hnull
      have hres : ¬ ((g.node x).kind = .unknown ∨ (g.node y).kind = .unknown) := by
        simp [hunk, hnull]
      have hstage : g.stage x y = .right := Face.stage_eq_right hres hid hkind hnull
      have hdec : g.decision x y (g.stage x y) = some (.parts [(some x, some b)]) := by
        rw [hstage, decision, hof]
      exact (agree_part hdec).trans (ih (hly.child (mem_children_of_underlying hof)))

/-- **A pair agrees with its unwrapped sides.** The induction goes along the left layers; where a
layer has the identity of the right side, both pairs are allowed. -/
theorem agree_unwrapped (hc : g.Consistent l r) (hx : g.Unwraps x x') (hy : g.Unwraps y y')
    (hlx : g.ReachEither l r x) (hly : g.ReachEither l r y) : g.Agree (x, y) (x', y') := by
  induction hx with
  | bare hkind => exact agree_unwrapped_right hc hlx hkind hy hly
  | @wrapped x a x' hnull hof hax ih =>
    by_cases hunk : (g.node y).kind = .unknown
    · have hyy : y' = y := hy.eq_of_kind (by simp [hunk])
      subst hyy
      exact agree_of_mem_allowed (mem_allowed_of_unknown (Or.inr hunk))
        (mem_allowed_of_unknown (Or.inr hunk))
    · by_cases hid : (g.node x).id = (g.node y).id
      · have hid' := hc.id_unwraps (.wrapped hnull hof hax) hy hlx hly hid
        exact agree_of_mem_allowed (mem_allowed_of_id hid) (mem_allowed_of_id hid')
      · have hres : ¬ ((g.node x).kind = .unknown ∨ (g.node y).kind = .unknown) := by
          simp [hunk, hnull]
        have hstage : g.stage x y = .left := Face.stage_eq_left hres hid hnull
        have hdec : g.decision x y (g.stage x y) = some (.parts [(some a, some y)]) := by
          rw [hstage, decision, hof]
        exact (agree_part hdec).trans (ih (hlx.child (mem_children_of_underlying hof)))

theorem exists_verdict_unwrapped (hl : g.FinishedFrom l) (hr : g.FinishedFrom r)
    (hc : g.Consistent l r) (hx : g.Unwraps l x) (hy : g.Unwraps r y) :
    ∃ v, verdict g Rule.defaults (some l) (some r) = .ok v ∧
      verdict g Rule.defaults (some x) (some y) = .ok v :=
  (agree_unwrapped hc hx hy (Or.inl .refl) (Or.inr .refl)).exists_verdict hl hr hc
    (hl.of_reach hx.reach) (hr.of_reach hy.reach)
    (hc.of_reach (Or.inl hx.reach) (Or.inr hy.reach))

theorem Consistent.canBeEqual_unwrapped (hc : g.Consistent l r) (hl : g.FinishedFrom l)
    (hr : g.FinishedFrom r) (hlx : g.Reach l x) (hry : g.Reach r y) (hl' : g.Unwraps l x')
    (hr' : g.Unwraps r y') (hx : g.Unwraps x x') (hy : g.Unwraps y y') :
    canBeEqual g Rule.defaults (some l) (some r) =
      canBeEqual g Rule.defaults (some x) (some y) := by
  obtain ⟨v, hv, hv'⟩ := exists_verdict_unwrapped hl hr hc hl' hr'
  obtain ⟨u, hu, hu'⟩ := exists_verdict_unwrapped (hl.of_reach hlx) (hr.of_reach hry)
    (hc.of_reach (Or.inl hlx) (Or.inr hry)) hx hy
  obtain rfl : v = u := Except.ok.inj (hv'.symm.trans hu')
  rw [canBeEqual_of_verdict hv, canBeEqual_of_verdict hu]

/-! ### New layers -/

theorem Grown.reach_grown (hgh : g.Grown h) (hx : g.FinishedFrom x) (hxy : g.Reach x y) :
    h.Reach x y := by
  induction hxy with
  | refl => exact .refl
  | tail hxb hchild ih =>
    refine ih.tail ?_
    unfold Child
    rw [hgh.node_eq (hx.of_reach hxb)]
    exact hchild

theorem Consistent.symm (hc : g.Consistent l r) : g.Consistent r l := by
  intro x y hx hy
  exact hc x y hx.symm hy.symm

/-- A finished descriptor of a nullable around `x`. -/
def wrapping (g : Graph) (x : Ref) : Node where
  kind := .nullable
  id := "*" ++ (g.node x).id
  underlying := some x
  completed := true

theorem construct_nullable (g : Graph) (x : Ref) :
    g.construct (.nullable (some x)) = .ok (g.add (g.wrapping x)) :=
  rfl

theorem unwraps_wrapping (hx : g.FinishedFrom x) (hxz : g.Unwraps x x') :
    (g.add (g.wrapping x)).1.FinishedFrom g.size ∧
      (g.add (g.wrapping x)).1.Reach g.size x ∧ (g.add (g.wrapping x)).1.Unwraps g.size x' := by
  have hgrown : g.Grown (g.add (g.wrapping x)).1 := grown_add g _
  have hnode : (g.add (g.wrapping x)).1.node g.size = g.wrapping x := by
    simp [node_add]
  have hof : ((g.add (g.wrapping x)).1.node g.size).underlying = some x := by
    rw [hnode]
    rfl
  refine ⟨.of_children ?_ ?_, .single (mem_children_of_underlying hof), ?_⟩
  · rw [hnode]
    exact ⟨rfl, rfl⟩
  · intro c hcx
    rw [hnode] at hcx
    obtain rfl : c = x := by simpa [Node.children, wrapping] using hcx
    exact hgrown.finishedFrom hx
  · refine .wrapped ?_ hof (hxz.grown hgrown hx)
    rw [hnode]
    rfl

/-- **New layers around a descriptor leave its unwrapping as it is.** -/
theorem exists_wrap_nullable (n : Nat) (hx : g.FinishedFrom x) (hxz : g.Unwraps x x') :
    ∃ h y, g.wrap .nullable n (some x) = .ok (h, some y) ∧ g.Grown h ∧ h.FinishedFrom y ∧
      h.Reach y x ∧ h.Unwraps y x' := by
  induction n generalizing g x with
  | zero => exact ⟨g, x, rfl, ⟨le_rfl, fun _ _ => rfl⟩, hx, .refl, hxz⟩
  | succ n ih =>
    obtain ⟨hfin, hreach, hunwraps⟩ := unwraps_wrapping hx hxz
    obtain ⟨h, y, hwrap, hgrown, hfiny, hreachy, hunwrapsy⟩ := ih hfin hunwraps
    refine ⟨h, y, ?_, (grown_add g _).trans hgrown, hfiny, ?_, hunwrapsy⟩
    · rw [wrap, construct_nullable]
      exact hwrap
    · exact hreachy.trans (hgrown.reach_grown hfin hreach)

/-- Layers of nullables around two descriptors, one descriptor after the other. -/
def wrapBoth (g : Graph) (m : Nat) (left : Option Ref) (n : Nat) (right : Option Ref) :
    Except Defect (Graph × Option Ref × Option Ref) := do
  let (g, x) ← g.wrap .nullable m left
  let (g, y) ← g.wrap .nullable n right
  return (g, x, y)

theorem exists_wrapBoth (m n : Nat) (hl : g.FinishedFrom l) (hr : g.FinishedFrom r)
    (hll : g.Unwraps l x') (hrr : g.Unwraps r y') :
    ∃ h x y, g.wrapBoth m (some l) n (some r) = .ok (h, some x, some y) ∧ g.Grown h ∧
      h.FinishedFrom x ∧ h.FinishedFrom y ∧ h.Reach x l ∧ h.Reach y r ∧ h.Unwraps x x' ∧
      h.Unwraps y y' := by
  obtain ⟨g', x, hwrap, hgrown, hx, hxl, hxx'⟩ := exists_wrap_nullable m hl hll
  obtain ⟨h, y, hwrap', hgrown', hy, hyr, hyy'⟩ :=
    exists_wrap_nullable n (hgrown.finishedFrom hr) (hrr.grown hgrown hr)
  refine ⟨h, x, y, ?_, hgrown.trans hgrown', hgrown'.finishedFrom hx, hy,
    hgrown'.reach_grown hx hxl, hyr, hxx'.grown hgrown' hx, hyy'⟩
  unfold wrapBoth
  rw [hwrap]
  change (g'.wrap .nullable n (some r) >>= _) = _
  rw [hwrap']
  rfl

end Graph

/-- **Nullables are transparent.** If all that can be reached from two descriptors is finished and
descriptors of one identity agree, the verdict on the two is the verdict on what is left of them
without their layers of nullables. So any number of new layers around them, in a graph where
descriptors of one identity still agree, leaves the answers in both directions as they were. -/
theorem verdict_unwrapped {g : Graph} {l r l' r' : Ref} (hl : g.FinishedFrom l)
    (hr : g.FinishedFrom r) (hc : g.Consistent l r) (hll : g.Unwraps l l')
    (hrr : g.Unwraps r r') :
    (∃ v, verdict g Rule.defaults (some l) (some r) = .ok v ∧
      verdict g Rule.defaults (some l') (some r') = .ok v) ∧
    ∀ m n, ∃ h x y, g.wrapBoth m (some l) n (some r) = .ok (h, some x, some y) ∧
      (h.Consistent x y →
        canBeEqual h Rule.defaults (some x) (some y) =
            canBeEqual g Rule.defaults (some l) (some r) ∧
          canBeEqual h Rule.defaults (some y) (some x) =
            canBeEqual g Rule.defaults (some r) (some l)) := by
  refine ⟨Graph.exists_verdict_unwrapped hl hr hc hll hrr, fun m n => ?_⟩
  obtain ⟨h, x, y, hwrap, hgrown, hx, hy, hxl, hyr, hxl', hyr'⟩ :=
    Graph.exists_wrapBoth m n hl hr hll hrr
  refine ⟨h, x, y, hwrap, fun hcxy => ?_⟩
  have hll' := hll.grown hgrown hl
  have hrr' := hrr.grown hgrown hr
  rw [← hgrown.canBeEqual_eq hl hr, ← hgrown.canBeEqual_eq hr hl]
  exact ⟨hcxy.canBeEqual_unwrapped hx hy hxl hyr hxl' hyr' hll' hrr',
    hcxy.symm.canBeEqual_unwrapped hy hx hyr hxl hyr' hxl' hrr' hll'⟩

/-- The rings with two layers around the nullable and one around the array of itself. -/
def Graph.layeredRings : Graph :=
  ⟨rings.nodes ++
    #[{ kind := .nullable, id := "**A", underlying := some 1, completed := true },
      { kind := .nullable, id := "***A", underlying := some 4, completed := true },
      { kind := .nullable, id := "*B", underlying := some 3, completed := true }]⟩

/-- An array behind a nullable that leads back to the array, against an array of itself: layers are
taken off inside the circle and around it. -/
theorem verdict_unwrapped_rings :
    (Graph.rings.FinishedFrom 1 ∧ Graph.rings.FinishedFrom 3 ∧ Graph.rings.Consistent 1 3 ∧
      Graph.rings.Unwraps 1 2 ∧ Graph.rings.Unwraps 3 3) ∧
    (∃ v, verdict Graph.rings Rule.defaults (some 1) (some 3) = .ok v ∧
      verdict Graph.rings Rule.defaults (some 2) (some 3) = .ok v) ∧
    Graph.rings.wrapBoth 2 (some 1) 1 (some 3) = .ok (Graph.layeredRings, some 5, some 6) ∧
    Graph.layeredRings.Consistent 5 6 ∧
    canBeEqual Graph.layeredRings Rule.defaults (some 6) (some 5) =
      canBeEqual Graph.rings Rule.defaults (some 3) (some 1) := by
  have h₁ := Graph.finishedFrom_rings (x := 1) (by decide)
  have h₃ := Graph.finishedFrom_rings (x := 3) (by decide)
  have hstep : Graph.rings.Reach 0 1 := .single (by unfold Graph.Child; decide)
  have hc : Graph.rings.Consistent 1 3 :=
    Graph.consistent_rings.of_reach (Or.inl hstep) (Or.inr .refl)
  have hu₁ : Graph.rings.Unwraps 1 2 := .wrapped (by decide) rfl (.bare (by decide))
  have hu₃ : Graph.rings.Unwraps 3 3 := .bare (by decide)
  obtain ⟨hverdict, hnew⟩ := verdict_unwrapped h₁ h₃ hc hu₁ hu₃
  have hlayers : Graph.rings.wrapBoth 2 (some 1) 1 (some 3) =
      .ok (Graph.layeredRings, some 5, some 6) := by decide
  obtain ⟨h, x, y, hwrap, hsame⟩ := hnew 2 1
  have heq := Except.ok.inj (hlayers.symm.trans hwrap)
  simp only [Prod.mk.injEq, Option.some.injEq] at heq
  obtain ⟨rfl, rfl, rfl⟩ := heq
  have hcon : Graph.layeredRings.Consistent 5 6 :=
    Graph.consistent_of_closed [0, 1, 2, 3, 4, 5, 6] (by decide) (by decide) (by decide) (by decide)
  exact ⟨⟨h₁, h₃, hc, hu₁, hu₃⟩, hverdict, hlayers, hcon, (hsame hcon).2⟩

end EverEqual
