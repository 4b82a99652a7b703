import EverEqual.Proofs.Describe.Layers

/-!
# Owners of descriptors

Types that are written alike share a descriptor, and the one that was described first is its owner.
A descriptor shows its owner, whatever other types it is returned for: its identity and kind, the
element it yields, what it wraps, and the ancestors that its owner has by itself. This asks nothing
of texts, so it also holds where they do not tell types apart.

* `Portrait.Glimpsed`: a descriptor agrees with a portrait as far as no identity of a part matters;
* `World.glimpsed_of_fill`: filling in a blank descriptor by the plan of a type;
* `Draft.Owns`, `Draft.Owned`: the owner of a descriptor, and the invariant that there is one;
* `Draft.upholds_owned`: both steps of a description keep it up.
-/

namespace EverEqual

/-! ### What a descriptor shows -/

/-- A descriptor agrees with a portrait as far as the identities of its parts do not matter. -/
structure Portrait.Glimpsed (R : Ty → Ref → Prop) (P : Portrait Ty) (n : Node) : Prop where
  id : n.id = P.id
  kind : n.kind = P.kind
  element : Option.Rel R P.element n.element
  underlying : Option.Rel R P.underlying n.underlying
  origin : n.origin = P.origin
  own : ∀ a ∈ P.own, a ≠ P.id → a ∈ n.ancestors

section Glimpse

variable {w : World} {I : List Ty} {g : Graph} {R S : Ty → Ref → Prop} {P : Portrait Ty} {n : Node}

theorem Portrait.Glimpsed.imp (h : P.Glimpsed R n) (hRS : ∀ t x, R t x → S t x) :
    P.Glimpsed S n where
  id := h.id
  kind := h.kind
  element := rel_imp_of_mem h.element fun u _ x _ => hRS u x
  underlying := rel_imp_of_mem h.underlying fun u _ x _ => hRS u x
  origin := h.origin
  own := h.own

theorem Portrait.Glimpsed.of_agreesBut {m : Node} (h : P.Glimpsed R n) (hm : m.AgreesBut n)
    (hanc : ∀ a ∈ n.ancestors, a ∈ m.ancestors) : P.Glimpsed R m := by
  obtain ⟨as, rfl⟩ := hm
  exact ⟨h.id, h.kind, h.element, h.underlying, h.origin, fun a ha hne => hanc a (h.own a ha hne)⟩

/-- **One feature**: its attribute takes a descriptor of a portrait to one of the portrait with the
feature. -/
theorem Portrait.Glimpsed.attach (hP : P.Glimpsed R n) {f : Feature} {a : Attribute}
    (ha : f.Becomes w I R a) :
    ∃ m, n.attach g a = (m, none) ∧ (P.attach w I f).Glimpsed R m := by
  obtain ⟨refs, hrefs, rfl⟩ := ha
  cases f with
  | element t =>
    cases hrefs with
    | cons hx hnil =>
      cases hnil
      exact ⟨_, rfl, { hP with element := .some hx }⟩
  | underlying t =>
    cases hrefs with
    | cons hx hnil =>
      cases hnil
      exact ⟨_, rfl, { hP with underlying := .some hx }⟩
  | key t | conversion t | equatable t =>
    cases hrefs with
    | cons hx hnil =>
      cases hnil
      exact ⟨_, rfl, { hP with }⟩
  | bases ts =>
    refine ⟨refs.foldl (fun n r => n.addBase (g.node r)) n, ?_, ?_⟩
    · simp [Feature.toAttribute, Node.attach, leading_map_some, missingIn_map_some]
    · exact { hP.of_agreesBut (Node.agreesBut_foldl (fun n r => n.agreesBut_addBase (g.node r))
        refs n) fun b hb => Node.mem_ancestors_foldl_addBase refs n |>.mpr (Or.inl hb) with }
  | ancestors t kind =>
    refine ⟨(w.ancestorIds I t kind).foldl Node.addAncestor n, rfl, ?_⟩
    have hold := hP.of_agreesBut (Node.agreesBut_foldl Node.agreesBut_addAncestor _ n)
      fun b hb => (Node.mem_ancestors_foldl_addAncestor (w.ancestorIds I t kind) n).mpr (Or.inr hb)
    refine { hold with own := fun b hb hne => ?_ }
    rcases Finset.mem_union.mp hb with hb | hb
    · exact hold.own b hb hne
    · rw [Node.mem_ancestors_foldl_addAncestor, hP.id]
      exact Or.inl ⟨List.mem_toFinset.mp hb, hne⟩
  | tuple ts =>
    refine ⟨{ n with tuple := refs }, ?_, { hP with }⟩
    simp [Feature.toAttribute, Node.attach, leading_map_some, missingIn_map_some]
  | generic origin args =>
    refine ⟨{ n with origin := origin, typeArgs := refs }, ?_, { hP with origin := rfl }⟩
    simp [Feature.toAttribute, Node.attach, leading_map_some, missingIn_map_some]

theorem Portrait.Glimpsed.attachAll (hP : P.Glimpsed R n) {fs : List Feature} {as : List Attribute}
    (has : List.Forall₂ (Feature.Becomes w I R) fs as) :
    ∃ m, n.attachAll g as = (m, none) ∧ (fs.foldl (Portrait.attach w I) P).Glimpsed R m := by
  induction has generalizing P n with
  | nil => exact ⟨n, rfl, hP⟩
  | cons ha _ ih =>
    obtain ⟨m, hm, hPm⟩ := hP.attach (g := g) ha
    obtain ⟨m', hm', hPm'⟩ := ih hPm
    refine ⟨m', ?_, hPm'⟩
    rw [Node.attachAll, hm]
    exact hm'

/-- **A descriptor filled in by the plan of a type shows its portrait**, whichever descriptors stand
for the parts. -/
theorem World.glimpsed_of_fill {t : Ty} {as : List Attribute} {m : Node}
    (has : List.Forall₂ (Feature.Becomes w I R) (w.plan t).features as)
    (hfill : Node.fill g { kind := (w.plan t).kind, id := (w.plan t).id } as = (m, none)) :
    (w.portrait I t).Glimpsed R m := by
  have hblank : (Portrait.blank (w.plan t)).Glimpsed R
      { kind := (w.plan t).kind, id := (w.plan t).id } :=
    ⟨rfl, rfl, .none, .none, rfl, by simp [Portrait.blank]⟩
  obtain ⟨m', hm', hP⟩ := hblank.attachAll (g := g) has
  rw [Node.fill, hm'] at hfill
  dsimp only at hfill
  split at hfill
  · cases hfill
  · cases hfill
    exact { hP with }

end Glimpse

/-! ### Owners -/

namespace Draft

variable {w : World} {interfaces : List Ty} {roots : Set Ty} {s s' : Draft} {t : Ty} {r : Ref}

/-- The descriptor is that of a type, and once it is completed it shows the portrait of the type
for the interfaces that were registered by then. -/
structure Owns (w : World) (s : Draft) (t : Ty) (r : Ref) : Prop where
  remembers : s.Remembers (w.entry t) r
  id : (s.graph.node r).id = (w.plan t).id
  kind : (s.graph.node r).kind = (w.plan t).kind
  glimpsed : (s.graph.node r).completed = true →
    ∃ I, (w.portrait I t).Glimpsed (s.Found w) (s.graph.node r)

/-- Every descriptor that is remembered has an owner. -/
def Owned (w : World) (roots : Set Ty) (s : Draft) : Prop :=
  ∀ r, s.Remembered r → ∃ t, w.Met roots t ∧ s.Owns w t r

theorem Owns.of_extends (h : s.Owns w t r) (hext : s.Extends s')
    (hnode : s'.graph.node r = s.graph.node r) : s'.Owns w t r where
  remembers := hext.remembers _ _ h.remembers
  id := hnode ▸ h.id
  kind := hnode ▸ h.kind
  glimpsed := by
    rw [hnode]
    intro hdone
    obtain ⟨I, hI⟩ := h.glimpsed hdone
    exact ⟨I, hI.imp fun _ _ hx => hx.of_extends hext⟩

theorem Owned.begin (h : s.Owned w roots) (ht : w.Met roots t)
    (hinside : ∀ r, s.Remembered r → r < s.graph.size)
    (hfresh : s.describer.memo.lookup (w.entry t) = none) :
    (s.begin (w.plan t)).Owned w roots := by
  intro r hr
  rcases remembered_of_begin hr with rfl | hr
  · have hnode : (s.begin (w.plan t)).graph.node s.graph.size =
        { kind := (w.plan t).kind, id := (w.plan t).id } := by
      rw [s.node_begin, if_pos rfl]
    refine ⟨t, ht, remembers_begin.mpr (Or.inl ⟨rfl, rfl⟩), ?_, ?_, ?_⟩
    · rw [hnode]
    · rw [hnode]
    · rw [hnode]
      nofun
  · obtain ⟨u, hu, howns⟩ := h r hr
    refine ⟨u, hu, howns.of_extends (extends_begin hfresh) ?_⟩
    rw [s.node_begin, if_neg (Nat.ne_of_lt (hinside r hr))]

theorem Owned.finish (h : s.Owned w roots) (ht : w.Met roots t)
    (hr : s.Remembers (w.entry t) r) (hlt : r < s.graph.size) {m : Node}
    (hm : (w.portrait interfaces t).Glimpsed (s.Found w) m) : (s.finish r m).Owned w roots := by
  have hext : s.Extends (s.finish r m) := extends_finish m hr hlt
  intro x hx
  by_cases hxr : x = r
  · subst hxr
    have hnode : (s.finish x m).graph.node x = m := by
      rw [s.node_finish m hlt, if_pos rfl]
    refine ⟨t, ht, hr, ?_, ?_, fun _ => ⟨interfaces, ?_⟩⟩
    · rw [hnode, hm.id, w.id_portrait]
    · rw [hnode, hm.kind, w.kind_portrait]
    · rw [hnode]
      exact hm.imp fun _ _ hx => hx.of_extends hext
  · obtain ⟨u, hu, howns⟩ := h x hx
    refine ⟨u, hu, howns.of_extends hext ?_⟩
    rw [s.node_finish m hlt, if_neg hxr]

/-- **Both steps of a description keep up that descriptors have owners.** -/
theorem upholds_owned (w : World) (roots : Set Ty) (interfaces : List Ty) :
    w.Upholds interfaces roots (Owned w roots) where
  begin := fun ht hs h hfresh => h.begin ht hs.inside hfresh
  finish := by
    intro t s opened r as m ht hs h hr hblank has hfill
    rw [hblank] at hfill
    exact h.finish ht hr (hs.inside r ⟨_, hr⟩) (World.glimpsed_of_fill has hfill)

end Draft

end EverEqual
