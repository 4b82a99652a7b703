import EverEqual.Proofs.Comparison.Unwrapped

/-!
# Descriptors against anything

The interface without methods can hold values of every type. Whatever is no nullable says so by its
kind or by its ancestors, and no rule decides otherwise before: the interface yields no elements, is
no instance and no enumeration. Of a nullable the rules take off one layer after the other, and if
there is no end to this, they never come to a value.

* `Node.HoldsAnything`, `Node.Held`: the interface, and what says that the interface can hold it;
* `Graph.mem_allowed_of_held`: without layers, the rules allow both directions;
* `Graph.exists_unwraps_of_mem_allowed`: what the rules allow has no endless layers;
* `Graph.mem_allowed_iff_unwraps`: both together.
-/

namespace EverEqual

/-- The descriptor of the interface without methods. -/
structure Node.HoldsAnything (n : Node) : Prop where
  kind : n.kind = .interface
  id : n.id = "any"
  element : n.element = none
  origin : n.origin = ""

/-- A descriptor that says that the interface without methods can hold its values: it is unresolved,
that of an interface, or has the interface without methods as an ancestor. -/
def Node.Held (n : Node) : Prop :=
  n.kind = .unknown ∨ n.kind = .interface ∨ n.id = "any" ∨ "any" ∈ n.ancestors

namespace Graph

variable {g : Graph} {l r x z : Ref}

theorem stage_of_holdsAnything (hr : (g.node r).HoldsAnything) (hz : (g.node z).kind ≠ .nullable) :
    g.stage z r = if (g.node z).kind = .unknown then .unknown
      else if (g.node z).id = "any" then .identity else .rest := by
  have hplain : ¬ ((g.node z).origin ≠ "" ∧ (g.node z).origin = (g.node r).origin ∧
      (g.node z).typeArgs.length = (g.node r).typeArgs.length) := by
    rw [hr.origin]
    exact fun h => h.1 h.2.1
  simp [stage, Face.stage, Face.enumerable, Node.face, hr.kind, hr.id, hr.element, hplain, hz]

theorem mem_allowed_of_held (hr : (g.node r).HoldsAnything) (hz : (g.node z).kind ≠ .nullable)
    (hheld : (g.node z).Held) :
    (z, r) ∈ g.allowed Rule.defaults ∧ (r, z) ∈ g.allowed Rule.defaults := by
  have hback : g.stage r z = g.stage z r :=
    Face.stage_comm (by simp [Node.face, hr.kind]) hz
  rw [mem_allowed_iff, mem_allowed_iff, hback, stage_of_holdsAnything hr hz]
  split_ifs with hunknown hid
  · exact ⟨Or.inl rfl, Or.inl rfl⟩
  · exact ⟨Or.inl rfl, Or.inl rfl⟩
  · have hrest : (g.node z).kind = .interface ∨ (g.node z).hasAncestor (g.node r).id = true := by
      rcases hheld with h | h | h | h
      · exact absurd h hunknown
      · exact Or.inl h
      · exact absurd h hid
      · exact Or.inr (by simp [Node.hasAncestor, hr.id, h])
    have hrelated : g.Related z r ∧ g.Related r z := by
      rcases hrest with hkind | hanc
      · exact ⟨Or.inr (Or.inr (Or.inl ⟨hkind, hr.kind⟩)), Or.inr (Or.inr (Or.inl ⟨hr.kind, hkind⟩))⟩
      · exact ⟨Or.inl hanc, Or.inr (Or.inl hanc)⟩
    simp [decision, hrelated]

theorem exists_left_of_mem_allowing {known : Set (Ref × Ref)} (hstage : g.stage x r = .left)
    (h : (x, r) ∈ g.allowing Rule.defaults known) :
    ∃ y, (g.node x).underlying = some y ∧ (y, r) ∈ known := by
  rw [mem_allowing_iff, hstage, decision] at h
  obtain h | ⟨ps, hps, hall⟩ := h
  · cases h
  · obtain ⟨y, b, hof, hb, hknown⟩ := exists_of_single hps hall
    cases hb
    exact ⟨y, hof, hknown⟩

theorem exists_right_of_mem_allowing {known : Set (Ref × Ref)} (hstage : g.stage r x = .right)
    (h : (r, x) ∈ g.allowing Rule.defaults known) :
    ∃ y, (g.node x).underlying = some y ∧ (r, y) ∈ known := by
  rw [mem_allowing_iff, hstage, decision] at h
  obtain h | ⟨ps, hps, hall⟩ := h
  · cases h
  · obtain ⟨a, y, ha, hof, hknown⟩ := exists_of_single hps hall
    cases ha
    exact ⟨y, hof, hknown⟩

/-- What is allowed against the interface without methods, in either direction, has layers that come
to an end. No pair without an end is ever known to be fine. -/
theorem exists_unwraps_of_mem_allowed (hc : g.Consistent l r) (hr : (g.node r).HoldsAnything)
    (h : (l, r) ∈ g.allowed Rule.defaults ∨ (r, l) ∈ g.allowed Rule.defaults) :
    ∃ z, g.Unwraps l z := by
  let known : Set (Ref × Ref) := {p | ∀ x, g.Reach l x → p = (x, r) ∨ p = (r, x) →
    ∃ z, g.Unwraps x z}
  have hstep : g.allowing Rule.defaults known ≤ known := by
    rintro p hp x hx hpair
    by_cases hnull : (g.node x).kind = .nullable
    · have hid : (g.node x).id ≠ (g.node r).id := by
        intro hid
        have hmatch := hc x r (Or.inl hx) (Or.inr .refl) hid
        rw [hmatch.kind, hr.kind] at hnull
        cases hnull
      have hinner : ∃ y, (g.node x).underlying = some y ∧ ((y, r) ∈ known ∨ (r, y) ∈ known) := by
        rcases hpair with rfl | rfl
        · have hstage : g.stage x r = .left := Face.stage_eq_left
            (by simp [Node.face, hnull, hr.kind]) hid hnull
          exact (exists_left_of_mem_allowing hstage hp).imp fun _ hy => hy.imp_right Or.inl
        · have hstage : g.stage r x = .right := Face.stage_eq_right
            (by simp [Node.face, hnull, hr.kind]) hid.symm (by simp [Node.face, hr.kind]) hnull
          exact (exists_right_of_mem_allowing hstage hp).imp fun _ hy => hy.imp_right Or.inr
      obtain ⟨y, hof, hknown⟩ := hinner
      have hy : g.Reach l y := hx.tail (mem_children_of_underlying hof)
      obtain ⟨z, hz⟩ : ∃ z, g.Unwraps y z :=
        hknown.elim (fun h => h y hy (Or.inl rfl)) fun h => h y hy (Or.inr rfl)
      exact ⟨z, .wrapped hnull hof hz⟩
    · exact ⟨x, .bare hnull⟩
  have hle : g.allowed Rule.defaults ≤ known := OrderHom.lfp_le _ hstep
  rcases h with h | h
  · exact hle h l .refl (Or.inl rfl)
  · exact hle h l .refl (Or.inr rfl)

/-- **Against the interface without methods** a descriptor is allowed, in either direction, exactly
if its layers come to an end. -/
theorem mem_allowed_iff_unwraps (hc : g.Consistent l r) (hr : (g.node r).HoldsAnything)
    (hheld : ∀ z, g.Unwraps l z → (g.node z).Held) :
    ((l, r) ∈ g.allowed Rule.defaults ↔ ∃ z, g.Unwraps l z) ∧
      ((r, l) ∈ g.allowed Rule.defaults ↔ ∃ z, g.Unwraps l z) := by
  have hbare : g.Unwraps r r := .bare (by simp [hr.kind])
  have hof : ∀ z, g.Unwraps l z →
      (l, r) ∈ g.allowed Rule.defaults ∧ (r, l) ∈ g.allowed Rule.defaults := by
    intro z hz
    obtain ⟨hforward, hreverse⟩ := mem_allowed_of_held hr hz.kind_ne (hheld z hz)
    exact ⟨(agree_unwrapped hc hz hbare (Or.inl .refl) (Or.inr .refl)).allowed.mpr hforward,
      (agree_unwrapped hc hbare hz (Or.inr .refl) (Or.inl .refl)).allowed.mpr hreverse⟩
  exact ⟨⟨fun h => exists_unwraps_of_mem_allowed hc hr (Or.inl h), fun ⟨z, hz⟩ => (hof z hz).1⟩,
    ⟨fun h => exists_unwraps_of_mem_allowed hc hr (Or.inr h), fun ⟨z, hz⟩ => (hof z hz).2⟩⟩

end Graph

end EverEqual
