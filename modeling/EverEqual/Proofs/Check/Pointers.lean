import EverEqual.Proofs.Check.Accepts
import EverEqual.Proofs.Comparison.Unwrapped
import EverEqual.Proofs.Describe.Declared
import EverEqual.Proofs.Describe.Literal

/-!
# Types behind pointers

Pointers without a name are followed one by one: by the search for interfaces, by a description, and
by the rules. The texts of a type that is no pointer and of the pointers to it are all different, so
there are fewer of them than the world is followed deep.

* `Ty.pointers`: any number of pointers to a type;
* `World.mem_interfacesIn_pointers`: an interface behind pointers is found;
* `World.Orderly.pointers_lt_horizon`: how many pointers there can be;
* `Draft.Denotes.exists_pointee`, `Draft.Denotes.mem_allowed_pointers_iff`: descriptors of pointers
  are allowed if what is left without layers is.
-/

namespace EverEqual

/-- Any number of pointers to a type. -/
def Ty.pointers (t : Ty) : Nat → Ty
  | 0 => t
  | k + 1 => .pointer (t.pointers k)

namespace World

variable {w : World} {interfaces : List Ty} {roots : Set Ty} {t u : Ty}

theorem unalias_pointer (t : Ty) : w.unalias (.pointer t) = .pointer t := by
  unfold unalias
  cases w.size <;> rfl

/-! ### The search for interfaces -/

theorem discover_pointer {k : Nat} {d : Discovery} {path : List Nat}
    (hnew : Mark.place none path 0 (.pointer t) ∉ d.seen) :
    w.discover (k + 1) d { written := .pointer t, path } =
      w.discover k { d with seen := .place none path 0 (.pointer t) :: d.seen }
        { written := t, path := path ++ [0] } := by
  have hmark : w.mark d { written := .pointer t, path } = .place none path 0 (.pointer t) := by
    simp [mark, Discovery.typeOf, Discovery.expansion?]
  rw [discover, hmark]
  simp [hnew, Discovery.typeOf, Discovery.expansion?, unalias_pointer, following, Discovery.inside,
    Discovery.source, Ty.parts]

theorem found_discover_interface {k : Nat} {d : Discovery} {path : List Nat}
    (hu : w.Declared u) (h : w.isInterface u = true) (hnew : Mark.name none u ∉ d.seen) :
    (w.discover (k + 1) d { written := u, path }).found = u :: d.found := by
  obtain ⟨n, xs, rfl, halias⟩ := hu
  have hmark : w.mark d { written := .named n xs, path } = .name none (.named n xs) := by
    simp [mark, Discovery.typeOf, Discovery.expansion?]
  rw [discover, hmark]
  simp [hnew, Discovery.typeOf, Discovery.expansion?, halias, h]

/-- The search meets a declared interface behind pointers. It has seen only places further out. -/
theorem found_discover_pointers (hu : w.Declared u) (h : w.isInterface u = true) (j : Nat)
    {k : Nat} (hjk : j < k) (d : Discovery) (path : List Nat)
    (hseen : ∀ m ∈ d.seen, ∃ outer t, m = .place none outer 0 t ∧ outer.length < path.length) :
    (w.discover k d { written := u.pointers j, path }).found = u :: d.found := by
  obtain ⟨k, rfl⟩ : ∃ l, k = l + 1 := ⟨k - 1, by omega⟩
  induction j generalizing k d path with
  | zero =>
    refine found_discover_interface hu h fun hmem => ?_
    obtain ⟨outer, t, hm, -⟩ := hseen _ hmem
    cases hm
  | succ j ih =>
    have hnew : Mark.place none path 0 (.pointer (u.pointers j)) ∉ d.seen := by
      intro hmem
      obtain ⟨outer, t, hm, hlt⟩ := hseen _ hmem
      cases hm
      exact Nat.lt_irrefl _ hlt
    obtain ⟨k, rfl⟩ : ∃ l, k = l + 1 := ⟨k - 1, by omega⟩
    rw [Ty.pointers, discover_pointer hnew]
    refine ih { d with seen := .place none path 0 (.pointer (u.pointers j)) :: d.seen } _
      (fun m hm => ?_) k (by omega)
    rw [List.length_append, List.length_singleton]
    rcases List.mem_cons.mp hm with rfl | hm
    · exact ⟨path, _, rfl, Nat.lt_succ_self _⟩
    · obtain ⟨outer, t, hm, hlt⟩ := hseen _ hm
      exact ⟨outer, t, hm, Nat.lt_succ_of_lt hlt⟩

theorem mem_interfacesIn_pointers (hu : w.Declared u) (h : w.isInterface u = true) {j : Nat}
    (hj : j < w.horizon) : u ∈ w.interfacesIn (some (u.pointers j)) := by
  have hfound := found_discover_pointers hu h j hj {} [] (by simp)
  change u ∈ (w.discover w.horizon {} { written := u.pointers j }).found.reverse
  rw [hfound]
  simp

/-! ### Texts -/

theorem underlying_pointer (interfaces : List Ty) (t : Ty) :
    (w.portrait interfaces (.pointer t)).underlying = some t := by
  rw [portrait_pointer (unalias_pointer t)]

theorem kind_pointer (t : Ty) : (w.plan (.pointer t)).kind = .nullable := by
  rw [← w.kind_portrait (I := []), portrait_pointer (unalias_pointer t)]

theorem Met.pointers {j k : Nat} (ht : w.Met roots (t.pointers j)) (hkj : k ≤ j) :
    w.Met roots (t.pointers k) := by
  induction j with
  | zero => rwa [Nat.le_zero.mp hkj]
  | succ j ih =>
    rcases Nat.lt_or_eq_of_le hkj with hlt | rfl
    · exact ih (ht.underlying (underlying_pointer [] _)) (Nat.le_of_lt_succ hlt)
    · exact ht

/-- Pointers to a type that is none have texts of their own. -/
theorem Orderly.pointers_injective (ho : w.Orderly interfaces roots)
    (hkind : (w.plan t).kind ≠ .nullable) {j k : Nat} (hj : w.Met roots (t.pointers j))
    (hk : w.Met roots (t.pointers k)) (he : w.entry (t.pointers j) = w.entry (t.pointers k)) :
    j = k := by
  have hbare : ∀ {k : Nat}, w.Met roots t → w.Met roots (t.pointers (k + 1)) →
      w.entry t ≠ w.entry (t.pointers (k + 1)) := by
    intro k ht hpointer hsame
    have hkinds := ho.kind_eq_of_entry ht hpointer hsame
    rw [Ty.pointers, kind_pointer] at hkinds
    exact hkind hkinds
  induction j generalizing k with
  | zero =>
    cases k with
    | zero => rfl
    | succ k => exact absurd he (hbare hj hk)
  | succ j ih =>
    cases k with
    | zero => exact absurd he.symm (hbare hk hj)
    | succ k =>
      have hinner : w.entry (t.pointers j) = w.entry (t.pointers k) := by
        have hout := congrArg Portrait.underlying (ho.outline_eq_of_entry hj hk he)
        simpa [outline, Portrait.map, Ty.pointers, underlying_pointer] using hout
      rw [ih (hj.pointers (Nat.le_succ j)) (hk.pointers (Nat.le_succ k)) hinner]

theorem Orderly.pointers_lt_horizon (ho : w.Orderly interfaces roots)
    (hkind : (w.plan t).kind ≠ .nullable) {j : Nat} (hj : w.Met roots (t.pointers j)) :
    j + 1 < w.horizon := by
  obtain ⟨E, hcard, hE⟩ := ho.followed
  have hmem : ∀ k ∈ Finset.range (j + 1), w.entry (t.pointers k) ∈ E := fun k hk =>
    hE _ (hj.pointers (Nat.le_of_lt_succ (Finset.mem_range.mp hk)))
  have hinj : Set.InjOn (fun k => w.entry (t.pointers k)) (Finset.range (j + 1)) := by
    intro a ha b hb hab
    rw [Finset.mem_coe, Finset.mem_range] at ha hb
    exact ho.pointers_injective hkind (hj.pointers (Nat.le_of_lt_succ ha))
      (hj.pointers (Nat.le_of_lt_succ hb)) hab
  calc j + 1 = (Finset.range (j + 1)).card := (Finset.card_range _).symm
    _ ≤ E.card := Finset.card_le_card_of_injOn _ hmem hinj
    _ < w.horizon := hcard

end World

/-! ### Descriptors -/

namespace Draft

variable {w : World} {interfaces : List Ty} {roots : Set Ty} {s : Draft} {t u : Ty} {x y : Ref}

theorem Denotes.exists_pointee (hs : s.Faithful w interfaces roots []) {j : Nat}
    (hx : Denotes w roots s (t.pointers j) x) :
    ∃ y, Denotes w roots s t y ∧ ∀ z, s.graph.Unwraps y z → s.graph.Unwraps x z := by
  induction j generalizing x with
  | zero => exact ⟨x, hx, fun _ hz => hz⟩
  | succ j ih =>
    obtain ⟨y, hof, hy⟩ := exists_of_rel_left (hx.depicts hs).underlying
      (World.underlying_pointer interfaces (t.pointers j))
    obtain ⟨z, hz, hwraps⟩ := ih hy
    refine ⟨z, hz, fun z' hz' => .wrapped ?_ hof (hwraps z' hz')⟩
    rw [hx.kind_eq hs]
    exact World.kind_pointer _

/-- What is left of descriptors behind pointers decides. -/
theorem Denotes.mem_allowed_pointers_iff {i j : Nat} (ho : w.Orderly interfaces roots)
    (hs : s.Faithful w interfaces roots []) {l r a b : Ref}
    (hl : Denotes w roots s (t.pointers i) l) (hr : Denotes w roots s (u.pointers j) r)
    (ha : s.graph.Unwraps l a) (hb : s.graph.Unwraps r b) :
    ((l, r) ∈ s.graph.allowed Rule.defaults ↔ (a, b) ∈ s.graph.allowed Rule.defaults) ∧
      ((r, l) ∈ s.graph.allowed Rule.defaults ↔ (b, a) ∈ s.graph.allowed Rule.defaults) := by
  have hc := hl.consistent hr ho hs
  exact ⟨(Graph.agree_unwrapped hc ha hb (Or.inl .refl) (Or.inr .refl)).allowed,
    (Graph.agree_unwrapped hc.symm hb ha (Or.inl .refl) (Or.inr .refl)).allowed⟩

end Draft

end EverEqual
