import EverEqual.Check.Checker
import EverEqual.Proofs.Comparison.Cached
import EverEqual.Proofs.Describe.Faithful

/-!
# Both operands in one draft

The operands of a check are described one after the other in one draft. A missing operand is an
unresolved type of its own, which nothing remembers. The draft ends faithful to the types of both
operands, so everything that can be reached from them is finished.

* `Draft.Stands`: a descriptor stands for an operand;
* `Operands.exists_describe`: both operands have descriptors that stand for them;
* `Draft.Stands.finishedFrom`: these can be compared;
* `check_of_describe`: a check in terms of verdicts.
-/

namespace EverEqual

/-- The descriptor of an operand that is missing. -/
def Node.missing : Node := { kind := .unknown, id := "<error nil>", completed := true }

namespace Describer

variable {w : World}

theorem register_frame (d : Describer) (ts : List Ty) :
    (d.register w ts).memo = d.memo ∧ (d.register w ts).builder = d.builder := by
  induction ts generalizing d with
  | nil => exact ⟨rfl, rfl⟩
  | cons t ts ih =>
    obtain ⟨hmemo, hbuilder⟩ := ih (d.registerOne w t)
    unfold register at hmemo hbuilder ⊢
    rw [List.foldl_cons, hmemo, hbuilder]
    unfold registerOne
    split <;> exact ⟨rfl, rfl⟩

theorem mem_interfaces_register {i : Ty} (d : Describer) (ts : List Ty) :
    i ∈ (d.register w ts).interfaces ↔
      i ∈ d.interfaces ∨ (i ∈ ts ∧ w.isInterface i = true) := by
  induction ts generalizing d with
  | nil => simp [register]
  | cons t ts ih =>
    have hone : i ∈ (d.registerOne w t).interfaces ↔
        i ∈ d.interfaces ∨ (i = t ∧ w.isInterface i = true) := by
      unfold registerOne
      by_cases hmem : t ∈ d.interfaces
      · simp [hmem]
        grind
      · by_cases hint : w.isInterface t = true
        · simp [hmem, hint]
          grind
        · simp [hmem, hint]
          grind
    unfold register at ih ⊢
    rw [List.foldl_cons, ih, hone, List.mem_cons]
    grind

end Describer

namespace Draft

variable {w : World} {interfaces : List Ty} {roots : Set Ty} {s s' : Draft} {opened : List Identity}
variable {o : Option Ty} {x y : Ref}

/-- The descriptor stands for the operand. A missing operand has one that nothing remembers. -/
def Stands (w : World) (s : Draft) (o : Option Ty) (x : Ref) : Prop :=
  match o with
  | some t => s.Remembers (w.entry t) x
  | none => x < s.graph.size ∧ s.graph.node x = .missing ∧ ∀ e, ¬ s.Remembers e x

theorem Stands.of_extends (h : s.Stands w o x) (hext : s.Extends s') : s'.Stands w o x := by
  cases o with
  | some t => exact hext.remembers _ _ h
  | none =>
    obtain ⟨hlt, hnode, hloose⟩ := h
    refine ⟨hlt.trans_le hext.size, ?_, fun e he => hloose e (hext.new e x he hlt)⟩
    rw [hext.loose x hlt hloose, hnode]

theorem extends_add (s : Draft) (n : Node) : s.Extends ⟨(s.graph.add n).1, s.describer⟩ where
  size := by
    rw [Graph.size_add]
    exact Nat.le_succ _
  remembers := fun _ _ hr => hr
  new := fun _ _ hr _ => hr
  loose := fun r hlt _ => by rw [Graph.node_add, if_neg (Nat.ne_of_lt hlt)]

theorem stands_missing (h : ∀ e, ¬ s.Remembers e s.graph.size) :
    Stands w ⟨(s.graph.add .missing).1, s.describer⟩ none s.graph.size := by
  refine ⟨?_, ?_, h⟩
  · rw [Graph.size_add]
    exact Nat.lt_succ_self _
  · rw [Graph.node_add, if_pos rfl]

theorem Faithful.add (h : s.Faithful w interfaces roots opened) (n : Node) :
    Faithful w interfaces roots opened ⟨(s.graph.add n).1, s.describer⟩ := by
  have hnode : ∀ r, r < s.graph.size → (s.graph.add n).1.node r = s.graph.node r := by
    intro r hlt
    rw [Graph.node_add, if_neg (Nat.ne_of_lt hlt)]
  refine ⟨h.registered, fun e r hr => ?_, h.injective, h.reserved, fun t r ht hr ho => ?_,
    fun t r ht hr ho => ?_⟩
  · obtain ⟨hlt, hmet⟩ := h.known e r hr
    exact ⟨hlt.trans_le (s.extends_add n).size, hmet⟩
  · obtain ⟨hpending, hblank⟩ := h.isOpen t r ht hr ho
    exact ⟨hpending, (hnode r (h.known _ r hr).1).trans hblank⟩
  · exact (h.drawn t r ht hr ho).of_remembers (fun _ _ hf => hf) (hnode r (h.known _ r hr).1)

/-- **An operand has a descriptor that stands for it.** -/
theorem exists_describe (ho : w.Orderly interfaces roots)
    (hs : s.Faithful w interfaces roots []) (hmet : ∀ t, o = some t → w.Met roots t) :
    ∃ x s', Draft.describe w s o = .ok (x, s') ∧ s'.Faithful w interfaces roots [] ∧
      s.Extends s' ∧ s'.Stands w o x := by
  cases o with
  | none =>
    have hfresh : ∀ e, ¬ s.Remembers e s.graph.size := fun e he =>
      Nat.lt_irrefl _ (hs.known e _ he).1
    exact ⟨s.graph.size, ⟨(s.graph.add .missing).1, s.describer⟩, rfl, hs.add .missing,
      s.extends_add .missing, stands_missing hfresh⟩
  | some t =>
    obtain ⟨E, hcard, hE⟩ := ho.followed
    have hunused : (World.unused E s).card < w.horizon :=
      (Finset.card_le_card (Finset.filter_subset _ _)).trans_lt hcard
    obtain ⟨x, s', hrun, hs', hext, hx⟩ :=
      World.run_describeIn ho hE w.horizon (hmet t rfl) hs (by simp) hunused
    exact ⟨x, s', hrun, hs', hext, hx⟩

/-! ### What can be reached -/

theorem mem_of_rel {α : Type} {R : α → Ref → Prop} {a : Option α} {b : Option Ref}
    (h : Option.Rel R a b) (hx : b = some x) : ∃ u, R u x := by
  cases h with
  | none => cases hx
  | some hux =>
    cases hx
    exact ⟨_, hux⟩

theorem mem_of_forall₂ {α : Type} {R : α → Ref → Prop} {us : List α} {xs : List Ref}
    (h : List.Forall₂ R us xs) (hx : x ∈ xs) : ∃ u, R u x := by
  obtain ⟨u, -, hux⟩ := exists_mem_of_forall₂ h.flip hx
  exact ⟨u, hux⟩

theorem exists_of_mem_children {α : Type} {R : α → Ref → Prop} {P : Portrait α} {n : Node}
    (h : P.Depicts R n) (hx : x ∈ n.children) : ∃ u, R u x := by
  simp only [Node.children, List.mem_append, Option.mem_toList] at hx
  rcases hx with (((hx | hx) | hx) | hx) | hx
  · exact mem_of_rel h.element hx
  · exact mem_of_rel h.key hx
  · exact mem_of_rel h.underlying hx
  · exact mem_of_forall₂ h.tuple hx
  · exact mem_of_forall₂ h.typeArgs hx

theorem Faithful.exists_of_reach (hs : s.Faithful w interfaces roots []) {e : Identity}
    (hx : s.Remembers e x) (h : s.graph.Reach x y) : ∃ f, s.Remembers f y := by
  induction h with
  | refl => exact ⟨e, hx⟩
  | tail _ hc ih =>
    obtain ⟨f, hf⟩ := ih
    obtain ⟨-, t, ht, rfl⟩ := hs.known f _ hf
    exact exists_of_mem_children (hs.drawn t _ ht hf List.not_mem_nil).depicts hc

theorem Faithful.finishedFrom (hs : s.Faithful w interfaces roots []) {e : Identity}
    (hx : s.Remembers e x) : s.graph.FinishedFrom x := by
  intro y hy
  obtain ⟨f, hf⟩ := hs.exists_of_reach hx hy
  obtain ⟨-, t, ht, rfl⟩ := hs.known f y hf
  exact (hs.drawn t y ht hf List.not_mem_nil).finished

theorem eq_of_reach_missing {g : Graph} (hx : g.node x = .missing) (h : g.Reach x y) : y = x := by
  induction h with
  | refl => rfl
  | tail _ hc ih =>
    rw [ih, Graph.Child, hx] at hc
    cases hc

theorem Stands.finishedFrom (hs : s.Faithful w interfaces roots []) (h : s.Stands w o x) :
    s.graph.FinishedFrom x := by
  cases o with
  | some t => exact hs.finishedFrom h
  | none =>
    intro y hy
    rw [eq_of_reach_missing h.2.1 hy, h.2.1]
    exact ⟨rfl, rfl⟩

end Draft

namespace Operands

variable {w : World} {p : Operands}

/-- The types of the operands that are there. -/
def roots (p : Operands) : Set Ty := {t | p.left = some t ∨ p.right = some t}

/-- The interfaces that the types of the operands are tested against. -/
def interfacesFor (w : World) (p : Operands) : List Ty := (p.describer w).interfaces

/-- Types are tested against errors, against the interfaces that are given, and against those that
the operands mention. -/
theorem mem_interfacesFor {i : Ty} :
    i ∈ p.interfacesFor w ↔ i = .error ∨ (w.isInterface i = true ∧
      (i ∈ p.interfaces ∨ i ∈ w.interfacesIn p.left ∨ i ∈ w.interfacesIn p.right)) := by
  simp only [interfacesFor, describer, Describer.mem_interfaces_register, List.mem_singleton]
  grind

theorem faithful_start (w : World) (p : Operands) :
    Draft.Faithful w (p.interfacesFor w) p.roots [] ⟨{}, p.describer w⟩ := by
  have hmemo : (p.describer w).memo = [] := by
    unfold describer
    rw [(Describer.register_frame _ _).1, (Describer.register_frame _ _).1,
      (Describer.register_frame _ _).1]
  have hnone : ∀ e r, ¬ Draft.Remembers ⟨{}, p.describer w⟩ e r := by
    intro e r hr
    unfold Draft.Remembers at hr
    rw [hmemo] at hr
    cases hr
  exact ⟨rfl, fun e r hr => absurd hr (hnone e r), fun e f r hr => absurd hr (hnone e r),
    fun e he => absurd he List.not_mem_nil, fun t r _ hr => absurd hr (hnone _ r),
    fun t r _ hr => absurd hr (hnone _ r)⟩

/-- **Both operands are described**, in a draft that is faithful to their types. -/
theorem exists_describe (h : w.Orderly (p.interfacesFor w) p.roots) :
    ∃ (l r : Ref) (s : Draft), p.describe w = .ok (l, r, s.graph) ∧
      s.Faithful w (p.interfacesFor w) p.roots [] ∧ s.Stands w p.left l ∧
      s.Stands w p.right r := by
  obtain ⟨l, s₁, hl, hs₁, -, hstands⟩ := Draft.exists_describe (o := p.left) h
    (faithful_start w p) fun t ht => .root (Or.inl ht)
  obtain ⟨r, s₂, hr, hs₂, hext, hstandr⟩ := Draft.exists_describe (o := p.right) h hs₁
    fun t ht => .root (Or.inr ht)
  refine ⟨l, r, s₂, ?_, hs₂, hstands.of_extends hext, hstandr⟩
  unfold describe
  rw [hl]
  simp only [bind, Except.bind, hr]
  rfl

end Operands

/-! ### The finding -/

theorem answerFor_of_canBeEqual {g : Graph} {l r : Ref} {e : Bool} (cache : Option Cache)
    (left right : String) (h : canBeEqual g Rule.defaults (some l) (some r) = .ok e) :
    answerFor cache g l r left right = .ok (Cache.settle cache (Cache.key g l r) e) := by
  obtain ⟨steps, hask⟩ := askCached_of_canBeEqual h cache
  unfold answerFor
  rw [hask]

theorem answerFor_of_verdict {g : Graph} {l r : Ref} {v : Verdict} (cache : Option Cache)
    (left right : String) (h : verdict g Rule.defaults (some l) (some r) = .ok v) :
    answerFor cache g l r left right =
      .ok (Cache.settle cache (Cache.key g l r) (v = .compatible)) :=
  answerFor_of_canBeEqual cache left right (canBeEqual_of_verdict h)

/-- The finding on two descriptors with a verdict in each direction. -/
def Operands.finding (options : CheckOptions) (p : Operands) (g : Graph) (l r : Ref)
    (forward reverse : Verdict) : Finding where
  left := p.leftText
  right := p.rightText
  forward := forward = .compatible
  reverse := reverse = .compatible
  leftKind := (g.node l).kind
  rightKind := (g.node r).kind
  directional := options.directional

/-- **A check in terms of verdicts.** -/
theorem check_of_describe {w : World} {options : CheckOptions} {p : Operands} {g : Graph}
    {l r : Ref} {v u : Verdict} (h : p.describe w = .ok (l, r, g))
    (hv : verdict g Rule.defaults (some l) (some r) = .ok v)
    (hu : verdict g Rule.defaults (some r) (some l) = .ok u) :
    check w options none p = .ok (p.finding options g l r v u, none) := by
  unfold check
  simp only [h, bind, Except.bind, pure, Except.pure, answerFor_of_verdict _ _ _ hv,
    answerFor_of_verdict _ _ _ hu]
  rfl

end EverEqual
