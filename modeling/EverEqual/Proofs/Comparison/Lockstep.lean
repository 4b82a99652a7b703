import EverEqual.Proofs.Comparison.Nested

/-!
# Copies, sharing and unrolled cycles

A type can be drawn in many ways: a descriptor can be shared or copied, and a cycle can be unrolled
into a longer one. A similarity relates such drawings. The walks from related descriptors go in
lockstep: the guard goes by identities, which are the same on both sides, so it cuts both walks at
the same pair, and every rule hands on related parts. Only the bounds on the depth differ, because
they are taken from the number of descriptors; neither is ever reached.

* `Walker.on`: the same walk through another graph;
* `Similarity.run_conjunction`, `Similarity.run_compare`: related calls do the same;
* `Similarity.run_eq`: so do whole walks, whatever is observed;
* `trace_eq_of_similarity`: the verdict and the resolved pairs, in order.
-/

namespace EverEqual

variable {σ : Type}

/-- The walk through another graph by the same rules, with the same observer. -/
def Walker.on (w : Walker σ) (h : Graph) : Walker σ :=
  { w with graph := h }

namespace Similarity

variable {w : Walker σ} {h : Graph} {R : Ref → Ref → Prop}

/-- Related lists of parts are compared alike if related parts are. -/
theorem run_conjunction {f f' : Option Ref → Option Ref → WalkM σ Verdict}
    (hf : ∀ {a b a' b'}, Option.Rel R a a' → Option.Rel R b b' →
      ∀ s, (f a b).run s = (f' a' b').run s)
    {ps qs : List (Option Ref × Option Ref)}
    (hps : List.Forall₂ (fun p q => Option.Rel R p.1 q.1 ∧ Option.Rel R p.2 q.2) ps qs)
    (v : Verdict) (s : Walk σ) :
    (Walker.conjunction f ps v).run s = (Walker.conjunction f' qs v).run s := by
  induction hps generalizing v s with
  | nil => rfl
  | @cons p q ps qs hpq _ ih =>
    obtain ⟨a, b⟩ := p
    obtain ⟨a', b'⟩ := q
    rw [Walker.run_conjunction_cons, Walker.run_conjunction_cons, hf hpq.1 hpq.2]
    simp only [ih]

/-- **Related calls do the same**: they have the same verdict or the same fault, and what the
observer sees on the way is the same. -/
theorem run_compare (hR : Similarity w.graph h R) (fuel : Nat) {a b a' b' : Option Ref}
    (ha : Option.Rel R a a') (hb : Option.Rel R b b') (s : Walk σ) :
    (w.compare fuel a b).run s = ((w.on h).compare fuel a' b').run s := by
  induction fuel generalizing a b a' b' s with
  | zero => rfl
  | succ fuel ih =>
    rcases none_or_some_of_rel ha with ⟨rfl, rfl⟩ | ⟨x, x', rfl, rfl, hx⟩
    · rfl
    rcases none_or_some_of_rel hb with ⟨rfl, rfl⟩ | ⟨y, y', rfl, rfl, hy⟩
    · rfl
    have hpair : w.graph.pair x y = (w.on h).graph.pair x' y' := hR.pair_eq hx hy
    cases hact : s.guard.active (w.graph.pair x y) with
    | true => rw [Walker.run_compare_of_active hact, Walker.run_compare_of_active (hpair ▸ hact)]
    | false =>
      have hact' := hact
      rw [hpair] at hact'
      match hres : EverEqual.firstResolution w.graph w.rules x y with
      | none =>
        rw [Walker.run_compare_of_unresolved hact hres,
          Walker.run_compare_of_unresolved hact' (hR.firstResolution_eq_none hx hy hres), hpair]
        rfl
      | some (rule, .settled v) =>
        rw [Walker.run_compare_of_settled hact hres,
          Walker.run_compare_of_settled hact' (hR.firstResolution_settled hx hy hres), hpair]
        rfl
      | some (rule, .parts ps) =>
        obtain ⟨qs, hres', hps⟩ := hR.firstResolution_parts hx hy hres
        rw [Walker.run_compare_of_parts hact hres, Walker.run_compare_of_parts hact' hres',
          run_conjunction (fun ha hb s => ih ha hb s) hps, hpair]
        rfl

/-- **Related walks do the same**, whatever is observed. -/
theorem run_eq (hR : Similarity w.graph h R) {l r l' r' : Ref} (hll : R l l') (hrr : R r r')
    (hl : w.graph.FinishedFrom l) (hr : w.graph.FinishedFrom r) (hl' : h.FinishedFrom l')
    (hr' : h.FinishedFrom r') (start : σ) :
    w.run start (some l) (some r) = (w.on h).run start (some l') (some r') := by
  obtain ⟨v, t, hrun⟩ := (Walker.inside_start hl hr start).returns
  obtain ⟨v', t', hrun'⟩ := (Walker.inside_start (w := w.on h) hl' hr' start).returns
  unfold Call.run at hrun hrun'
  -- both walks end before the bound of the other graph comes into play
  have hmore := Walker.run_compare_add (depthBound h) hrun
  have hmore' := Walker.run_compare_add (depthBound w.graph) hrun'
  rw [hR.run_compare _ (.some hll) (.some hrr), Nat.add_comm] at hmore
  have hsame : (v, t) = (v', t') := Except.ok.inj (hmore.symm.trans hmore')
  unfold Walker.run
  rw [hrun, hrun', hsame]

end Similarity

/-- **Copies, sharing and unrolled cycles are invisible.** If the descriptors of two graphs are
related so that related ones agree in everything the rules read and have related parts, and all that
can be reached from the operands is finished, then related operands have the same verdict, whatever
the rules, and the same pairs are resolved in the same order: at the same depth, by the same rule,
with the same identities and the same verdict. Nothing else that could be observed on the way
differs either. -/
theorem trace_eq_of_similarity {g h : Graph} {R : Ref → Ref → Prop} {l r l' r' : Ref}
    (rules : List Rule) (hR : Similarity g h R) (hll : R l l') (hrr : R r r')
    (hl : g.FinishedFrom l) (hr : g.FinishedFrom r) (hl' : h.FinishedFrom l')
    (hr' : h.FinishedFrom r') :
    (∃ v steps, trace g rules (some l) (some r) = .ok (v, steps) ∧
      trace h rules (some l') (some r') = .ok (v, steps)) ∧
    ∀ {σ : Type} (observe : Event → σ → σ) (start : σ),
      Walker.run ⟨g, rules, observe⟩ start (some l) (some r) =
        Walker.run ⟨h, rules, observe⟩ start (some l') (some r') := by
  have hrun : ∀ {σ : Type} (observe : Event → σ → σ) (start : σ),
      Walker.run ⟨g, rules, observe⟩ start (some l) (some r) =
        Walker.run ⟨h, rules, observe⟩ start (some l') (some r') := fun observe start =>
    hR.run_eq (w := ⟨g, rules, observe⟩) hll hrr hl hr hl' hr' start
  refine ⟨?_, hrun⟩
  obtain ⟨v, hv⟩ := exists_verdict rules hl hr
  have htrace : trace g rules (some l) (some r) = trace h rules (some l') (some r') := by
    unfold trace
    rw [hrun]
  rw [← htrace]
  unfold verdict at hv
  cases hsteps : trace g rules (some l) (some r) with
  | error e =>
    rw [hsteps] at hv
    cases hv
  | ok z => exact ⟨z.1, z.2, rfl, rfl⟩

/-- The rings drawn in another way: the copy of the first array is shared, and the array of itself
is an array of a copy that is an array of the first. -/
def Graph.redrawnRings : Graph :=
  ⟨#[{ kind := .array, id := "A", element := some 1, completed := true },
     { kind := .nullable, id := "*A", underlying := some 0, completed := true },
     { kind := .array, id := "B", element := some 3, completed := true },
     { kind := .array, id := "B", element := some 2, completed := true }]⟩

/-- What stands for what in the two drawings of the rings. -/
def Graph.Redrawn (x y : Ref) : Prop := (x, y) ∈ [(0, 0), (1, 1), (2, 0), (3, 2), (3, 3)]

theorem Graph.similarity_redrawnRings : Similarity rings redrawnRings Redrawn := by
  intro x y hxy
  simp only [Redrawn, List.mem_cons, Prod.mk.injEq, List.not_mem_nil, or_false] at hxy
  rcases hxy with ⟨rfl, rfl⟩ | ⟨rfl, rfl⟩ | ⟨rfl, rfl⟩ | ⟨rfl, rfl⟩ | ⟨rfl, rfl⟩ <;>
    first
    | exact ⟨rfl, rfl, .some (by simp [Redrawn]), .none, .none, .nil, rfl, .nil, fun _ => rfl,
        fun _ => rfl, fun _ => rfl⟩
    | exact ⟨rfl, rfl, .none, .none, .some (by simp [Redrawn]), .nil, rfl, .nil, fun _ => rfl,
        fun _ => rfl, fun _ => rfl⟩

theorem trace_eq_of_similarity_rings :
    (Similarity Graph.rings Graph.redrawnRings Graph.Redrawn ∧ Graph.Redrawn 0 0 ∧
      Graph.Redrawn 3 2 ∧ Graph.rings.FinishedFrom 0 ∧ Graph.rings.FinishedFrom 3 ∧
      Graph.redrawnRings.FinishedFrom 0 ∧ Graph.redrawnRings.FinishedFrom 2) ∧
    trace Graph.rings Rule.defaults (some 0) (some 3) =
      .ok (.assumed, [⟨2, .nullable, "*A", "B", .assumed⟩, ⟨1, .collection, "A", "B", .assumed⟩]) ∧
    trace Graph.redrawnRings Rule.defaults (some 0) (some 2) =
      .ok (.assumed, [⟨2, .nullable, "*A", "B", .assumed⟩, ⟨1, .collection, "A", "B", .assumed⟩]) := by
  have h₀ := Graph.finishedFrom_rings (x := 0) (by decide)
  have h₃ := Graph.finishedFrom_rings (x := 3) (by decide)
  have h₀' : Graph.redrawnRings.FinishedFrom 0 :=
    Graph.finishedFrom_of_closed [0, 1] (by decide) (by decide) (by decide)
  have h₂' : Graph.redrawnRings.FinishedFrom 2 :=
    Graph.finishedFrom_of_closed [2, 3] (by decide) (by decide) (by decide)
  have hll : Graph.Redrawn 0 0 := by simp [Graph.Redrawn]
  have hrr : Graph.Redrawn 3 2 := by simp [Graph.Redrawn]
  obtain ⟨⟨v, steps, htrace, htrace'⟩, -⟩ := trace_eq_of_similarity Rule.defaults
    Graph.similarity_redrawnRings hll hrr h₀ h₃ h₀' h₂'
  have hrings : trace Graph.rings Rule.defaults (some 0) (some 3) =
      .ok (.assumed,
        [⟨2, .nullable, "*A", "B", .assumed⟩, ⟨1, .collection, "A", "B", .assumed⟩]) := by
    decide
  refine ⟨⟨Graph.similarity_redrawnRings, hll, hrr, h₀, h₃, h₀', h₂'⟩, hrings, ?_⟩
  rw [htrace', ← htrace, hrings]

end EverEqual
