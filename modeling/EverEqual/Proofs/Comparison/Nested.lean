import EverEqual.Descriptor.Blueprint
import EverEqual.Proofs.Comparison.Decision

/-!
# Calls inside a walk

A walk calls itself on the parts of a pair. The verdict of such a call depends on the pairs that
surround it: what is incompatible on its own can be assumed inside a pair that leads back to it. But
whether the verdict is compatible does not depend on them. An assumed verdict inside a walk shows a
way back to a pair that surrounds the call, from there the walk came, so the way goes round, and
then the call finds no compatible verdict on its own either.

So a composed type can be asked for by its parts: arrays and maps follow their elements, and tuples
their components.

* `Walker.Makes`: a call makes another one;
* `Walker.Inside`, `Walker.Inside.makes`: what holds of every call on the way;
* `Judged.compatible_iff`: the compatible verdict inside surrounding pairs that lead to the call;
* `Graph.Grown`: a graph that has only got new descriptors answers as before;
* `compatible_iff_alone`: the compatible verdict of a nested call, and types by their parts.
-/

namespace EverEqual

open Relation

/-! ### Nested calls -/

/-- A call of the walk: how deep it may go, its operands, and where the walk stands. -/
structure Call (σ : Type) where
  fuel : Nat
  left : Option Ref
  right : Option Ref
  state : Walk σ

/-- The verdict of a call, and where the walk stands afterwards. -/
def Call.run {σ : Type} (w : Walker σ) (c : Call σ) : Except Fault (Verdict × Walk σ) :=
  (w.compare c.fuel c.left c.right).run c.state

namespace Walker

variable {σ : Type} {w : Walker σ} {g : Graph} {rules : List Rule} {l r : Ref}

/-- A call makes another one: its pair is new to the guard, the first rule that resolves the pair
hands on parts, and the other call is on one of them, after the ones before it have been compared
and none of them was incompatible. -/
inductive Makes (w : Walker σ) : Call σ → Call σ → Prop
  | part {n : Nat} {x y : Ref} {a b : Option Ref} {s t : Walk σ} {rule : Rule}
      {earlier later : List (Option Ref × Option Ref)} {v : Verdict}
      (fresh : s.guard.active (w.graph.pair x y) = false)
      (resolved : firstResolution w.graph w.rules x y =
        some (rule, .parts (earlier ++ (a, b) :: later)))
      (compared : (conjunction (w.compare n) earlier .compatible).run
        (w.entered (w.graph.pair x y) s) = .ok (v, t))
      (kept : v ≠ .incompatible) :
      Makes w ⟨n + 1, some x, some y, s⟩ ⟨n, a, b, t⟩

theorem run_conjunction_append {f : Option Ref → Option Ref → WalkM σ Verdict}
    (ps qs : List (Option Ref × Option Ref)) {u v : Verdict} {s t : Walk σ} (hu : u ≠ .incompatible)
    (h : (conjunction f ps u).run s = .ok (v, t)) (hv : v ≠ .incompatible) :
    (conjunction f (ps ++ qs) u).run s = (conjunction f qs v).run t := by
  induction ps generalizing u s with
  | nil =>
    cases h
    rfl
  | cons p ps ih =>
    obtain ⟨a, b⟩ := p
    obtain ⟨v₁, s₁, hp, ⟨-, hinc, -⟩ | ⟨hne, hps⟩⟩ := of_run_conjunction_cons h
    · exact absurd hinc hv
    · rw [List.cons_append, run_conjunction_cons, hp]
      change (if u.and v₁ = .incompatible then _ else _) = _
      rw [if_neg hne]
      exact ih hne hps

/-- **A call on the way** of a walk from `l` and `r`: its operands are there and were reached
through parts, every pair that surrounds it leads to it, and it has a verdict. -/
structure Inside (w : Walker σ) (l r : Ref) (c : Call σ) (x y : Ref) : Prop where
  left : c.left = some x
  right : c.right = some y
  reached : ReflTransGen (w.graph.Edge w.rules) (l, r) (x, y)
  sound : c.state.guard.Sound
  surrounding : ∀ p ∈ c.state.guard.stack, ∃ q : Ref × Ref, w.graph.pair q.1 q.2 = p ∧
    ReflTransGen (w.graph.Edge w.rules) (l, r) q ∧ TransGen (w.graph.Edge w.rules) q (x, y)
  returns : ∃ v t, c.run w = .ok (v, t)

theorem inside_start (hl : w.graph.FinishedFrom l) (hr : w.graph.FinishedFrom r) (start : σ) :
    w.Inside l r ⟨depthBound w.graph, some l, some r, ⟨{}, start⟩⟩ l r where
  left := rfl
  right := rfl
  reached := .refl
  sound := Guard.sound_empty
  surrounding := by simp
  returns := by
    obtain ⟨v, a, hrun, -⟩ := run_compare_within (P := fun _ => True) hl hr
      (fun _ _ _ _ => trivial) (depthBound w.graph) (s := ⟨{}, start⟩) .refl .refl
      Guard.within_empty trivial (Nat.lt_add_right _ Graph.pairsFrom_lt_depthBound)
    exact ⟨v, _, hrun⟩

theorem Inside.makes {c c' : Call σ} {x y : Ref} (hl : w.graph.FinishedFrom l)
    (hr : w.graph.FinishedFrom r) (h : w.Inside l r c x y) (hc : w.Makes c c') :
    ∃ a b, w.Inside l r c' a b := by
  cases hc with
  | @part n x' y' a b s t rule earlier later v fresh resolved compared kept =>
    obtain ⟨hx, hy, hreach, hsound, hstack, z, u, hrun⟩ := h
    obtain rfl := Option.some.inj hx
    obtain rfl := Option.some.inj hy
    have hxy := Graph.reach_of_reflTransGen hl hr hreach
    obtain ⟨c, d, hcd, -, -⟩ := exists_of_mem_parts (hl _ hxy.1) (hr _ hxy.2)
      (resolve_of_firstResolution resolved) (List.mem_append_right _ List.mem_cons_self)
    obtain ⟨rfl, rfl⟩ := Prod.mk.inj hcd
    have hedge : w.graph.Edge w.rules (x', y') (c, d) :=
      ⟨rule, _, resolved, List.mem_append_right _ List.mem_cons_self⟩
    have hguard : t.guard = s.guard.push (w.graph.pair x' y') :=
      guard_run_conjunction (fun _ _ _ _ _ => guard_run_compare) earlier compared
    refine ⟨c, d, rfl, rfl, hreach.tail hedge, ?_, ?_, ?_⟩
    · change t.guard.Sound
      rw [hguard]
      exact hsound.push fresh
    · intro p hp
      change p ∈ t.guard.stack at hp
      rw [hguard] at hp
      rcases List.mem_cons.mp hp with rfl | hp
      · exact ⟨(x', y'), rfl, hreach, .single hedge⟩
      · obtain ⟨q, hq, hlq, hqx⟩ := hstack p hp
        exact ⟨q, hq, hlq, hqx.tail hedge⟩
    · -- the outer call went on to this part, so the part has a verdict
      change (w.compare (n + 1) (some x') (some y')).run s = _ at hrun
      rw [run_compare_of_parts fresh resolved,
        run_conjunction_append _ _ (by simp) compared kept] at hrun
      cases hconj : (conjunction (w.compare n) ((some c, some d) :: later) v).run t with
      | error e =>
        rw [hconj] at hrun
        cases hrun
      | ok m =>
        obtain ⟨v₁, s₁, hpart, -⟩ := of_run_conjunction_cons hconj
        exact ⟨v₁, s₁, hpart⟩

theorem exists_inside {c : Call σ} (hl : w.graph.FinishedFrom l) (hr : w.graph.FinishedFrom r)
    (start : σ)
    (hc : ReflTransGen w.Makes ⟨depthBound w.graph, some l, some r, ⟨{}, start⟩⟩ c) :
    ∃ x y, w.Inside l r c x y := by
  induction hc with
  | refl => exact ⟨l, r, inside_start hl hr start⟩
  | tail _ hmakes ih =>
    obtain ⟨x, y, h⟩ := ih
    exact h.makes hl hr hmakes

end Walker

/-! ### The verdict inside surrounding pairs -/

section Verdicts

variable {g : Graph} {rules : List Rule} {l r x y : Ref}

theorem Graph.Consistent.of_reach (hc : g.Consistent l r) (hx : g.ReachEither l r x)
    (hy : g.ReachEither l r y) : g.Consistent x y := by
  have hin : ∀ {z}, g.ReachEither x y z → g.ReachEither l r z := by
    rintro z (hz | hz)
    · exact hx.imp (·.trans hz) (·.trans hz)
    · exact hy.imp (·.trans hz) (·.trans hz)
  exact fun z z' hz hz' => hc z z' (hin hz) (hin hz')

/-- **Inside pairs that lead to it, a pair is compatible if the rules allow it**, as it is outside
of them. -/
theorem Judged.compatible_iff {stack : List IdentityPair} {v : Verdict} (hl : g.FinishedFrom l)
    (hr : g.FinishedFrom r) (hc : g.Consistent l r)
    (hxy : ReflTransGen (g.Edge rules) (l, r) (x, y))
    (hstack : ∀ p ∈ stack, ∃ q : Ref × Ref, g.pair q.1 q.2 = p ∧
      ReflTransGen (g.Edge rules) (l, r) q ∧ TransGen (g.Edge rules) q (x, y))
    (h : Judged g rules stack x y v) : v = .compatible ↔ (x, y) ∈ g.allowed rules := by
  have hreach : ∀ {z}, ReflTransGen (g.Edge rules) (l, r) z → g.Reach l z.1 ∧ g.Reach r z.2 :=
    Graph.reach_of_reflTransGen hl hr
  have hx := hl.of_reach (hreach hxy).1
  have hy := hr.of_reach (hreach hxy).2
  have hcxy : g.Consistent x y := hc.of_reach (Or.inl (hreach hxy).1) (Or.inr (hreach hxy).2)
  constructor
  · rintro rfl
    exact h.mem_allowed hx hy
  · intro hmem
    -- neither a rejected pair nor a cycle can be reached from an allowed pair
    have hstraight : ∀ {p q}, ReflTransGen (g.Edge rules) (x, y) p → TransGen (g.Edge rules) p q →
        g.pair p.1 p.2 ≠ g.pair q.1 q.2 := fun hp hpq hsame => by
      obtain ⟨z, hz, hcycle⟩ := hcxy.exists_cycle hx hy hp hpq hsame
      exact Graph.not_cycle_of_mem_allowed hmem hz hcycle
    cases v with
    | compatible => rfl
    | incompatible =>
      obtain ⟨q, hq, hrej⟩ := h.exists_rejected
      exact absurd hrej (Graph.not_rejected_of_mem_allowed hmem hq)
    | assumed =>
      obtain ⟨q, hq, hin | ⟨p, hp, hpq, hsame⟩⟩ := h.exists_return
      · -- the way back to a surrounding pair goes on to this call, and back again
        obtain ⟨p, hpq, hlp, hpx⟩ := hstack _ hin
        have hlq := hxy.trans hq
        have halike : g.PairAlike l r p q :=
          ⟨⟨Or.inl (hreach hlp).1, Or.inl (hreach hlq).1, congrArg IdentityPair.left hpq⟩,
            Or.inr (hreach hlp).2, Or.inr (hreach hlq).2, congrArg IdentityPair.right hpq⟩
        obtain ⟨q', hqq', hsame⟩ := hc.exists_transGen halike (TransGen.trans_left hpx hq)
        exact absurd hsame.pair_eq (hstraight hq hqq')
      · exact absurd hsame (hstraight hp hpq)

theorem Graph.Consistent.exists_answer (rules : List Rule) (hl : g.FinishedFrom l)
    (hr : g.FinishedFrom r) (hc : g.Consistent l r) :
    ∃ e, canBeEqual g rules (some l) (some r) = .ok e ∧ (e = true ↔ (l, r) ∈ g.allowed rules) := by
  obtain ⟨v, hv⟩ := exists_verdict rules hl hr
  refine ⟨_, canBeEqual_of_verdict hv, ?_⟩
  rw [decide_eq_true_iff]
  exact (judged_of_verdict hv).eq_compatible_iff hl hr hc

end Verdicts

/-! ### New descriptors -/

/-- A graph that has only got new descriptors. -/
structure Graph.Grown (g h : Graph) : Prop where
  size : g.size ≤ h.size
  node : ∀ x < g.size, h.node x = g.node x

namespace Graph

variable {g h k : Graph} {x y : Ref}

theorem grown_add (g : Graph) (n : Node) : g.Grown (g.add n).1 where
  size := by simp
  node x hx := by rw [node_add, if_neg (Nat.ne_of_lt hx)]

theorem Grown.trans (hgh : g.Grown h) (hhk : h.Grown k) : g.Grown k where
  size := hgh.size.trans hhk.size
  node x hx := (hhk.node x (hx.trans_le hgh.size)).trans (hgh.node x hx)

theorem Grown.node_eq (hgh : g.Grown h) (hx : g.FinishedFrom x) : h.node x = g.node x :=
  hgh.node x (lt_size_of_completed (hx x .refl).completed)

theorem Grown.reach (hgh : g.Grown h) (hx : g.FinishedFrom x) (hxy : h.Reach x y) :
    g.Reach x y := by
  induction hxy with
  | refl => exact .refl
  | tail _ hchild ih =>
    unfold Child at hchild
    rw [hgh.node_eq (hx.of_reach ih)] at hchild
    exact ih.tail hchild

theorem Grown.finishedFrom (hgh : g.Grown h) (hx : g.FinishedFrom x) : h.FinishedFrom x :=
  fun y hy => by
    rw [hgh.node_eq (hx.of_reach (hgh.reach hx hy))]
    exact hx y (hgh.reach hx hy)

theorem Grown.canBeEqual_eq (hgh : g.Grown h) {rules : List Rule} (hx : g.FinishedFrom x)
    (hy : g.FinishedFrom y) :
    canBeEqual h rules (some x) (some y) = canBeEqual g rules (some x) (some y) := by
  have hsim : Similarity g h (fun a b => g.FinishedFrom a ∧ a = b) := by
    rintro a _ ⟨ha, rfl⟩
    rw [hgh.node_eq ha]
    exact (Node.match_self _).imp_of_mem fun c hc d _ hcd => ⟨ha.of_reach (.single hc), hcd⟩
  obtain ⟨v, hv⟩ := exists_verdict rules hx hy
  obtain ⟨u, hu⟩ := exists_verdict rules (hgh.finishedFrom hx) (hgh.finishedFrom hy)
  have huv : v = u := verdict_eq_of_similarity hsim ⟨hx, rfl⟩ ⟨hy, rfl⟩ hv hu
  rw [canBeEqual_of_verdict hv, canBeEqual_of_verdict hu, huv]

theorem FinishedFrom.of_children (hx : (g.node x).Finished)
    (hc : ∀ y ∈ (g.node x).children, g.FinishedFrom y) : g.FinishedFrom x := by
  intro z hz
  rcases hz.cases_head with rfl | ⟨y, hxy, hyz⟩
  · exact hx
  · exact hc y hxy z hyz

end Graph

/-! ### Types by their parts -/

section Parts

variable {g : Graph} {x y a b : Ref}

theorem mem_allowed_of_id (h : (g.node x).id = (g.node y).id) :
    (x, y) ∈ g.allowed Rule.defaults := by
  by_cases hunk : (g.node x).kind = .unknown ∨ (g.node y).kind = .unknown
  · exact Graph.mem_allowed_of_unknown hunk
  · have hstage : g.stage x y = .identity := Face.stage_eq_identity hunk h
    rw [mem_allowed_iff, hstage]
    exact Or.inl rfl

theorem mem_allowed_iff_of_parts {ps : List (Option Ref × Option Ref)}
    (h : g.decision x y (g.stage x y) = some (.parts ps)) :
    (x, y) ∈ g.allowed Rule.defaults ↔
      ∀ q ∈ ps, ∃ a b, q = (some a, some b) ∧ (a, b) ∈ g.allowed Rule.defaults := by
  rw [mem_allowed_iff, h]
  constructor
  · rintro (hset | ⟨ps', hps', hall⟩)
    · cases hset
    · obtain rfl : ps = ps' := by simpa using hps'
      exact hall
  · exact fun hall => Or.inr ⟨ps, rfl, hall⟩

/-- A finished descriptor of values that yield elements. -/
def Node.yielding (kind : Kind) (key : Option Ref) (id : Identity) (a : Ref) : Node where
  kind := kind
  id := id
  key := key
  element := some a
  completed := true

/-- A finished descriptor of a tuple. -/
def Node.composed (id : Identity) (parts : List Ref) : Node where
  kind := .tuple
  id := id
  tuple := parts
  completed := true

theorem mem_allowed_yielding {kind : Kind} {key : Option Ref} {id id' : Identity}
    (hkind : kind = .array ∨ kind = .collection) (hx : g.node x = .yielding kind key id a)
    (hy : g.node y = .yielding kind key id' b) (hid : id = id' ↔ (g.node a).id = (g.node b).id) :
    (x, y) ∈ g.allowed Rule.defaults ↔ (a, b) ∈ g.allowed Rule.defaults := by
  by_cases hab : (g.node a).id = (g.node b).id
  · have hxy : (g.node x).id = (g.node y).id := by
      rw [hx, hy]
      exact hid.mpr hab
    exact iff_of_true (mem_allowed_of_id hxy) (mem_allowed_of_id hab)
  · have hne : id ≠ id' := mt hid.mp hab
    have hdec : g.decision x y (g.stage x y) = some (.parts [(some a, some b)]) := by
      cases key with
      | none =>
        have hstage : g.stage x y = .elements := by
          rcases hkind with rfl | rfl <;>
            simp [Graph.stage, Face.stage, Face.enumerable, Node.face, hx, hy, Node.yielding, hne]
        rw [hstage, Graph.decision, hx, hy]
        rfl
      | some k =>
        have hstage : g.stage x y = .keyed := by
          rcases hkind with rfl | rfl <;>
            simp [Graph.stage, Face.stage, Face.enumerable, Node.face, hx, hy, Node.yielding, hne]
        have hsame : Rule.sameKey (g.node k) (g.node k) = true := by simp [Rule.sameKey]
        rw [hstage, Graph.decision, compareElements_of_key (k := k) (l := k) (by rw [hx]; rfl)
          (by rw [hy]; rfl), if_pos hsame, hx, hy]
        rfl
    rw [mem_allowed_iff_of_parts hdec]
    simp

theorem mem_allowed_composed {id id' : Identity} {as bs : List Ref}
    (hx : g.node x = .composed id as) (hy : g.node y = .composed id' bs)
    (hid : id = id' → List.Forall₂ (fun a b => (g.node a).id = (g.node b).id) as bs) :
    (x, y) ∈ g.allowed Rule.defaults ↔
      List.Forall₂ (fun a b => (a, b) ∈ g.allowed Rule.defaults) as bs := by
  by_cases hne : id = id'
  · have hxy : (g.node x).id = (g.node y).id := by
      rw [hx, hy]
      exact hne
    exact iff_of_true (mem_allowed_of_id hxy) ((hid hne).imp fun _ _ => mem_allowed_of_id)
  · by_cases hlen : as.length = bs.length
    · have hstage : g.stage x y = .tuple := by
        simp [Graph.stage, Face.stage, Face.enumerable, Node.face, hx, hy, Node.composed, hne, hlen]
      have hdec : g.decision x y (g.stage x y) =
          some (.parts ((as.map some).zip (bs.map some))) := by
        rw [hstage, Graph.decision, hx, hy]
        rfl
      rw [mem_allowed_iff_of_parts hdec, List.forall₂_iff_zip, List.zip_map, List.forall_mem_map]
      simp [hlen]
    · have hstage : g.stage x y = .arity := by
        simp [Graph.stage, Face.stage, Face.enumerable, Node.face, hx, hy, Node.composed, hne, hlen]
      rw [mem_allowed_iff, hstage, Graph.decision]
      exact iff_of_false (by simp) fun h => hlen h.length_eq

end Parts

/-! ### New types from old ones -/

namespace Graph

/-- Two descriptors made one after the other. -/
def constructTwo (g : Graph) (left right : Blueprint) : Except Defect (Graph × Ref × Ref) := do
  let (g, x) ← g.construct left
  let (g, y) ← g.construct right
  return (g, x, y)

/-- The graph with two descriptors added. -/
def addTwo (g : Graph) (m n : Node) : Graph := ((g.add m).1.add n).1

variable {g : Graph} {m n : Node} {a b : Ref}

theorem grown_addTwo : g.Grown (g.addTwo m n) := (grown_add g m).trans (grown_add _ n)

theorem node_addTwo_left : (g.addTwo m n).node g.size = m := by
  simp [addTwo, node_add]

theorem node_addTwo_right : (g.addTwo m n).node (g.size + 1) = n := by
  simp [addTwo, node_add]

theorem exists_answer_addTwo (hm : m.Finished) (hn : n.Finished)
    (hmc : ∀ c ∈ m.children, g.FinishedFrom c) (hnc : ∀ c ∈ n.children, g.FinishedFrom c)
    (hc : (g.addTwo m n).Consistent g.size (g.size + 1)) :
    ∃ e, canBeEqual (g.addTwo m n) Rule.defaults (some g.size) (some (g.size + 1)) = .ok e ∧
      (e = true ↔ (g.size, g.size + 1) ∈ (g.addTwo m n).allowed Rule.defaults) := by
  refine hc.exists_answer _ (.of_children ?_ ?_) (.of_children ?_ ?_)
  · rwa [node_addTwo_left]
  · rw [node_addTwo_left]
    exact fun c hcm => grown_addTwo.finishedFrom (hmc c hcm)
  · rwa [node_addTwo_right]
  · rw [node_addTwo_right]
    exact fun c hcn => grown_addTwo.finishedFrom (hnc c hcn)

theorem reachEither_addTwo_left {c : Ref} (hc : c ∈ m.children) :
    (g.addTwo m n).ReachEither g.size (g.size + 1) c :=
  Or.inl (.single (by rw [Child, node_addTwo_left]; exact hc))

theorem reachEither_addTwo_right {c : Ref} (hc : c ∈ n.children) :
    (g.addTwo m n).ReachEither g.size (g.size + 1) c :=
  Or.inr (.single (by rw [Child, node_addTwo_right]; exact hc))

theorem exists_answer_part (ha : g.FinishedFrom a) (hb : g.FinishedFrom b) (ham : a ∈ m.children)
    (hbn : b ∈ n.children) (hc : (g.addTwo m n).Consistent g.size (g.size + 1)) :
    ∃ e, canBeEqual g Rule.defaults (some a) (some b) = .ok e ∧
      (e = true ↔ (a, b) ∈ (g.addTwo m n).allowed Rule.defaults) := by
  have hgrown : g.Grown (g.addTwo m n) := grown_addTwo
  have hcab := hc.of_reach (reachEither_addTwo_left ham) (reachEither_addTwo_right hbn)
  rw [← hgrown.canBeEqual_eq ha hb]
  exact hcab.exists_answer _ (hgrown.finishedFrom ha) (hgrown.finishedFrom hb)

/-- A blueprint that adds a descriptor, whatever the other one has added before. -/
theorem constructTwo_eq {p q : Blueprint} (hp : g.construct p = .ok (g.add m))
    (hq : ∀ k, (g.add k).1.construct q = .ok ((g.add k).1.add n)) :
    g.constructTwo p q = .ok (g.addTwo m n, g.size, g.size + 1) := by
  unfold constructTwo
  rw [hp]
  change ((g.add m).1.construct q >>= _) = _
  rw [hq]
  change Except.ok (_, _, (g.add m).1.size) = _
  rw [size_add]
  rfl

theorem construct_array (g : Graph) (a : Ref) : g.construct (.array (some a)) =
    .ok (g.add (.yielding .array none ("[]" ++ (g.node a).id) a)) :=
  rfl

theorem construct_map (g : Graph) (k a : Ref) : g.construct (.map (some k) (some a)) =
    .ok (g.add (.yielding .collection (some k)
      ("map[" ++ (g.node k).id ++ "]" ++ (g.node a).id) a)) :=
  rfl

/-- The identity of an unnamed tuple. -/
def tupleId (g : Graph) (as : List Ref) : Identity :=
  "(" ++ ", ".intercalate (as.map fun a => (g.node a).id) ++ ")"

theorem construct_tuple (g : Graph) (as : List Ref) : g.construct (.tuple (as.map some)) =
    .ok (g.add (.composed (g.tupleId as) as)) := by
  have hids : (as.map some).mapM (g.identity .tupleElement) =
      .ok (as.map fun a => (g.node a).id) := by
    induction as with
    | nil => rfl
    | cons a as ih =>
      rw [List.map_cons, List.mapM_cons, ih]
      rfl
  rw [construct, hids]
  change g.addFilled .tuple (g.tupleId as) [.tuple (as.map some)] = _
  simp only [addFilled, Node.fill, Node.attachAll, Node.attach, missingIn_map_some,
    leading_map_some]
  rfl

theorem node_of_added {c : Ref} (k : Node) (hc : g.FinishedFrom c) :
    (g.add k).1.node c = g.node c :=
  (grown_add g k).node_eq hc

theorem constructTwo_array (a : Ref) (hb : g.FinishedFrom b) :
    g.constructTwo (.array (some a)) (.array (some b)) =
      .ok (g.addTwo (.yielding .array none ("[]" ++ (g.node a).id) a)
        (.yielding .array none ("[]" ++ (g.node b).id) b), g.size, g.size + 1) := by
  refine constructTwo_eq (construct_array g a) fun m => ?_
  rw [construct_array, node_of_added m hb]

theorem constructTwo_map (a : Ref) {k : Ref} (hk : g.FinishedFrom k) (hb : g.FinishedFrom b) :
    g.constructTwo (.map (some k) (some a)) (.map (some k) (some b)) =
      .ok (g.addTwo (.yielding .collection (some k)
          ("map[" ++ (g.node k).id ++ "]" ++ (g.node a).id) a)
        (.yielding .collection (some k) ("map[" ++ (g.node k).id ++ "]" ++ (g.node b).id) b),
        g.size, g.size + 1) := by
  refine constructTwo_eq (construct_map g k a) fun m => ?_
  rw [construct_map, node_of_added m hk, node_of_added m hb]

theorem constructTwo_tuple (as : List Ref) {bs : List Ref} (hb : ∀ b ∈ bs, g.FinishedFrom b) :
    g.constructTwo (.tuple (as.map some)) (.tuple (bs.map some)) =
      .ok (g.addTwo (.composed (g.tupleId as) as) (.composed (g.tupleId bs) bs),
        g.size, g.size + 1) := by
  refine constructTwo_eq (construct_tuple g as) fun m => ?_
  rw [construct_tuple]
  unfold tupleId
  rw [List.map_congr_left fun b h => by rw [node_of_added m (hb b h)]]

/-- Two new types that yield elements under the same keys are compared like their elements. -/
theorem canBeEqual_addTwo_yielding {kind : Kind} {key : Option Ref} {id id' : Identity}
    (hkind : kind = .array ∨ kind = .collection) (hk : ∀ k, key = some k → g.FinishedFrom k)
    (ha : g.FinishedFrom a) (hb : g.FinishedFrom b)
    (hid : id = id' ↔ (g.node a).id = (g.node b).id)
    (hc : (g.addTwo (.yielding kind key id a) (.yielding kind key id' b)).Consistent g.size
      (g.size + 1)) :
    canBeEqual (g.addTwo (.yielding kind key id a) (.yielding kind key id' b)) Rule.defaults
      (some g.size) (some (g.size + 1)) = canBeEqual g Rule.defaults (some a) (some b) := by
  have hfin : ∀ id c, (Node.yielding kind key id c).Finished := fun id c =>
    ⟨rfl, Node.unsound_eq_none_iff.mpr (by rcases hkind with rfl | rfl <;> rintro ⟨⟩)⟩
  have hmem : ∀ {id : Identity} {c d : Ref}, d ∈ (Node.yielding kind key id c).children ↔
      d = c ∨ key = some d := by
    simp [Node.children, Node.yielding]
  have hparts : ∀ {id : Identity} {c d : Ref}, g.FinishedFrom c →
      d ∈ (Node.yielding kind key id c).children → g.FinishedFrom d := fun hfc hd =>
    (hmem.mp hd).elim (fun hdc => hdc ▸ hfc) (hk _)
  obtain ⟨e, he, hallowed⟩ := exists_answer_addTwo (hfin id a) (hfin id' b)
    (fun _ => hparts ha) (fun _ => hparts hb) hc
  obtain ⟨e', he', hallowed'⟩ := exists_answer_part ha hb (hmem.mpr (Or.inl rfl))
    (hmem.mpr (Or.inl rfl)) hc
  have hgrown : g.Grown (g.addTwo (.yielding kind key id a) (.yielding kind key id' b)) :=
    grown_addTwo
  rw [← hgrown.node_eq ha, ← hgrown.node_eq hb] at hid
  have hsame := mem_allowed_yielding hkind node_addTwo_left node_addTwo_right hid
  rw [he, he', Bool.eq_iff_iff.mpr (hallowed.trans (hsame.trans hallowed'.symm))]

/-- Two new tuples are compared component by component. -/
theorem canBeEqual_addTwo_composed {id id' : Identity} {as bs : List Ref}
    (ha : ∀ a ∈ as, g.FinishedFrom a) (hb : ∀ b ∈ bs, g.FinishedFrom b)
    (hc : (g.addTwo (.composed id as) (.composed id' bs)).Consistent g.size (g.size + 1)) :
    ∃ e, canBeEqual (g.addTwo (.composed id as) (.composed id' bs)) Rule.defaults
        (some g.size) (some (g.size + 1)) = .ok e ∧
      (e = true ↔ as.length = bs.length ∧ ∀ a b, (a, b) ∈ as.zip bs →
        canBeEqual g Rule.defaults (some a) (some b) = .ok true) := by
  have hmem : ∀ {id : Identity} {cs : List Ref} {d : Ref},
      d ∈ (Node.composed id cs).children ↔ d ∈ cs := by
    simp [Node.children, Node.composed]
  obtain ⟨e, he, hallowed⟩ := exists_answer_addTwo (m := .composed id as) (n := .composed id' bs)
    ⟨rfl, rfl⟩ ⟨rfl, rfl⟩ (fun c h => ha c (hmem.mp h)) (fun c h => hb c (hmem.mp h)) hc
  -- tuples of one identity have components of the same identities
  have hids : id = id' → List.Forall₂ (fun a b => ((g.addTwo (.composed id as)
      (.composed id' bs)).node a).id = ((g.addTwo (.composed id as) (.composed id' bs)).node b).id)
      as bs := fun hid => by
    have hmatch := hc g.size (g.size + 1) (Or.inl .refl) (Or.inr .refl)
      (by rw [node_addTwo_left, node_addTwo_right]; exact hid)
    rw [node_addTwo_left, node_addTwo_right] at hmatch
    exact hmatch.tuple
  refine ⟨e, he, ?_⟩
  rw [hallowed, mem_allowed_composed node_addTwo_left node_addTwo_right hids, List.forall₂_iff_zip]
  refine and_congr_right fun _ => ⟨fun h a b hab => ?_, fun h a b hab => ?_⟩
  · obtain ⟨hin, hin'⟩ := List.of_mem_zip hab
    obtain ⟨e', he', hallowed'⟩ := exists_answer_part (ha a hin) (hb b hin') (hmem.mpr hin)
      (hmem.mpr hin') hc
    rw [he', hallowed'.mpr (h hab)]
  · obtain ⟨hin, hin'⟩ := List.of_mem_zip hab
    obtain ⟨e', he', hallowed'⟩ := exists_answer_part (ha a hin) (hb b hin') (hmem.mpr hin)
      (hmem.mpr hin') hc
    rw [h a b hab] at he'
    exact hallowed'.mp (Except.ok.inj he').symm

end Graph

/-- **A nested call is compatible if the call on its own is.** In whatever walk from two descriptors
a call is made, and whatever pairs surround it, it is on two descriptors and has a verdict, and that
is compatible exactly if the answer on the two descriptors alone is true; this needs all that can be
reached to be finished and descriptors of one identity to agree. So, by the default rules, new
arrays and new maps with the same keys are compared like their elements, and new tuples component by
component, as long as descriptors of one identity still agree. -/
theorem compatible_iff_alone {g : Graph} {l r : Ref} (rules : List Rule) (hl : g.FinishedFrom l)
    (hr : g.FinishedFrom r) (hc : g.Consistent l r) :
    (∀ {σ : Type} (observe : Event → σ → σ) (start : σ) (c : Call σ),
      ReflTransGen (Walker.Makes ⟨g, rules, observe⟩)
        ⟨depthBound g, some l, some r, ⟨{}, start⟩⟩ c →
      ∃ x y v t, c.left = some x ∧ c.right = some y ∧ c.run ⟨g, rules, observe⟩ = .ok (v, t) ∧
        canBeEqual g rules (some x) (some y) = .ok (v = .compatible)) ∧
    (∀ {a b : Ref}, g.FinishedFrom a → g.FinishedFrom b →
      (∃ h x y, g.constructTwo (.array (some a)) (.array (some b)) = .ok (h, x, y) ∧
        (h.Consistent x y → canBeEqual h Rule.defaults (some x) (some y) =
          canBeEqual g Rule.defaults (some a) (some b))) ∧
      ∀ {k : Ref}, g.FinishedFrom k →
        ∃ h x y, g.constructTwo (.map (some k) (some a)) (.map (some k) (some b)) = .ok (h, x, y) ∧
          (h.Consistent x y → canBeEqual h Rule.defaults (some x) (some y) =
            canBeEqual g Rule.defaults (some a) (some b))) ∧
    ∀ {as bs : List Ref}, (∀ a ∈ as, g.FinishedFrom a) → (∀ b ∈ bs, g.FinishedFrom b) →
      ∃ h x y, g.constructTwo (.tuple (as.map some)) (.tuple (bs.map some)) = .ok (h, x, y) ∧
        (h.Consistent x y →
          ∃ e, canBeEqual h Rule.defaults (some x) (some y) = .ok e ∧
            (e = true ↔ as.length = bs.length ∧ ∀ a b, (a, b) ∈ as.zip bs →
              canBeEqual g Rule.defaults (some a) (some b) = .ok true)) := by
  refine ⟨fun observe start c hcall => ?_, fun {a b} ha hb => ⟨?_, fun {k} hk => ?_⟩,
    fun {as bs} has hbs => ?_⟩
  · obtain ⟨x, y, hin⟩ := Walker.exists_inside (w := ⟨g, rules, observe⟩) hl hr start hcall
    obtain ⟨v, t, hrun⟩ := hin.returns
    obtain ⟨hx, hy⟩ := Graph.reach_of_reflTransGen hl hr hin.reached
    obtain ⟨e, he, hallowed⟩ := (hc.of_reach (Or.inl hx) (Or.inr hy)).exists_answer rules
      (hl.of_reach hx) (hr.of_reach hy)
    have hj : Judged g rules c.state.guard.stack x y v := by
      unfold Call.run at hrun
      rw [hin.left, hin.right] at hrun
      exact Walker.judged_of_run hin.sound hrun
    have hv := hj.compatible_iff hl hr hc hin.reached hin.surrounding
    refine ⟨x, y, v, t, hin.left, hin.right, hrun, ?_⟩
    rw [he, Bool.eq_iff_iff.mpr (hallowed.trans (hv.symm.trans decide_eq_true_iff.symm))]
  · exact ⟨_, _, _, Graph.constructTwo_array a hb, Graph.canBeEqual_addTwo_yielding (Or.inl rfl)
      (by simp) ha hb (String.append_right_inj _)⟩
  · exact ⟨_, _, _, Graph.constructTwo_map a hk hb, Graph.canBeEqual_addTwo_yielding (Or.inr rfl)
      (by rintro _ ⟨⟩; exact hk) ha hb (String.append_right_inj _)⟩
  · exact ⟨_, _, _, Graph.constructTwo_tuple as hbs, Graph.canBeEqual_addTwo_composed has hbs⟩

theorem Graph.consistent_of_closed {g : Graph} {x y : Ref} (xs : List Ref)
    (hclosed : ∀ a ∈ xs, ∀ b ∈ (g.node a).children, b ∈ xs) (hx : x ∈ xs) (hy : y ∈ xs)
    (hsame : ∀ a ∈ xs, ∀ b ∈ xs, (g.node a).id = (g.node b).id → g.node a = g.node b) :
    g.Consistent x y := by
  have hmem : ∀ {a}, g.ReachEither x y a → a ∈ xs := fun ha =>
    ha.elim (mem_of_reach hclosed hx) (mem_of_reach hclosed hy)
  intro a b ha hb hid
  rw [hsame a (hmem ha) b (hmem hb) hid]
  exact (Node.match_self _).imp_of_mem fun c _ d _ hcd => congrArg (fun z => (g.node z).id) hcd

theorem compatible_iff_alone_rings :
    (Graph.rings.FinishedFrom 0 ∧ Graph.rings.FinishedFrom 3 ∧ Graph.rings.Consistent 0 3) ∧
      (∃ c : Call (List Event),
        ReflTransGen (Walker.Makes ⟨Graph.rings, Rule.defaults, logging⟩)
          ⟨depthBound Graph.rings, some 0, some 3, ⟨{}, []⟩⟩ c ∧
        c.left = some 2 ∧ c.right = some 3 ∧
        c.run ⟨Graph.rings, Rule.defaults, logging⟩ = .ok (.assumed, c.state)) ∧
      canBeEqual Graph.rings Rule.defaults (some 2) (some 3) = .ok false ∧
      ∃ h x y, Graph.rings.constructTwo (.array (some 0)) (.array (some 3)) = .ok (h, x, y) ∧
        h.Consistent x y ∧ canBeEqual h Rule.defaults (some x) (some y) =
          canBeEqual Graph.rings Rule.defaults (some 0) (some 3) := by
  have h₀ := Graph.finishedFrom_rings (x := 0) (by decide)
  have h₃ := Graph.finishedFrom_rings (x := 3) (by decide)
  obtain ⟨hnested, hnew, -⟩ :=
    compatible_iff_alone Rule.defaults h₀ h₃ Graph.consistent_rings
  let w : Walker (List Event) := ⟨Graph.rings, Rule.defaults, logging⟩
  let first : Walk (List Event) := w.entered ⟨"A", "B"⟩ ⟨{}, []⟩
  let second : Walk (List Event) := w.entered ⟨"*A", "B"⟩ first
  -- the array is compared by its element, the pointer by what it points to
  have hcollection : firstResolution Graph.rings Rule.defaults 0 3 =
      some (.collection, .parts ([] ++ (some 1, some 3) :: [])) := by decide
  have hnullable : firstResolution Graph.rings Rule.defaults 1 3 =
      some (.nullable, .parts ([] ++ (some 2, some 3) :: [])) := by decide
  have houter : w.Makes ⟨25 + 1, some 0, some 3, ⟨{}, []⟩⟩ ⟨25, some 1, some 3, first⟩ :=
    .part (by decide) hcollection rfl (by decide)
  have hinner : w.Makes ⟨24 + 1, some 1, some 3, first⟩ ⟨24, some 2, some 3, second⟩ :=
    .part (by decide +kernel) hnullable rfl (by decide)
  have hcalls := (ReflTransGen.single houter).tail hinner
  have hcut : Call.run w ⟨24, some 2, some 3, second⟩ = .ok (.assumed, second) :=
    Walker.run_compare_of_active (by decide +kernel)
  refine ⟨⟨h₀, h₃, Graph.consistent_rings⟩, ⟨_, hcalls, rfl, rfl, hcut⟩, ?_, ?_⟩
  · obtain ⟨x, y, v, t, hx, hy, hrun, hanswer⟩ := hnested logging [] _ hcalls
    obtain rfl := Option.some.inj hx
    obtain rfl := Option.some.inj hy
    obtain ⟨rfl, -⟩ := Prod.mk.inj (Except.ok.inj (hcut.symm.trans hrun))
    exact hanswer
  · obtain ⟨⟨h, x, y, hmade, hsame⟩, -⟩ := hnew h₀ h₃
    have heq := Except.ok.inj ((Graph.constructTwo_array 0 h₃).symm.trans hmade)
    simp only [Prod.mk.injEq] at heq
    obtain ⟨rfl, rfl, rfl⟩ := heq
    have hcon : (Graph.rings.addTwo (.yielding .array none "[]A" 0)
        (.yielding .array none "[]B" 3)).Consistent 4 5 :=
      Graph.consistent_of_closed [0, 1, 2, 3, 4, 5] (by decide) (by decide) (by decide) (by decide)
    exact ⟨_, _, _, hmade, hcon, hsame hcon⟩

end EverEqual
