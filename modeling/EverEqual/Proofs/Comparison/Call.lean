import EverEqual.Comparison.Walk
import Mathlib.Tactic.SplitIfs

/-!
# Calls of the walk

What one call of the walk does, apart from how it is written: it meets a pair that the guard holds,
or no rule resolves the pair, or a rule settles it, or a rule hands on parts. Everything that is
proved about walks goes by these four cases.

* `Walker.called_of_run`, `Walker.run_of_called`: a call with a verdict did one of four things;
* `Walker.guard_run_compare`: a call leaves the guard as it found it, whatever it was;
* `Walker.run_compare_add`: a verdict does not depend on how deep the walk might have gone.
-/

namespace EverEqual

/-! ### One call -/

/-- The pair of identities of two descriptors. -/
def Graph.pair (g : Graph) (x y : Ref) : IdentityPair := ⟨(g.node x).id, (g.node y).id⟩

namespace Walker

variable {σ : Type} (w : Walker σ)

/-- The walk after a pair has been entered. -/
def entered (p : IdentityPair) (s : Walk σ) : Walk σ :=
  ⟨s.guard.push p, w.observe (.entered (s.guard.push p)) s.gathered⟩

/-- The walk after the last pair has been left. -/
def departed (s : Walk σ) : Walk σ :=
  ⟨s.guard.pop, w.observe (.left s.guard.pop) s.gathered⟩

/-- The walk after a rule has been reported to resolve the last pair. -/
def reported (rule : Rule) (p : IdentityPair) (v : Verdict) (s : Walk σ) : Walk σ :=
  { s with
    gathered := w.observe (.resolved ⟨s.guard.depth, rule, p.left, p.right, v⟩) s.gathered }

@[simp] theorem guard_reported (rule : Rule) (p : IdentityPair) (v : Verdict) (s : Walk σ) :
    (w.reported rule p v s).guard = s.guard := rfl

variable {w} {fuel : Nat} {x y : Ref} {s s' : Walk σ} {v : Verdict}
  {f : Option Ref → Option Ref → WalkM σ Verdict}

theorem run_compare_of_active (h : s.guard.active (w.graph.pair x y) = true) :
    (w.compare (fuel + 1) (some x) (some y)).run s = .ok (.assumed, s) := by
  unfold compare
  simp only [StateT.run_bind, StateT.run_get]
  change (if s.guard.active (w.graph.pair x y) = true then _ else _ : WalkM σ Verdict).run s = _
  rw [if_pos h]
  rfl

private theorem run_compare_of_fresh (h : s.guard.active (w.graph.pair x y) = false) :
    (w.compare (fuel + 1) (some x) (some y)).run s =
      ((w.decide (w.compare fuel) x y (w.graph.pair x y)).run
        (w.entered (w.graph.pair x y) s) >>= fun z => .ok (z.1, w.departed z.2)) := by
  unfold compare
  simp only [StateT.run_bind, StateT.run_get]
  change (if s.guard.active (w.graph.pair x y) = true then _ else _ : WalkM σ Verdict).run s = _
  rw [if_neg (by simp [h])]
  rfl

theorem run_compare_of_unresolved (h : s.guard.active (w.graph.pair x y) = false)
    (hres : firstResolution w.graph w.rules x y = none) :
    (w.compare (fuel + 1) (some x) (some y)).run s =
      .ok (.incompatible, w.departed (w.entered (w.graph.pair x y) s)) := by
  rw [run_compare_of_fresh h, decide, hres]
  rfl

theorem run_compare_of_settled {rule : Rule} (h : s.guard.active (w.graph.pair x y) = false)
    (hres : firstResolution w.graph w.rules x y = some (rule, .settled v)) :
    (w.compare (fuel + 1) (some x) (some y)).run s =
      .ok (v, w.departed
        (w.reported rule (w.graph.pair x y) v (w.entered (w.graph.pair x y) s))) := by
  rw [run_compare_of_fresh h, decide, hres]
  rfl

theorem run_compare_of_parts {rule : Rule} {ps : List (Option Ref × Option Ref)}
    (h : s.guard.active (w.graph.pair x y) = false)
    (hres : firstResolution w.graph w.rules x y = some (rule, .parts ps)) :
    (w.compare (fuel + 1) (some x) (some y)).run s =
      ((conjunction (w.compare fuel) ps .compatible).run (w.entered (w.graph.pair x y) s) >>=
        fun z => .ok (z.1, w.departed (w.reported rule (w.graph.pair x y) z.1 z.2))) := by
  rw [run_compare_of_fresh h, decide, hres]
  change ((_ >>= _) >>= _) = _
  rw [bind_assoc]
  rfl

theorem run_conjunction_cons (a b : Option Ref) (ps : List (Option Ref × Option Ref)) (v : Verdict)
    (s : Walk σ) :
    (conjunction f ((a, b) :: ps) v).run s =
      ((f a b).run s >>= fun z =>
        if v.and z.1 = .incompatible then .ok (v.and z.1, z.2)
        else (conjunction f ps (v.and z.1)).run z.2) := by
  rw [conjunction, StateT.run_bind]
  congr 1
  funext z
  change (if v.and z.1 = .incompatible then _ else _ : WalkM σ Verdict).run z.2 = _
  split_ifs <;> rfl

/-- What a call on two descriptors did, given that it had a verdict. -/
inductive Called (w : Walker σ) (n : Nat) (x y : Ref) (s : Walk σ) : Verdict → Walk σ → Prop
  | assumed (h : s.guard.active (w.graph.pair x y) = true) : Called w n x y s .assumed s
  | unresolved (h : s.guard.active (w.graph.pair x y) = false)
      (hres : firstResolution w.graph w.rules x y = none) :
      Called w n x y s .incompatible (w.departed (w.entered (w.graph.pair x y) s))
  | settled (h : s.guard.active (w.graph.pair x y) = false) (rule : Rule) (v : Verdict)
      (hres : firstResolution w.graph w.rules x y = some (rule, .settled v)) :
      Called w n x y s v (w.departed
        (w.reported rule (w.graph.pair x y) v (w.entered (w.graph.pair x y) s)))
  | parts (h : s.guard.active (w.graph.pair x y) = false) (rule : Rule)
      (ps : List (Option Ref × Option Ref)) (v : Verdict) (t : Walk σ)
      (hres : firstResolution w.graph w.rules x y = some (rule, .parts ps))
      (hrun : (conjunction (w.compare n) ps .compatible).run (w.entered (w.graph.pair x y) s) =
        .ok (v, t)) :
      Called w n x y s v (w.departed (w.reported rule (w.graph.pair x y) v t))

theorem called_of_run {a b : Option Ref} (h : (w.compare fuel a b).run s = .ok (v, s')) :
    ∃ n x y, fuel = n + 1 ∧ a = some x ∧ b = some y ∧ Called w n x y s v s' := by
  match fuel, a, b with
  | 0, _, _ => cases h
  | _ + 1, none, _ => cases h
  | _ + 1, some _, none => cases h
  | n + 1, some x, some y =>
    refine ⟨n, x, y, rfl, rfl, rfl, ?_⟩
    cases hact : s.guard.active (w.graph.pair x y) with
    | true =>
      rw [run_compare_of_active hact] at h
      cases h
      exact .assumed hact
    | false =>
      match hres : firstResolution w.graph w.rules x y with
      | none =>
        rw [run_compare_of_unresolved hact hres] at h
        cases h
        exact .unresolved hact hres
      | some (rule, .settled u) =>
        rw [run_compare_of_settled hact hres] at h
        cases h
        exact .settled hact rule v hres
      | some (rule, .parts ps) =>
        rw [run_compare_of_parts hact hres] at h
        cases hrun : (conjunction (w.compare n) ps .compatible).run
            (w.entered (w.graph.pair x y) s) with
        | error e =>
          rw [hrun] at h
          cases h
        | ok z =>
          rw [hrun] at h
          cases h
          exact .parts hact rule ps z.1 z.2 hres hrun

theorem run_of_called {n : Nat} (h : Called w n x y s v s') :
    (w.compare (n + 1) (some x) (some y)).run s = .ok (v, s') := by
  cases h with
  | assumed h => exact run_compare_of_active h
  | unresolved h hres => exact run_compare_of_unresolved h hres
  | settled h rule v hres => exact run_compare_of_settled h hres
  | parts h rule ps v t hres hrun =>
    rw [run_compare_of_parts h hres, hrun]
    rfl

theorem of_run_conjunction_cons {a b : Option Ref} {ps : List (Option Ref × Option Ref)}
    {u : Verdict} (h : (conjunction f ((a, b) :: ps) v).run s = .ok (u, s')) :
    ∃ v₁ s₁, (f a b).run s = .ok (v₁, s₁) ∧
      ((v.and v₁ = .incompatible ∧ u = .incompatible ∧ s' = s₁) ∨
        (v.and v₁ ≠ .incompatible ∧ (conjunction f ps (v.and v₁)).run s₁ = .ok (u, s'))) := by
  rw [run_conjunction_cons] at h
  cases hf : (f a b).run s with
  | error e =>
    rw [hf] at h
    cases h
  | ok z =>
    rw [hf] at h
    refine ⟨z.1, z.2, rfl, ?_⟩
    change (if v.and z.1 = .incompatible then _ else _) = _ at h
    split_ifs at h with hinc
    · cases h
      exact Or.inl ⟨hinc, hinc, rfl⟩
    · exact Or.inr ⟨hinc, h⟩

/-! ### The guard afterwards -/

theorem guard_run_conjunction
    (hf : ∀ a b s v s', (f a b).run s = .ok (v, s') → s'.guard = s.guard)
    (ps : List (Option Ref × Option Ref)) {u : Verdict}
    (h : (conjunction f ps v).run s = .ok (u, s')) : s'.guard = s.guard := by
  induction ps generalizing v s with
  | nil =>
    cases h
    rfl
  | cons p ps ih =>
    obtain ⟨v₁, s₁, hp, ⟨-, -, rfl⟩ | ⟨-, hps⟩⟩ := of_run_conjunction_cons h
    · exact hf _ _ _ _ _ hp
    · rw [ih hps, hf _ _ _ _ _ hp]

/-- **A call leaves the guard as it found it**, whatever the guard was. -/
theorem guard_run_compare {a b : Option Ref} (h : (w.compare fuel a b).run s = .ok (v, s')) :
    s'.guard = s.guard := by
  induction fuel generalizing a b s v s' with
  | zero => cases h
  | succ fuel ih =>
    obtain ⟨n, x, y, hn, rfl, rfl, hcall⟩ := called_of_run h
    obtain rfl := Nat.succ.inj hn
    cases hcall with
    | assumed hact => rfl
    | unresolved hact hres => exact Guard.pop_push hact
    | settled hact rule v hres => exact Guard.pop_push hact
    | parts hact rule ps v t hres hrun =>
      have ht := guard_run_conjunction (fun _ _ _ _ _ hrun => ih hrun) ps hrun
      change t.guard.pop = s.guard
      rw [ht]
      exact Guard.pop_push hact

/-! ### How deep the walk may go -/

theorem run_conjunction_imp {f' : Option Ref → Option Ref → WalkM σ Verdict}
    (hf : ∀ a b s z, (f a b).run s = .ok z → (f' a b).run s = .ok z)
    (ps : List (Option Ref × Option Ref)) {z : Verdict × Walk σ}
    (h : (conjunction f ps v).run s = .ok z) : (conjunction f' ps v).run s = .ok z := by
  induction ps generalizing v s with
  | nil => exact h
  | cons p ps ih =>
    obtain ⟨a, b⟩ := p
    obtain ⟨v₁, s₁, hp, ⟨hinc, hu, hs⟩ | ⟨hinc, hps⟩⟩ := of_run_conjunction_cons h
    · rw [run_conjunction_cons, hf _ _ _ _ hp]
      change (if v.and v₁ = .incompatible then _ else _) = _
      rw [if_pos hinc, hinc, ← hu, ← hs]
    · rw [run_conjunction_cons, hf _ _ _ _ hp]
      change (if v.and v₁ = .incompatible then _ else _) = _
      rw [if_neg hinc]
      exact ih hps

/-- A verdict does not depend on how much deeper the walk might have gone. -/
theorem run_compare_add {a b : Option Ref} {z : Verdict × Walk σ} (k : Nat)
    (h : (w.compare fuel a b).run s = .ok z) : (w.compare (fuel + k) a b).run s = .ok z := by
  induction fuel generalizing a b s z with
  | zero => cases h
  | succ fuel ih =>
    obtain ⟨v, s'⟩ := z
    obtain ⟨n, x, y, hn, rfl, rfl, hcall⟩ := called_of_run h
    obtain rfl := Nat.succ.inj hn
    rw [Nat.succ_add]
    refine run_of_called ?_
    cases hcall with
    | assumed hact => exact .assumed hact
    | unresolved hact hres => exact .unresolved hact hres
    | settled hact rule v hres => exact .settled hact rule v hres
    | parts hact rule ps v t hres hrun =>
      exact .parts hact rule ps v t hres (run_conjunction_imp (fun _ _ _ _ hab => ih hab) ps hrun)

end Walker

end EverEqual
