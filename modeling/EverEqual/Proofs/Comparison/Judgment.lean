import EverEqual.Comparison.Cache
import EverEqual.Proofs.Comparison.Call
import Mathlib.Tactic.Choose

/-!
# Judgments

The verdict of a call depends on the two descriptors and on the pairs that the guard holds, and on
nothing else. `Judged g rules stack x y v` says that `v` is the verdict on `x` and `y` inside the
pairs of `stack`, by the rules of the walk written as a derivation: no depth, no observer, and no
order among the parts.

* `Walker.judged_of_run`: a call with a verdict is a derivation of that verdict;
* `Judged.unique`: there is only one verdict;
* `judged_of_verdict`: the same for a whole walk;
* `canBeEqual_of_verdict`: the answer that goes with a verdict.
-/

namespace EverEqual

/-- The verdict on two descriptors inside the pairs of a stack. -/
inductive Judged (g : Graph) (rules : List Rule) : List IdentityPair → Ref → Ref → Verdict → Prop
  /-- The pair is being compared already. -/
  | again {stack : List IdentityPair} {x y : Ref} (h : g.pair x y ∈ stack) :
      Judged g rules stack x y .assumed
  /-- No rule resolves the pair. -/
  | unresolved {stack : List IdentityPair} {x y : Ref} (h : g.pair x y ∉ stack)
      (hres : firstResolution g rules x y = none) : Judged g rules stack x y .incompatible
  /-- A rule settles the pair. -/
  | settled {stack : List IdentityPair} {x y : Ref} {rule : Rule} {v : Verdict}
      (h : g.pair x y ∉ stack) (hres : firstResolution g rules x y = some (rule, .settled v)) :
      Judged g rules stack x y v
  /-- A part is incompatible. -/
  | incompatible {stack : List IdentityPair} {x y a b : Ref} {rule : Rule}
      {ps : List (Option Ref × Option Ref)} (h : g.pair x y ∉ stack)
      (hres : firstResolution g rules x y = some (rule, .parts ps)) (hp : (some a, some b) ∈ ps)
      (hab : Judged g rules (g.pair x y :: stack) a b .incompatible) :
      Judged g rules stack x y .incompatible
  /-- No part is incompatible, and one is assumed. -/
  | assumed {stack : List IdentityPair} {x y a b : Ref} {rule : Rule}
      {ps : List (Option Ref × Option Ref)} (h : g.pair x y ∉ stack)
      (hres : firstResolution g rules x y = some (rule, .parts ps)) (u : Ref → Ref → Verdict)
      (hu : ∀ c d, (some c, some d) ∈ ps → Judged g rules (g.pair x y :: stack) c d (u c d))
      (hne : ∀ c d, (some c, some d) ∈ ps → u c d ≠ .incompatible) (hp : (some a, some b) ∈ ps)
      (hab : Judged g rules (g.pair x y :: stack) a b .assumed) : Judged g rules stack x y .assumed
  /-- All parts are compatible. -/
  | compatible {stack : List IdentityPair} {x y : Ref} {rule : Rule}
      {ps : List (Option Ref × Option Ref)} (h : g.pair x y ∉ stack)
      (hres : firstResolution g rules x y = some (rule, .parts ps))
      (hps : ∀ a b, (some a, some b) ∈ ps → Judged g rules (g.pair x y :: stack) a b .compatible) :
      Judged g rules stack x y .compatible

namespace Judged

variable {g : Graph} {rules : List Rule} {stack : List IdentityPair} {x y : Ref} {v u : Verdict}

theorem unique (h : Judged g rules stack x y v) (h' : Judged g rules stack x y u) : v = u := by
  induction h generalizing u with
  | again hmem => cases h' with
    | again _ => rfl
    | _ => contradiction
  | unresolved _ hres => cases h' with
    | unresolved _ _ => rfl
    | again _ => contradiction
    | settled _ hres' | incompatible _ hres' | assumed _ hres' | compatible _ hres' =>
      simp [hres] at hres'
  | settled _ hres => cases h' with
    | settled _ hres' =>
      rw [hres] at hres'
      simp_all
    | again _ => contradiction
    | unresolved _ hres' | incompatible _ hres' | assumed _ hres' | compatible _ hres' =>
      simp [hres] at hres'
  | incompatible _ hres hp _ ih => cases h' with
    | again _ => contradiction
    | unresolved _ hres' | settled _ hres' => simp [hres] at hres'
    | incompatible _ _ _ _ => rfl
    | assumed _ hres' w hw hne _ _ =>
      obtain ⟨-, rfl⟩ : _ ∧ _ = _ := by simpa [hres] using hres'
      exact absurd (ih (hw _ _ hp)).symm (hne _ _ hp)
    | compatible _ hres' hps =>
      obtain ⟨-, rfl⟩ : _ ∧ _ = _ := by simpa [hres] using hres'
      exact ih (hps _ _ hp)
  | assumed _ hres w hw hne hp _ ihw ih => cases h' with
    | again _ => rfl
    | unresolved _ hres' | settled _ hres' => simp [hres] at hres'
    | incompatible _ hres' hp' hab' =>
      obtain ⟨-, rfl⟩ : _ ∧ _ = _ := by simpa [hres] using hres'
      exact absurd (ihw _ _ hp' hab') (hne _ _ hp')
    | assumed _ _ _ _ _ _ _ => rfl
    | compatible _ hres' hps =>
      obtain ⟨-, rfl⟩ : _ ∧ _ = _ := by simpa [hres] using hres'
      exact ih (hps _ _ hp)
  | compatible _ hres hps ih => cases h' with
    | again _ => contradiction
    | unresolved _ hres' | settled _ hres' => simp [hres] at hres'
    | incompatible _ hres' hp' hab' | assumed _ hres' _ _ _ hp' hab' =>
      obtain ⟨-, rfl⟩ : _ ∧ _ = _ := by simpa [hres] using hres'
      exact ih _ _ hp' hab'
    | compatible _ _ _ => rfl

end Judged

namespace Verdict

theorem and_eq_compatible_iff {a b : Verdict} :
    a.and b = compatible ↔ a = compatible ∧ b = compatible := by
  cases a <;> cases b <;> simp [Verdict.and]

theorem and_eq_incompatible_iff {a b : Verdict} :
    a.and b = incompatible ↔ a = incompatible ∨ b = incompatible := by
  cases a <;> cases b <;> simp [Verdict.and]

theorem eq_or_of_and_eq_assumed {a b : Verdict} (h : a.and b = assumed) :
    a = assumed ∨ b = assumed := by
  cases a <;> cases b <;> simp_all [Verdict.and]

end Verdict

namespace Walker

variable {σ : Type} {w : Walker σ} {f : Option Ref → Option Ref → WalkM σ Verdict}

/-- The verdict on a list of parts, by the verdicts `J` on the parts that were looked at. -/
theorem of_run_conjunction {guard : Guard} {J : Ref → Ref → Verdict → Prop}
    (hf : ∀ a b s v s', s.guard = guard → (f a b).run s = .ok (v, s') →
      s'.guard = guard ∧ ∃ x y, a = some x ∧ b = some y ∧ J x y v)
    (ps : List (Option Ref × Option Ref)) {s s' : Walk σ} {v u : Verdict}
    (hs : s.guard = guard) (hv : v ≠ .incompatible)
    (h : (conjunction f ps v).run s = .ok (u, s')) :
    (u = .incompatible ∧ ∃ x y, (some x, some y) ∈ ps ∧ J x y .incompatible) ∨
      ((∀ x y, (some x, some y) ∈ ps → ∃ v', J x y v' ∧ v' ≠ .incompatible) ∧
        ((u = .assumed ∧ (v = .assumed ∨ ∃ x y, (some x, some y) ∈ ps ∧ J x y .assumed)) ∨
          (u = .compatible ∧ v = .compatible ∧
            ∀ x y, (some x, some y) ∈ ps → J x y .compatible))) := by
  induction ps generalizing v s with
  | nil =>
    cases h
    refine Or.inr ⟨by simp, ?_⟩
    cases u with
    | incompatible => exact absurd rfl hv
    | assumed => exact Or.inl ⟨rfl, Or.inl rfl⟩
    | compatible => exact Or.inr ⟨rfl, rfl, by simp⟩
  | cons p ps ih =>
    obtain ⟨v₁, s₁, hp, hcases⟩ := of_run_conjunction_cons h
    obtain ⟨hs₁, x, y, hx, hy, hJ⟩ := hf _ _ _ _ _ hs hp
    obtain rfl : p = (some x, some y) := Prod.ext hx hy
    rcases hcases with ⟨hinc, rfl, -⟩ | ⟨hinc, hps⟩
    · have hv₁ : v₁ = .incompatible := (Verdict.and_eq_incompatible_iff.mp hinc).resolve_left hv
      rw [hv₁] at hJ
      exact Or.inl ⟨rfl, x, y, List.mem_cons_self, hJ⟩
    · have hv₁ : v₁ ≠ .incompatible := fun he =>
        hinc (Verdict.and_eq_incompatible_iff.mpr (Or.inr he))
      have hmem : ∀ {a b}, (some a, some b) ∈ (some x, some y) :: ps →
          (a = x ∧ b = y) ∨ (some a, some b) ∈ ps := fun hab => by simpa using hab
      rcases ih hs₁ hinc hps with ⟨hu, a, b, hab, hJab⟩ | ⟨hall, hass | hcomp⟩
      · exact Or.inl ⟨hu, a, b, List.mem_cons_of_mem _ hab, hJab⟩
      · refine Or.inr ⟨fun a b hab => ?_, Or.inl ⟨hass.1, ?_⟩⟩
        · rcases hmem hab with ⟨rfl, rfl⟩ | hab
          · exact ⟨v₁, hJ, hv₁⟩
          · exact hall a b hab
        · rcases hass.2 with hand | ⟨a, b, hab, hJab⟩
          · rcases Verdict.eq_or_of_and_eq_assumed hand with hv | rfl
            · exact Or.inl hv
            · exact Or.inr ⟨x, y, List.mem_cons_self, hJ⟩
          · exact Or.inr ⟨a, b, List.mem_cons_of_mem _ hab, hJab⟩
      · obtain ⟨hu, hand, hallc⟩ := hcomp
        obtain ⟨hvc, rfl⟩ := Verdict.and_eq_compatible_iff.mp hand
        refine Or.inr ⟨fun a b hab => ?_, Or.inr ⟨hu, hvc, fun a b hab => ?_⟩⟩
        · rcases hmem hab with ⟨rfl, rfl⟩ | hab
          · exact ⟨_, hJ, hv₁⟩
          · exact hall a b hab
        · rcases hmem hab with ⟨rfl, rfl⟩ | hab
          · exact hJ
          · exact hallc a b hab

theorem not_mem_stack_of_fresh {guard : Guard} (hs : guard.Sound) {p : IdentityPair}
    (h : guard.active p = false) : p ∉ guard.stack := fun hp => by
  rw [Guard.active_eq_true_iff.mpr ((hs.2 p).mpr hp)] at h
  cases h

/-- **A call with a verdict is a derivation of that verdict.** -/
theorem judged_of_run {fuel : Nat} {x y : Ref} {s s' : Walk σ} {v : Verdict}
    (hs : s.guard.Sound) (h : (w.compare fuel (some x) (some y)).run s = .ok (v, s')) :
    Judged w.graph w.rules s.guard.stack x y v := by
  induction fuel generalizing x y s v s' with
  | zero => cases h
  | succ fuel ih =>
    obtain ⟨n, x', y', hn, hx, hy, hcall⟩ := called_of_run h
    obtain rfl := Nat.succ.inj hn
    obtain rfl := Option.some.inj hx
    obtain rfl := Option.some.inj hy
    cases hcall with
    | assumed hact => exact .again ((hs.2 _).mp (Guard.active_eq_true_iff.mp hact))
    | unresolved hact hres => exact .unresolved (not_mem_stack_of_fresh hs hact) hres
    | settled hact rule v hres => exact .settled (not_mem_stack_of_fresh hs hact) hres
    | parts hact rule ps v t hres hrun =>
      have hfresh := not_mem_stack_of_fresh hs hact
      have hsound : (s.guard.push (w.graph.pair x y)).Sound := hs.push hact
      -- every part is judged inside the stack with this pair on top
      have hf : ∀ a b u z u', u.guard = s.guard.push (w.graph.pair x y) →
          (w.compare fuel a b).run u = .ok (z, u') →
          u'.guard = s.guard.push (w.graph.pair x y) ∧ ∃ c d, a = some c ∧ b = some d ∧
            Judged w.graph w.rules (w.graph.pair x y :: s.guard.stack) c d z := by
        intro a b u z u' hu hrun
        obtain ⟨-, c, d, -, rfl, rfl, -⟩ := called_of_run hrun
        refine ⟨(guard_run_compare hrun).trans hu, c, d, rfl, rfl, ?_⟩
        have hj := ih (hu ▸ hsound) hrun
        rw [hu] at hj
        exact hj
      rcases of_run_conjunction hf ps rfl (by simp) hrun with
        ⟨rfl, a, b, hab, hJ⟩ | ⟨hall, ⟨rfl, hass⟩ | ⟨rfl, -, hcomp⟩⟩
      · exact .incompatible hfresh hres hab hJ
      · obtain ⟨a, b, hab, hJ⟩ := hass.resolve_left (by simp)
        choose! u hu using hall
        exact .assumed hfresh hres u (fun c d hcd => (hu c d hcd).1)
          (fun c d hcd => (hu c d hcd).2) hab hJ
      · exact .compatible hfresh hres hcomp

theorem judged_of_run_empty {start gathered : σ} {x y : Ref} {v : Verdict}
    (h : w.run start (some x) (some y) = .ok (v, gathered)) :
    Judged w.graph w.rules [] x y v := by
  unfold run at h
  cases hrun : (w.compare (depthBound w.graph) (some x) (some y)).run ⟨{}, start⟩ with
  | error e =>
    rw [hrun] at h
    cases h
  | ok z =>
    rw [hrun] at h
    cases h
    exact judged_of_run Guard.sound_empty hrun

end Walker

variable {g : Graph} {rules : List Rule} {x y : Ref}

theorem verdict_of_run {v : Verdict} {steps : List Step}
    (h : Walker.run ⟨g, rules, tracing⟩ [] (some x) (some y) = .ok (v, steps)) :
    verdict g rules (some x) (some y) = .ok v := by
  unfold verdict trace
  rw [h]
  rfl

theorem judged_of_verdict {v : Verdict} (h : verdict g rules (some x) (some y) = .ok v) :
    Judged g rules [] x y v := by
  cases hrun : Walker.run ⟨g, rules, tracing⟩ [] (some x) (some y) with
  | error e =>
    unfold verdict trace at h
    rw [hrun] at h
    cases h
  | ok z =>
    obtain ⟨u, steps⟩ := z
    rw [verdict_of_run hrun] at h
    cases h
    exact Walker.judged_of_run_empty hrun

theorem canBeEqual_of_verdict {v : Verdict} (h : verdict g rules (some x) (some y) = .ok v) :
    canBeEqual g rules (some x) (some y) = .ok (v = .compatible) := by
  unfold verdict at h
  cases htr : trace g rules (some x) (some y) with
  | error e =>
    rw [htr] at h
    cases h
  | ok z =>
    rw [htr] at h
    cases h
    simp only [canBeEqual, ask, htr]
    rfl

end EverEqual
