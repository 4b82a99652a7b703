import EverEqual.Proofs.Check.Shared

/-!
# Checks that can be called off

Without a cache, workers share nothing but the slots and whether the checks were called off. So the
outcome of a list of pairs does not depend on how their steps are mixed: it is the finding on every
pair, or that the checks were called off. A worker that never looked at its pair has returned with
an error, so its slot is never taken for a finding.

* `Operands.Possible.check_none`: the one finding that a pair can get without a cache;
* `findings_or_called_off`: the outcome of any schedule.
-/

namespace EverEqual

variable {w : World} {options : CheckOptions} {p : Operands} {ps : List Operands}

/-- No answer is kept. -/
def Unkept : IdentityPair → Bool → Prop := fun _ _ => False

theorem Reported.eq_of_unkept {key : IdentityPair} {own equal : Bool}
    (h : Reported Unkept key own equal) : equal = own :=
  h.resolve_right id

theorem Operands.Possible.check_none {f : Finding} (h : p.Possible w options Unkept f) :
    check w options none p = .ok (f, none) := by
  obtain ⟨d, forward, reverse, hd, hforward, hreverse, hf⟩ := h
  rw [hd.check_none options, hf, hforward.eq_of_unkept, hreverse.eq_of_unkept]

theorem exists_checkEach_none (options : CheckOptions)
    (halone : ∀ p ∈ ps, ∃ d a b, p.Alone w d a b) :
    ∃ fs, checkEach w options none ps = .ok (fs, none) ∧
      List.Forall₂ (fun p f => check w options none p = .ok (f, none)) ps fs := by
  induction ps with
  | nil => exact ⟨[], rfl, .nil⟩
  | cons p ps ih =>
    obtain ⟨d, a, b, hd⟩ := halone p List.mem_cons_self
    obtain ⟨fs, heach, hfs⟩ := ih fun p hp => halone p (List.mem_cons_of_mem _ hp)
    have hcheck := hd.check_none options
    refine ⟨d.finding options p a b :: fs, ?_, .cons hcheck hfs⟩
    simp only [checkEach, hcheck, heach, bind, Except.bind, pure, Except.pure]

theorem check_rightUnique (w : World) (options : CheckOptions) :
    Relator.RightUnique fun (p : Operands) f => check w options none p = .ok (f, none) :=
  fun _ _ _ hf hf' => congrArg Prod.fst (Except.ok.inj (hf.symm.trans hf'))

/-- **Findings, or the checks were called off.** A list of pairs whose types are followed to their
end is checked without a cache, with any number of jobs, and the checks may be called off at any
moment. However the steps of the workers are mixed, the checks come to an end: no schedule is longer
than ten moves a pair and one, and until there is an outcome some move is possible. The outcome is
the list of the findings that the pairs get on their own, in the order of the list, or else an
error, which says that the checks were called off; there is no error if they were not. -/
theorem findings_or_called_off (w : World) (options : CheckOptions) (jobs : Int) (processors : Nat)
    (ps : List Operands) (hprocessors : 0 < processors) (h : ∀ p ∈ ps, w.Followed p.roots) :
    ∃ fs, checkAll w options none false ps = .ok (fs, none) ∧
      List.Forall₂ (fun p f => check w options none p = .ok (f, none)) ps fs ∧
      ∀ schedule s, (Pool.forJobs jobs processors none ps).run? w options schedule = some s →
        schedule.length ≤ 10 * ps.length + 1 ∧
        (s.outcome? = none → ∃ m s', m ≠ .cancel ∧ s.move? w options m = some s') ∧
        ∀ outcome, s.outcome? = some outcome →
          outcome = .ok fs ∨ (outcome = .error .canceled ∧ .cancel ∈ schedule) := by
  have halone : ∀ p ∈ ps, ∃ d a b, p.Alone w d a b := fun p hp => p.exists_alone (h p hp)
  have hlimit : ps ≠ [] → 0 < Pool.limitFor jobs processors ps.length := fun hne =>
    Pool.limitFor_pos jobs hprocessors (List.length_pos_iff.mpr hne)
  have hstart : (Pool.forJobs jobs processors none ps).Sound w options Unkept ps :=
    Pool.Sound.start hlimit nofun nofun
  obtain ⟨fs, heach, hfs⟩ := exists_checkEach_none options halone
  refine ⟨fs, (checkAll_false ..).trans heach, hfs, fun schedule s hrun => ?_⟩
  obtain ⟨hs, hlength, hcause⟩ := hstart.run halone hrun
  refine ⟨?_, hs.exists_move, fun outcome ho => ?_⟩
  · rw [Pool.forJobs, Pool.movesLeft_start] at hlength
    exact le_trans (Nat.le_add_right _ _) hlength
  · rcases hs.outcome_cases ho with ⟨fs', rfl, hpossible⟩ | ⟨rfl, hcanceled⟩
    · have hfs' := hpossible.imp fun p f hf => hf.check_none
      exact Or.inl (congrArg Except.ok ((check_rightUnique w options).forall₂ hfs' hfs))
    · exact Or.inr ⟨rfl, (hcause hcanceled).resolve_left Bool.false_ne_true⟩

/-- Both outcomes happen to the list of the list and the sequence, tested against different
interfaces: the findings that the pairs get on their own, one after the other, and the error. -/
theorem findings_or_called_off_sequences :
    (0 < 8 ∧ ∀ p ∈ sequences.mixed, sequences.Followed p.roots) ∧
      (∃ schedule s, (Pool.forJobs 2 8 none sequences.mixed).run? sequences {} schedule = some s ∧
        s.outcome?.bind (·.toOption.map (·.map fun f => (f.forward, f.reverse))) =
          some [(false, false), (true, true)]) ∧
      ∃ schedule s, (Pool.forJobs 2 8 none sequences.mixed).run? sequences {} schedule = some s ∧
        s.outcome? = some (.error .canceled) := by
  have hfollowed : ∀ p ∈ sequences.mixed, sequences.Followed p.roots := by
    simp only [sequences.mixed, List.forall_mem_cons, List.not_mem_nil, false_imp_iff,
      implies_true, and_true]
    exact ⟨sequences.followed_pair _, sequences.followed_pair _⟩
  obtain ⟨fs, hall, -, hany⟩ := findings_or_called_off sequences {} 2 8 sequences.mixed (by decide)
    hfollowed
  refine ⟨⟨by decide, hfollowed⟩, ?_, ?_⟩
  · obtain ⟨schedule, s, hno, hrun, ho⟩ := Pool.exists_run_checkAll sequences {} 2 none false
      sequences.mixed fun _ => Nat.two_pos
    obtain ⟨-, -, houtcome⟩ := hany schedule s hrun
    rcases houtcome _ ho with hfs | ⟨-, hc⟩
    · refine ⟨schedule, s, hrun, ?_⟩
      have hfindings : (checkAll sequences {} none false sequences.mixed).toOption.map
          (fun z => z.1.map fun f => (f.forward, f.reverse)) =
            some [(false, false), (true, true)] := by
        decide +kernel
      rw [hall] at hfindings
      rw [ho, hfs]
      exact hfindings
    · exact absurd hc (hno rfl)
  · obtain ⟨schedule, s, -, hrun, ho⟩ := Pool.exists_run_checkAll sequences {} 2 none true
      sequences.mixed fun _ => Nat.two_pos
    exact ⟨schedule, s, hrun, ho⟩

end EverEqual
