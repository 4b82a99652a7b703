import EverEqual.Proofs.Check.Pool
import Mathlib.Logic.Function.Iterate
import Mathlib.Logic.Relation

/-!
# One pair after the other

To check the pairs of a list one after the other is one of the ways in which a pool can go: each
worker is launched when the one before has returned, and takes all its steps in a row. If the checks
were called off, that is the first move.

* `Work.Goes`: what a worker makes of some steps in a row;
* `Work.goes_check`: the steps of a worker in a row come to the check of its pair;
* `Pool.exists_run_checkAll`: the check of a list is the outcome of a schedule.
-/

namespace EverEqual

variable {w : World} {options : CheckOptions} {p : Operands}

theorem checkAll_false (w : World) (options : CheckOptions) (cache : Option Cache)
    (ps : List Operands) : checkAll w options cache false ps = checkEach w options cache ps := by
  cases ps <;> rfl

/-! ### A worker on its own -/

/-- One step of asking a question. -/
def Question.stepOn (rules : List Rule) (q : Question) (z : Progress × Option Cache) :
    Progress × Option Cache :=
  q.step rules z.2 z.1

theorem Question.iterate_returned (rules : List Rule) (q : Question)
    (result : Except CompareError Bool) (cache : Option Cache) (n : Nat) :
    (q.stepOn rules)^[n] (.returned result, cache) = (.returned result, cache) :=
  Function.iterate_fixed rfl n

namespace Work

theorem failure?_of_busy {work : Work} (h : work.isReturned = false) : work.failure? = none := by
  cases work with
  | returned failure => cases h
  | _ => rfl

/-- What a worker makes of some steps in a row, while the checks are not called off. It does not
write its finding on the way. -/
def Goes (w : World) (options : CheckOptions) (p : Operands) :
    Work × Option Cache → Work × Option Cache → Prop :=
  Relation.ReflTransGen fun a b =>
    a.1.isReturned = false ∧ a.1.finding? = none ∧ a.1.step w options p false a.2 = b

theorem goes_of_iterate {q : Question} {wait : Progress → Work} {next : Bool → Work}
    {fail : CompareError → CheckError}
    (hstep : ∀ cache progress, (wait progress).step w options p false cache =
      resume q cache progress wait next fail)
    (hwait : ∀ progress, (wait progress).isReturned = false ∧ (wait progress).finding? = none)
    {result : Except CompareError Bool} {cache' : Option Cache} (n : Nat) {progress : Progress}
    {cache : Option Cache}
    (h : (q.stepOn Rule.defaults)^[n + 1] (progress, cache) = (.returned result, cache')) :
    Goes w options p (wait progress, cache) (conclude next fail result, cache') := by
  induction n generalizing progress cache with
  | zero =>
    refine .single ⟨(hwait progress).1, (hwait progress).2, ?_⟩
    have hfirst : q.step Rule.defaults cache progress = (.returned result, cache') := h
    simp only [hstep, resume, hfirst]
  | succ n ih =>
    obtain ⟨progress₁, cache₁, hfirst⟩ :
        ∃ progress₁ cache₁, q.step Rule.defaults cache progress = (progress₁, cache₁) :=
      ⟨_, _, rfl⟩
    have hrest : (q.stepOn Rule.defaults)^[n + 1] (progress₁, cache₁) =
        (.returned result, cache') := by
      rw [← h, Function.iterate_succ_apply _ (n + 1)]
      exact congrArg _ hfirst.symm
    cases progress₁ with
    | returned result₁ =>
      rw [Question.iterate_returned] at hrest
      obtain ⟨rfl, rfl⟩ : result₁ = result ∧ cache₁ = cache' := by simpa using hrest
      refine .single ⟨(hwait progress).1, (hwait progress).2, ?_⟩
      simp only [hstep, resume, hfirst]
    | _ =>
      refine .head ⟨(hwait progress).1, (hwait progress).2, ?_⟩ (ih hrest)
      simp only [hstep, resume, hfirst]

variable (w options p) in
theorem goes_ask (wait : Progress → Work) (next : Bool → Work) {g : Graph} {l r : Ref}
    {left right : String}
    (hstep : ∀ cache progress, (wait progress).step w options p false cache =
      resume ⟨g, some l, some r⟩ cache progress wait next (.compare left right))
    (hwait : ∀ progress, (wait progress).isReturned = false ∧ (wait progress).finding? = none)
    (cache : Option Cache) :
    match answerFor cache g l r left right with
    | .ok (equal, cache') => Goes w options p (wait .asked, cache) (next equal, cache')
    | .error e => Goes w options p (wait .asked, cache) (returned (some e), cache) := by
  have hask : (Question.stepOn Rule.defaults ⟨g, some l, some r⟩)^[3] (.asked, cache) = _ :=
    Question.ask_eq Rule.defaults ⟨g, some l, some r⟩ cache
  unfold answerFor
  cases hanswer : askCached cache g Rule.defaults (some l) (some r) <;> rw [hanswer] at hask <;>
    exact goes_of_iterate hstep hwait 2 hask

/-- **The steps of a worker in a row** come to the check of its pair. -/
theorem goes_check (w : World) (options : CheckOptions) (p : Operands) (cache : Option Cache) :
    match check w options cache p with
    | .ok (f, cache') => Goes w options p (launched, cache) (found f, cache')
    | .error e => ∃ cache', Goes w options p (launched, cache) (returned (some e), cache') := by
  have hbegun : Goes w options p (launched, cache) (begun, cache) := .single ⟨rfl, rfl, rfl⟩
  unfold check
  cases hdesc : p.describe w with
  | error e =>
    refine ⟨cache, hbegun.tail ⟨rfl, rfl, ?_⟩⟩
    simp only [step, hdesc]
  | ok z =>
    obtain ⟨l, r, g⟩ := z
    have hforth : Goes w options p (launched, cache) (forth ⟨g, l, r⟩ .asked, cache) := by
      refine hbegun.tail ⟨rfl, rfl, ?_⟩
      simp only [step, hdesc]
    have hfirst := goes_ask w options p (forth ⟨g, l, r⟩) (back ⟨g, l, r⟩ · .asked)
      (fun _ _ => rfl) (fun _ => ⟨rfl, rfl⟩) cache
    simp only [bind, Except.bind, pure, Except.pure]
    cases hforward : answerFor cache g l r p.leftText p.rightText with
    | error e =>
      rw [hforward] at hfirst
      exact ⟨cache, hforth.trans hfirst⟩
    | ok z =>
      obtain ⟨forward, cache₁⟩ := z
      rw [hforward] at hfirst
      have hsecond := goes_ask w options p (back ⟨g, l, r⟩ forward)
        (fun reverse => found (Described.finding ⟨g, l, r⟩ options p forward reverse))
        (fun _ _ => rfl) (fun _ => ⟨rfl, rfl⟩) cache₁
      simp only
      cases hreverse : answerFor cache₁ g r l p.rightText p.leftText with
      | error e =>
        rw [hreverse] at hsecond
        exact ⟨cache₁, (hforth.trans hfirst).trans hsecond⟩
      | ok z =>
        obtain ⟨reverse, cache₂⟩ := z
        rw [hreverse] at hsecond
        exact (hforth.trans hfirst).trans hsecond

end Work

/-! ### A worker in a pool -/

namespace Pool

variable {s s' : Pool}

theorem run?_append (s : Pool) (schedule rest : List Move) :
    s.run? w options (schedule ++ rest) =
      (s.run? w options schedule).bind (·.run? w options rest) := by
  induction schedule generalizing s with
  | nil => rfl
  | cons m schedule ih =>
    rw [List.cons_append, run?, run?, Option.bind_assoc]
    exact Option.bind_congr fun s' _ => ih s'

theorem run?_singleton (s : Pool) (m : Move) : s.run? w options [m] = s.move? w options m := by
  unfold run?
  exact Option.bind_fun_some _

theorem move?_step {i : Nat} {k : Worker} (hk : s.workers[i]? = some k)
    (hbusy : k.work.isReturned = false) :
    s.move? w options (.step i) = some (s.advance w options i k) := by
  simp [move?, hk, hbusy]

/-- A pool in which the worker at a position has come to some point. -/
def put (s : Pool) (i : Nat) (k : Worker) (work : Work) (cache : Option Cache) : Pool :=
  { s with
    cache
    canceled := s.canceled || work.failure?.isSome
    failure := s.failure.or work.failure?
    workers := s.workers.set i { k with work } }

theorem put_self {i : Nat} {k : Worker} (hk : s.workers[i]? = some k)
    (hbusy : k.work.isReturned = false) : s.put i k k.work s.cache = s := by
  obtain ⟨hi, rfl⟩ := List.getElem?_eq_some_iff.mp hk
  have hset : s.workers.set i s.workers[i] = s.workers := List.set_getElem_self hi
  unfold put
  rw [Work.failure?_of_busy hbusy, Option.or_none, Option.isSome_none, Bool.or_false, hset]

theorem exists_run_of_goes {i : Nat} {k : Worker} {work : Work} {cache : Option Cache}
    (hk : s.workers[i]? = some k) (hbusy : k.work.isReturned = false)
    (hcanceled : s.canceled = false)
    (h : Work.Goes w options k.pair (k.work, s.cache) (work, cache)) :
    ∃ schedule, .cancel ∉ schedule ∧ s.run? w options schedule = some (s.put i k work cache) := by
  generalize hz : (work, cache) = z at h
  induction h generalizing work cache with
  | refl =>
    obtain ⟨rfl, rfl⟩ := Prod.mk.inj hz
    exact ⟨[], List.not_mem_nil, congrArg some (put_self hk hbusy).symm⟩
  | @tail y _ _ hlast ih =>
    subst hz
    obtain ⟨work₁, cache₁⟩ := y
    obtain ⟨hbusy₁, hfinding, hstep⟩ := hlast
    obtain ⟨schedule, hno, hrun⟩ := ih rfl
    have hfailure := Work.failure?_of_busy hbusy₁
    have hi := (List.getElem?_eq_some_iff.mp hk).1
    have hmove : (s.put i k work₁ cache₁).move? w options (.step i) =
        some (s.put i k work cache) := by
      have hnext : work₁.step w options k.pair (s.put i k work₁ cache₁).canceled cache₁ =
          (work, cache) := by
        simpa [put, hcanceled, hfailure] using hstep
      rw [move?_step (k := { k with work := work₁ }) (by simp [put, hi]) hbusy₁,
        advance_of_step hnext]
      simp [put, hfailure, hfinding]
    refine ⟨schedule ++ [.step i], by simpa using hno, ?_⟩
    rw [run?_append, hrun, Option.bind_some, run?_singleton, hmove]

/-- The pool after the next worker is launched. -/
def launched (s : Pool) (p : Operands) (rest : List Operands) : Pool :=
  { s with workers := s.workers ++ [{ pair := p }], queued := rest }

/-- The pool after the next worker has been launched and has returned. -/
def passed (s : Pool) (p : Operands) (rest : List Operands) (cache : Option Cache)
    (failure : Option CheckError) : Pool :=
  { s with
    cache
    canceled := s.canceled || failure.isSome
    failure := s.failure.or failure
    workers := s.workers ++ [⟨p, .returned failure⟩]
    queued := rest }

theorem move?_launch {rest : List Operands} (hq : s.queued = p :: rest)
    (hroom : s.busy < s.limit) : s.move? w options .launch = some (s.launched p rest) := by
  simp only [move?, hq]
  exact if_pos hroom

theorem getElem?_launched (s : Pool) (p : Operands) (rest : List Operands) :
    (s.launched p rest).workers[s.workers.length]? = some { pair := p } := by
  simp [launched]

theorem busy_passed (s : Pool) (p : Operands) (rest : List Operands) (cache : Option Cache)
    (failure : Option CheckError) : (s.passed p rest cache failure).busy = s.busy := by
  simp [busy, passed, Work.isReturned]

variable (w options) in
/-- The next worker is launched and takes all its steps in a row. -/
theorem exists_run_pair {rest : List Operands} (hq : s.queued = p :: rest)
    (hroom : s.busy < s.limit) (hcanceled : s.canceled = false) :
    match check w options s.cache p with
    | .ok (f, cache) => ∃ schedule, .cancel ∉ schedule ∧ s.run? w options schedule =
        some { s.passed p rest cache none with slots := s.slots.set s.workers.length f }
    | .error e => ∃ schedule cache, .cancel ∉ schedule ∧ s.run? w options schedule =
        some (s.passed p rest cache (some e)) := by
  have hk := s.getElem?_launched p rest
  have hgoes := Work.goes_check w options p s.cache
  cases hcheck : check w options s.cache p with
  | ok z =>
    obtain ⟨f, cache⟩ := z
    rw [hcheck] at hgoes
    obtain ⟨schedule, hno, hrun⟩ := exists_run_of_goes hk rfl hcanceled hgoes
    have hlast : ((s.launched p rest).put s.workers.length { pair := p } (.found f) cache).move?
        w options (.step s.workers.length) =
          some { s.passed p rest cache none with slots := s.slots.set s.workers.length f } := by
      rw [move?_step (k := ⟨p, .found f⟩) (by simp [put, launched]) rfl, advance_of_step rfl]
      simp [put, launched, passed, hcanceled, Work.failure?, Work.finding?]
    refine ⟨.launch :: (schedule ++ [.step s.workers.length]), by simpa using hno, ?_⟩
    rw [run?, move?_launch hq hroom, Option.bind_some, run?_append, hrun, Option.bind_some,
      run?_singleton, hlast]
  | error e =>
    rw [hcheck] at hgoes
    obtain ⟨cache, hgoes⟩ := hgoes
    obtain ⟨schedule, hno, hrun⟩ := exists_run_of_goes hk rfl hcanceled hgoes
    refine ⟨.launch :: schedule, cache, by simpa using hno, ?_⟩
    rw [run?, move?_launch hq hroom, Option.bind_some, hrun]
    simp [put, launched, passed, Work.failure?]

/-! ### A list of pairs -/

theorem outcome?_of_failure {e : CheckError} (hq : s.queued = []) (hbusy : s.busy = 0)
    (hfailure : s.failure = some e) : s.outcome? = some (.error e) := by
  simp [outcome?, hq, isReturned_of_busy hbusy, hfailure]

theorem outcome?_of_slots (hq : s.queued = []) (hbusy : s.busy = 0) (hfailure : s.failure = none) :
    s.outcome? = some (.ok s.slots) := by
  simp [outcome?, hq, isReturned_of_busy hbusy, hfailure]

variable (w options) in
/-- When the checks were called off, the remaining workers return at once, and the first failure is
reported. -/
theorem exists_run_canceled {queued : List Operands} {e : CheckError} (hq : s.queued = queued)
    (hbusy : s.busy = 0) (hlimit : 0 < s.limit) (hcanceled : s.canceled = true)
    (hfailure : s.failure.or (if queued = [] then none else some .canceled) = some e) :
    ∃ schedule s', .cancel ∉ schedule ∧ s.run? w options schedule = some s' ∧
      s'.outcome? = some (.error e) := by
  induction queued generalizing s with
  | nil =>
    refine ⟨[], s, List.not_mem_nil, rfl, outcome?_of_failure hq hbusy ?_⟩
    simpa using hfailure
  | cons p rest ih =>
    have hlast : (s.launched p rest).move? w options (.step s.workers.length) =
        some (s.passed p rest s.cache (some .canceled)) := by
      have hstep : Work.step w options p (s.launched p rest).canceled s.cache .launched =
          (.returned (some .canceled), s.cache) := by
        simp [launched, hcanceled, Work.step]
      rw [move?_step (s.getElem?_launched p rest) rfl, advance_of_step hstep]
      simp [launched, passed, Work.failure?, Work.finding?]
    obtain ⟨schedule, s', hno, hrun, ho⟩ := ih (s := s.passed p rest s.cache (some .canceled)) rfl
      ((s.busy_passed p rest _ _).trans hbusy) hlimit (by simp [passed]) (by
        simpa [passed] using hfailure)
    refine ⟨.launch :: .step s.workers.length :: schedule, s', by simpa using hno, ?_, ho⟩
    rw [run?, move?_launch hq (hbusy ▸ hlimit), Option.bind_some, run?, hlast, Option.bind_some,
      hrun]

variable (w options) in
theorem exists_run_checkEach {queued : List Operands} (written rest : List Finding)
    (hq : s.queued = queued) (hbusy : s.busy = 0) (hlimit : 0 < s.limit)
    (hcanceled : s.canceled = false) (hfailure : s.failure = none)
    (hslots : s.slots = written ++ rest) (hwritten : written.length = s.workers.length)
    (hrest : rest.length = queued.length) :
    ∃ schedule s', .cancel ∉ schedule ∧ s.run? w options schedule = some s' ∧
      s'.outcome? = some ((fun z => written ++ z.1) <$> checkEach w options s.cache queued) := by
  induction queued generalizing s written rest with
  | nil =>
    obtain rfl := List.length_eq_zero_iff.mp hrest
    refine ⟨[], s, List.not_mem_nil, rfl, ?_⟩
    rw [outcome?_of_slots hq hbusy hfailure, hslots]
    rfl
  | cons p queued ih =>
    have hpair := exists_run_pair w options hq (hbusy ▸ hlimit) hcanceled
    rw [checkEach]
    cases hcheck : check w options s.cache p with
    | error e =>
      rw [hcheck] at hpair
      obtain ⟨schedule, cache, hno, hrun⟩ := hpair
      obtain ⟨schedule', s', hno', hrun', ho⟩ := exists_run_canceled w options
        (s := s.passed p queued cache (some e)) (e := e) rfl ((s.busy_passed p _ _ _).trans hbusy)
        hlimit (by simp [passed]) (by simp [passed, hfailure])
      refine ⟨schedule ++ schedule', s', by simp [hno, hno'], ?_, ho⟩
      rw [run?_append, hrun, Option.bind_some, hrun']
    | ok z =>
      obtain ⟨f, cache⟩ := z
      rw [hcheck] at hpair
      obtain ⟨schedule, hno, hrun⟩ := hpair
      obtain ⟨r, rest, rfl⟩ := List.exists_cons_of_length_eq_add_one hrest
      obtain ⟨schedule', s', hno', hrun', ho⟩ := ih (written ++ [f]) rest
        (s := { s.passed p queued cache none with slots := s.slots.set s.workers.length f }) rfl
        ((s.busy_passed p queued cache none).trans hbusy) hlimit (by simp [passed, hcanceled])
        (by simp [passed, hfailure]) (by simp [hslots, ← hwritten]) (by simp [passed, hwritten])
        (by simpa using hrest)
      refine ⟨schedule ++ schedule', s', by simp [hno, hno'], ?_, ?_⟩
      · rw [run?_append, hrun, Option.bind_some, hrun']
      · rw [ho]
        simp only [passed, bind, Except.bind, pure, Except.pure]
        cases checkEach w options cache queued <;> simp

/-- **The check of a list is the outcome of a schedule.** -/
theorem exists_run_checkAll (w : World) (options : CheckOptions) (limit : Nat)
    (cache : Option Cache) (canceled : Bool) (ps : List Operands) (hlimit : ps ≠ [] → 0 < limit) :
    ∃ schedule s, (canceled = false → .cancel ∉ schedule) ∧
      (start limit cache ps).run? w options schedule = some s ∧
      s.outcome? = some (Prod.fst <$> checkAll w options cache canceled ps) := by
  cases hps : ps with
  | nil =>
    refine ⟨[], start limit cache [], fun _ => List.not_mem_nil, rfl, ?_⟩
    rfl
  | cons p rest =>
    rw [← hps]
    have hroom : 0 < limit := hlimit (hps ▸ List.cons_ne_nil p rest)
    cases canceled with
    | true =>
      obtain ⟨schedule, s', -, hrun, ho⟩ := exists_run_canceled w options
        (s := { start limit cache ps with canceled := true }) (e := .canceled) rfl rfl hroom rfl
        (by simp [start, hps])
      refine ⟨.cancel :: schedule, s', by simp, hrun, ?_⟩
      rw [ho, checkAll, hps]
      rfl
    | false =>
      obtain ⟨schedule, s', hno, hrun, ho⟩ := exists_run_checkEach w options
        (s := start limit cache ps) [] _ rfl rfl hroom rfl rfl rfl rfl List.length_replicate
      refine ⟨schedule, s', fun _ => hno, hrun, ?_⟩
      rw [ho, checkAll_false]
      rfl

end Pool

end EverEqual
