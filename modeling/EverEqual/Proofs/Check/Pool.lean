import EverEqual.Check.Pool
import EverEqual.Proofs.Check.Answered
import EverEqual.Proofs.Comparison.Session

/-!
# Checks at the same time

What is true of a pool after any schedule of moves. An answer that a worker reports is the one that
its pair gets on its own, or one that the cache held; so what is known of all kept answers is known
of all findings. Every move that is possible brings the pool closer to its end, and until then some
move is possible.

* `Operands.Alone`: the descriptors of a pair and its answers without a cache;
* `Work.exists_step`: one step of a worker;
* `Pool.Sound`: the invariant, with `Pool.Sound.move` for one move and `Pool.Sound.run` for a
  schedule;
* `Pool.Sound.exists_move`: there is something to do until there is an outcome;
* `Pool.Sound.exists_findings`: the findings of a pool.
-/

namespace EverEqual

/-- The descriptors of a pair, and the answers to its questions without a cache. -/
structure Operands.Alone (w : World) (p : Operands) (d : Described) (forward reverse : Bool) :
    Prop where
  described : p.describe w = .ok (d.left, d.right, d.graph)
  forward : d.forth.answer Rule.defaults = .ok forward
  reverse : d.back.answer Rule.defaults = .ok reverse

namespace Described

variable (d : Described)

/-- The pair of identities of the first question. -/
def forthKey : IdentityPair := Cache.key d.graph d.left d.right

/-- The pair of identities of the second question. -/
def backKey : IdentityPair := Cache.key d.graph d.right d.left

theorem key?_forth : d.forth.key? = some d.forthKey := rfl

theorem key?_back : d.back.key? = some d.backKey := rfl

end Described

namespace Operands

variable {w : World} {p : Operands} {d d' : Described} {a a' b b' : Bool}

/-- Operands that are followed to their end have descriptors and answers. -/
theorem exists_alone (h : w.Followed p.roots) : ∃ d a b, p.Alone w d a b := by
  obtain ⟨l, r, g, hdesc, hl, hr⟩ := p.exists_described h
  obtain ⟨v, hv⟩ := exists_verdict Rule.defaults hl hr
  obtain ⟨u, hu⟩ := exists_verdict Rule.defaults hr hl
  exact ⟨⟨g, l, r⟩, _, _, hdesc, canBeEqual_of_verdict hv, canBeEqual_of_verdict hu⟩

theorem Alone.unique (h : p.Alone w d a b) (h' : p.Alone w d' a' b') :
    d = d' ∧ a = a' ∧ b = b' := by
  obtain ⟨g, l, r⟩ := d
  obtain ⟨g', l', r'⟩ := d'
  have hd := Except.ok.inj (h.described.symm.trans h'.described)
  simp only [Prod.mk.injEq] at hd
  obtain ⟨rfl, rfl, rfl⟩ := hd
  exact ⟨rfl, Except.ok.inj (h.forward.symm.trans h'.forward),
    Except.ok.inj (h.reverse.symm.trans h'.reverse)⟩

theorem Alone.check_eq (h : p.Alone w d a b) (options : CheckOptions) (cache : Option Cache) :
    check w options cache p =
      .ok (d.finding options p (Cache.settle cache d.forthKey a).1
          (Cache.settle (Cache.settle cache d.forthKey a).2 d.backKey b).1,
        (Cache.settle (Cache.settle cache d.forthKey a).2 d.backKey b).2) := by
  have hforward : canBeEqual d.graph Rule.defaults (some d.left) (some d.right) = .ok a := h.forward
  have hreverse : canBeEqual d.graph Rule.defaults (some d.right) (some d.left) = .ok b := h.reverse
  unfold check
  simp only [h.described, bind, Except.bind, pure, Except.pure,
    answerFor_of_canBeEqual _ _ _ hforward, answerFor_of_canBeEqual _ _ _ hreverse]
  rfl

theorem Alone.check_none (h : p.Alone w d a b) (options : CheckOptions) :
    check w options none p = .ok (d.finding options p a b, none) :=
  h.check_eq options none

end Operands

/-- All answers in a cache have some property. -/
def Cache.Holds (Kept : IdentityPair → Bool → Prop) (cache : Option Cache) : Prop :=
  ∀ key equal, Cache.look cache key = some equal → Kept key equal

theorem Cache.Holds.keep {Kept : IdentityPair → Bool → Prop} {cache : Option Cache}
    {key : IdentityPair} {equal : Bool} (h : Cache.Holds Kept cache)
    (hkept : cache.isSome = true → Kept key equal) :
    Cache.Holds Kept (Cache.keep cache key equal) := by
  intro key' equal' hlook
  cases cache with
  | none => cases hlook
  | some c =>
    simp only [Cache.look, Cache.keep, Option.map_some, Option.bind_some, Cache.find?_store]
      at hlook
    split_ifs at hlook with hkey
    · obtain rfl := Option.some.inj hlook
      exact hkey ▸ hkept rfl
    · exact h key' equal' hlook

section Pool

variable {w : World} {options : CheckOptions} {Kept : IdentityPair → Bool → Prop}

/-! ### One step of a worker -/

/-- An answer that can be reported: the one of the question itself, or a kept one. -/
def Reported (Kept : IdentityPair → Bool → Prop) (key : IdentityPair) (own equal : Bool) : Prop :=
  equal = own ∨ Kept key equal

/-- A finding that a pair can get. -/
def Operands.Possible (w : World) (options : CheckOptions) (Kept : IdentityPair → Bool → Prop)
    (p : Operands) (f : Finding) : Prop :=
  ∃ d forward reverse, p.Alone w d forward reverse ∧
    Reported Kept d.forthKey forward f.forward ∧ Reported Kept d.backKey reverse f.reverse ∧
    f = d.finding options p f.forward f.reverse

/-- How far the asking of a question can have come before its answer is returned. -/
def Progress.Fits (key : IdentityPair) (own : Bool) : Progress → Prop
  | .asked => True
  | .missed key' => key' = key
  | .found key' equal => key' = key ∧ equal = own
  | .returned _ => False

theorem Progress.Fits.stepsLeft_pos {key : IdentityPair} {own : Bool} {progress : Progress}
    (h : progress.Fits key own) : 0 < Session.stepsLeft progress := by
  cases progress with
  | asked | missed | found => exact Nat.succ_pos _
  | returned => cases h

namespace Work

/-- How far a worker can have come: its descriptors are those of its pair, and its answers and its
finding are possible. -/
def Sound (w : World) (options : CheckOptions) (Kept : IdentityPair → Bool → Prop) (p : Operands) :
    Work → Prop
  | .forth d progress => ∃ forward reverse, p.Alone w d forward reverse ∧
      progress.Fits d.forthKey forward
  | .back d equal progress => ∃ forward reverse, p.Alone w d forward reverse ∧
      Reported Kept d.forthKey forward equal ∧ progress.Fits d.backKey reverse
  | .found f => p.Possible w options Kept f
  | _ => True

/-- How many steps a worker may still take. -/
def stepsLeft : Work → Nat
  | .launched => 9
  | .begun => 8
  | .forth _ progress => 4 + Session.stepsLeft progress
  | .back _ _ progress => 1 + Session.stepsLeft progress
  | .found _ => 1
  | .returned _ => 0

variable {q : Question} {key : IdentityPair} {own : Bool} {cache : Option Cache}
variable {progress : Progress}

/-- **One step of a question.** Either it has come further, or its answer is reported. -/
theorem exists_resume (hkey : q.key? = some key) (hown : q.answer Rule.defaults = .ok own)
    (hcache : Cache.Holds Kept cache) (hkept : cache.isSome = true → Kept key own)
    (hp : progress.Fits key own) (wait : Progress → Work) (next : Bool → Work)
    (fail : CompareError → CheckError) :
    ∃ work cache', resume q cache progress wait next fail = (work, cache') ∧
      Cache.Holds Kept cache' ∧ cache'.isSome = cache.isSome ∧
      ((∃ progress', work = wait progress' ∧ progress'.Fits key own ∧
        Session.stepsLeft progress' < Session.stepsLeft progress) ∨
      ∃ equal, work = next equal ∧ Reported Kept key own equal) := by
  unfold resume
  cases progress with
  | asked =>
    cases hlook : Cache.look cache key with
    | none =>
      rw [Question.step_of_not_kept hkey hlook]
      exact ⟨_, _, rfl, hcache, rfl, Or.inl ⟨.missed key, rfl, rfl, Nat.lt_succ_self 2⟩⟩
    | some equal =>
      rw [Question.step_of_kept hkey hlook]
      exact ⟨_, _, rfl, hcache, rfl, Or.inr ⟨equal, rfl, Or.inr (hcache key equal hlook)⟩⟩
  | missed key' =>
    obtain rfl : key' = key := hp
    rw [Question.step_of_answer hown]
    exact ⟨_, _, rfl, hcache, rfl, Or.inl ⟨.found key' own, rfl, ⟨rfl, rfl⟩, Nat.lt_succ_self 1⟩⟩
  | found key' equal =>
    obtain ⟨rfl, rfl⟩ : key' = key ∧ equal = own := hp
    refine ⟨_, _, rfl, hcache.keep hkept, ?_, Or.inr ⟨equal, rfl, Or.inl rfl⟩⟩
    simp [Cache.keep]
  | returned result => cases hp

/-- What a step of a worker keeps up: the worker stays sound, the cache holds only what it may, and
the step counts. A worker fails only if the checks were called off, and when it returns without an
error, it has written its finding. -/
structure Stepped (w : World) (options : CheckOptions) (Kept : IdentityPair → Bool → Prop)
    (p : Operands) (canceled : Bool) (work work' : Work) (cache cache' : Option Cache) : Prop where
  sound : work'.Sound w options Kept p
  holds : Cache.Holds Kept cache'
  isSome : cache'.isSome = cache.isSome
  stepsLeft : work'.stepsLeft < work.stepsLeft
  failed : ∀ e, work'.failure? = some e → e = .canceled ∧ canceled = true
  written : work'.isReturned = true → work'.failure? = none →
    ∃ f, work.finding? = some f ∧ p.Possible w options Kept f

/-- **One step of a worker.** -/
theorem exists_step {p : Operands} {work : Work} (canceled : Bool)
    (halone : ∃ d forward reverse, p.Alone w d forward reverse)
    (hkept : cache.isSome = true → ∀ d forward reverse, p.Alone w d forward reverse →
      Kept d.forthKey forward ∧ Kept d.backKey reverse)
    (hcache : Cache.Holds Kept cache) (h : work.Sound w options Kept p)
    (hbusy : work.isReturned = false) :
    ∃ work' cache', work.step w options p canceled cache = (work', cache') ∧
      Stepped w options Kept p canceled work work' cache cache' := by
  cases work with
  | launched =>
    refine ⟨_, _, rfl, ?_⟩
    cases canceled with
    | false => exact ⟨trivial, hcache, rfl, by decide, nofun, nofun⟩
    | true =>
      refine ⟨trivial, hcache, rfl, by decide, fun e he => ?_, nofun⟩
      exact ⟨(Option.some.inj he).symm, rfl⟩
  | begun =>
    obtain ⟨d, forward, reverse, hd⟩ := halone
    refine ⟨.forth d .asked, cache, ?_, ⟨forward, reverse, hd, trivial⟩, hcache, rfl,
      Nat.lt_succ_self 7, nofun, nofun⟩
    simp only [step, hd.described]
  | forth d progress =>
    obtain ⟨forward, reverse, hd, hfits⟩ := h
    obtain ⟨work', cache', hstep, hcache', hsome, hwork⟩ := exists_resume d.key?_forth hd.forward
      hcache (fun hc => (hkept hc d _ _ hd).1) hfits (forth d) (back d · .asked)
      (.compare p.leftText p.rightText)
    refine ⟨work', cache', hstep, ?_⟩
    rcases hwork with ⟨progress', rfl, hfits', hlt⟩ | ⟨equal, rfl, hequal⟩
    · exact ⟨⟨forward, reverse, hd, hfits'⟩, hcache', hsome, Nat.add_lt_add_left hlt 4, nofun,
        nofun⟩
    · exact ⟨⟨forward, reverse, hd, hequal, trivial⟩, hcache', hsome,
        Nat.lt_add_of_pos_right hfits.stepsLeft_pos, nofun, nofun⟩
  | back d equal progress =>
    obtain ⟨forward, reverse, hd, hequal, hfits⟩ := h
    obtain ⟨work', cache', hstep, hcache', hsome, hwork⟩ := exists_resume d.key?_back hd.reverse
      hcache (fun hc => (hkept hc d _ _ hd).2) hfits (back d equal)
      (found <| d.finding options p equal ·) (.compare p.rightText p.leftText)
    refine ⟨work', cache', hstep, ?_⟩
    rcases hwork with ⟨progress', rfl, hfits', hlt⟩ | ⟨equal', rfl, hequal'⟩
    · exact ⟨⟨forward, reverse, hd, hequal, hfits'⟩, hcache', hsome, Nat.add_lt_add_left hlt 1,
        nofun, nofun⟩
    · exact ⟨⟨d, forward, reverse, hd, hequal, hequal', rfl⟩, hcache', hsome,
        Nat.lt_add_of_pos_right hfits.stepsLeft_pos, nofun, nofun⟩
  | found f =>
    exact ⟨.returned none, cache, rfl, trivial, hcache, rfl, Nat.lt_succ_self 0, nofun,
      fun _ _ => ⟨f, rfl, h⟩⟩
  | returned failure => cases hbusy

end Work

/-! ### One move -/

theorem sum_set_lt {ns : List Nat} {i n m : Nat} (hi : ns[i]? = some n) (hlt : m < n) :
    (ns.set i m).sum < ns.sum := by
  induction ns generalizing i with
  | nil => simp at hi
  | cons a ns ih =>
    cases i with
    | zero =>
      obtain rfl : a = n := by simpa using hi
      simpa using hlt
    | succ i =>
      have := ih (i := i) (by simpa using hi)
      simpa using this

namespace Pool

variable {s s' : Pool} {m : Move} {ps : List Operands}

theorem move?_cases (h : s.move? w options m = some s') :
    (∃ p rest, m = .launch ∧ s.queued = p :: rest ∧ s.busy < s.limit ∧
      s' = { s with workers := s.workers ++ [{ pair := p }], queued := rest }) ∨
    (∃ (i : Nat) (k : Worker), m = .step i ∧ s.workers[i]? = some k ∧ k.work.isReturned = false ∧
      s' = s.advance w options i k) ∨
    (m = .cancel ∧ s.canceled = false ∧ s' = { s with canceled := true }) := by
  cases m with
  | launch =>
    cases hq : s.queued with
    | nil => simp [move?, hq] at h
    | cons p rest =>
      simp only [move?, hq, Option.ite_none_right_eq_some, Option.some.injEq] at h
      exact Or.inl ⟨p, rest, rfl, rfl, h.1, h.2.symm⟩
  | step i =>
    cases hk : s.workers[i]? with
    | none => simp [move?, hk] at h
    | some k =>
      simp only [move?, hk, Option.bind_eq_bind, Option.bind_some, Option.ite_none_left_eq_some,
        Option.some.injEq, Bool.not_eq_true] at h
      exact Or.inr (Or.inl ⟨i, k, rfl, hk, h.1, h.2.symm⟩)
  | cancel =>
    simp only [move?, Option.ite_none_left_eq_some, Option.some.injEq, Bool.not_eq_true] at h
    exact Or.inr (Or.inr ⟨rfl, h.1, h.2.symm⟩)

theorem advance_of_step {i : Nat} {k : Worker} {work : Work} {cache : Option Cache}
    (h : k.work.step w options k.pair s.canceled s.cache = (work, cache)) :
    s.advance w options i k =
      { s with
        cache
        canceled := s.canceled || work.failure?.isSome
        failure := s.failure.or work.failure?
        workers := s.workers.set i { k with work }
        slots := (k.work.finding?.map (s.slots.set i ·)).getD s.slots } := by
  unfold advance
  rw [h]

theorem isReturned_of_busy (hbusy : s.busy = 0) : s.workers.all (·.work.isReturned) = true :=
  List.all_eq_true.mpr fun k hk => by simpa using List.countP_eq_zero.mp hbusy k hk

/-- What is true of a pool at any moment. Its workers are on the pairs of the list and have come
only so far; the cache holds only what it may, and it may hold the answers that pairs get on their
own. A failure comes only from calling off. If there is none, workers that have returned have
written possible findings. -/
structure Sound (w : World) (options : CheckOptions) (Kept : IdentityPair → Bool → Prop)
    (ps : List Operands) (s : Pool) : Prop where
  pairs : s.workers.map Worker.pair ++ s.queued = ps
  slots : s.slots.length = ps.length
  room : s.queued ≠ [] → 0 < s.limit
  kept : s.cache.isSome = true → ∀ p ∈ ps, ∀ d forward reverse, p.Alone w d forward reverse →
    Kept d.forthKey forward ∧ Kept d.backKey reverse
  holds : Cache.Holds Kept s.cache
  works : ∀ k ∈ s.workers, k.work.Sound w options Kept k.pair
  failed : ∀ e, s.failure = some e → e = .canceled ∧ s.canceled = true
  written : s.failure = none → ∀ (i : Nat) (k : Worker), s.workers[i]? = some k →
    k.work.isReturned = true → ∃ f, s.slots[i]? = some f ∧ k.pair.Possible w options Kept f

theorem limitFor_pos (jobs : Int) {processors pairs : Nat} (hprocessors : 0 < processors)
    (hpairs : 0 < pairs) : 0 < limitFor jobs processors pairs := by
  refine lt_min ?_ hpairs
  split_ifs with hjobs
  · exact hprocessors
  · omega

/-- How many moves are left in a pool. -/
def movesLeft (s : Pool) : Nat :=
  10 * s.queued.length + (s.workers.map (·.work.stepsLeft)).sum + if s.canceled then 0 else 1

theorem movesLeft_start (limit : Nat) (cache : Option Cache) (ps : List Operands) :
    (start limit cache ps).movesLeft = 10 * ps.length + 1 := by
  simp [movesLeft, start]

namespace Sound

theorem launch {p : Operands} {rest : List Operands} (h : s.Sound w options Kept ps)
    (hq : s.queued = p :: rest) :
    Sound w options Kept ps
      { s with workers := s.workers ++ [{ pair := p }], queued := rest } where
  pairs := by simp [← h.pairs, hq]
  slots := h.slots
  room := fun _ => h.room (hq ▸ List.cons_ne_nil p rest)
  kept := h.kept
  holds := h.holds
  works := by
    intro k hk
    rcases List.mem_append.mp hk with hk | hk
    · exact h.works k hk
    · obtain rfl := List.mem_singleton.mp hk
      trivial
  failed := h.failed
  written := by
    intro hno i k hk hreturned
    rw [List.getElem?_append] at hk
    split_ifs at hk with hi
    · exact h.written hno i k hk hreturned
    · obtain rfl := List.mem_singleton.mp (List.mem_of_getElem? hk)
      cases hreturned

theorem cancel (h : s.Sound w options Kept ps) :
    Sound w options Kept ps { s with canceled := true } :=
  { h with failed := fun e he => ⟨(h.failed e he).1, rfl⟩ }

theorem exists_stepped (halone : ∀ p ∈ ps, ∃ d forward reverse, p.Alone w d forward reverse)
    (h : s.Sound w options Kept ps) {k : Worker} (hk : k ∈ s.workers)
    (hbusy : k.work.isReturned = false) :
    ∃ work cache, k.work.step w options k.pair s.canceled s.cache = (work, cache) ∧
      Work.Stepped w options Kept k.pair s.canceled k.work work s.cache cache := by
  have hp : k.pair ∈ ps := h.pairs ▸ List.mem_append_left _ (List.mem_map_of_mem hk)
  exact Work.exists_step s.canceled (halone _ hp) (fun hc => h.kept hc _ hp) h.holds (h.works k hk)
    hbusy

theorem step {i : Nat} {k : Worker} {work : Work} {cache : Option Cache}
    (h : s.Sound w options Kept ps) (hk : s.workers[i]? = some k)
    (hstep : k.work.step w options k.pair s.canceled s.cache = (work, cache))
    (hwork : Work.Stepped w options Kept k.pair s.canceled k.work work s.cache cache) :
    (s.advance w options i k).Sound w options Kept ps := by
  rw [advance_of_step hstep]
  have hlt : i < s.slots.length := by
    rw [h.slots, ← h.pairs, List.length_append, List.length_map]
    exact Nat.lt_add_right _ (List.getElem?_eq_some_iff.mp hk).1
  refine ⟨?_, ?_, h.room, fun hc => h.kept (hwork.isSome ▸ hc), hwork.holds, fun k' hk' => ?_,
    fun e he => ?_, fun hno j k' hk' hreturned => ?_⟩
  · rw [← h.pairs]
    exact congrArg (· ++ s.queued) (map_set_of_getElem? hk rfl)
  · rw [← h.slots]
    cases k.work.finding? <;> simp
  · rcases List.mem_or_eq_of_mem_set hk' with hk' | rfl
    · exact h.works k' hk'
    · exact hwork.sound
  · rcases Option.or_eq_some_iff.mp he with he | ⟨-, he⟩
    · exact ⟨(h.failed e he).1, by simp [(h.failed e he).2]⟩
    · exact ⟨(hwork.failed e he).1, by simp [(hwork.failed e he).2]⟩
  · obtain ⟨hno, hwell⟩ := Option.or_eq_none_iff.mp hno
    by_cases hij : i = j
    · subst hij
      obtain rfl : { k with work } = k' := by
        simpa [(List.getElem?_eq_some_iff.mp hk).1] using hk'
      obtain ⟨f, hf, hpossible⟩ := hwork.written hreturned hwell
      exact ⟨f, by simp [hf, hlt], hpossible⟩
    · rw [List.getElem?_set_ne hij] at hk'
      obtain ⟨f, hf, hpossible⟩ := h.written hno j k' hk' hreturned
      refine ⟨f, ?_, hpossible⟩
      cases k.work.finding? with
      | none => exact hf
      | some f' => simpa [List.getElem?_set_ne hij] using hf

/-- **One move** keeps a pool sound and brings it closer to its end. The checks are called off by
nothing but a move to that end. -/
theorem move (halone : ∀ p ∈ ps, ∃ d forward reverse, p.Alone w d forward reverse)
    (h : s.Sound w options Kept ps) (hmove : s.move? w options m = some s') :
    s'.Sound w options Kept ps ∧ s'.movesLeft < s.movesLeft ∧
      (s'.canceled = true → s.canceled = true ∨ m = .cancel) := by
  rcases move?_cases hmove with ⟨p, rest, rfl, hq, -, rfl⟩ | ⟨i, k, rfl, hk, hbusy, rfl⟩ |
    ⟨rfl, hno, rfl⟩
  · refine ⟨h.launch hq, ?_, Or.inl⟩
    simp [movesLeft, hq, Work.stepsLeft]
    omega
  · obtain ⟨work, cache, hstep, hwork⟩ := h.exists_stepped halone (List.mem_of_getElem? hk) hbusy
    have hcanceled : (s.canceled || work.failure?.isSome) = s.canceled := by
      cases hf : work.failure? with
      | none => simp
      | some e => simp [(hwork.failed e hf).2]
    have hsum : ((s.workers.map (·.work.stepsLeft)).set i work.stepsLeft).sum <
        (s.workers.map (·.work.stepsLeft)).sum :=
      sum_set_lt (by simp [hk]) hwork.stepsLeft
    refine ⟨h.step hk hstep hwork, ?_, ?_⟩ <;> rw [advance_of_step hstep]
    · simp only [movesLeft, hcanceled, List.map_set]
      omega
    · exact fun hc => Or.inl (hcanceled ▸ hc)
  · refine ⟨h.cancel, ?_, fun _ => Or.inr rfl⟩
    simp [movesLeft, hno]

/-! ### A schedule of moves -/

/-- **A schedule of moves** keeps a pool sound, and it cannot be longer than there are moves left.
The checks are called off by nothing but a move to that end. -/
theorem run (halone : ∀ p ∈ ps, ∃ d forward reverse, p.Alone w d forward reverse)
    (h : s.Sound w options Kept ps) {schedule : List Move}
    (hrun : s.run? w options schedule = some s') :
    s'.Sound w options Kept ps ∧ schedule.length + s'.movesLeft ≤ s.movesLeft ∧
      (s'.canceled = true → s.canceled = true ∨ .cancel ∈ schedule) := by
  induction schedule generalizing s with
  | nil =>
    obtain rfl := Option.some.inj hrun
    exact ⟨h, by simp, Or.inl⟩
  | cons m schedule ih =>
    obtain ⟨s₁, hmove, hrun⟩ := Option.bind_eq_some_iff.mp hrun
    obtain ⟨h₁, hlt, hcanceled₁⟩ := h.move halone hmove
    obtain ⟨h', hle, hcanceled⟩ := ih h₁ hrun
    refine ⟨h', ?_, fun hc => ?_⟩
    · rw [List.length_cons]
      omega
    · rcases hcanceled hc with hc | hc
      · exact (hcanceled₁ hc).imp_right fun hm => List.mem_cons.mpr (Or.inl hm.symm)
      · exact Or.inr (List.mem_cons_of_mem m hc)

/-- **There is something to do until there is an outcome.** -/
theorem exists_move (h : s.Sound w options Kept ps) (hno : s.outcome? = none) :
    ∃ m s', m ≠ .cancel ∧ s.move? w options m = some s' := by
  by_cases hbusy : s.busy = 0
  · cases hq : s.queued with
    | nil => simp [outcome?, hq, isReturned_of_busy hbusy] at hno
    | cons p rest =>
      have hroom : s.busy < s.limit := hbusy ▸ h.room (hq ▸ List.cons_ne_nil p rest)
      exact ⟨.launch, _, nofun, by simp only [move?, hq]; exact if_pos hroom⟩
  · obtain ⟨k, hk, hwork⟩ := List.countP_pos_iff.mp (Nat.pos_of_ne_zero hbusy)
    obtain ⟨i, hi, rfl⟩ := List.getElem_of_mem hk
    refine ⟨.step i, s.advance w options i s.workers[i], nofun, ?_⟩
    simp only [move?, List.getElem?_eq_getElem hi, Option.bind_eq_bind, Option.bind_some]
    rw [if_neg (by simpa using hwork)]

/-- **The outcome of a pool**: a possible finding on every pair, or that the checks were called
off. -/
theorem outcome_cases (h : s.Sound w options Kept ps) {outcome : Except CheckError (List Finding)}
    (ho : s.outcome? = some outcome) :
    (∃ fs, outcome = .ok fs ∧ List.Forall₂ (fun p f => p.Possible w options Kept f) ps fs) ∨
      (outcome = .error .canceled ∧ s.canceled = true) := by
  unfold outcome? at ho
  split_ifs at ho with hdone
  obtain rfl := Option.some.inj ho
  cases hf : s.failure with
  | some e =>
    obtain ⟨rfl, hcanceled⟩ := h.failed e hf
    exact Or.inr ⟨rfl, hcanceled⟩
  | none =>
    obtain ⟨hq, hreturned⟩ := (Bool.and_eq_true _ _).mp hdone
    have hpairs : s.workers.map Worker.pair = ps := by
      simpa [List.isEmpty_iff.mp hq] using h.pairs
    refine Or.inl ⟨s.slots, rfl, List.forall₂_iff_get.mpr ⟨h.slots.symm, fun i hi hi' => ?_⟩⟩
    have hlt : i < s.workers.length := by rwa [← hpairs, List.length_map] at hi
    obtain ⟨f, hslot, hpossible⟩ := h.written hf i s.workers[i] (List.getElem?_eq_getElem hlt)
      (List.all_eq_true.mp hreturned _ (List.getElem_mem hlt))
    obtain ⟨_, rfl⟩ := List.getElem?_eq_some_iff.mp hslot
    simpa [← hpairs] using hpossible

theorem forall₂_of_outcome (h : s.Sound w options Kept ps) (hcanceled : s.canceled = false)
    {outcome : Except CheckError (List Finding)} (ho : s.outcome? = some outcome) :
    ∃ fs, outcome = .ok fs ∧ List.Forall₂ (fun p f => p.Possible w options Kept f) ps fs := by
  rcases h.outcome_cases ho with hfs | ⟨-, hc⟩
  · exact hfs
  · cases hcanceled.symm.trans hc

theorem exists_findings (halone : ∀ p ∈ ps, ∃ d forward reverse, p.Alone w d forward reverse)
    (h : s.Sound w options Kept ps) (hcanceled : s.canceled = false) {schedule : List Move}
    (hno : .cancel ∉ schedule) (hrun : s.run? w options schedule = some s')
    {outcome : Except CheckError (List Finding)} (ho : s'.outcome? = some outcome) :
    ∃ fs, outcome = .ok fs ∧ List.Forall₂ (fun p f => p.Possible w options Kept f) ps fs := by
  obtain ⟨h', -, hcause⟩ := h.run halone hrun
  refine h'.forall₂_of_outcome (Bool.eq_false_iff.mpr fun hc => ?_) ho
  rcases hcause hc with hc | hc
  · cases hcanceled.symm.trans hc
  · exact hno hc

theorem start {limit : Nat} {cache : Option Cache} (hlimit : ps ≠ [] → 0 < limit)
    (hkept : cache.isSome = true → ∀ p ∈ ps, ∀ d forward reverse, p.Alone w d forward reverse →
      Kept d.forthKey forward ∧ Kept d.backKey reverse)
    (hcache : Cache.Holds Kept cache) : (Pool.start limit cache ps).Sound w options Kept ps where
  pairs := rfl
  slots := List.length_replicate
  room := hlimit
  kept := hkept
  holds := hcache
  works := by simp [Pool.start]
  failed := nofun
  written := by simp [Pool.start]

end Sound

end Pool

end Pool

end EverEqual
