import EverEqual.Comparison.Session
import EverEqual.Proofs.Comparison.Similar
import EverEqual.Proofs.Comparison.Termination

/-!
# Questions that share a cache

Questions that are asked at the same time and share a cache get the answers they would get without
one, whatever the order of their steps, if descriptors of one identity cannot be told apart. What
one step keeps up is this: a kept answer is the answer to some question with that pair, and every
question has come as far as its answer and its pair allow.

* `Indistinguishable`: descriptors that no rule can tell apart;
* `Question.answer_of_key`, `Question.answer_eq`: a question has an answer, and the pair of its
  identities decides on it;
* `Inquiry.Sound`, `Session.Sound`: the invariant, with `Session.Sound.advance` for one step;
* `Session.exists_returned`: a question is answered after three steps of its own;
* `answers_shared`: questions by way of a shared cache.
-/

namespace EverEqual

/-! ### Descriptors that cannot be told apart -/

/-- No rule can tell two descriptors apart: they agree in what rules read, and their parts cannot be
told apart again. -/
def Indistinguishable (g h : Graph) (x y : Ref) : Prop :=
  ∃ R, Similarity g h R ∧ R x y

theorem similarity_indistinguishable (g h : Graph) : Similarity g h (Indistinguishable g h) := by
  rintro x y ⟨R, hR, hxy⟩
  exact (hR x y hxy).imp_of_mem fun a _ b _ hab => ⟨R, hR, hab⟩

namespace Question

variable {rules : List Rule} {q q' : Question} {key : IdentityPair}

/-- A descriptor that can be reached from an operand. -/
def Meets (q : Question) (x : Ref) : Prop :=
  ∃ o, (q.left = some o ∨ q.right = some o) ∧ q.graph.Reach o x

theorem exists_operands (h : q.key? = some key) :
    ∃ l r, q.left = some l ∧ q.right = some r ∧ Cache.key q.graph l r = key := by
  unfold key? at h
  split at h
  · next l r hl hr => exact ⟨l, r, hl, hr, Option.some.inj h⟩
  · cases h

theorem answer_of_missing (rules : List Rule) (h : q.key? = none) :
    q.answer rules = .error .missingOperand := by
  obtain ⟨g, left, right⟩ := q
  cases left with
  | none => rfl
  | some l =>
    cases right with
    | none => rfl
    | some r => cases h

theorem answer_of_key (rules : List Rule) (hfin : ∀ x, q.Meets x → (q.graph.node x).Finished)
    (h : q.key? = some key) : ∃ equal, q.answer rules = .ok equal := by
  obtain ⟨l, r, hl, hr, -⟩ := exists_operands h
  obtain ⟨v, hv⟩ := exists_verdict rules (fun y hy => hfin y ⟨l, Or.inl hl, hy⟩)
    (fun y hy => hfin y ⟨r, Or.inr hr, hy⟩)
  refine ⟨v = .compatible, ?_⟩
  rw [answer, hl, hr]
  exact canBeEqual_of_verdict hv

theorem answer_eq (hfin : ∀ x, q.Meets x → (q.graph.node x).Finished)
    (hfin' : ∀ x, q'.Meets x → (q'.graph.node x).Finished)
    (hsame : ∀ x x', q.Meets x → q'.Meets x' → (q.graph.node x).id = (q'.graph.node x').id →
      Indistinguishable q.graph q'.graph x x')
    (h : q.key? = some key) (h' : q'.key? = some key) : q.answer rules = q'.answer rules := by
  obtain ⟨l, r, hl, hr, hkey⟩ := exists_operands h
  obtain ⟨l', r', hl', hr', hkey'⟩ := exists_operands h'
  obtain ⟨v, hv⟩ := exists_verdict rules (fun y hy => hfin y ⟨l, Or.inl hl, hy⟩)
    (fun y hy => hfin y ⟨r, Or.inr hr, hy⟩)
  obtain ⟨v', hv'⟩ := exists_verdict rules (fun y hy => hfin' y ⟨l', Or.inl hl', hy⟩)
    (fun y hy => hfin' y ⟨r', Or.inr hr', hy⟩)
  have hids := hkey.trans hkey'.symm
  have hleft := hsame l l' ⟨l, Or.inl hl, .refl⟩ ⟨l', Or.inl hl', .refl⟩
    (congrArg IdentityPair.left hids)
  have hright := hsame r r' ⟨r, Or.inr hr, .refl⟩ ⟨r', Or.inr hr', .refl⟩
    (congrArg IdentityPair.right hids)
  have hvv := verdict_eq_of_similarity (similarity_indistinguishable _ _) hleft hright hv hv'
  rw [answer, answer, hl, hr, hl', hr', canBeEqual_of_verdict hv, canBeEqual_of_verdict hv', hvv]

end Question

/-! ### One step -/

section Steps

variable {rules : List Rule} {questions : List Question} {s : Session}

/-- How far the asking of a question can have come: an answer that was found or returned is the
answer of the question, and after it was returned it is kept. -/
def Inquiry.Sound (rules : List Rule) (cache : Cache) (a : Inquiry) : Prop :=
  match a.progress with
  | .asked => True
  | .missed key => a.question.key? = some key
  | .found key equal => a.question.key? = some key ∧ a.question.answer rules = .ok equal
  | .returned result => result = a.question.answer rules ∧
      ∀ key, a.question.key? = some key → (cache.find? key).isSome = true

/-- A kept answer is the answer to some question, and every question has come as far as it can. -/
structure Session.Sound (rules : List Rule) (questions : List Question) (s : Session) (c : Cache) :
    Prop where
  cache : s.cache = some c
  asked : s.inquiries.map Inquiry.question = questions
  kept : ∀ key equal, c.find? key = some equal →
    ∃ q ∈ questions, q.key? = some key ∧ q.answer rules = .ok equal
  inquiries : ∀ a ∈ s.inquiries, a.Sound rules c

theorem Inquiry.Sound.mono {c c' : Cache} {a : Inquiry} (h : a.Sound rules c)
    (hc : ∀ key, (c.find? key).isSome = true → (c'.find? key).isSome = true) :
    a.Sound rules c' := by
  obtain ⟨q, p⟩ := a
  cases p with
  | returned result => exact ⟨h.1, fun key hkey => hc key (h.2 key hkey)⟩
  | _ => exact h

theorem Inquiry.Sound.of_returned {c : Cache} {a : Inquiry} (h : a.Sound rules c)
    {result : Except CompareError Bool} (hresult : a.progress = .returned result) :
    result = a.question.answer rules ∧
      ∀ key, a.question.key? = some key → (c.find? key).isSome = true := by
  unfold Inquiry.Sound at h
  rwa [hresult] at h

/-- **One step of a question**, by way of a cache that holds only right answers to it: the question
has come further, and what is new in the cache is its answer. -/
theorem Question.exists_step {q : Question} {p : Progress} {c : Cache}
    (hanswer : ∀ key, q.key? = some key → ∃ equal, q.answer rules = .ok equal)
    (hkept : ∀ key equal, q.key? = some key → c.find? key = some equal →
      q.answer rules = .ok equal)
    (hp : Inquiry.Sound rules c ⟨q, p⟩) :
    ∃ p' c', q.step rules (some c) p = (p', some c') ∧ Inquiry.Sound rules c' ⟨q, p'⟩ ∧
      ∀ key, c'.find? key = c.find? key ∨
        ∃ equal, c'.find? key = some equal ∧ q.key? = some key ∧ q.answer rules = .ok equal := by
  cases p with
  | asked =>
    cases hkey : q.key? with
    | none =>
      refine ⟨.returned (.error .missingOperand), c, step_of_missing hkey, ⟨?_, ?_⟩,
        fun _ => Or.inl rfl⟩
      · exact (answer_of_missing rules hkey).symm
      · intro key h
        cases hkey.symm.trans h
    | some key =>
      cases hlook : c.find? key with
      | some equal =>
        refine ⟨.returned (.ok equal), c, step_of_kept hkey hlook, ⟨?_, ?_⟩, fun _ => Or.inl rfl⟩
        · exact (hkept key equal hkey hlook).symm
        · intro key' h
          obtain rfl := Option.some.inj (hkey.symm.trans h)
          rw [hlook]
          rfl
      | none => exact ⟨.missed key, c, step_of_not_kept hkey hlook, hkey, fun _ => Or.inl rfl⟩
  | missed key =>
    obtain ⟨equal, hequal⟩ := hanswer key hp
    exact ⟨.found key equal, c, step_of_answer hequal, ⟨hp, hequal⟩, fun _ => Or.inl rfl⟩
  | found key equal =>
    obtain ⟨hkey, hequal⟩ := hp
    refine ⟨.returned (.ok equal), c.store key equal, rfl, ⟨hequal.symm, fun key' h => ?_⟩,
      fun key' => ?_⟩
    · obtain rfl := Option.some.inj (hkey.symm.trans h)
      simp [Cache.find?_store]
    · rw [Cache.find?_store]
      by_cases h : key' = key
      · exact Or.inr ⟨equal, if_pos h, h ▸ hkey, hequal⟩
      · exact Or.inl (if_neg h)
  | returned result => exact ⟨.returned result, c, rfl, hp, fun _ => Or.inl rfl⟩

/-! ### A schedule of steps -/

theorem map_set_of_getElem? {α β : Type} {look : α → β} {as : List α} {i : Nat} {a b : α}
    (ha : as[i]? = some a) (hb : look b = look a) : (as.set i b).map look = as.map look := by
  obtain ⟨hi, rfl⟩ := List.getElem?_eq_some_iff.mp ha
  have hi' : i < (as.map look).length := by rwa [List.length_map]
  have hself : (as.map look).set i (as.map look)[i] = as.map look := List.set_getElem_self hi'
  rwa [List.getElem_map, ← hb, ← List.map_set] at hself

namespace Session

theorem advance_of_getElem? {i : Nat} {a : Inquiry} {p : Progress} {cache : Option Cache}
    (ha : s.inquiries[i]? = some a)
    (hstep : a.question.step rules s.cache a.progress = (p, cache)) :
    s.advance rules i = ⟨cache, s.inquiries.set i { a with progress := p }⟩ := by
  unfold advance
  simp only [ha, hstep]

/-- What is asked of questions for a shared cache to be right: they have answers, and the pair of
identities decides on the answer. -/
structure Agree (rules : List Rule) (questions : List Question) : Prop where
  answered : ∀ q ∈ questions, ∀ key, q.key? = some key → ∃ equal, q.answer rules = .ok equal
  same : ∀ q ∈ questions, ∀ q' ∈ questions, ∀ key, q.key? = some key → q'.key? = some key →
    q.answer rules = q'.answer rules

/-- **One step of one of the questions** keeps the session sound. -/
theorem Sound.advance {c : Cache} (hagree : Agree rules questions) (h : s.Sound rules questions c)
    (i : Nat) : ∃ c', (s.advance rules i).Sound rules questions c' ∧
      ∀ key, (c.find? key).isSome = true → (c'.find? key).isSome = true := by
  cases ha : s.inquiries[i]? with
  | none =>
    refine ⟨c, ?_, fun _ hkey => hkey⟩
    unfold Session.advance
    rw [ha]
    exact h
  | some a =>
    have hmem : a ∈ s.inquiries := List.mem_of_getElem? ha
    have hq : a.question ∈ questions := h.asked ▸ List.mem_map_of_mem hmem
    obtain ⟨p, c', hstep, hp, hnew⟩ := Question.exists_step (hagree.answered _ hq)
      (fun key equal hkey hlook => by
        obtain ⟨q, hq', hkey', hequal⟩ := h.kept key equal hlook
        rw [hagree.same _ hq q hq' key hkey hkey', hequal])
      (h.inquiries a hmem)
    have hgrow : ∀ key, (c.find? key).isSome = true → (c'.find? key).isSome = true := by
      intro key hkey
      rcases hnew key with hsame | ⟨equal, hequal, -⟩
      · rwa [hsame]
      · rw [hequal]
        rfl
    rw [← h.cache] at hstep
    rw [advance_of_getElem? ha hstep]
    refine ⟨c', ⟨rfl, ?_, fun key equal hlook => ?_, fun b hb => ?_⟩, hgrow⟩
    · rw [← h.asked]
      exact map_set_of_getElem? ha rfl
    · rcases hnew key with hsame | ⟨equal', hlook', hkey, hequal⟩
      · exact h.kept key equal (hsame ▸ hlook)
      · obtain rfl := Option.some.inj (hlook.symm.trans hlook')
        exact ⟨a.question, hq, hkey, hequal⟩
    · rcases List.mem_or_eq_of_mem_set hb with hb | rfl
      · exact (h.inquiries b hb).mono hgrow
      · exact hp

theorem cache_advance_of_missing {c : Cache} {i : Nat} {a : Inquiry} (hcache : s.cache = some c)
    (h : a.Sound rules c) (ha : s.inquiries[i]? = some a) (hmissing : a.question.key? = none) :
    (s.advance rules i).cache = some c := by
  unfold Inquiry.Sound at h
  cases hp : a.progress with
  | asked =>
    have hstep : a.question.step rules s.cache a.progress =
        (.returned (.error .missingOperand), s.cache) := by
      rw [hp, Question.step_of_missing hmissing]
    rw [advance_of_getElem? ha hstep, hcache]
  | missed key =>
    rw [hp] at h
    cases hmissing.symm.trans h
  | found key equal =>
    rw [hp] at h
    cases hmissing.symm.trans h.1
  | returned result =>
    have hstep : a.question.step rules s.cache a.progress = (.returned result, s.cache) := by
      rw [hp, Question.step]
    rw [advance_of_getElem? ha hstep, hcache]

theorem sound_start (rules : List Rule) (questions : List Question) :
    (start questions).Sound rules questions {} where
  cache := rfl
  asked := by simp [start, Function.comp_def]
  kept := by
    intro key equal h
    simp [Cache.find?] at h
  inquiries := by
    intro a ha
    obtain ⟨q, -, rfl⟩ := List.mem_map.mp ha
    trivial

/-- **A schedule of steps** keeps the session sound. -/
theorem Sound.run {c : Cache} (hagree : Agree rules questions) (h : s.Sound rules questions c)
    (schedule : List Nat) : ∃ c', (s.run rules schedule).Sound rules questions c' := by
  induction schedule generalizing s c with
  | nil => exact ⟨c, h⟩
  | cons i schedule ih =>
    obtain ⟨c', h', -⟩ := h.advance hagree i
    exact ih h'

/-! ### Every question is answered -/

/-- How many steps a question may still take. -/
def stepsLeft : Progress → Nat
  | .asked => 3
  | .missed _ => 2
  | .found _ _ => 1
  | .returned _ => 0

theorem stepsLeft_step_le (rules : List Rule) (q : Question) (cache : Option Cache) (p : Progress) :
    stepsLeft (q.step rules cache p).1 ≤ stepsLeft p - 1 := by
  cases p with
  | asked =>
    cases hkey : q.key? with
    | none =>
      rw [Question.step_of_missing hkey]
      exact Nat.zero_le _
    | some key =>
      cases hlook : Cache.look cache key with
      | none =>
        rw [Question.step_of_not_kept hkey hlook]
        exact Nat.le_refl 2
      | some equal =>
        rw [Question.step_of_kept hkey hlook]
        exact Nat.zero_le _
  | missed key =>
    cases hanswer : q.answer rules with
    | ok equal =>
      rw [Question.step_of_answer hanswer]
      exact Nat.le_refl 1
    | error e =>
      rw [Question.step_of_error hanswer]
      exact Nat.zero_le _
  | found key equal => exact Nat.zero_le _
  | returned result => exact Nat.zero_le _

theorem exists_of_advance {i j : Nat} {b : Inquiry}
    (hb : (s.advance rules i).inquiries[j]? = some b) :
    ∃ a, s.inquiries[j]? = some a ∧
      stepsLeft b.progress ≤ stepsLeft a.progress - (if i = j then 1 else 0) := by
  cases ha : s.inquiries[i]? with
  | none =>
    unfold advance at hb
    rw [ha] at hb
    refine ⟨b, hb, ?_⟩
    rw [if_neg]
    · exact le_rfl
    · rintro rfl
      cases ha.symm.trans hb
  | some a =>
    rw [advance_of_getElem? ha rfl, List.getElem?_set] at hb
    split_ifs at hb with hij hlt
    · subst hij
      obtain rfl := Option.some.inj hb
      exact ⟨a, ha, by rw [if_pos rfl]; exact stepsLeft_step_le _ _ _ _⟩
    · exact ⟨b, hb, by rw [if_neg hij]; exact le_rfl⟩

theorem exists_of_run {schedule : List Nat} {j : Nat} {b : Inquiry}
    (hb : (s.run rules schedule).inquiries[j]? = some b) :
    ∃ a, s.inquiries[j]? = some a ∧
      stepsLeft b.progress ≤ stepsLeft a.progress - schedule.count j := by
  induction schedule generalizing s with
  | nil => exact ⟨b, hb, le_rfl⟩
  | cons i schedule ih =>
    obtain ⟨a', ha', hle'⟩ := ih hb
    obtain ⟨a, ha, hle⟩ := exists_of_advance ha'
    refine ⟨a, ha, ?_⟩
    rw [List.count_cons]
    by_cases hij : i = j
    · simp only [hij, if_pos, beq_self_eq_true] at hle ⊢
      omega
    · simp only [hij, if_false, beq_eq_false_iff_ne.mpr hij] at hle ⊢
      simpa using hle'.trans (Nat.sub_le_sub_right (by simpa using hle) _)

/-- **A question is answered after three steps of its own.** -/
theorem exists_returned {schedule : List Nat} {j : Nat} {b : Inquiry} (hj : 3 ≤ schedule.count j)
    (hb : ((start questions).run rules schedule).inquiries[j]? = some b) :
    ∃ result, b.progress = .returned result := by
  obtain ⟨a, ha, hle⟩ := exists_of_run hb
  have hstart : a.progress = .asked := by
    obtain ⟨q, -, rfl⟩ := List.mem_map.mp (List.mem_of_getElem? ha)
    rfl
  have hzero : stepsLeft b.progress = 0 := by
    rw [hstart, show stepsLeft .asked = 3 from rfl] at hle
    omega
  cases hp : b.progress with
  | returned result => exact ⟨result, rfl⟩
  | _ =>
    rw [hp] at hzero
    cases hzero

end Session

end Steps

/-- **Questions that share a cache.** Questions are asked at the same time, starting with an empty
cache; all that can be reached from their operands is finished, and what has one identity cannot be
told apart. After any schedule of steps, every answer that was returned is the answer without a
cache, a question that has taken three steps has returned one, and each kept answer is the answer to
every question with that pair of identities. When all questions have returned, exactly their pairs
are kept. A question with a missing operand is refused and leaves the cache alone. -/
theorem answers_shared (rules : List Rule) (questions : List Question)
    (hfin : ∀ q ∈ questions, ∀ x, q.Meets x → (q.graph.node x).Finished)
    (hsame : ∀ q ∈ questions, ∀ q' ∈ questions, ∀ x x', q.Meets x → q'.Meets x' →
      (q.graph.node x).id = (q'.graph.node x').id → Indistinguishable q.graph q'.graph x x')
    (schedule : List Nat) :
    ∃ c inquiries,
      (Session.start questions).run rules schedule = ⟨some c, inquiries⟩ ∧
      inquiries.map Inquiry.question = questions ∧
      (∀ a ∈ inquiries, ∀ result, a.progress = .returned result →
        result = a.question.answer rules) ∧
      (∀ i a, inquiries[i]? = some a → 3 ≤ schedule.count i →
        ∃ result, a.progress = .returned result) ∧
      (∀ key equal, c.find? key = some equal → (∃ q ∈ questions, q.key? = some key) ∧
        ∀ q ∈ questions, q.key? = some key → q.answer rules = .ok equal) ∧
      ((∀ a ∈ inquiries, ∃ result, a.progress = .returned result) →
        ∀ key, (c.find? key).isSome = true ↔ ∃ q ∈ questions, q.key? = some key) ∧
      ∀ i a, inquiries[i]? = some a → a.question.key? = none →
        a.question.answer rules = .error .missingOperand ∧
          (Session.advance rules ⟨some c, inquiries⟩ i).cache = some c := by
  have hagree : Session.Agree rules questions := {
    answered := fun q hq key => Question.answer_of_key rules (hfin q hq)
    same := fun q hq q' hq' key =>
      Question.answer_eq (hfin q hq) (hfin q' hq') (hsame q hq q' hq') }
  obtain ⟨c, hsound⟩ := (Session.sound_start rules questions).run hagree schedule
  obtain ⟨hcache, hasked, hkept, hinquiries⟩ := hsound
  generalize hs : (Session.start questions).run rules schedule = s at *
  obtain ⟨cache, inquiries⟩ := s
  obtain rfl : cache = some c := hcache
  refine ⟨c, inquiries, rfl, hasked, fun a ha result hresult => ?_, fun i a ha hcount => ?_,
    fun key equal hlook => ?_, fun hall key => ⟨fun hlook => ?_, ?_⟩,
    fun i a ha hmissing => ⟨?_, ?_⟩⟩
  · exact ((hinquiries a ha).of_returned hresult).1
  · have hb : ((Session.start questions).run rules schedule).inquiries[i]? = some a := by
      rw [hs]
      exact ha
    exact Session.exists_returned hcount hb
  · obtain ⟨q, hq, hkey, hequal⟩ := hkept key equal hlook
    exact ⟨⟨q, hq, hkey⟩, fun q' hq' hkey' =>
      (hagree.same q' hq' q hq key hkey' hkey).trans hequal⟩
  · obtain ⟨equal, hequal⟩ := Option.isSome_iff_exists.mp hlook
    obtain ⟨q, hq, hkey, -⟩ := hkept key equal hequal
    exact ⟨q, hq, hkey⟩
  · rintro ⟨q, hq, hkey⟩
    obtain ⟨a, ha, rfl⟩ := List.mem_map.mp (hasked ▸ hq)
    obtain ⟨result, hresult⟩ := hall a ha
    exact ((hinquiries a ha).of_returned hresult).2 key hkey
  · exact Question.answer_of_missing rules hmissing
  · exact Session.cache_advance_of_missing rfl (hinquiries a (List.mem_of_getElem? ha)) ha hmissing

theorem indistinguishable_of_node_eq {g : Graph} {x y : Ref} (h : g.node x = g.node y) :
    Indistinguishable g g x y := by
  refine ⟨fun a b => g.node a = g.node b, fun a b hab => ?_, h⟩
  rw [← hab]
  exact (Node.match_self _).imp_of_mem fun c _ d _ hcd => congrArg g.node hcd

/-- Two questions that have the same pair, on different descriptors, and one with a missing
operand. -/
def Graph.ringsQuestions : List Question :=
  [⟨rings, some 0, some 3⟩, ⟨rings, none, some 0⟩, ⟨rings, some 2, some 3⟩]

theorem answers_shared_rings :
    ∃ c inquiries,
      (Session.start Graph.ringsQuestions).run Rule.defaults [0, 2, 0, 1, 2, 1, 0, 1, 2] =
        ⟨some c, inquiries⟩ ∧
      (∀ a ∈ inquiries, ∃ result, a.progress = .returned result ∧
        result = a.question.answer Rule.defaults) ∧
      ∀ key, (c.find? key).isSome = true ↔ ∃ q ∈ Graph.ringsQuestions, q.key? = some key := by
  have hmeets : ∀ q ∈ Graph.ringsQuestions, q.graph = Graph.rings ∧
      ∀ x, q.Meets x → x ∈ [0, 1, 2, 3] := by
    simp only [Graph.ringsQuestions, List.forall_mem_cons]
    refine ⟨⟨trivial, ?_⟩, ⟨trivial, ?_⟩, ⟨trivial, ?_⟩, by simp⟩ <;>
      rintro x ⟨o, ho, hx⟩ <;> refine Graph.mem_of_reach_rings ?_ hx <;>
      rcases ho with ho | ho <;> cases ho <;> decide
  have hall : ∀ x ∈ [0, 1, 2, 3], ∀ y ∈ [0, 1, 2, 3],
      (Graph.rings.node x).id = (Graph.rings.node y).id →
        Graph.rings.node x = Graph.rings.node y := by decide
  obtain ⟨c, inquiries, hrun, hasked, hright, hreturned, -, hkeys, -⟩ := answers_shared
    Rule.defaults Graph.ringsQuestions
    (fun q hq x hx => by
      obtain ⟨hg, hmem⟩ := hmeets q hq
      rw [hg]
      exact Graph.finishedFrom_rings (hmem x hx) x .refl)
    (fun q hq q' hq' x x' hx hx' hid => by
      obtain ⟨hg, hmem⟩ := hmeets q hq
      obtain ⟨hg', hmem'⟩ := hmeets q' hq'
      rw [hg, hg'] at hid ⊢
      exact indistinguishable_of_node_eq (hall x (hmem x hx) x' (hmem' x' hx') hid))
    [0, 2, 0, 1, 2, 1, 0, 1, 2]
  have hlength : inquiries.length = 3 := by
    rw [← List.length_map (f := Inquiry.question), hasked]
    rfl
  have hdone : ∀ a ∈ inquiries, ∃ result, a.progress = .returned result := by
    intro a ha
    obtain ⟨i, hi, rfl⟩ := List.getElem_of_mem ha
    refine hreturned i _ (List.getElem?_eq_getElem hi) ?_
    have hcount : ∀ j < 3, 3 ≤ [0, 2, 0, 1, 2, 1, 0, 1, 2].count j := by decide
    exact hcount i (hlength ▸ hi)
  refine ⟨c, inquiries, hrun, fun a ha => ?_, hkeys hdone⟩
  obtain ⟨result, hresult⟩ := hdone a ha
  exact ⟨result, hresult, hright a ha result hresult⟩

end EverEqual
