import EverEqual.Comparison.Cache

/-!
# Questions asked at the same time

Several questions may be asked at the same time and share one cache. Asking a question takes up to
three steps: the cache is looked up, the answer is found by a walk, and the answer is kept. Between
two steps of one question, any number of steps of others may be taken; a single step is never
interrupted.

* `Question`, `Question.step`: a question, and what one step of asking it does;
* `Session.advance`, `Session.run`: one step of one of the questions, and a schedule of steps;
* `Question.ask_eq`: the steps of a question in a row come to asking it by way of the cache.
-/

namespace EverEqual

/-- Whether two descriptors of a graph could be equal. Either may be missing. -/
structure Question where
  graph : Graph
  left : Option Ref
  right : Option Ref
deriving DecidableEq, Repr, Inhabited

/-- How far the asking of a question has come. -/
inductive Progress
  /-- Nothing has been looked at yet. -/
  | asked
  /-- The cache held no answer for the pair. -/
  | missed (key : IdentityPair)
  /-- The answer has been found by a walk and is kept next. -/
  | found (key : IdentityPair) (equal : Bool)
  | returned (result : Except CompareError Bool)

namespace Cache

/-- The answer that a cache holds for a pair, if there is a cache. -/
def look (cache : Option Cache) (key : IdentityPair) : Option Bool :=
  cache.bind (·.find? key)

/-- A cache with an answer kept, if there is a cache. -/
def keep (cache : Option Cache) (key : IdentityPair) (equal : Bool) : Option Cache :=
  cache.map (·.store key equal)

end Cache

namespace Question

/-- The answer without a cache. -/
def answer (rules : List Rule) (q : Question) : Except CompareError Bool :=
  canBeEqual q.graph rules q.left q.right

/-- The pair by which the answer is kept; there is none if an operand is missing. -/
def key? (q : Question) : Option IdentityPair :=
  match q.left, q.right with
  | some l, some r => some (Cache.key q.graph l r)
  | _, _ => none

/-- One step of asking a question. -/
def step (rules : List Rule) (q : Question) (cache : Option Cache) :
    Progress → Progress × Option Cache
  | .asked =>
    match q.key? with
    | none => (.returned (.error .missingOperand), cache)
    | some key =>
      match Cache.look cache key with
      | some equal => (.returned (.ok equal), cache)
      | none => (.missed key, cache)
  | .missed key =>
    match q.answer rules with
    | .ok equal => (.found key equal, cache)
    | .error e => (.returned (.error e), cache)
  | .found key equal => (.returned (.ok equal), Cache.keep cache key equal)
  | .returned result => (.returned result, cache)

section

variable {rules : List Rule} {q : Question} {cache : Option Cache} {key : IdentityPair}
variable {equal : Bool}

theorem step_of_missing (h : q.key? = none) :
    q.step rules cache .asked = (.returned (.error .missingOperand), cache) := by
  simp only [step, h]

theorem step_of_kept (h : q.key? = some key) (hlook : Cache.look cache key = some equal) :
    q.step rules cache .asked = (.returned (.ok equal), cache) := by
  simp only [step, h, hlook]

theorem step_of_not_kept (h : q.key? = some key) (hlook : Cache.look cache key = none) :
    q.step rules cache .asked = (.missed key, cache) := by
  simp only [step, h, hlook]

theorem step_of_answer (h : q.answer rules = .ok equal) :
    q.step rules cache (.missed key) = (.found key equal, cache) := by
  simp only [step, h]

theorem step_of_error {e : CompareError} (h : q.answer rules = .error e) :
    q.step rules cache (.missed key) = (.returned (.error e), cache) := by
  simp only [step, h]

end

/-- Three steps in a row. -/
def ask (rules : List Rule) (q : Question) (cache : Option Cache) : Progress × Option Cache :=
  let (p, cache) := q.step rules cache .asked
  let (p, cache) := q.step rules cache p
  q.step rules cache p

/-- **The steps of a question in a row** come to asking it by way of the cache. -/
theorem ask_eq (rules : List Rule) (q : Question) (cache : Option Cache) :
    q.ask rules cache =
      match askCached cache q.graph rules q.left q.right with
      | .ok (a, cache') => (.returned (.ok a.equal), cache')
      | .error e => (.returned (.error e), cache) := by
  obtain ⟨g, left, right⟩ := q
  cases left with
  | none => rfl
  | some l =>
    cases right with
    | none => rfl
    | some r =>
      cases cache with
      | none =>
        simp only [ask, step, key?, Cache.look, Cache.keep, answer, canBeEqual, askCached,
          Option.bind_none]
        cases EverEqual.ask g rules (some l) (some r) <;> rfl
      | some c =>
        simp only [ask, step, key?, Cache.look, Cache.keep, answer, canBeEqual, askCached,
          Option.bind_some]
        cases c.find? (Cache.key g l r) with
        | some equal => rfl
        | none => cases EverEqual.ask g rules (some l) (some r) <;> rfl

end Question

/-- A question that is being asked. -/
structure Inquiry where
  question : Question
  progress : Progress := .asked

/-- Questions that are being asked, with the cache that they share. -/
structure Session where
  cache : Option Cache
  inquiries : List Inquiry

namespace Session

/-- Questions that nobody has looked at yet, and an empty cache. -/
def start (questions : List Question) : Session :=
  ⟨some {}, questions.map ({ question := · })⟩

/-- The next step of the question at a position. -/
def advance (rules : List Rule) (s : Session) (i : Nat) : Session :=
  match s.inquiries[i]? with
  | none => s
  | some a =>
    let (progress, cache) := a.question.step rules s.cache a.progress
    ⟨cache, s.inquiries.set i { a with progress }⟩

/-- The steps of a schedule, each of the question at the position that it names. -/
def run (rules : List Rule) (s : Session) (schedule : List Nat) : Session :=
  schedule.foldl (advance rules) s

end Session

end EverEqual
