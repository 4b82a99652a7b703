import EverEqual.Check.Checker
import EverEqual.Comparison.Session

/-!
# Checks at the same time

The pairs of a list are checked by workers, one for each pair. Workers are launched in the order of
the list, and only so many may be at work at the same time. A worker looks whether the checks were
called off, describes both operands, asks one question and then the other by way of the cache that
all workers share, writes its finding into the slot of its pair, and returns. Between two steps of
one worker, any number of steps of others may be taken; a single step is never interrupted. The
checks can be called off at any moment, and the first failure of a worker calls them off as well.

* `Work`, `Work.step`: how far a worker has come, and what its next step does;
* `Pool.forJobs`: a pool before the first move;
* `Pool.move?`, `Pool.run?`: one move of a pool, and a schedule of moves;
* `Pool.outcome?`: the findings or the first failure, once all workers have returned.
-/

namespace EverEqual

/-- The descriptors of both operands. -/
structure Described where
  graph : Graph
  left : Ref
  right : Ref
deriving DecidableEq, Repr, Inhabited

namespace Described

variable (d : Described)

/-- Whether the left operand could equal the right one. -/
def forth : Question := ⟨d.graph, some d.left, some d.right⟩

/-- Whether the right operand could equal the left one. -/
def back : Question := ⟨d.graph, some d.right, some d.left⟩

/-- The finding with the answers to both questions. -/
def finding (options : CheckOptions) (p : Operands) (forward reverse : Bool) : Finding where
  left := p.leftText
  right := p.rightText
  forward := forward
  reverse := reverse
  leftKind := (d.graph.node d.left).kind
  rightKind := (d.graph.node d.right).kind
  directional := options.directional

end Described

/-- How far a worker has come. -/
inductive Work
  | launched
  /-- The checks had not been called off when the worker looked. -/
  | begun
  /-- The operands are described, and the first question is being asked. -/
  | forth (d : Described) (progress : Progress)
  /-- The first question is answered, and the second one is being asked. -/
  | back (d : Described) (forward : Bool) (progress : Progress)
  /-- Both questions are answered, and the finding is written next. -/
  | found (f : Finding)
  /-- The worker has returned, with an error if it failed. -/
  | returned (failure : Option CheckError)

namespace Work

/-- Why a worker failed, if it did. -/
def failure? : Work → Option CheckError
  | returned failure => failure
  | _ => none

/-- The finding that is written next. -/
def finding? : Work → Option Finding
  | found f => some f
  | _ => none

def isReturned : Work → Bool
  | returned _ => true
  | _ => false

/-- A worker that has the result of a question goes on with the answer, or fails with the error. -/
def conclude (next : Bool → Work) (fail : CompareError → CheckError) :
    Except CompareError Bool → Work
  | .ok equal => next equal
  | .error e => returned (some (fail e))

/-- A worker after one step of a question; it waits for the next step until there is a result. -/
def resume (q : Question) (cache : Option Cache) (progress : Progress) (wait : Progress → Work)
    (next : Bool → Work) (fail : CompareError → CheckError) : Work × Option Cache :=
  match q.step Rule.defaults cache progress with
  | (.returned result, cache) => (conclude next fail result, cache)
  | (progress, cache) => (wait progress, cache)

/-- One step of a worker on its pair. -/
def step (w : World) (options : CheckOptions) (p : Operands) (canceled : Bool)
    (cache : Option Cache) : Work → Work × Option Cache
  | launched => (if canceled then returned (some .canceled) else begun, cache)
  | begun =>
    match p.describe w with
    | .ok (l, r, g) => (forth ⟨g, l, r⟩ .asked, cache)
    | .error e => (returned (some (.describe e)), cache)
  | forth d progress =>
    resume d.forth cache progress (forth d) (back d · .asked) (.compare p.leftText p.rightText)
  | back d forward progress =>
    resume d.back cache progress (back d forward) (found <| d.finding options p forward ·)
      (.compare p.rightText p.leftText)
  | found _ => (returned none, cache)
  | returned failure => (returned failure, cache)

end Work

/-- A worker on a pair. -/
structure Worker where
  pair : Operands
  work : Work := .launched

/-- Checks at the same time. -/
structure Pool where
  /-- How many workers may be at work at the same time. -/
  limit : Nat
  cache : Option Cache
  /-- Whether the checks were called off. -/
  canceled : Bool := false
  /-- The first failure of a worker. -/
  failure : Option CheckError := none
  /-- The workers that have been launched, in the order of their pairs. -/
  workers : List Worker := []
  /-- The pairs whose workers have not been launched yet. -/
  queued : List Operands
  /-- A slot for the finding on each pair; until it is written, the finding there means nothing. -/
  slots : List Finding

/-- What can happen next in a pool. -/
inductive Move
  /-- The next worker is launched. -/
  | launch
  /-- The worker at a position takes a step. -/
  | step (i : Nat)
  /-- The checks are called off. -/
  | cancel
deriving DecidableEq, Repr

namespace Pool

variable (w : World) (options : CheckOptions)

/-- No worker has been launched yet. -/
def start (limit : Nat) (cache : Option Cache) (ps : List Operands) : Pool where
  limit := limit
  cache := cache
  queued := ps
  slots := List.replicate ps.length default

/-- How many workers may be at work at the same time: as many as there are jobs, or processors if
no jobs are given, but no more than there are pairs. -/
def limitFor (jobs : Int) (processors pairs : Nat) : Nat :=
  min (if jobs ≤ 0 then processors else jobs.toNat) pairs

/-- A pool for a list of pairs, with a number of jobs. -/
def forJobs (jobs : Int) (processors : Nat) (cache : Option Cache) (ps : List Operands) : Pool :=
  start (limitFor jobs processors ps.length) cache ps

/-- The number of workers that are at work. -/
def busy (s : Pool) : Nat := s.workers.countP (!·.work.isReturned)

/-- The pool after a step of the worker at a position. -/
def advance (s : Pool) (i : Nat) (k : Worker) : Pool :=
  let (work, cache) := k.work.step w options k.pair s.canceled s.cache
  { s with
    cache
    canceled := s.canceled || work.failure?.isSome
    failure := s.failure.or work.failure?
    workers := s.workers.set i { k with work }
    slots := (k.work.finding?.map (s.slots.set i ·)).getD s.slots }

/-- The pool after a move, if the move is possible. -/
def move? (s : Pool) : Move → Option Pool
  | .launch =>
    match s.queued with
    | [] => none
    | p :: rest =>
      if s.busy < s.limit then
        some { s with workers := s.workers ++ [{ pair := p }], queued := rest }
      else none
  | .step i => do
    let k ← s.workers[i]?
    if k.work.isReturned then none else some (s.advance w options i k)
  | .cancel => if s.canceled then none else some { s with canceled := true }

/-- The pool after the moves of a schedule, if each is possible in its turn. -/
def run? : Pool → List Move → Option Pool
  | s, [] => some s
  | s, m :: ms => (s.move? w options m).bind (run? · ms)

/-- The findings or the first failure, once all workers have returned. -/
def outcome? (s : Pool) : Option (Except CheckError (List Finding)) :=
  if s.queued.isEmpty && s.workers.all (·.work.isReturned) then
    some (match s.failure with
      | some e => .error e
      | none => .ok s.slots)
  else none

end Pool

end EverEqual
