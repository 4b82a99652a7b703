import EverEqual.Comparison.Guard
import EverEqual.Comparison.Rule

/-!
# The walk

Comparing two descriptors walks along the parts that the rules ask for. The guard holds the pairs on
the way; a pair that is met again is assumed, which ends the walk on cyclic graphs. What happens on
the way is reported to an observer, so that one definition gives both the verdict and the trace.

* `Walker.compare`: the walk from one pair, with a bound on its depth;
* `Walker.run`: the walk from an empty guard, with a bound that the graph gives;
* `trace`, `verdict`: the resolved pairs with the verdict, and the verdict alone.

A guard without repetition holds at most one pair for each two identities of the graph, so the walk
is never deeper than `depthBound`.
-/

namespace EverEqual

/-- Why a walk has no verdict. -/
inductive Fault
  /-- A descriptor was needed where there is none. -/
  | absent
  /-- The walk went deeper than its bound. -/
  | tooDeep
deriving DecidableEq, Repr, Inhabited

/-- The text of a fault. -/
def Fault.message : Fault → String
  | absent => AccessError.absent.message
  | tooDeep => "comparison too deep"

/-- A pair that a rule resolved: how deep it was, by which rule, and the verdict. -/
structure Step where
  depth : Nat
  rule : Rule
  left : Identity
  right : Identity
  verdict : Verdict
deriving DecidableEq, Repr, Inhabited

/-- What happens during a walk. -/
inductive Event
  /-- A pair was entered; the guard holds it. -/
  | entered (guard : Guard)
  /-- A rule resolved the pair entered last. -/
  | resolved (step : Step)
  /-- A pair was left; the guard no longer holds it. -/
  | left (guard : Guard)

/-- What is fixed during a walk: the graph, the rules and the observer. -/
structure Walker (σ : Type) where
  graph : Graph
  rules : List Rule
  observe : Event → σ → σ

/-- What changes during a walk: the guard and what the observer has gathered. -/
structure Walk (σ : Type) where
  guard : Guard
  gathered : σ

/-- A computation on a walk. -/
abbrev WalkM (σ : Type) := StateT (Walk σ) (Except Fault)

namespace Walker

variable {σ : Type}

/-- Enters a pair. -/
def enter (w : Walker σ) (p : IdentityPair) : WalkM σ Unit :=
  modify fun s =>
    let guard := s.guard.push p
    ⟨guard, w.observe (.entered guard) s.gathered⟩

/-- Leaves the pair that was entered last. -/
def leave (w : Walker σ) : WalkM σ Unit :=
  modify fun s =>
    let guard := s.guard.pop
    ⟨guard, w.observe (.left guard) s.gathered⟩

/-- Reports that a rule resolved the pair that was entered last. -/
def report (w : Walker σ) (rule : Rule) (p : IdentityPair) (v : Verdict) : WalkM σ Unit :=
  modify fun s =>
    let step : Step := ⟨s.guard.depth, rule, p.left, p.right, v⟩
    { s with gathered := w.observe (.resolved step) s.gathered }

/-- The least verdict of a list of parts and a verdict so far. The parts after one that is
incompatible are not looked at. -/
def conjunction (compare : Option Ref → Option Ref → WalkM σ Verdict) :
    List (Option Ref × Option Ref) → Verdict → WalkM σ Verdict
  | [], v => pure v
  | (l, r) :: rest, v => do
    let v := v.and (← compare l r)
    if v = .incompatible then pure v else conjunction compare rest v

/-- The verdict on a pair that has been entered. -/
def decide (w : Walker σ) (compare : Option Ref → Option Ref → WalkM σ Verdict) (l r : Ref)
    (p : IdentityPair) : WalkM σ Verdict :=
  match firstResolution w.graph w.rules l r with
  | none => pure .incompatible
  | some (rule, .settled v) => do
    w.report rule p v
    pure v
  | some (rule, .parts pairs) => do
    let v ← conjunction compare pairs .compatible
    w.report rule p v
    pure v

/-- The walk from one pair. It goes at most as deep as the first argument says. -/
def compare (w : Walker σ) : Nat → Option Ref → Option Ref → WalkM σ Verdict
  | 0, _, _ => throw .tooDeep
  | _ + 1, none, _ => throw .absent
  | _ + 1, _, none => throw .absent
  | fuel + 1, some l, some r => do
    let p : IdentityPair := ⟨(w.graph.node l).id, (w.graph.node r).id⟩
    if (← get).guard.active p then pure .assumed
    else do
      w.enter p
      let v ← w.decide (compare w fuel) l r p
      w.leave
      pure v

end Walker

/-- More than the number of pairs of identities in a graph. -/
def depthBound (g : Graph) : Nat :=
  (g.size + 1) * (g.size + 1) + 1

/-- The walk from an empty guard: the verdict and what was gathered. -/
def Walker.run {σ : Type} (w : Walker σ) (start : σ) (l r : Option Ref) :
    Except Fault (Verdict × σ) := do
  let (v, s) ← (w.compare (depthBound w.graph) l r).run ⟨{}, start⟩
  pure (v, s.gathered)

/-- The observer that gathers the resolved pairs, the last one first. -/
def tracing : Event → List Step → List Step
  | .resolved step, steps => step :: steps
  | _, steps => steps

/-- The verdict on two descriptors with the pairs that were resolved, in the order of resolving. -/
def trace (g : Graph) (rules : List Rule) (l r : Option Ref) :
    Except Fault (Verdict × List Step) := do
  let (v, steps) ← Walker.run ⟨g, rules, tracing⟩ [] l r
  return (v, steps.reverse)

/-- The verdict on two descriptors. -/
def verdict (g : Graph) (rules : List Rule) (l r : Option Ref) : Except Fault Verdict :=
  (·.1) <$> trace g rules l r

end EverEqual
