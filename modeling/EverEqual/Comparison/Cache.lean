import EverEqual.Comparison.Walk
import Std.Data.ExtTreeMap

/-!
# Comparing with a cache

The question asked of two descriptors is whether their verdict is compatible. A cache remembers
answers by the ordered pair of identities. Only answers to whole questions are kept: the verdict on
a part can rest on the pairs that surround it.

* `ask`, `canBeEqual`: the answer without a cache;
* `askCached`: the answer by way of a cache, and the cache afterwards.
-/

namespace EverEqual

/-- Why two operands have no answer. -/
inductive CompareError
  /-- An operand is missing. -/
  | missingOperand
  /-- The walk had no verdict. -/
  | fault (f : Fault)
deriving DecidableEq, Repr, Inhabited

/-- The text of a comparison error. -/
def CompareError.message : CompareError → String
  | missingOperand => "can be equal: nil type descriptor"
  | fault f => f.message

/-- The answer on two descriptors, with the pairs that were resolved on the way to it. -/
structure Answer where
  equal : Bool
  steps : List Step
deriving DecidableEq, Repr, Inhabited

/-- The answer whether a value of the left type could equal a value of the right one. -/
def ask (g : Graph) (rules : List Rule) : Option Ref → Option Ref → Except CompareError Answer
  | some l, some r =>
    match trace g rules (some l) (some r) with
    | .ok (v, steps) => .ok ⟨v = .compatible, steps⟩
    | .error f => .error (.fault f)
  | _, _ => .error .missingOperand

/-- Whether a value of the left type could equal a value of the right one. -/
def canBeEqual (g : Graph) (rules : List Rule) (l r : Option Ref) : Except CompareError Bool :=
  Answer.equal <$> ask g rules l r

/-- Answers by ordered pairs of identities. -/
structure Cache where
  answers : Std.ExtTreeMap IdentityPair Bool := {}

namespace Cache

/-- The answer kept for a pair. -/
def find? (c : Cache) (p : IdentityPair) : Option Bool :=
  c.answers[p]?

/-- The cache with an answer kept. -/
def store (c : Cache) (p : IdentityPair) (answer : Bool) : Cache :=
  ⟨c.answers.insert p answer⟩

/-- The number of answers kept. -/
def size (c : Cache) : Nat := c.answers.size

theorem find?_store (c : Cache) (p q : IdentityPair) (a : Bool) :
    (c.store p a).find? q = if q = p then some a else c.find? q := by
  simp only [store, find?, Std.ExtTreeMap.getElem?_insert, Std.compare_eq_iff_eq]
  by_cases h : p = q
  · simp [h]
  · simp [h, Ne.symm h]

/-- The ordered pair by which the answer on two descriptors is kept. -/
def key (g : Graph) (l r : Ref) : IdentityPair :=
  ⟨(g.node l).id, (g.node r).id⟩

end Cache

/-- The answer by way of a cache, if there is one, and the cache afterwards. A kept answer needs no
walk; a new one is kept. -/
def askCached (cache : Option Cache) (g : Graph) (rules : List Rule) :
    Option Ref → Option Ref → Except CompareError (Answer × Option Cache)
  | some l, some r =>
    match cache with
    | none => return (← ask g rules (some l) (some r), none)
    | some c =>
      match c.find? (Cache.key g l r) with
      | some equal => .ok (⟨equal, []⟩, some c)
      | none => do
        let a ← ask g rules (some l) (some r)
        return (a, some (c.store (Cache.key g l r) a.equal))
  | _, _ => .error .missingOperand

end EverEqual
