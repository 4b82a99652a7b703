import EverEqual.Descriptor.Basic
import EverEqual.Comparison.Verdict

/-!
# Rules

A rule looks at two descriptors and either passes, or settles the pair with a verdict, or reduces
the pair to parts that must all be compatible. Rules are tried in order; the first one that does not
pass decides. A rule never recurses itself: following the parts is the work of the walk.

* `Rule.resolve`: what a rule makes of a pair;
* `Rule.defaults`: all rules in order of priority;
* `firstResolution`: the first rule of a list that does not pass, and what it says.
-/

namespace EverEqual

/-- What a rule makes of a pair when it does not pass. -/
inductive Resolution
  /-- The verdict follows from the two descriptors alone. -/
  | settled (verdict : Verdict)
  /-- The pair is as compatible as the least of these parts, taken in order. -/
  | parts (pairs : List (Option Ref × Option Ref))
deriving DecidableEq, Repr, Inhabited

/-- The rules. -/
inductive Rule
  /-- A type that could not be resolved is compatible with every type. -/
  | unknown
  /-- A type is compatible with itself. -/
  | identity
  /-- A nullable type compares like the type it wraps; the left side is unwrapped first. -/
  | nullable
  /-- An enumeration equals only itself. An interface could hold one, so that case is passed. -/
  | enumeration
  /-- Any two numeric types are compatible. -/
  | numeric
  /-- Enumerable types compare by their elements; keyed ones need the same keys on both sides. -/
  | collection
  /-- Tuples of one arity compare by their components. -/
  | tuple
  /-- Instances of one generic type compare by their arguments. -/
  | generic
  /-- A type is compatible with what it derives from or implements, either way round. -/
  | inheritance
  /-- One value may implement two interfaces. -/
  | interface
  /-- The left type declares a conversion or a typed equality toward the right one. -/
  | conversion
deriving DecidableEq, Repr, Inhabited

namespace Rule

/-- The name of a rule. -/
def name : Rule → String
  | unknown => "unknown"
  | identity => "identity"
  | nullable => "nullable"
  | enumeration => "enum"
  | numeric => "numeric"
  | collection => "collection"
  | tuple => "tuple"
  | generic => "generic"
  | inheritance => "inheritance"
  | interface => "interface"
  | conversion => "conversion"

/-- All rules, in order of priority. -/
def defaults : List Rule :=
  [unknown, identity, nullable, enumeration, numeric, collection, tuple, generic, inheritance,
    interface, conversion]

/-- The rule with a given name. -/
def ofName? (s : String) : Option Rule :=
  defaults.find? (·.name = s)

/-- Two lists of components, matched in order. -/
def matched (ls rs : List Ref) : Resolution :=
  .parts ((ls.map some).zip (rs.map some))

/-- Whether two key types count as the same: an unresolved key could be any. -/
def sameKey (left right : Node) : Bool :=
  left.id = right.id || left.kind = .unknown || right.kind = .unknown

/-- What the rule for enumerable types makes of two of them whose elements are known. -/
def compareElements (g : Graph) (left right : Node) : Option Resolution :=
  match left.key, right.key with
  | none, none => some (.parts [(left.element, right.element)])
  | some l, some r =>
    if sameKey (g.node l) (g.node r) then some (.parts [(left.element, right.element)])
    else some (.settled .incompatible)
  | _, _ => none

/-- What a rule makes of a pair; `none` if it passes. -/
def resolve (g : Graph) (l r : Ref) (rule : Rule) : Option Resolution :=
  let left := g.node l
  let right := g.node r
  match rule with
  | unknown =>
    if left.kind = .unknown || right.kind = .unknown then some (.settled .compatible) else none
  | identity => if left.id = right.id then some (.settled .compatible) else none
  | nullable =>
    if left.kind = .nullable then some (.parts [(left.underlying, some r)])
    else if right.kind = .nullable then some (.parts [(some l, right.underlying)])
    else none
  | enumeration =>
    if left.kind ≠ .enumeration && right.kind ≠ .enumeration then none
    else if left.kind = .interface || right.kind = .interface then none
    else if left.id = right.id then some (.settled .compatible)
    else some (.settled .incompatible)
  | numeric =>
    if left.kind = .numeric && right.kind = .numeric then some (.settled .compatible) else none
  | collection =>
    if !left.enumerable || !right.enumerable then none
    else if left.nonGeneric || right.nonGeneric then some (.settled .compatible)
    else compareElements g left right
  | tuple =>
    if left.kind ≠ .tuple || right.kind ≠ .tuple then none
    else if left.tuple.length ≠ right.tuple.length then some (.settled .incompatible)
    else some (matched left.tuple right.tuple)
  | generic =>
    if left.origin = "" || left.origin ≠ right.origin then none
    else if left.typeArgs.length ≠ right.typeArgs.length then none
    else some (matched left.typeArgs right.typeArgs)
  | inheritance =>
    if left.hasAncestor right.id || right.hasAncestor left.id then some (.settled .compatible)
    else none
  | interface =>
    if left.kind = .interface && right.kind = .interface then some (.settled .compatible) else none
  | conversion =>
    if (left.convertsTo right.id).isSome || left.equatableTo right.id then
      some (.settled .compatible)
    else none

end Rule

/-- The first rule of a list that does not pass on a pair, and what it makes of the pair. -/
def firstResolution (g : Graph) (rules : List Rule) (l r : Ref) : Option (Rule × Resolution) :=
  rules.findSome? fun rule => (rule.resolve g l r).map fun resolution => (rule, resolution)

end EverEqual
