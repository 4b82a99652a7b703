import EverEqual.Descriptor.Basic

/-!
# Outlines

An outline lists the descriptors that can be reached from one descriptor, in the order in which a
depth-first search meets them, and writes references as positions in that list. So it shows sharing
and cycles, and does not depend on where in its graph a descriptor stands.

* `Graph.reachable`: the order of the search;
* `Graph.outline`: the list of entries.
-/

namespace EverEqual

/-- A descriptor with its references written as positions. -/
structure Outline where
  id : Identity
  kind : Kind
  element : Option Nat
  key : Option Nat
  underlying : Option Nat
  tuple : List Nat
  origin : Identity
  typeArgs : List Nat
  conversions : IdentityMap ConversionKind
  equatable : IdentitySet
  ancestors : IdentitySet
  enumerable : Bool
  nonGeneric : Bool
  completed : Bool
deriving DecidableEq, Repr, Inhabited

namespace Graph

/-- The number of references in a graph. -/
def references (g : Graph) : Nat :=
  g.nodes.foldl (fun k n => k + n.children.length) 0

/-- Depth-first search: the first open reference is visited, unless it is found already, and its
children are opened before the rest. -/
def search (g : Graph) : Nat → List Ref → Array Ref → Array Ref
  | 0, _, found => found
  | _, [], found => found
  | fuel + 1, r :: rest, found =>
    if found.contains r then g.search fuel rest found
    else g.search fuel ((g.node r).children ++ rest) (found.push r)

/-- The descriptors reachable from one, in the order in which the search meets them. Every
reference of the graph is opened at most once, which bounds the search. -/
def reachable (g : Graph) (r : Ref) : List Ref :=
  (g.search (g.references + 1) [r] #[]).toList

/-- The entry of one descriptor. Of its typed equalities it shows those toward the given
identities. -/
def entry (g : Graph) (order : List Ref) (shown : List Identity) (r : Ref) : Outline :=
  let n := g.node r
  let position (r : Ref) : Nat := order.idxOf r
  { id := n.id
    kind := n.kind
    element := n.element.map position
    key := n.key.map position
    underlying := n.underlying.map position
    tuple := n.tuple.map position
    origin := n.origin
    typeArgs := n.typeArgs.map position
    conversions := n.conversions
    equatable := n.equatable.filter shown.contains
    ancestors := n.ancestors
    enumerable := n.enumerable
    nonGeneric := n.nonGeneric
    completed := n.completed }

/-- The outline of a descriptor. Typed equalities are shown toward the identities asked for and
those of the listed descriptors. -/
def outline (g : Graph) (r : Ref) (asked : List Identity) : List Outline :=
  let order := g.reachable r
  let shown := asked ++ order.map fun r => (g.node r).id
  order.map (g.entry order shown)

end Graph

end EverEqual
