import EverEqual.Descriptor.Kind
import EverEqual.Descriptor.IdentitySet

/-!
# Descriptors

A descriptor summarises one type: its kind, its identity, the descriptors of its component types
and the capabilities declared for it. Types may refer to themselves, so descriptors are the nodes
of a graph and name each other by their place in it. Two nodes may carry the same identity; a
reference tells them apart.

* `Node`, `Graph`: the data, with `Graph.node` as the view of a graph;
* `Graph.add`, `Graph.put`: the two ways a graph changes, and what `node` is afterwards;
* `Node.enumerable`, `Node.nonGeneric`, `Node.part`: what is read off a node;
* `Node.addAncestor`: a further ancestor, which is never the type itself.
-/

namespace EverEqual

/-- The place of a descriptor in its graph. -/
abbrev Ref := Nat

/-- One descriptor. -/
structure Node where
  kind : Kind
  id : Identity
  /-- The type of the elements that values of the type yield. -/
  element : Option Ref := none
  /-- The type of the keys of a keyed collection. -/
  key : Option Ref := none
  /-- The type that a nullable type wraps. -/
  underlying : Option Ref := none
  /-- The component types of a tuple. -/
  tuple : List Ref := []
  /-- The generic declaration that the type instantiates; empty if there is none. -/
  origin : Identity := ""
  typeArgs : List Ref := []
  /-- The declared conversions, by the identity of their target. -/
  conversions : IdentityMap ConversionKind := []
  /-- The identities toward which a typed equality is declared. -/
  equatable : IdentitySet := []
  /-- The identities of base types and implemented interfaces. -/
  ancestors : IdentitySet := []
  /-- Whether the descriptor has been filled in. -/
  completed : Bool := false
deriving DecidableEq, Repr, Inhabited

namespace Node

/-- Whether values of the type yield elements. -/
def enumerable (n : Node) : Bool :=
  n.kind = .array || n.kind = .collection || n.element.isSome

/-- Whether values of the type yield elements of a type that is not known. -/
def nonGeneric (n : Node) : Bool :=
  n.enumerable && n.element.isNone

/-- The conversion declared toward an identity. -/
def convertsTo (n : Node) (target : Identity) : Option ConversionKind :=
  n.conversions.find? target

/-- Whether a typed equality is declared toward an identity. -/
def equatableTo (n : Node) (target : Identity) : Bool :=
  n.equatable.contains target

/-- Whether an identity is that of a base type or an implemented interface. -/
def hasAncestor (n : Node) (id : Identity) : Bool :=
  n.ancestors.contains id

/-- The node with an ancestor recorded. A type is no ancestor of itself. -/
def addAncestor (n : Node) (id : Identity) : Node :=
  if id = n.id then n else { n with ancestors := n.ancestors.insert id }

@[simp] theorem id_addAncestor (n : Node) (id : Identity) : (n.addAncestor id).id = n.id := by
  unfold addAncestor
  split <;> rfl

theorem mem_ancestors_addAncestor {n : Node} {a id : Identity} :
    a ∈ (n.addAncestor id).ancestors ↔ (a = id ∧ id ≠ n.id) ∨ a ∈ n.ancestors := by
  unfold addAncestor
  split
  · next h => simp [h]
  · next h => simp [h]

/-- The descriptors that a node refers to: element, key, wrapped type, components, arguments. -/
def children (n : Node) : List Ref :=
  n.element.toList ++ n.key.toList ++ n.underlying.toList ++ n.tuple ++ n.typeArgs

/-- The text by which a descriptor is shown. -/
def display (n : Node) : String :=
  n.id ++ " (" ++ n.kind.name ++ ")"

end Node

/-- An access that has no answer. -/
inductive AccessError
  /-- A descriptor was needed where there is none. -/
  | absent
  /-- A position outside a list of the given length. -/
  | outOfRange (index : Int) (length : Nat)
deriving DecidableEq, Repr, Inhabited

namespace AccessError

/-- The text of an access error. A negative position is reported without the length. -/
def message : AccessError → String
  | absent => "runtime error: invalid memory address or nil pointer dereference"
  | outOfRange i n =>
    let text := "runtime error: index out of range [" ++ toString i ++ "]"
    if i < 0 then text else text ++ " with length " ++ toString n

end AccessError

/-- The reference at a position of a list of components or arguments. -/
def Node.part (refs : List Ref) (i : Int) : Except AccessError Ref :=
  if i < 0 then .error (.outOfRange i refs.length)
  else match refs[i.toNat]? with
    | some r => .ok r
    | none => .error (.outOfRange i refs.length)

/-- A finite graph of descriptors. -/
structure Graph where
  nodes : Array Node := #[]
deriving DecidableEq, Repr, Inhabited

namespace Graph

/-- The number of descriptors. -/
def size (g : Graph) : Nat := g.nodes.size

/-- The descriptor at a reference. Outside the graph it is an unresolved type without a name. -/
def node (g : Graph) (r : Ref) : Node :=
  (g.nodes[r]?).getD { kind := .unknown, id := "" }

/-- The graph with a descriptor added, and the reference to it. -/
def add (g : Graph) (n : Node) : Graph × Ref :=
  (⟨g.nodes.push n⟩, g.size)

/-- The graph with the descriptor at a reference replaced. -/
def put (g : Graph) (r : Ref) (n : Node) : Graph :=
  ⟨g.nodes.setIfInBounds r n⟩

@[simp] theorem size_add (g : Graph) (n : Node) : (g.add n).1.size = g.size + 1 := by
  simp [add, size]

@[simp] theorem size_put (g : Graph) (r : Ref) (n : Node) : (g.put r n).size = g.size := by
  simp [put, size]

theorem node_add (g : Graph) (n : Node) (r : Ref) :
    (g.add n).1.node r = if r = g.size then n else g.node r := by
  simp only [add, node, size, Array.getElem?_push]
  split <;> simp_all

theorem node_put (g : Graph) (r s : Ref) (n : Node) :
    (g.put r n).node s = if s = r ∧ r < g.size then n else g.node s := by
  simp only [put, node, size, Array.getElem?_setIfInBounds]
  by_cases h : r = s
  · subst h
    by_cases hr : r < g.nodes.size
    · simp [hr]
    · simp [hr]
  · simp [h, Ne.symm h]

/-- The text by which an operand is shown, which may be missing. -/
def display (g : Graph) : Option Ref → String
  | none => "<nil>"
  | some r => (g.node r).display

/-- The descriptor of an operand that has to be there. -/
def require (g : Graph) : Option Ref → Except AccessError Node
  | none => .error .absent
  | some r => .ok (g.node r)

end Graph

end EverEqual
