import EverEqual.Descriptor.Attribute

/-!
# Blueprints

A blueprint says how a descriptor is made in one go. Some blueprints name the type; the others
derive the identity from the identities of the parts: `*T`, `[]T`, `map[K]V` and `(T, U)`.

* `Graph.construct`: the graph with the descriptor of a blueprint, or the defect;
* `Graph.wrap`: one blueprint applied over and over.
-/

namespace EverEqual

/-- How a descriptor is made in one go. -/
inductive Blueprint
  /-- A type that could not be resolved, by the name it was asked for. -/
  | unknown (name : String)
  /-- A type given by its kind, its identity and what is said about it. -/
  | plain (kind : Kind) (id : Identity) (attributes : List Attribute)
  | nullable (of : Option Ref)
  /-- An unnamed array; without an element type it is not generic. -/
  | array (element : Option Ref)
  /-- A named collection; without an element type it is not generic. -/
  | collection (id : Identity) (element : Option Ref) (attributes : List Attribute)
  | map (key element : Option Ref)
  | tuple (parts : List (Option Ref))
  | namedTuple (id : Identity) (parts : List (Option Ref))
deriving DecidableEq, Repr, Inhabited

namespace Graph

/-- The graph with a completed descriptor added, unless an attribute is defective. -/
def addFilled (g : Graph) (kind : Kind) (id : Identity) (as : List Attribute) :
    Except Defect (Graph × Ref) :=
  match Node.fill g { kind, id } as with
  | (n, none) => .ok (g.add n)
  | (_, some d) => .error d

/-- The identity of an operand that has to be there. -/
def identity (g : Graph) (role : Role) : Option Ref → Except Defect Identity
  | some r => .ok (g.node r).id
  | none => .error (.missing role)

/-- The graph with the descriptor of a blueprint. A defect leaves no trace. -/
def construct (g : Graph) : Blueprint → Except Defect (Graph × Ref)
  | .unknown name => g.addFilled .unknown ("<error " ++ name ++ ">") []
  | .plain kind id as => g.addFilled kind id as
  | .nullable of => do
    let id ← g.identity .nullableUnderlying of
    g.addFilled .nullable ("*" ++ id) [.underlying of]
  | .array none => g.addFilled .array "[]any" []
  | .array (some r) => g.addFilled .array ("[]" ++ (g.node r).id) [.element (some r)]
  | .collection id none as => g.addFilled .collection id as
  | .collection id (some r) as => g.addFilled .collection id (.element (some r) :: as)
  | .map key element => do
    let k ← g.identity .mapKey key
    let e ← g.identity .mapElement element
    g.addFilled .collection ("map[" ++ k ++ "]" ++ e) [.key key, .element element]
  | .tuple parts => do
    let ids ← parts.mapM (g.identity .tupleElement)
    g.addFilled .tuple ("(" ++ ", ".intercalate ids ++ ")") [.tuple parts]
  | .namedTuple id parts => g.addFilled .tuple id [.tuple parts]

/-- The graph after a blueprint has been applied a number of times, each time to the last result. -/
def wrap (g : Graph) (blueprint : Option Ref → Blueprint) :
    Nat → Option Ref → Except Defect (Graph × Option Ref)
  | 0, d => .ok (g, d)
  | n + 1, d => do
    let (g, r) ← g.construct (blueprint d)
    g.wrap blueprint n (some r)

end Graph

end EverEqual
