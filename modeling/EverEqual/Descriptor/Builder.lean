import EverEqual.Descriptor.Attribute

/-!
# Builders

A builder makes descriptors that refer to themselves, directly or through each other. A descriptor
is declared first, which is enough to refer to it, and completed once later. The builder remembers
what it has declared and not yet tried to complete.

* `Builder.declare`, `Builder.complete`: the two steps;
* `Graph.recursive`: both steps for a single descriptor.
-/

namespace EverEqual

/-- The descriptors that were declared and that nobody has tried to complete yet. -/
structure Builder where
  pending : List Ref := []
deriving DecidableEq, Repr, Inhabited

namespace Builder

/-- Reserves a descriptor with a fixed identity and kind. -/
def declare (b : Builder) (g : Graph) (id : Identity) (kind : Kind) : Graph × Builder × Ref :=
  let (g, r) := g.add { kind, id }
  (g, ⟨r :: b.pending⟩, r)

/-- Fills in a declared descriptor. One that does not wait for it is refused and nothing changes;
otherwise it no longer waits, and what its attributes say before the first defect stays said. -/
def complete (b : Builder) (g : Graph) (d : Option Ref) (as : List Attribute) :
    Graph × Builder × Option Defect :=
  match d with
  | none => (g, b, some (.notPending (g.display none)))
  | some r =>
    if b.pending.contains r then
      let (n, defect) := (g.node r).fill g as
      (g.put r n, ⟨b.pending.erase r⟩, defect)
    else (g, b, some (.notPending (g.display d)))

end Builder

/-- The graph with one descriptor that may refer to itself. -/
def Graph.recursive (g : Graph) (id : Identity) (kind : Kind) (as : Ref → List Attribute) :
    Graph × Ref × Option Defect :=
  let (g, b, r) := Builder.declare {} g id kind
  let (g, _, defect) := b.complete g (some r) (as r)
  (g, r, defect)

end EverEqual
