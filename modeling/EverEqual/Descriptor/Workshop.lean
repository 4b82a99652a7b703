import EverEqual.Descriptor.Blueprint
import EverEqual.Descriptor.Builder
import Mathlib.Logic.Function.Basic

/-!
# Descriptors made step by step

Descriptors are made one after another, from blueprints and by any number of builders, which all
work on one graph and may refer to each other's descriptors. A step that fails ends nothing: what
was declared is there, what a defective list of attributes had already said stays said, and further
steps may follow.

The function of a recursion may take any steps itself before it says what the descriptor is like.
A recursion is therefore two steps. First its descriptor is declared with a builder that nobody else
has, and its function starts; when the function returns, the descriptor is completed. If it never
returns, the second step is not taken.

* `Making`, `Deed`: a step as it is asked for, and what came of it;
* `Workshop.step`, `Workshop.run`: one step, and a list of steps from an empty graph;
* `Workshop.graph_resolve`: a recursion whose function takes no steps.
-/

namespace EverEqual

/-- By what a builder is known. -/
inductive Builder.Name
  /-- One of the builders that are handed around. -/
  | shared (n : Nat)
  /-- The builder of the recursion that defines a descriptor. -/
  | own (r : Ref)
deriving DecidableEq, Repr

/-- A step as it is asked for. -/
inductive Making
  | construct (blueprint : Blueprint)
  | declare (builder : Nat) (id : Identity) (kind : Kind)
  | complete (builder : Nat) (d : Option Ref) (attributes : List Attribute)
  /-- A recursion declares its descriptor, and its function starts. -/
  | recursive (id : Identity) (kind : Kind)
  /-- The function of the recursion that defines a descriptor returns the attributes. -/
  | resolve (r : Ref) (attributes : List Attribute)
deriving DecidableEq, Repr

/-- What came of a step. -/
inductive Deed
  | made (r : Ref)
  /-- A blueprint was defective. -/
  | spoiled (defect : Defect)
  | declared (builder : Builder.Name) (r : Ref)
  /-- Completing a descriptor was attempted with a builder; it came to an end, or to a defect. -/
  | attempted (builder : Builder.Name) (d : Option Ref) (defect : Option Defect)
deriving DecidableEq, Repr

/-- A graph of descriptors, and the builders that work on it. -/
structure Workshop where
  graph : Graph := {}
  builders : Builder.Name → Builder := fun _ => {}

namespace Workshop

/-- Makes a descriptor from a blueprint. -/
def construct (s : Workshop) (blueprint : Blueprint) : Workshop × Deed :=
  match s.graph.construct blueprint with
  | .ok (g, r) => ({ s with graph := g }, .made r)
  | .error defect => (s, .spoiled defect)

/-- Declares a descriptor with one of the builders. -/
def declare (s : Workshop) (b : Builder.Name) (id : Identity) (kind : Kind) : Workshop × Deed :=
  let (g, builder, r) := (s.builders b).declare s.graph id kind
  (⟨g, Function.update s.builders b builder⟩, .declared b r)

/-- Attempts to complete a descriptor with one of the builders. -/
def complete (s : Workshop) (b : Builder.Name) (d : Option Ref) (as : List Attribute) :
    Workshop × Deed :=
  let (g, builder, defect) := (s.builders b).complete s.graph d as
  (⟨g, Function.update s.builders b builder⟩, .attempted b d defect)

/-- One step. The builder of a recursion is known by the descriptor that comes next. -/
def step (s : Workshop) : Making → Workshop × Deed
  | .construct blueprint => s.construct blueprint
  | .declare n id kind => s.declare (.shared n) id kind
  | .complete n d as => s.complete (.shared n) d as
  | .recursive id kind => s.declare (.own s.graph.size) id kind
  | .resolve r as => s.complete (.own r) (some r) as

/-- A step taken after others, with what came of them, the last one first. -/
def advance (p : Workshop × List Deed) (m : Making) : Workshop × List Deed :=
  let (s, deed) := p.1.step m
  (s, deed :: p.2)

/-- A list of steps from an empty graph and builders that have declared nothing. -/
def run (ms : List Making) : Workshop × List Deed :=
  ms.foldl advance ({}, [])

theorem run_concat (ms : List Making) (m : Making) : run (ms ++ [m]) = advance (run ms) m := by
  unfold run
  rw [List.foldl_append, List.foldl_cons, List.foldl_nil]

/-- **A recursion whose function takes no steps** does what the two steps do in a row. -/
theorem graph_resolve (s : Workshop) (id : Identity) (kind : Kind) (as : Ref → List Attribute)
    (hnew : (s.builders (.own s.graph.size)).pending = []) :
    let r := s.graph.size
    let p := (s.step (.recursive id kind)).1.step (.resolve r (as r))
    ∃ defect, s.graph.recursive id kind as = (p.1.graph, r, defect) ∧
      p.2 = .attempted (.own r) (some r) defect := by
  refine ⟨(s.graph.recursive id kind as).2.2, ?_⟩
  simp only [step, declare, complete, Builder.declare, Builder.complete, Graph.recursive,
    Graph.add, Function.update_self, hnew]
  simp

end Workshop

end EverEqual
