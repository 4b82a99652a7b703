import EverEqual.Descriptor.Basic

/-!
# Attributes

A descriptor is filled in by a list of attributes, taken in order. An attribute that refers to a
descriptor that is not there is a defect: it ends the list, and what came before it stays in
force, up to the last reference before the missing one.

* `Node.attach`: the effect of one attribute;
* `Node.attachAll`: the effect of a list, which stops at the first defect;
* `Node.mem_ancestors_foldl_addAncestor`: what a list of ancestors adds;
* `Node.fill`: attributes, then the test that a nullable wraps something, then completion.
-/

namespace EverEqual

/-- What a missing descriptor was needed for. -/
inductive Role
  | element
  | key
  | base
  | conversionTarget
  | equatableTarget
  | nullableUnderlying
  | tupleElement
  | typeArgument
  | mapKey
  | mapElement
deriving DecidableEq, Repr, Inhabited

/-- The words for a role. -/
def Role.text : Role → String
  | element => "element"
  | key => "key"
  | base => "base"
  | conversionTarget => "conversion target"
  | equatableTarget => "equatable target"
  | nullableUnderlying => "nullable underlying"
  | tupleElement => "tuple element"
  | typeArgument => "type argument"
  | mapKey => "map key"
  | mapElement => "map element"

/-- Why a descriptor cannot be built. -/
inductive Defect
  /-- A descriptor is missing. -/
  | missing (role : Role)
  /-- A nullable type wraps nothing. -/
  | noUnderlying (id : Identity)
  /-- A descriptor, shown by its text, does not wait for completion. -/
  | notPending (shown : String)
deriving DecidableEq, Repr, Inhabited

/-- The text of a defect. -/
def Defect.message : Defect → String
  | missing role => "descriptor: nil " ++ role.text
  | noUnderlying id => "descriptor: nullable " ++ id ++ " has no underlying type"
  | notPending shown => "descriptor: " ++ shown ++ " not pending in builder"

/-- One thing said about a type while its descriptor is filled in. -/
inductive Attribute
  | element (d : Option Ref)
  | key (d : Option Ref)
  | underlying (d : Option Ref)
  /-- Base types; their own ancestors are inherited. -/
  | bases (ds : List (Option Ref))
  | ancestors (ids : List Identity)
  | conversion (d : Option Ref) (kind : ConversionKind)
  | equatable (d : Option Ref)
  | tuple (ds : List (Option Ref))
  | generic (origin : Identity) (args : List (Option Ref))
deriving DecidableEq, Repr, Inhabited

/-- The references before the first missing one. -/
def leading : List (Option Ref) → List Ref
  | some r :: ds => r :: leading ds
  | _ => []

theorem leading_map_some (rs : List Ref) : leading (rs.map some) = rs := by
  induction rs with
  | nil => rfl
  | cons r rs ih => simp [leading, ih]

/-- The defect of a list of references in which one is missing. -/
def missingIn (role : Role) (ds : List (Option Ref)) : Option Defect :=
  if ds.contains none then some (.missing role) else none

theorem missingIn_map_some (role : Role) (rs : List Ref) : missingIn role (rs.map some) = none := by
  simp [missingIn]

namespace Node

/-- The node with a base type: its identity and its ancestors become ancestors. -/
def addBase (n base : Node) : Node :=
  base.ancestors.foldl addAncestor (n.addAncestor base.id)

@[simp] theorem id_foldl_addAncestor (ids : List Identity) (n : Node) :
    (ids.foldl addAncestor n).id = n.id := by
  induction ids generalizing n with
  | nil => rfl
  | cons id ids ih => rw [List.foldl_cons, ih, id_addAncestor]

/-- A list of ancestors is recorded except for the identity of the node itself. -/
theorem mem_ancestors_foldl_addAncestor {a : Identity} (ids : List Identity) (n : Node) :
    a ∈ (ids.foldl addAncestor n).ancestors ↔ (a ∈ ids ∧ a ≠ n.id) ∨ a ∈ n.ancestors := by
  induction ids generalizing n with
  | nil => simp
  | cons id ids ih =>
    rw [List.foldl_cons, ih, id_addAncestor, mem_ancestors_addAncestor, List.mem_cons]
    constructor
    · rintro (⟨h, hn⟩ | ⟨rfl, hn⟩ | h)
      · exact Or.inl ⟨Or.inr h, hn⟩
      · exact Or.inl ⟨Or.inl rfl, hn⟩
      · exact Or.inr h
    · rintro (⟨rfl | h, hn⟩ | h)
      · exact Or.inr (Or.inl ⟨rfl, hn⟩)
      · exact Or.inl ⟨h, hn⟩
      · exact Or.inr (Or.inr h)

/-- The effect of one attribute, with the defect if there is one. -/
def attach (g : Graph) (n : Node) : Attribute → Node × Option Defect
  | .element (some r) => ({ n with element := some r }, none)
  | .element none => (n, some (.missing .element))
  | .key (some r) => ({ n with key := some r }, none)
  | .key none => (n, some (.missing .key))
  | .underlying (some r) => ({ n with underlying := some r }, none)
  | .underlying none => (n, some (.missing .nullableUnderlying))
  | .bases ds =>
    ((leading ds).foldl (fun n r => n.addBase (g.node r)) n, missingIn .base ds)
  | .ancestors ids => (ids.foldl addAncestor n, none)
  | .conversion (some r) kind =>
    ({ n with conversions := n.conversions.insert (g.node r).id kind }, none)
  | .conversion none _ => (n, some (.missing .conversionTarget))
  | .equatable (some r) => ({ n with equatable := n.equatable.insert (g.node r).id }, none)
  | .equatable none => (n, some (.missing .equatableTarget))
  | .tuple ds => ({ n with tuple := leading ds }, missingIn .tupleElement ds)
  | .generic origin args =>
    ({ n with origin := origin, typeArgs := leading args }, missingIn .typeArgument args)

/-- The effect of a list of attributes; the first defect ends it. -/
def attachAll (g : Graph) (n : Node) : List Attribute → Node × Option Defect
  | [] => (n, none)
  | a :: as =>
    match n.attach g a with
    | (n', none) => attachAll g n' as
    | (n', some d) => (n', some d)

/-- The defect of a node that no rule could traverse: a nullable that wraps nothing. -/
def unsound (n : Node) : Option Defect :=
  if n.kind = .nullable && n.underlying.isNone then some (.noUnderlying n.id) else none

/-- The node after its attributes; it is completed if there was no defect. -/
def fill (g : Graph) (n : Node) (as : List Attribute) : Node × Option Defect :=
  match n.attachAll g as with
  | (n', some d) => (n', some d)
  | (n', none) =>
    match n'.unsound with
    | some d => (n', some d)
    | none => ({ n' with completed := true }, none)

end Node

end EverEqual
