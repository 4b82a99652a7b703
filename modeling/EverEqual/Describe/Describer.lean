import EverEqual.Describe.Shape
import EverEqual.Descriptor.Blueprint
import EverEqual.Descriptor.Builder
import EverEqual.Types.Printer

/-!
# Describing types

A describer makes descriptors for types. It remembers what it has made by the text of the type, and
it remembers a descriptor before its parts are described, so that recursive types end. Besides the
shape of a type, a descriptor records which of the registered interfaces the type implements, the
declared types that are embedded in it, and what its methods declare: a text form, an equality
toward another type, a sequence of elements.

* `Describer.register`: more interfaces to test types against;
* `World.describe`: the descriptor of a type, as a step on a draft: a graph and a describer;
* `Draft.describe`: the step from outside, where the type may be missing.
-/

namespace EverEqual

/-- Makes descriptors and remembers them. -/
structure Describer where
  builder : Builder := {}
  /-- The descriptors made so far, by the text of the type. -/
  memo : List (Identity × Ref) := []
  /-- The interfaces that types are tested against. -/
  interfaces : List Ty := [.error]
deriving DecidableEq, Repr, Inhabited

/-- Why a type cannot be described. -/
inductive DescribeError
  | defect (d : Defect)
  /-- The type unfolds beyond the horizon of the world. -/
  | endless
deriving DecidableEq, Repr, Inhabited

/-- The text of a description error. -/
def DescribeError.message : DescribeError → String
  | defect d => d.message
  | endless => "type expands without end"

/-- Adds one interface, unless it is registered or is no interface. -/
def Describer.registerOne (w : World) (d : Describer) (t : Ty) : Describer :=
  if d.interfaces.contains t || !w.isInterface t then d
  else { d with interfaces := d.interfaces ++ [t] }

/-- Adds interfaces to test types against. What is described already stays as it is. -/
def Describer.register (w : World) (d : Describer) (ts : List Ty) : Describer :=
  ts.foldl (Describer.registerOne w) d

/-- A graph that is being drawn by a describer. -/
structure Draft where
  graph : Graph := {}
  describer : Describer := {}
deriving DecidableEq, Repr, Inhabited

/-- A step on a draft. -/
abbrev DraftM := StateT Draft (Except DescribeError)

namespace Draft

/-- The descriptor remembered for an identity. -/
def memo? (id : Identity) : DraftM (Option Ref) :=
  return (← get).describer.memo.lookup id

/-- Remembers a descriptor for an identity. -/
def remember (id : Identity) (r : Ref) : DraftM Unit :=
  modify fun s => { s with describer := { s.describer with memo := (id, r) :: s.describer.memo } }

/-- Adds a descriptor made in one go. -/
def construct (b : Blueprint) : DraftM Ref := do
  let s ← get
  match s.graph.construct b with
  | .ok (g, r) =>
    set { s with graph := g }
    return r
  | .error d => throw (.defect d)

/-- Reserves a descriptor. -/
def declare (id : Identity) (kind : Kind) : DraftM Ref := do
  let s ← get
  let (g, b, r) := s.describer.builder.declare s.graph id kind
  set { s with graph := g, describer := { s.describer with builder := b } }
  return r

/-- Fills in a reserved descriptor. -/
def complete (r : Ref) (as : List Attribute) : DraftM Unit := do
  let s ← get
  let (g, b, defect) := s.describer.builder.complete s.graph (some r) as
  set { s with graph := g, describer := { s.describer with builder := b } }
  match defect with
  | some d => throw (.defect d)
  | none => pure ()

end Draft

namespace World

variable (w : World)

/-- Whether a type implements an interface by itself or, unless it is an interface, by its
pointer. -/
def implementsSomehow (t interface : Ty) : Bool :=
  let target := w.underlying interface
  w.implements t target || (!w.isInterface t && w.implements (.pointer t) target)

/-- The identities of the declared types that an interface embeds. -/
def embeddedIds (t : Ty) : List Identity :=
  match w.underlying t with
  | .interface _ _ es => es.filterMap fun e =>
      match w.unalias e with
      | .named n args => some (w.typeString (.named n args))
      | _ => none
  | _ => []

/-- The ancestors of a type: `any`, the registered interfaces it implements, and what it embeds as
an interface. -/
def ancestorIds (interfaces : List Ty) (t : Ty) (kind : Kind) : List Identity :=
  let top := if kind ≠ .interface || !w.isEmptyInterface t then ["any"] else []
  match t with
  | .tuple _ => top
  | _ =>
    top ++ (interfaces.filter fun i => !w.identical i t && w.implementsSomehow t i).map w.typeString
      ++ w.embeddedIds t

/-- The attribute that lists the ancestors of a type. -/
def ancestorAttribute (t : Ty) (kind : Kind) : DraftM Attribute :=
  return .ancestors (w.ancestorIds (← get).describer.interfaces t kind)

section Attributes

variable (describe : Ty → DraftM Ref)

/-- The element of an enumerable type. It is left out if it could be anything. -/
def elementAttributes (t : Ty) : DraftM (List Attribute) := do
  if w.isEmptyInterface t then return []
  else return [.element (some (← describe t))]

/-- The base types of a struct: what is embedded in it. -/
def baseAttributes (t : Ty) : DraftM (List Attribute) := do
  match w.embeddedNames t with
  | [] => return []
  | names => return [.bases ((← names.mapM describe).map some)]

/-- The attributes that say what the parts of a type are. -/
def partAttributes (t : Ty) : DraftM (List Attribute) := do
  match t with
  | .pointer e => return [.underlying (some (← describe e))]
  | .slice e | .array _ e | .chan _ e => w.elementAttributes describe e
  | .map k e =>
    let key ← describe k
    let element ← describe e
    return [.key (some key), .element (some element)]
  | .func _ _ _ =>
    match w.rangeElements t with
    | none => return []
    | some range =>
      let keys ← match range.key with
        | some k => pure [Attribute.key (some (← describe k))]
        | none => pure []
      return keys ++ (← w.elementAttributes describe range.element)
  | .struct fs =>
    let parts ← fs.mapM fun f => describe f.type
    return .tuple (parts.map some) :: (← w.baseAttributes describe t)
  | .tuple ts => return [.tuple ((← ts.mapM describe).map some)]
  | _ => return []

/-- The attributes of a type that is no name, or of the underlying type of a name. -/
def shapeAttributes (t : Ty) (kind : Kind) : DraftM (List Attribute) := do
  let parts ← w.partAttributes describe t
  if kind = .interface || kind = .nullable then return parts
  else return parts ++ [← w.ancestorAttribute t kind]

/-- What one method declares, by its name and function type. -/
def methodAttributes (kind : Kind) (name : String) (signature : Ty) : DraftM (List Attribute) := do
  match name with
  | "All" =>
    if kind = .array || kind = .collection then return []
    else match w.exposedElement? signature with
      | some e => w.elementAttributes describe e
      | none => return []
  | "String" =>
    if isTextMethod signature then
      return [.conversion (some (← describe (.basic .string))) .explicit]
    else return []
  | _ => (w.equalTargets signature).mapM fun t => return .equatable (some (← describe t))

/-- What the methods of a declared type declare, pointer methods included. The methods that matter
are taken in the order of their names. -/
def capabilityAttributes (t : Ty) (kind : Kind) : DraftM (List Attribute) := do
  let receiver := if kind = .interface then t else .pointer t
  let found ← ["All", "Equal", "Equals", "String"].mapM fun name =>
    match w.listedMethod? receiver name with
    | some signature => w.methodAttributes describe kind name signature
    | none => return []
  return found.flatten

/-- The attributes of the underlying type of a name. -/
def underlyingAttributes (under : Ty) (kind : Kind) : DraftM (List Attribute) := do
  match kind with
  | .numeric | .boolean | .string => return [.conversion (some (← describe under)) .explicit]
  | .enumeration | .userDefined => w.baseAttributes describe under
  | _ => w.shapeAttributes describe under kind

/-- The attribute that says of which generic declaration a type is an instance. -/
def instanceAttributes (n : TypeName) (args : List Ty) : DraftM (List Attribute) := do
  match args with
  | [] => return []
  | _ => return [.generic (w.typeString (.named n [])) ((← args.mapM describe).map some)]

/-- The descriptor of a declared type that is not remembered. -/
def describeNamed (n : TypeName) (args : List Ty) (id : Identity) : DraftM Ref := do
  let t := Ty.named n args
  let under := w.underlying t
  if under = .invalid then
    let r ← Draft.construct (.unknown id)
    Draft.remember id r
    return r
  else
    let kind := w.kindOfNamed n args
    let r ← Draft.declare id kind
    Draft.remember id r
    let shape ← w.underlyingAttributes describe under kind
    let generic ← w.instanceAttributes describe n args
    let capabilities ← w.capabilityAttributes describe t kind
    let ancestors ← w.ancestorAttribute t kind
    Draft.complete r (shape ++ generic ++ capabilities ++ [ancestors])
    return r

/-- The descriptor of a type that is no name and is not remembered. All interfaces without methods
share one descriptor. -/
def describeUnnamed (t : Ty) (id : Identity) : DraftM Ref := do
  let kind := w.kindOf t
  if kind = .unknown then
    let r ← Draft.construct (.unknown id)
    Draft.remember id r
    return r
  else
    let id := if kind = .interface && w.isEmptyInterface t then "any" else id
    match ← Draft.memo? id with
    | some r => return r
    | none =>
      let r ← Draft.declare id kind
      Draft.remember id r
      Draft.complete r (← w.shapeAttributes describe t kind)
      return r

end Attributes

/-- The descriptor of a type, following names to a given depth. -/
def describeIn : Nat → Ty → DraftM Ref
  | 0, _ => throw .endless
  | k + 1, t => do
    let t := w.unalias t
    let id := w.typeString t
    match ← Draft.memo? id with
    | some r => return r
    | none =>
      match t with
      | .named n args => w.describeNamed (describeIn k) n args id
      | t => w.describeUnnamed (describeIn k) t id

/-- The descriptor of a type. -/
def describe (t : Ty) : DraftM Ref :=
  w.describeIn w.horizon t

end World

/-- The draft with the descriptor of a type. A missing type is an unresolved one, made anew each
time. -/
def Draft.describe (w : World) (s : Draft) : Option Ty → Except DescribeError (Ref × Draft)
  | none => (Draft.construct (.unknown "nil")).run s
  | some t => (w.describe t).run s

end EverEqual
