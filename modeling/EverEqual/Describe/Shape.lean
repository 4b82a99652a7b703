import EverEqual.Descriptor.Kind
import EverEqual.Types.Implements

/-!
# What a type looks like

How the shape of a type determines its kind, which constants make it an enumeration, and which
methods declare a capability.

* `World.kindOf`: the kind of a type that is no name;
* `World.isEnumeration`: a declared type with constants of its own;
* `World.rangeElements`: the element types of a function that can be ranged over;
* `World.isTextMethod`, `World.equalTargets`, `World.exposedElement?`: what methods declare.
-/

namespace EverEqual

/-- The element types of something that is ranged over: keys, if there are any, and elements. -/
structure RangeElements where
  key : Option Ty
  element : Ty
deriving DecidableEq, Repr, Inhabited

/-- The kind of a predeclared type. -/
def Basic.kind : Basic → Kind
  | .invalid | .untypedNil => .unknown
  | b =>
    if b.isBoolean then .boolean
    else if b.isString then .string
    else if b.isNumeric then .numeric
    else .userDefined

namespace World

variable (w : World)

/-- Whether the values of a type are truth values. -/
def isBoolean (t : Ty) : Bool :=
  match w.underlying t with
  | .basic b => b.isBoolean
  | _ => false

/-- The element types of a function that yields them to its only parameter. -/
def rangeElements : Ty → Option RangeElements
  | .func [yield] [] _ =>
    match w.underlying yield.type with
    | .func [e] [r] _ => if w.isBoolean r.type then some ⟨none, e.type⟩ else none
    | .func [k, e] [r] _ => if w.isBoolean r.type then some ⟨some k.type, e.type⟩ else none
    | _ => none
  | _ => none

/-- The kind of a type that is no name. Parameters and unions could be anything. -/
def kindOf (t : Ty) : Kind :=
  match t with
  | .basic b => b.kind
  | .pointer _ => .nullable
  | .slice _ | .array _ _ => .array
  | .map _ _ | .chan _ _ => .collection
  | .func _ _ _ => if (w.rangeElements t).isSome then .collection else .userDefined
  | .struct _ | .tuple _ => .tuple
  | .interface _ _ _ => .interface
  | _ => .unknown

/-- Whether a declared type is an enumeration: whole numbers or texts, with a constant of exactly
that type in its package. -/
def isEnumeration (n : TypeName) (args : List Ty) : Bool :=
  match w.underlying (.named n args) with
  | .basic b =>
    (b.isInteger || b.isString) &&
      (((w.package? n.path).map (·.consts)).getD []).any fun c =>
        w.identical c.2 (.named n args)
  | _ => false

/-- The kind of a declared type. -/
def kindOfNamed (n : TypeName) (args : List Ty) : Kind :=
  if w.isEnumeration n args then .enumeration
  else match w.kindOf (w.underlying (.named n args)) with
    | .tuple => .userDefined
    | k => k

/-- The declared type that an embedded field stands for, behind aliases and pointers. -/
def embeddedName? : Nat → Ty → Option Ty
  | 0, _ => none
  | k + 1, t =>
    match w.unalias t with
    | .named n args => some (.named n args)
    | .pointer e => embeddedName? k e
    | _ => none

/-- The declared types that are embedded in a struct. -/
def embeddedNames : Ty → List Ty
  | .struct fs => (fs.filter (·.embedded)).filterMap fun f => w.embeddedName? w.horizon f.type
  | _ => []

/-- Whether a function type is that of a text method: no parameters, one result, which is the
predeclared text type itself. -/
def isTextMethod : Ty → Bool
  | .func [] [r] _ => r.type = .basic .string
  | _ => false

/-- The type that an equality method takes, with what is left of it as pointers are taken off. -/
def withoutPointers : Nat → Ty → List Ty
  | 0, _ => []
  | k + 1, t =>
    t :: match w.unalias t with
      | .pointer e => withoutPointers k e
      | _ => []

/-- The types toward which an equality method declares an equality. -/
def equalTargets : Ty → List Ty
  | .func [p] [r] _ => if w.isBoolean r.type then w.withoutPointers w.horizon p.type else []
  | _ => []

/-- The element type that a method exposes whose only result can be ranged over. -/
def exposedElement? : Ty → Option Ty
  | .func [] [r] _ => (w.rangeElements (w.underlying r.type)).map (·.element)
  | _ => none

end World

end EverEqual
