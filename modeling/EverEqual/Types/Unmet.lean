import EverEqual.Text.CaseFolding
import EverEqual.Types.Implements
import EverEqual.Types.Printer

/-!
# Why a type does not implement an interface

An interface asks for methods, for certain types and for values that can be compared. A type that
does not meet it fails one of these demands; the first one that it fails is the reason. As the
argument for a type parameter, an interface type counts as one whose values can be compared, because
comparing them fails for some values only.

* `Unmet`: the reasons;
* `World.unmet?`: the reason why a type does not implement an interface, if it does not;
* `World.canBeKey`: whether values of a type can be compared, though comparing may fail.
-/

namespace EverEqual

/-- Why a type does not implement another one. -/
inductive Unmet
  /-- The other type is no interface. -/
  | noInterface
  /-- No type implements the interface. -/
  | noTypes
  /-- The type is a pointer to an interface and so has no methods. -/
  | interfacePointer
  | missingMethod (name : String)
  /-- A method has another name only by its case. -/
  | misnamedMethod (found wanted : Member Ty)
  /-- There is a method of the name, but it belongs to another package. -/
  | unexportedMethod (name : String)
  /-- There is a field of the name. -/
  | fieldInstead (name : String)
  /-- The name occurs more than once on the level that decides. -/
  | ambiguousMethod (name : String)
  /-- A method needs a pointer to its receiver. -/
  | pointerReceiver (name : String)
  /-- A method has another function type. -/
  | wrongMethod (found wanted : Member Ty)
  | notComparable
  /-- The type is an interface that allows more. -/
  | tooWide
  /-- The type is not listed, but its underlying type is. -/
  | missingTilde (type : Ty)
  /-- The type is not listed, though it is mentioned. -/
  | onlyMentioned
  | notListed (terms : List Term)
deriving DecidableEq, Repr, Inhabited

/-- What an interface is asked for. -/
inductive Purpose
  /-- A value of the type goes to a place of the interface. -/
  | implement
  /-- The type is an argument for a parameter. -/
  | satisfy
deriving DecidableEq, Repr, Inhabited

namespace World

variable (w : World)

/-- Whether values of the last types can be compared, followed to a given depth; the first types
have been looked at. -/
def canBeKeyIn : Nat → List Ty → List Ty → Bool
  | 0, _, _ => true
  | _, _, [] => true
  | k + 1, seen, t :: rest =>
    if seen.contains t then canBeKeyIn k seen rest
    else
      let next := fun parts => canBeKeyIn k (t :: seen) (parts ++ rest)
      match t, w.underlying t with
      | .param _ _ _, .interface f ms es =>
        w.isComparableSet (w.typeSet (.interface f ms es)) && next []
      | _, .basic b => b ≠ .untypedNil && next []
      | _, .pointer _ | _, .chan _ _ | _, .interface _ _ _ => next []
      | _, .struct fs => next (fs.map (·.type))
      | _, .array _ e => next [e]
      | _, _ => false

/-- Whether values of a type can be compared, though comparing some of them may fail. -/
def canBeKey (t : Ty) : Bool :=
  w.canBeKeyIn w.horizon [] [t]

/-- The methods of an interface type or, for any other type, the search for one of its methods. -/
def searchMethod (t : Ty) (isSought : Member Ty → Bool) : Search :=
  match w.underlying t with
  | .interface f ms es =>
    match (w.typeSet (.interface f ms es)).methods.find? isSought with
    | some m => .found ⟨m.name, m.home, .method m.type, false, false, []⟩
    | none => .missing
  | _ => w.search t false isSought

/-- Whether a type is a pointer to an interface. -/
def isInterfacePointer (t : Ty) : Bool :=
  match w.underlying t with
  | .pointer e => w.isInterface e
  | _ => false

/-- Why a method that is not there by its name is missing. -/
def missingMethod (t : Ty) (m : Member Ty) : Unmet :=
  if w.isInterfacePointer t then .interfacePointer
  else if w.isInterface t then .missingMethod m.name
  else
    match w.search t false fun n => Text.sameIgnoringCase n.name m.name with
    | .found ⟨name, home, .method signature, _, _, _⟩ =>
      if name = m.name then .unexportedMethod name
      else .misnamedMethod ⟨name, signature, home, false, []⟩ m
    | _ => .missingMethod m.name

/-- Why a type does not have a method, if it does not. -/
def unmetMethod? (t : Ty) (m : Member Ty) : Option Unmet :=
  match w.searchMethod t (·.isNamed m.home m.name) with
  | .found ⟨name, home, .method signature, _, _, _⟩ =>
    if w.identical signature m.type then none
    else some (.wrongMethod ⟨name, signature, home, false, []⟩ m)
  | .found ⟨name, _, .field _, _, _, _⟩ => some (.fieldInstead name)
  | .needsPointer => some (.pointerReceiver m.name)
  | .ambiguous => some (.ambiguousMethod m.name)
  | .missing => some (w.missingMethod t m)

/-- Why a type does not have the methods of a type set, if it does not. -/
def unmetMethods? (t : Ty) (s : TypeSet) : Option Unmet :=
  (s.methods.mergeSort Ty.methodOrder).findSome? (w.unmetMethod? t)

/-- Why values of a type cannot be compared as a type set asks for, if they cannot. -/
def unmetComparison? (purpose : Purpose) (t : Ty) (s : TypeSet) : Option Unmet :=
  if w.meetsComparability t s || (purpose = .satisfy && w.canBeKey t) then none
  else some .notComparable

/-- Whether a type occurs as such in the terms of a list of elements, to a given depth. -/
def mentionsTerm (w : World) (t : Ty) : Nat → Ty → Bool
  | 0, _ => false
  | k + 1, .interface _ _ es => es.any fun e => w.identical e t || mentionsTerm w t k e
  | k + 1, .union ts => ts.any fun e => w.identical e t || mentionsTerm w t k e
  | _ + 1, .tilde core => w.identical core t
  | _ + 1, _ => false

/-- Why a type is not among those that a type set lists. -/
def notListed (t target : Ty) (terms : List Term) : Unmet :=
  let plain := terms.find? fun x =>
    !x.tilde && w.identical x.type (w.underlying x.type) && w.includes w.identical ⟨true, x.type⟩ t
  match plain with
  | some x => .missingTilde x.type
  | none =>
    if w.mentionsTerm t w.horizon (w.underlying target) then .onlyMentioned else .notListed terms

/-- Why a type is not in the listed types of a type set, or its values cannot be compared. -/
def unmetTerms? (purpose : Purpose) (t target : Ty) (s : TypeSet) : Option Unmet :=
  match s.terms with
  | .all => w.unmetComparison? purpose t s
  | .only terms =>
    if w.allows t s then w.unmetComparison? purpose t s
    else if w.isInterface t then some .tooWide
    else some (w.notListed t target terms)

/-- Why a type does not implement another one, if it does not. -/
def unmet? (purpose : Purpose) (t target : Ty) : Option Unmet :=
  if w.underlying t = .invalid || w.underlying target = .invalid || w.pointsToInvalid t then none
  else
    match w.underlying target with
    | .interface f ms es =>
      let s := w.typeSet (.interface f ms es)
      if s.isAll || w.isUninhabited t then none
      else if s.terms.isEmpty then some .noTypes
      else
        match w.unmetMethods? t s with
        | some reason => some reason
        | none => w.unmetTerms? purpose t target s
    | _ => some .noInterface

end World

/-- The word for a purpose. -/
def Purpose.verb : Purpose → String
  | implement => "implement"
  | satisfy => "satisfy"

/-- The text of a term, with package paths. -/
def Term.text (full : Ty → String) (x : Term) : String :=
  (if x.tilde then "~" else "") ++ full x.type

/-- A method by its name and function type, with the name of the package of every type if asked
for. -/
def methodText (shown : Ty → String) (m : Member Ty) : String :=
  m.name ++ String.ofList ((shown m.type).toList.drop 4)

/-- A method that is there and one that is wanted, one below the other. -/
def methodPair (shown : Ty → String) (found wanted : Member Ty) : String :=
  "\n\t\thave " ++ methodText shown found ++ "\n\t\twant " ++ methodText shown wanted

namespace Unmet

/-- The details of a reason, for a type and the type that it does not implement, as they read inside
a package. -/
def detail (w : World) (home : String) (t target : Ty) (u : Unmet) : String :=
  let shown := w.typeStringFrom home
  let full := w.pathStringFrom home
  match u with
  | noInterface =>
    if w.isInterfacePointer target then
      "(type " ++ shown target ++ " is pointer to interface, not interface)"
    else "(" ++ shown target ++ " is not an interface)"
  | interfacePointer => "(type " ++ shown t ++ " is pointer to interface, not interface)"
  | missingMethod name => "(missing method " ++ name ++ ")"
  | misnamedMethod found wanted =>
    "(missing method " ++ wanted.name ++ ")" ++ methodPair shown found wanted
  | unexportedMethod name => "(unexported method " ++ name ++ ")"
  | fieldInstead name => "(" ++ shown t ++ "." ++ name ++ " is a field, not a method)"
  | ambiguousMethod name => "(ambiguous selector " ++ shown t ++ "." ++ name ++ ")"
  | pointerReceiver name => "(method " ++ name ++ " has pointer receiver)"
  | wrongMethod found wanted =>
    "(wrong type for method " ++ wanted.name ++ ")" ++
      if methodText shown found ≠ methodText shown wanted then methodPair shown found wanted
      else if methodText full found ≠ methodText full wanted then methodPair full found wanted
      else ""
  | missingTilde type => "(possibly missing ~ for " ++ shown type ++ " in " ++ shown target ++ ")"
  | onlyMentioned =>
    "(" ++ shown target ++ " mentions " ++ shown t ++ ", but " ++ shown t ++
      " is not in the type set of " ++ shown target ++ ")"
  | notListed terms =>
    "(" ++ shown t ++ " missing in " ++ " | ".intercalate (terms.map (Term.text full)) ++ ")"
  | noTypes | notComparable | tooWide => ""

/-- The text of a reason, as it reads inside a package. -/
def message (w : World) (home : String) (purpose : Purpose) (t target : Ty) (u : Unmet) : String :=
  let shown := w.typeStringFrom home
  match u with
  | noTypes => "cannot " ++ purpose.verb ++ " " ++ shown target ++ " (empty type set)"
  | notComparable => shown t ++ " does not " ++ purpose.verb ++ " comparable"
  | tooWide => shown t ++ " does not " ++ purpose.verb ++ " " ++ shown target
  | u =>
    shown t ++ " does not " ++ purpose.verb ++ " " ++ shown target ++ " " ++
      u.detail w home t target

end Unmet

end EverEqual
