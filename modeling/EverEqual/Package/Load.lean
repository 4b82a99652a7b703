import EverEqual.Text.Quoted
import EverEqual.Types.Identical

/-!
# Packages and their exported types

A package of the world is found by its path. Its exported types are the exported names that it
declares, in order, except generic declarations, of which there are no values. Interfaces that are
described by methods alone are the ones that types can be tested against.

* `World.load`: the package with a path, or why there is none;
* `World.exportedTypes`: its exported types;
* `World.exportedInterfaces`: the interfaces among them.
-/

namespace EverEqual

/-- Why there is no package with a path. -/
inductive LoadError
  /-- A relative path leads to no package. -/
  | notFound (path : String)
  /-- The package cannot be used. -/
  | broken (path : String)
deriving DecidableEq, Repr, Inhabited

/-- The text of a load error. -/
def LoadError.message : LoadError → String
  | notFound path => "package " ++ Text.quote path ++ " not found"
  | broken path => "package " ++ Text.quote path ++ " has compilation errors"

/-- An exported type of a package. -/
structure ExportedType where
  name : String
  path : String
  type : Ty
deriving DecidableEq, Repr, Inhabited

/-- Whether a path is relative to the current directory. -/
def isRelative (path : String) : Bool :=
  path = "" || path = "." || path.startsWith "./"

/-- The exported types of a package, in the order of their names. -/
def Package.exportedTypes (p : Package) : List ExportedType :=
  let shown := p.declarations.filter fun d =>
    Text.isExported d.name && (d.isAlias || d.params.isEmpty)
  (shown.map fun d => ⟨d.name, p.path, .named ⟨p.path, d.name⟩ []⟩).mergeSort
    fun a b => a.name ≤ b.name

namespace World

/-- The package with a path. -/
def load (w : World) (path : String) : Except LoadError Package :=
  match w.package? path with
  | some p => .ok p
  | none => .error (if isRelative path then .notFound path else .broken path)

/-- The exported types of a package. -/
def exportedTypes (w : World) (path : String) : Except LoadError (List ExportedType) :=
  return (← w.load path).exportedTypes

/-- The declared interface that a type stands for, if it is described by methods alone. -/
def methodInterface? (w : World) (t : Ty) : Option Ty :=
  match w.unalias t with
  | .named n args =>
    match w.underlying (.named n args) with
    | .interface f ms es =>
      if (w.typeSet (.interface f ms es)).isMethodSet then some (.named n args) else none
    | _ => none
  | _ => none

/-- The exported interfaces of a package that are described by methods alone. -/
def exportedInterfaces (w : World) (path : String) : Except LoadError (List Ty) :=
  return (← w.exportedTypes path).filterMap fun t => w.methodInterface? t.type

end World

end EverEqual
