import EverEqual.Expression.Constant
import EverEqual.Expression.Syntax
import EverEqual.Types.World

/-!
# Scopes

A name is looked up from the inside out: among the names declared in the blocks of a function, the
inner ones first, then among the packages that the file imports, then among the declarations of the
package, then among the predeclared names.

* `Entity`: what a name stands for;
* `Scope`: the blocks around a place, with `Scope.declare`;
* `Scope.entity?`: what a name stands for at a place.
-/

namespace EverEqual.Expression

/-- Where a variable is declared. -/
inductive VarKind
  | package
  /-- In a block; such a variable has a number. -/
  | block (id : Nat)
  | parameter
  | result
deriving DecidableEq, Repr, Inhabited

/-- The words for a kind of variable. -/
def VarKind.words : VarKind → String
  | package => "package-level variable"
  | block _ => "local variable"
  | parameter => "parameter"
  | result => "result variable"

/-- What a name stands for. -/
inductive Entity
  | package (p : Package)
  | type (t : Ty)
  /-- Another name for a type, while it is being told for which. -/
  | unfinished (n : Name)
  | constant (type : Ty) (value : Constant)
  | var (type : Ty) (kind : VarKind)
  /-- A predeclared function. -/
  | function (name : String)
  /-- The predeclared missing value. -/
  | missing
  /-- The predeclared counter of constants. -/
  | counter
deriving DecidableEq, Repr, Inhabited

/-- The word for the kind of thing that a name stands for. -/
def Entity.kind : Entity → String
  | package _ => "package name"
  | type _ | unfinished _ => "type name"
  | constant _ _ | counter => "constant"
  | var _ kind => kind.words
  | function _ => "built-in function"
  | missing => "untyped nil"

/-- A declared name. -/
structure Binding where
  name : Name
  entity : Entity
deriving DecidableEq, Repr, Inhabited

/-- The names declared in a block. -/
structure Frame where
  id : Nat
  bindings : List Binding := []
deriving DecidableEq, Repr, Inhabited

/-- Where control may go on with the next clause of a choice. -/
inductive Fall
  | stray
  | allowed
  /-- In the last clause. -/
  | final
  /-- In a choice by type. -/
  | typeChoice
deriving DecidableEq, Repr, Inhabited

/-- Where jumps without a label may go to. -/
structure Nesting where
  breaks : Bool := false
  continues : Bool := false
  falls : Fall := .stray
deriving DecidableEq, Repr, Inhabited

/-- The surroundings of a place in an expression. -/
structure Scope where
  package : Package
  /-- The blocks around the place, the innermost first. -/
  frames : List Frame := []
  /-- The value of the counter inside a declaration of constants. -/
  counter : Option Nat := none
  /-- The number of the function around the place. -/
  function : Nat := 0
  /-- The results of that function. -/
  results : List (Member Ty) := []
  nesting : Nesting := {}
deriving DecidableEq, Repr, Inhabited

namespace Frame

/-- The declaration of a name in a block. -/
def find? (f : Frame) (name : String) : Option Binding :=
  f.bindings.find? (·.name.text = name)

end Frame

/-- What a name stands for among the declarations of a package. -/
def declared? (p : Package) (name : String) : Option Entity :=
  if p.declarations.any (·.name = name) then some (.type (.named ⟨p.path, name⟩ []))
  else
    match p.consts.find? (·.1 = name), p.vars.find? (·.1 = name) with
    | some (_, t), _ => some (.constant t .unknown)
    | none, some (_, t) => some (.var t .package)
    | none, none => none

/-- What a predeclared name stands for. -/
def predeclared? (name : String) : Option Entity :=
  match Basic.ofName? name with
  | some b => some (.type (.basic b))
  | none =>
    if predeclared.any (·.name = name) then some (.type (.named ⟨"", name⟩ []))
    else if predeclaredFunctions.contains name then some (.function name)
    else if name = "nil" then some .missing
    else if name = "iota" then some .counter
    else if name = "true" || name = "false" then
      some (.constant (.basic .untypedBool) (.bool (name = "true")))
    else none

namespace Scope

/-- The imported package with a given name. -/
def imported? (w : World) (s : Scope) (name : String) : Option Package :=
  ((s.package.imports.getD []).filterMap w.package?).find? (·.name = name)

/-- What a name stands for outside of functions. -/
def outer? (w : World) (s : Scope) (name : String) : Option Entity :=
  match s.imported? w name with
  | some p => some (.package p)
  | none =>
    match declared? s.package name with
    | some e => some e
    | none => predeclared? name

/-- What a name stands for. The blank name stands for nothing. -/
def entity? (w : World) (s : Scope) (name : String) : Option Entity :=
  if name = "_" then none
  else
    match s.frames.findSome? (·.find? name) with
    | some b => some b.entity
    | none => s.outer? w name

/-- The declaration of a name in the innermost block. -/
def innermost? (s : Scope) (name : String) : Option Binding :=
  s.frames.head?.bind (·.find? name)

/-- The scope with a name declared in the innermost block. -/
def declare (s : Scope) (b : Binding) : Scope :=
  match s.frames with
  | f :: fs => { s with frames := { f with bindings := f.bindings ++ [b] } :: fs }
  | [] => s

/-- The scope with a new block. -/
def enter (s : Scope) (id : Nat) : Scope :=
  { s with frames := ⟨id, []⟩ :: s.frames }

end Scope

end EverEqual.Expression
