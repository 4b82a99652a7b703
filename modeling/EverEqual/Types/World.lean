import EverEqual.Types.Basic

/-!
# The world of declarations

A world is a list of packages with their declarations. It gives names their meaning: an alias stands
for its target, a declared type has an underlying type that is no name, and an instance of a generic
declaration, alias or not, has the declared types with its arguments in place of the parameters. The
predeclared `any`, `error` and `comparable` are declarations of a package without a path.

* `World.unalias`: the type that an alias stands for, through aliases of aliases;
* `World.site?`: where the underlying type of a name is written;
* `World.underlying`: the underlying type.

A chain of names that leads back to itself has no underlying type; chains are followed only as far
as there are declarations.
-/

namespace EverEqual

/-- A type parameter with its constraint. -/
structure TypeParam where
  name : String
  constraint : Ty
deriving DecidableEq, Repr, Inhabited

/-- A method of a declared type. -/
structure Method where
  name : String
  /-- Whether the receiver is a pointer. -/
  pointer : Bool
  /-- The function type without the receiver. -/
  signature : Ty
deriving DecidableEq, Repr, Inhabited

/-- The declaration of a type. -/
structure Declaration where
  name : String
  /-- The type as it was written on the right. -/
  type : Ty
  params : List TypeParam := []
  methods : List Method := []
  isAlias : Bool := false
deriving DecidableEq, Repr, Inhabited

/-- A package. -/
structure Package where
  path : String
  name : String
  declarations : List Declaration := []
  consts : List (String × Ty) := []
  vars : List (String × Ty) := []
  /-- The paths that the first file imports; `none` if there is no file. -/
  imports : Option (List String) := none
deriving DecidableEq, Repr, Inhabited

/-- The packages of a program. -/
structure World where
  packages : List Package := []
  /-- How many names deep the types of the world are followed. A world whose types unfold to fewer
  types than that is followed to its end. -/
  horizon : Nat := 1000000
deriving DecidableEq, Repr, Inhabited

/-- The predeclared types that are declarations: `any`, `error` and `comparable`. -/
def predeclared : List Declaration :=
  [{ name := "any", type := .emptyInterface, isAlias := true },
   { name := "error"
     type := .interface .literal [⟨"Error", .func [] [⟨"", .basic .string, "", false, []⟩] false,
       "", false, []⟩] [] },
   { name := "comparable", type := .interface .comparable [] [] }]

/-- The predeclared functions. -/
def predeclaredFunctions : List String :=
  ["append", "cap", "clear", "close", "complex", "copy", "delete", "imag", "len", "make", "max",
    "min", "new", "panic", "print", "println", "real", "recover"]

/-- Whether a name is predeclared: a type, a constant, the missing value or a function. -/
def isPredeclared (name : String) : Bool :=
  (Basic.ofName? name).isSome || predeclared.any (·.name = name) ||
    ["true", "false", "iota", "nil"].contains name || predeclaredFunctions.contains name

/-- The predeclared interface of errors. -/
def Ty.error : Ty := .named ⟨"", "error"⟩ []

namespace World

/-- The package with a given path. -/
def package? (w : World) (path : String) : Option Package :=
  w.packages.find? (·.path = path)

/-- The declaration of a name. -/
def declaration? (w : World) (n : TypeName) : Option Declaration :=
  let declarations :=
    if n.path = "" then predeclared else ((w.package? n.path).map (·.declarations)).getD []
  declarations.find? (·.name = n.name)

/-- The number of declarations. -/
def size (w : World) : Nat :=
  (predeclared ++ w.packages.flatMap (·.declarations)).length

/-- The target of an alias, with its arguments in place. -/
def aliasTarget? (w : World) : Ty → Option Ty
  | .named n args =>
    match w.declaration? n with
    | some d => if d.isAlias then some (d.type.subst n args) else none
    | none => none
  | _ => none

/-- The type that an alias stands for, following a number of aliases. -/
def unaliasIn (w : World) : Nat → Ty → Ty
  | 0, t => t
  | k + 1, t =>
    match w.aliasTarget? t with
    | some u => w.unaliasIn k u
    | none => t

/-- The type that an alias stands for; any other type stands for itself. -/
def unalias (w : World) (t : Ty) : Ty :=
  w.unaliasIn w.size t

/-- Where an underlying type is written: the declaration, its arguments and the type as it stands
there. -/
structure Site where
  owner : TypeName
  args : List Ty
  written : Ty
deriving DecidableEq, Repr, Inhabited

/-- The type written at a site, with the arguments in place. -/
def Site.type (s : Site) : Ty :=
  s.written.subst s.owner s.args

/-- The site that a name leads to, following a number of declarations. -/
def siteIn (w : World) : Nat → Ty → Option Site
  | 0, _ => none
  | k + 1, .named n args =>
    match w.declaration? n with
    | none => none
    | some d =>
      let site : Site := ⟨n, args, d.type⟩
      match site.type with
      | .named m xs => w.siteIn k (.named m xs)
      | _ => some site
  | _ + 1, _ => none

/-- The site of the underlying type of a name. -/
def site? (w : World) (t : Ty) : Option Site :=
  w.siteIn (w.size + 1) t

/-- The underlying type of a name; any other type is its own. A name that leads nowhere has the
invalid type. -/
def definition (w : World) : Ty → Ty
  | .named n args => ((w.site? (.named n args)).map Site.type).getD .invalid
  | t => t

/-- The constraint of a type parameter. -/
def constraint? (w : World) (binder : Binder) (index : Nat) : Option Ty :=
  (w.declaration? binder.declaration).bind fun d => d.params[index]?.map (·.constraint)

/-- The underlying type of a type. That of a type parameter is its constraint, as an interface. -/
def underlying (w : World) : Ty → Ty
  | .param binder index _ =>
    match w.constraint? binder index with
    | none => .emptyInterface
    | some c =>
      match w.definition c with
      | .interface f ms es => .interface f ms es
      | .basic .invalid => .emptyInterface
      | _ => .interface .implicit [] [c]
  | t => w.definition t

/-- The methods declared for a named type, with its arguments in place. -/
def methods (w : World) : Ty → List (Member Ty × Bool)
  | .named n args =>
    match w.declaration? n with
    | some d => d.methods.map fun m =>
        (⟨m.name, m.signature.subst n args, n.path, false, []⟩, m.pointer)
    | none => []
  | _ => []

/-- Whether a type is the name of a generic declaration without arguments. -/
def isGeneric (w : World) : Ty → Bool
  | .named n [] => ((w.declaration? n).map (!·.params.isEmpty)).getD false
  | _ => false

end World

end EverEqual
