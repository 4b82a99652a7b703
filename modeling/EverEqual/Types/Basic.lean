import EverEqual.Text.UpperCase

/-!
# Types

The types of a program as trees. A declared type stands in a tree by its name and its arguments;
what the name means is kept elsewhere, in the world of declarations, so that trees are finite even
when types are recursive. A predeclared type that has two names (`byte` and `uint8`) has two forms
here, because it prints as it was written.

* `Basic`, `Ty`: predeclared types and types;
* `Ty.subst`: a declaration's parameters replaced by arguments;
* `Ty.beq_eq`: equality of trees is decidable.
-/

namespace EverEqual

/-- The predeclared types. -/
inductive Basic
  | invalid
  | bool
  | int
  | int8
  | int16
  | int32
  | int64
  | uint
  | uint8
  | uint16
  | uint32
  | uint64
  | uintptr
  | float32
  | float64
  | complex64
  | complex128
  | string
  | unsafePointer
  | untypedBool
  | untypedInt
  | untypedRune
  | untypedFloat
  | untypedComplex
  | untypedString
  | untypedNil
  /-- Another name for `uint8`. -/
  | byte
  /-- Another name for `int32`. -/
  | rune
deriving DecidableEq, Repr, Inhabited

namespace Basic

/-- The text of a predeclared type. -/
def name : Basic → String
  | invalid => "invalid type"
  | bool => "bool"
  | int => "int"
  | int8 => "int8"
  | int16 => "int16"
  | int32 => "int32"
  | int64 => "int64"
  | uint => "uint"
  | uint8 => "uint8"
  | uint16 => "uint16"
  | uint32 => "uint32"
  | uint64 => "uint64"
  | uintptr => "uintptr"
  | float32 => "float32"
  | float64 => "float64"
  | complex64 => "complex64"
  | complex128 => "complex128"
  | string => "string"
  | unsafePointer => "unsafe.Pointer"
  | untypedBool => "untyped bool"
  | untypedInt => "untyped int"
  | untypedRune => "untyped rune"
  | untypedFloat => "untyped float"
  | untypedComplex => "untyped complex"
  | untypedString => "untyped string"
  | untypedNil => "untyped nil"
  | byte => "byte"
  | rune => "rune"

/-- All predeclared types. -/
def all : List Basic :=
  [invalid, bool, int, int8, int16, int32, int64, uint, uint8, uint16, uint32, uint64, uintptr,
    float32, float64, complex64, complex128, string, unsafePointer, untypedBool, untypedInt,
    untypedRune, untypedFloat, untypedComplex, untypedString, untypedNil, byte, rune]

/-- The predeclared types that a program can write by a plain name. -/
def ofName? (s : String) : Option Basic :=
  [bool, int, int8, int16, int32, int64, uint, uint8, uint16, uint32, uint64, uintptr, float32,
    float64, complex64, complex128, string, byte, rune].find? (·.name = s)

/-- The form that stands for all names of a type. -/
def canonical : Basic → Basic
  | byte => uint8
  | rune => int32
  | b => b

/-- Whether values are truth values. -/
def isBoolean : Basic → Bool
  | bool | untypedBool => true
  | _ => false

/-- Whether values are texts. -/
def isString : Basic → Bool
  | string | untypedString => true
  | _ => false

/-- Whether values are whole numbers. -/
def isInteger : Basic → Bool
  | int | int8 | int16 | int32 | int64 | uint | uint8 | uint16 | uint32 | uint64 | uintptr
  | untypedInt | untypedRune | byte | rune => true
  | _ => false

/-- Whether values are numbers. -/
def isNumeric : Basic → Bool
  | float32 | float64 | complex64 | complex128 | untypedFloat | untypedComplex => true
  | b => b.isInteger

end Basic

/-- The name of a declared type: the path of its package and its name there. Predeclared names
belong to no package; their path is empty. -/
structure TypeName where
  path : String
  name : String
deriving DecidableEq, Repr, Inhabited

/-- Who declares a type parameter. A method of a generic declaration declares the parameters of its
receiver anew. -/
structure Binder where
  declaration : TypeName
  /-- The method whose receiver declares it; `none` for the declaration itself. -/
  method : Option String := none
deriving DecidableEq, Repr, Inhabited

/-- The directions in which a channel can be used. -/
inductive Direction
  | both
  | send
  | receive
deriving DecidableEq, Repr, Inhabited

/-- How an interface was written. -/
inductive InterfaceForm
  | literal
  /-- A constraint written without the word `interface`. -/
  | implicit
  /-- The predeclared constraint that all comparable types meet. -/
  | comparable
deriving DecidableEq, Repr, Inhabited

/-- A parameter, field or method: a type with the name it goes by. -/
structure Member (T : Type) where
  /-- The name; empty if there is none. -/
  name : String
  type : T
  /-- The path of the package it was written in. A name that is not exported belongs to it. -/
  home : String := ""
  /-- Whether a field is there by its type alone. -/
  embedded : Bool := false
  /-- The tag of a field: any bytes. -/
  tag : List UInt8 := []
deriving DecidableEq, Repr, Inhabited

/-- Whether a member goes by a given name as seen from a given package. -/
def Member.isNamed {T : Type} (m : Member T) (home name : String) : Bool :=
  m.name = name && (Text.isExported name || m.home = home)

/-- A type. -/
inductive Ty
  | basic (b : Basic)
  /-- A declared type or alias, with its arguments if it is an instance. -/
  | named (name : TypeName) (args : List Ty)
  /-- A type parameter of a declaration or of the receiver of one of its methods. -/
  | param (binder : Binder) (index : Nat) (label : String)
  | pointer (elem : Ty)
  | slice (elem : Ty)
  | array (length : Int) (elem : Ty)
  | map (key elem : Ty)
  | chan (dir : Direction) (elem : Ty)
  /-- A function type. The last parameter of a variadic one has a slice type. -/
  | func (params results : List (Member Ty)) (variadic : Bool)
  | struct (fields : List (Member Ty))
  | tuple (parts : List Ty)
  | interface (form : InterfaceForm) (methods : List (Member Ty)) (embeds : List Ty)
  /-- A union of types, as it may be embedded in an interface. -/
  | union (terms : List Ty)
  /-- All types with a given underlying type; a term of a union. -/
  | tilde (core : Ty)
deriving Repr, Inhabited

namespace Ty

/-- The type that stands for what could not be made sense of. -/
abbrev invalid : Ty := .basic .invalid

/-- The interface without methods. -/
abbrev emptyInterface : Ty := .interface .literal [] []

/-- Exported methods come before the others, and each group is in the order of the names; those of
one name that are not exported are in the order of their packages. -/
def methodOrder (a b : Member Ty) : Bool :=
  match Text.isExported a.name, Text.isExported b.name with
  | true, false => true
  | false, true => false
  | isExported, _ => a.name < b.name || (a.name = b.name && (isExported || a.home ≤ b.home))

/-- An interface, with its methods brought in order. -/
def ofMethods (form : InterfaceForm) (methods : List (Member Ty)) (embeds : List Ty) : Ty :=
  .interface form (methods.mergeSort methodOrder) embeds

/-! ### Equality of trees -/

mutual
/-- Whether two types are the same tree. -/
def beq : Ty → Ty → Bool
  | .basic a, .basic b => a = b
  | .named n xs, .named m ys => n = m && beqs xs ys
  | .param o i l, .param p j k => o = p && i = j && l = k
  | .pointer a, .pointer b => beq a b
  | .slice a, .slice b => beq a b
  | .array m a, .array n b => m = n && beq a b
  | .map k a, .map l b => beq k l && beq a b
  | .chan d a, .chan e b => d = e && beq a b
  | .func ps rs v, .func qs ss u => beqMembers ps qs && beqMembers rs ss && v = u
  | .struct fs, .struct gs => beqMembers fs gs
  | .tuple xs, .tuple ys => beqs xs ys
  | .interface f ms es, .interface g ns ds => f = g && beqMembers ms ns && beqs es ds
  | .union xs, .union ys => beqs xs ys
  | .tilde a, .tilde b => beq a b
  | _, _ => false
/-- Whether two lists of types are the same. -/
def beqs : List Ty → List Ty → Bool
  | [], [] => true
  | x :: xs, y :: ys => beq x y && beqs xs ys
  | _, _ => false
/-- Whether two lists of members are the same. -/
def beqMembers : List (Member Ty) → List (Member Ty) → Bool
  | [], [] => true
  | ⟨n, t, h, e, g⟩ :: xs, ⟨m, u, k, f, i⟩ :: ys =>
    n = m && beq t u && h = k && e = f && g = i && beqMembers xs ys
  | _, _ => false
end

mutual
theorem beq_eq : ∀ (a b : Ty), beq a b = true ↔ a = b
  | .basic a, b => by cases b <;> simp [beq]
  | .named n xs, b => by
    cases b with
    | named m ys => simp [beq, beqs_eq xs ys]
    | _ => simp [beq]
  | .param o i l, b => by cases b <;> simp [beq, and_assoc]
  | .pointer a, b => by
    cases b with
    | pointer b => simp [beq, beq_eq a b]
    | _ => simp [beq]
  | .slice a, b => by
    cases b with
    | slice b => simp [beq, beq_eq a b]
    | _ => simp [beq]
  | .array m a, b => by
    cases b with
    | array n b => simp [beq, beq_eq a b]
    | _ => simp [beq]
  | .map k a, b => by
    cases b with
    | map l b => simp [beq, beq_eq k l, beq_eq a b]
    | _ => simp [beq]
  | .chan d a, b => by
    cases b with
    | chan e b => simp [beq, beq_eq a b]
    | _ => simp [beq]
  | .func ps rs v, b => by
    cases b with
    | func qs ss u => simp [beq, beqMembers_eq ps qs, beqMembers_eq rs ss, and_assoc]
    | _ => simp [beq]
  | .struct fs, b => by
    cases b with
    | struct gs => simp [beq, beqMembers_eq fs gs]
    | _ => simp [beq]
  | .tuple xs, b => by
    cases b with
    | tuple ys => simp [beq, beqs_eq xs ys]
    | _ => simp [beq]
  | .interface f ms es, b => by
    cases b with
    | interface g ns ds => simp [beq, beqMembers_eq ms ns, beqs_eq es ds, and_assoc]
    | _ => simp [beq]
  | .union xs, b => by
    cases b with
    | union ys => simp [beq, beqs_eq xs ys]
    | _ => simp [beq]
  | .tilde a, b => by
    cases b with
    | tilde b => simp [beq, beq_eq a b]
    | _ => simp [beq]
theorem beqs_eq : ∀ (xs ys : List Ty), beqs xs ys = true ↔ xs = ys
  | [], ys => by cases ys <;> simp [beqs]
  | x :: xs, ys => by
    cases ys with
    | nil => simp [beqs]
    | cons y ys => simp [beqs, beq_eq x y, beqs_eq xs ys]
theorem beqMembers_eq : ∀ (xs ys : List (Member Ty)), beqMembers xs ys = true ↔ xs = ys
  | [], ys => by cases ys <;> simp [beqMembers]
  | ⟨n, t, h, e, g⟩ :: xs, ys => by
    cases ys with
    | nil => simp [beqMembers]
    | cons y ys =>
      obtain ⟨m, u, k, f, i⟩ := y
      simp [beqMembers, beq_eq t u, beqMembers_eq xs ys, and_assoc]
end

instance : DecidableEq Ty := fun a b => decidable_of_iff (beq a b = true) (beq_eq a b)

/-! ### Substitution -/

mutual
/-- The type with the parameters of a declaration, and of the receivers of its methods, replaced by
arguments. -/
def subst (owner : TypeName) (args : List Ty) : Ty → Ty
  | .basic b => .basic b
  | .named n xs => .named n (substAll owner args xs)
  | .param b i l =>
    if b.declaration = owner then args.getD i (.param b i l) else .param b i l
  | .pointer a => .pointer (subst owner args a)
  | .slice a => .slice (subst owner args a)
  | .array n a => .array n (subst owner args a)
  | .map k a => .map (subst owner args k) (subst owner args a)
  | .chan d a => .chan d (subst owner args a)
  | .func ps rs v => .func (substMembers owner args ps) (substMembers owner args rs) v
  | .struct fs => .struct (substMembers owner args fs)
  | .tuple xs => .tuple (substAll owner args xs)
  | .interface f ms es => .interface f (substMembers owner args ms) (substAll owner args es)
  | .union xs => .union (substAll owner args xs)
  | .tilde a => .tilde (subst owner args a)
/-- Substitution in a list of types. -/
def substAll (owner : TypeName) (args : List Ty) : List Ty → List Ty
  | [] => []
  | x :: xs => subst owner args x :: substAll owner args xs
/-- Substitution in a list of members. -/
def substMembers (owner : TypeName) (args : List Ty) : List (Member Ty) → List (Member Ty)
  | [] => []
  | ⟨n, t, h, e, g⟩ :: xs => ⟨n, subst owner args t, h, e, g⟩ :: substMembers owner args xs
end

mutual
/-- Whether a parameter of a declaration occurs in a type. -/
def mentions (owner : TypeName) : Ty → Bool
  | .basic _ => false
  | .named _ xs => mentionsAny owner xs
  | .param b _ _ => b.declaration = owner
  | .pointer a | .slice a | .array _ a | .chan _ a | .tilde a => mentions owner a
  | .map k a => mentions owner k || mentions owner a
  | .func ps rs _ => mentionsMember owner ps || mentionsMember owner rs
  | .struct fs => mentionsMember owner fs
  | .tuple xs | .union xs => mentionsAny owner xs
  | .interface _ ms es => mentionsMember owner ms || mentionsAny owner es
/-- Whether a parameter of a declaration occurs in one of a list of types. -/
def mentionsAny (owner : TypeName) : List Ty → Bool
  | [] => false
  | x :: xs => mentions owner x || mentionsAny owner xs
/-- Whether a parameter of a declaration occurs in the type of one of a list of members. -/
def mentionsMember (owner : TypeName) : List (Member Ty) → Bool
  | [] => false
  | ⟨_, t, _, _, _⟩ :: xs => mentions owner t || mentionsMember owner xs
end

end Ty

end EverEqual
