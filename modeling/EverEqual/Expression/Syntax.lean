import EverEqual.Expression.Token
import EverEqual.Types.Basic

/-!
# Expressions

The tree of an expression, with names as they are written and positions where they matter. A type
and a value are both expressions; which of the two a name is, is not known yet. A function that is
written out has statements in its body, so they are part of the tree.

* `Expr`, `Stmt`: the trees;
* `Expr.position`: where an expression starts;
* `Expr.unparen`: an expression without parentheses around it;
* `Expr.baseName?`: the name that an embedded field gets from its type.
-/

namespace EverEqual.Expression

/-- A name with its position. -/
structure Name where
  position : Position
  text : String
deriving DecidableEq, Repr, Inhabited

/-- Fields or parameters that share a type. An embedded field has no name. -/
structure Field (E : Type) where
  names : List Name := []
  type : E
  tag : List UInt8 := []

/-- An element of an interface: a method, by its name and function type, or an embedded type. -/
structure Element (E : Type) where
  name : Option Name := none
  type : E

/-- A clause of a choice: what it is for, or nothing for all that is left, and its statements. -/
structure Clause (G S : Type) where
  position : Position
  guard : Option G
  body : List S

/-- What a declaration declares. -/
inductive DeclarationKind
  | const
  | var
  | type
  /-- Another name for a type. -/
  | synonym
deriving DecidableEq, Repr, Inhabited

/-- A declaration of names: the type and the values are optional, except that of a type name. -/
structure Spec (E : Type) where
  kind : DeclarationKind
  names : List Name
  /-- The type parameters of a type. -/
  params : List (Field E) := []
  type : Option E
  values : List E := []
  /-- The number of declarations before it in its group. -/
  index : Nat := 0

mutual
/-- An expression. -/
inductive Expr
  | name (n : Name)
  | number (position : Position) (n : Numeral)
  | text (position : Position) (bytes : List UInt8) (source : String)
  | character (position : Position) (code : Nat) (source : String)
  | paren (position : Position) (inner : Expr)
  /-- A name of a package, or a member of a value or type. -/
  | select (base : Expr) (name : Name)
  /-- Arguments in brackets: an instance or an element. -/
  | index (base : Expr) (args : List Expr)
  /-- A part of a sequence. -/
  | slice (base : Expr) (low high limit : Option Expr)
  /-- A value taken as being of a type; without a type, the question which type it has. -/
  | assertion (base : Expr) (type : Option Expr)
  /-- A call or conversion, by the position of its end; the last argument may be spread over
  parameters, by dots at a position. -/
  | call (callee : Expr) (args : List Expr) (dots : Option Position) (closing : Position)
  | star (position : Position) (inner : Expr)
  | unary (position : Position) (op : String) (inner : Expr)
  /-- An operator between two values, by its position. -/
  | binary (left : Expr) (position : Position) (op : String) (right : Expr)
  /-- A key with a value, as an element of a composed value. -/
  | pair (key value : Expr)
  /-- A composed value, by its type unless it is left out, its braces and its elements. -/
  | composite (type : Option Expr) (opening closing : Position) (elements : List Expr)
  /-- A function with its body and the position of the closing brace. -/
  | function (type : Expr) (body : List Stmt) (closing : Position)
  | sliceType (position : Position) (elem : Expr)
  | arrayType (position : Position) (length elem : Expr)
  /-- An array whose length follows from its elements; the second position is that of the dots. -/
  | openArrayType (position dots : Position) (elem : Expr)
  | mapType (position : Position) (key elem : Expr)
  | chanType (position : Position) (dir : Direction) (elem : Expr)
  | funcType (position : Position) (params results : List (Field Expr))
  | structType (position : Position) (fields : List (Field Expr))
  | interfaceType (position : Position) (elements : List (Element Expr))
  /-- The type of a parameter that takes any number of values. -/
  | variadic (position : Position) (elem : Expr)
/-- A statement. -/
inductive Stmt
  | empty
  | eval (e : Expr)
  /-- A value for a channel, by the position of the arrow. -/
  | send (position : Position) (channel value : Expr)
  /-- An increment or decrement. -/
  | step (e : Expr) (op : String)
  /-- An assignment or, with the sign for it, a declaration of variables; by the position of the
  sign. -/
  | assign (position : Position) (left : List Expr) (op : String) (right : List Expr)
  /-- A call that runs beside the function or at its end. -/
  | launch (word : String) (call : Expr)
  | giveBack (position : Position) (values : List Expr)
  /-- A jump, by its word and label. -/
  | jump (position : Position) (word : String) (label : Option Name)
  | block (body : List Stmt)
  | branch (start : Option Stmt) (condition : Expr) (body : List Stmt) (otherwise : Option Stmt)
  | choose (start : Option Stmt) (subject : Option Expr) (clauses : List (Clause (List Expr) Stmt))
  /-- A choice by the type of a value, which may get a name for each clause. -/
  | chooseType (start : Option Stmt) (name : Option Name) (subject : Expr)
    (clauses : List (Clause (List Expr) Stmt))
  | chooseReady (clauses : List (Clause Stmt Stmt))
  | loop (start : Option Stmt) (condition : Option Expr) (next : Option Stmt) (body : List Stmt)
  /-- A loop over elements, which go to at most two places, declared anew or not; by the position of
  the sign after them. -/
  | range (position : Position) (left : List Expr) (declares : Bool) (subject : Expr)
    (body : List Stmt)
  | labelled (label : Name) (body : Stmt)
  | declare (position : Position) (specs : List (Spec Expr))
end

instance : Inhabited Expr := ⟨.name default⟩

instance : Inhabited Stmt := ⟨.empty⟩

namespace Expr

/-- Where an expression starts. -/
def position : Expr → Position
  | .name n => n.position
  | .select base _ | .index base _ | .slice base _ _ _ | .assertion base _ | .call base _ _ _
  | .binary base _ _ _ | .pair base _ | .function base _ _ | .composite (some base) _ _ _ =>
    base.position
  | .number p _ | .text p _ _ | .character p _ _ | .paren p _ | .star p _ | .unary p _ _
  | .composite none p _ _ | .sliceType p _ | .arrayType p _ _ | .openArrayType p _ _
  | .mapType p _ _ | .chanType p _ _ | .funcType p _ _ | .structType p _ | .interfaceType p _
  | .variadic p _ => p

/-- An expression without parentheses around it. -/
def unparen : Expr → Expr
  | .paren _ inner => inner.unparen
  | e => e

/-- Whether an expression is in parentheses. -/
def isParen : Expr → Bool
  | .paren _ _ => true
  | _ => false

/-- The name that an embedded field gets from its type. -/
def baseName? : Expr → Option Name
  | .name n => some n
  | .select _ n => some n
  | .index base _ => base.baseName?
  | .star _ (.star _ _) => none
  | .star _ inner => inner.baseName?
  | _ => none

/-- The name that an expression consists of. -/
def name? : Expr → Option Name
  | .name n => some n
  | _ => none

end Expr

end EverEqual.Expression
