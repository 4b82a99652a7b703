import EverEqual.Expression.Cause
import EverEqual.Expression.Printer
import EverEqual.Expression.Scope
import EverEqual.Types.Instances
import EverEqual.Types.Unmet

/-!
# Operands and steps

To give an expression its meaning is to find an operand for each of its parts: a type, or a value
with its type. Some checks have to wait, because they need types that may not be complete yet, or
the body of a function, which may use names declared later on its way; they are put on a list of
tasks. The first fault that is met ends the whole.

A number without a type that was shifted by a number of places that is not known waits for its type,
and so do the constants that it is made of.

* `Operand`: what a part means, with `Operand.text`;
* `Task`: what is put off;
* `Check`: the steps, with what they have found out so far;
* `Rules`: the rules that call on each other.
-/

namespace EverEqual.Expression

/-- A constant that waits for the type of the number that it is a part of. -/
structure Leaf where
  position : Position
  text : String
  value : Constant
  /-- Whether its bits are moved, so that its type has to be whole. -/
  isShifted : Bool
deriving DecidableEq, Repr, Inhabited

/-- What kind of operand a part is. -/
inductive Mode
  /-- A call that gives nothing back. -/
  | nothing
  /-- A predeclared function that is not called. -/
  | function (name : String)
  | type
  | constant (value : Constant)
  /-- A value at a place, which can be assigned to and pointed to. -/
  | place
  /-- An element of a map, which can be assigned to. -/
  | entry
  | value
  /-- A number without a type whose constants wait for it. -/
  | pending (leaves : List Leaf)
  /-- A value that may fail to be there, which can be asked for with it. -/
  | checked
deriving DecidableEq, Repr, Inhabited

/-- What working out an operand amounts to. -/
inductive Effect
  | none
  | conversion
  /-- It does something, so it can stand as a statement. -/
  | action
deriving DecidableEq, Repr, Inhabited

/-- What a part of an expression means. -/
structure Operand where
  mode : Mode
  type : Ty
  expr : Expr
  effect : Effect := .none

instance : Inhabited Operand := ⟨⟨.value, .invalid, default, .none⟩⟩

/-- The words for a kind of operand. -/
def Mode.words : Mode → String
  | nothing => "no value"
  | function _ => "built-in"
  | type => "type"
  | constant _ => "constant"
  | place => "variable"
  | entry => "map index expression"
  | value | pending _ => "value"
  | checked => "comma, ok expression"

/-- The word for how a type is built; empty for predeclared types. -/
def Ty.formWord : Ty → String
  | .basic b => b.name
  | .array _ _ => "array"
  | .slice _ => "slice"
  | .struct _ => "struct"
  | .pointer _ => "pointer"
  | .func _ _ _ => "func"
  | .interface _ _ _ => "interface"
  | .map _ _ => "map"
  | .chan _ _ => "chan"
  | .tuple _ => "tuple"
  | _ => ""

/-- The predeclared type that a type consists of. -/
def basic? : Ty → Option Basic
  | .basic b => some b
  | _ => none

/-- Whether a type is that of a value without a type. -/
def isUntyped (t : Ty) : Bool :=
  (basic? t).any Basic.isUntyped

namespace Operand

/-- Whether an operand is the predeclared missing value. -/
def isNil (o : Operand) : Bool :=
  o.mode = .value && o.type = .basic .untypedNil

/-- The value of a constant operand. -/
def constant? (o : Operand) : Option Constant :=
  match o.mode with
  | .constant c => some c
  | _ => none

/-- The part of the text of an operand that tells its type. -/
def typeText (w : World) (shown : Ty → String) (t : Ty) : String :=
  let form := match t with
    | .named _ _ => Ty.formWord (w.underlying t) ++ " "
    | _ => ""
  match t with
  | .basic .invalid => " with invalid type"
  | .param b i _ =>
    " of type " ++ shown t ++ " constrained by " ++ shown ((w.constraint? b i).getD .emptyInterface)
  | _ => " of " ++ (if w.isGeneric t then "generic " else "") ++ form ++ "type " ++ shown t

/-- The text of an expression with what kind of operand it is. -/
def describe (w : World) (shown : Ty → String) (source : String) (mode : Mode) (type : Ty) :
    String :=
  let hasType := match mode with
    | .nothing | .function _ | .type => false
    | _ => true
  let kind := match basic? type with
    | some b => if hasType && b.isUntyped then b.name ++ " " else ""
    | none => ""
  let value := match mode with
    | .constant c => if c.render = source then "" else " " ++ c.render
    | _ => ""
  source ++ " (" ++ kind ++ mode.words ++ value ++
    (if hasType && !isUntyped type then typeText w shown type else "") ++ ")"

/-- The text of an operand in a message: the expression, and what kind of operand it is. -/
def text (w : World) (shown : Ty → String) (o : Operand) : String :=
  if o.isNil then "nil" else describe w shown o.expr.render o.mode o.type

end Operand

/-- What is put off. -/
inductive Task
  /-- The type of a value must not be an interface that is only for constraints. -/
  | valueType (position : Position) (t : Ty)
  /-- The values of a key type must be comparable. -/
  | keyType (position : Position) (t : Ty)
  | embedded (position : Position) (t : Ty)
  /-- The terms of a union must make sense and not overlap. -/
  | union (terms : List (Position × Ty))
  /-- The methods of an interface must have different names. -/
  | typeSet (methods : List (Position × Member Ty)) (embeds : List (Position × Ty))
  /-- Two methods of one name must have identical types. -/
  | sameMethod (position : Position) (m n : Member Ty)
  /-- The arguments of an instance must be as many as the parameters and meet their constraints. -/
  | arguments (position : Position) (positions : List Position) (name : TypeName) (args : List Ty)
  /-- The values of a declared type must not contain values of the type itself. -/
  | recursion (n : Name) (name : TypeName)
  /-- The body of a function. -/
  | body (scope : Scope) (statements : List Stmt) (closing : Position)

/-- A variable that is declared in a function. -/
structure Local where
  id : Nat
  function : Nat
  frame : Nat
  name : Name
deriving DecidableEq, Repr, Inhabited

/-- What has been found out so far. -/
structure Progress where
  world : World
  instances : Instances := {}
  /-- Where each instance is written first. -/
  written : List (Ty × Position) := []
  tasks : List Task := []
  locals : List Local := []
  /-- The numbers of the variables whose values are used. -/
  used : List Nat := []
  /-- Whether something was called or received since this was last reset. -/
  acted : Bool := false
  /-- The ends of the calls after which nothing is done. -/
  panics : List Position := []
  /-- The next number. -/
  next : Nat := 1

/-- A step on the way to a meaning. -/
abbrev Check := StateT Progress (Except MeaningError)

/-- Ends with a fault. -/
def fail {α : Type} (position : Position) (cause : Cause) : Check α :=
  throw ⟨position, cause⟩

/-- The world, with the types declared on the way. -/
def world : Check World :=
  return (← get).world

/-- Puts something off. -/
def later (t : Task) : Check Unit :=
  modify fun p => { p with tasks := p.tasks ++ [t] }

/-- A new number. -/
def fresh : Check Nat := do
  let n := (← get).next
  modify fun p => { p with next := n + 1 }
  return n

/-- Notes that the value of a variable is used. -/
def markUsed (kind : VarKind) : Check Unit :=
  match kind with
  | .block id => modify fun p => { p with used := id :: p.used }
  | _ => return

/-- Notes that something is called or received. -/
def markActed : Check Unit :=
  modify fun p => { p with acted := true }

/-- Runs steps and tells whether something is called or received in them. -/
def actedIn {α : Type} (steps : Check α) : Check (α × Bool) := do
  let before := (← get).acted
  modify fun p => { p with acted := false }
  let a ← steps
  let acted := (← get).acted
  modify fun p => { p with acted := before || acted }
  return (a, acted)

/-- The text of a type as it reads at a place. -/
def typeText (s : Scope) (t : Ty) : Check String := do
  return (← world).typeStringFrom s.package.path t

/-- The text of an operand as it reads at a place. -/
def operandText (s : Scope) (o : Operand) : Check String := do
  let w ← world
  return o.text w (w.typeStringFrom s.package.path)

/-- Ends with a fault about an operand. -/
def failAt {α : Type} (s : Scope) (o : Operand) (cause : String → Cause) : Check α := do
  fail o.expr.position (cause (← operandText s o))

/-- The rules that call on each other, down to some depth. -/
structure Rules where
  /-- A bound on the number of tasks. -/
  bound : Nat
  /-- What an expression means; the type is that of the elements that it is one of, and the flag
  says whether it may be a generic type. -/
  operand : Scope → Option Ty → Bool → Expr → Check Operand
  /-- The type that an expression stands for, which may be generic. -/
  type : Scope → Expr → Check Ty
  /-- Checks a statement and gives the scope after it. -/
  statement : Scope → Stmt → Check Scope

namespace Rules

/-- Nothing is known at depth zero. -/
def nothing : Rules :=
  ⟨0, fun _ _ _ e => return ⟨.value, .invalid, e, .none⟩, fun _ _ => return .invalid,
    fun s _ => return s⟩

variable (g : Rules)

/-- An operand that must not be one of several kinds of thing. -/
def excluding (s : Scope) (allowsType allowsFunction : Bool) (o : Operand) : Check Operand := do
  match o.mode with
  | .nothing =>
    failAt s o fun text => .misused text (if allowsType then .valueOrType else .value)
  | .function _ =>
    if allowsFunction then return o else failAt s o fun text => .misused text .uncalled
  | .type => if allowsType then return o else failAt s o fun text => .misused text .expression
  | _ =>
    match o.type with
    | .tuple _ => failAt s o .manyValues
    | _ => return o

/-- What an expression means that is a value. -/
def value (s : Scope) (e : Expr) : Check Operand := do
  excluding s false false (← g.operand s none false e)

/-- What an element of a composed value means. -/
def element (s : Scope) (t : Ty) (e : Expr) : Check Operand := do
  excluding s false false (← g.operand s (some t) false e)

/-- What an expression means that is a value, a type or a predeclared function. -/
def valueOrType (s : Scope) (allowsGeneric : Bool) (e : Expr) : Check Operand := do
  excluding s true true (← g.operand s none allowsGeneric e)

/-- Looks at an expression of which the value does not matter. The blank name may stand there. -/
def use (s : Scope) (e : Expr) : Check Unit := do
  match e.unparen with
  | .name n =>
    if n.text ≠ "_" then
      let _ ← g.valueOrType s true (.name n)
  | _ =>
    let _ ← g.operand s none false e

/-- The type that an expression stands for. -/
def definedType (s : Scope) (e : Expr) : Check Ty := do
  let t ← g.type s e
  if (← world).isGeneric t then fail e.position (.genericAlone (← typeText s t)) else return t

/-- The type of a value that an expression stands for. -/
def valueType (s : Scope) (e : Expr) : Check Ty := do
  let t ← g.definedType s e
  later (.valueType e.position t)
  return t

end Rules

end EverEqual.Expression
