import EverEqual.Expression.Meaning.Fit

/-!
# Values for places

A value can go to a place if its type is that of the place, or near enough to it. A value without a
type first takes that of the place; for an interface or a place without a type it takes the type
that it has if nothing else is said.

* `unassignable?`: why a value of one type cannot go to a place of another one;
* `isAssignable`: whether an operand can go to a place;
* `assign`: a value for a place.
-/

namespace EverEqual.Expression

/-- Whether a type goes by a name. -/
def hasName : Ty → Bool
  | .basic _ | .named _ _ | .param _ _ _ => true
  | _ => false

/-- Whether a type is a channel type with both directions, and another one a channel type with the
same elements. -/
def narrowsChannel (w : World) (t target : Ty) : Bool :=
  match t, target with
  | .chan .both a, .chan _ b => w.identical a b
  | _, _ => false

/-- Why a value of one type cannot go to a place of another one: nothing if it can, else a text that
may be empty. -/
def unassignable? (w : World) (home : String) (t target : Ty) : Option String :=
  let source := w.unalias t
  let place := w.unalias target
  let under := w.underlying t
  let goal := w.underlying target
  let isAnonymous := !hasName source || !hasName place
  if under = .invalid || goal = .invalid || w.identical source place then none
  else if w.identical under goal && isAnonymous then none
  else if w.isInterface place || w.isInterfacePointer goal then
    (w.unmet? .implement source place).map fun reason =>
      ": " ++ reason.message w home .implement source place
  else if w.isInterface source && (w.unmet? .implement place source).isNone then
    some ": need type assertion"
  else if narrowsChannel w under goal && isAnonymous then none
  else some ""

/-- Why an operand cannot go to a place of a type: nothing if it can, else a text that may be
empty. -/
def Operand.unassignable? (w : World) (home : String) (o : Operand) (target : Ty) :
    Option String :=
  if isUntyped o.type && !w.identical o.type target then
    match fit w o target with
    | .ok _ => none
    | .error _ => some ""
  else Expression.unassignable? w home o.type target

/-- Whether an operand can go to a place of a type. -/
def Operand.isAssignable (w : World) (o : Operand) (target : Ty) : Bool :=
  (o.unassignable? w "" target).isNone

/-- Ends with the fault that an operand cannot go to a place. -/
def cannotUse {α : Type} (s : Scope) (o : Operand) (target : Ty) (context detail : String) :
    Check α := do
  let type ← typeText s target
  failAt s o fun text => .cannotUse text type context detail

/-- The text for a misfit of a constant. -/
def Misfit.detail : Misfit → String
  | kind => ""
  | truncated => " (truncated)"
  | overflows => " (overflows)"

/-- An operand with a type, for a place of a type or for any place. -/
def typedFor (s : Scope) (o : Operand) (target : Option Ty) (context : String) :
    Check Operand := do
  let w ← world
  if !isUntyped o.type then return o
  else if target.isNone && o.isNil then fail o.expr.position (.untypedNil context)
  else
    let goal := match target with
      | some t => if w.isInterface t then defaultType o.type else t
      | none => defaultType o.type
    match fit w o goal with
    | .ok p => settleType s o p
    | .error misfit => cannotUse s o goal context misfit.detail

/-- A value for a place of a type, or for any place; it is returned as it goes there. -/
def assign (s : Scope) (o : Operand) (target : Option Ty) (context : String) : Check Operand := do
  let o ← typedFor s o target context
  match target with
  | none => return o
  | some t =>
    let w ← world
    match o.unassignable? w s.package.path t with
    | some detail => cannotUse s o t context detail
    | none => return o

end EverEqual.Expression
