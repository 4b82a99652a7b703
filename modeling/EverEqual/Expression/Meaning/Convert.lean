import EverEqual.Expression.Literal
import EverEqual.Expression.Meaning.Assign

/-!
# Conversions

A value can be converted to a type if it could go to a place of that type, and in some more cases:
between types with one underlying type, between numbers, between texts and sequences of bytes or
characters, and from slices to arrays. A constant is converted to a constant if the type can have
constants; a whole number becomes the text of the character with that number.

* `converts`: whether values of one type can be converted to another one;
* `convertConstant?`: the constant that a constant is converted to;
* `convert`: a value converted to a type.
-/

namespace EverEqual.Expression

/-- Whether a type is a slice of bytes or of characters. -/
def isByteSequence (w : World) (t : Ty) : Bool :=
  match w.underlying t with
  | .slice e => [some .uint8, some .byte, some .int32, some .rune].contains (underlyingBasic? w e)
  | _ => false

/-- Whether a type is a predeclared one of some kind. -/
def isBasic (w : World) (kind : Basic → Bool) (t : Ty) : Bool :=
  (underlyingBasic? w t).any kind

/-- Whether two types have underlying types that are identical apart from tags, directly or behind
pointers. -/
def sharesUnderlying (w : World) (t target : Ty) : Bool :=
  let alike (a b : Ty) := w.identicalUntagged (w.underlying a) (w.underlying b)
  alike t target ||
    match w.unalias t, w.unalias target with
    | .pointer a, .pointer b => alike a b
    | _, _ => false

/-- Whether a slice type can be converted to an array or to a pointer to one. -/
def slicesToArray (w : World) (t target : Ty) : Bool :=
  match w.underlying t, w.underlying target with
  | .slice a, .array _ b => w.identical a b
  | .slice a, .pointer p =>
    match w.underlying p with
    | .array _ b => w.identical a b
    | _ => false
  | _, _ => false

/-- Whether values of one type can be converted to another one, apart from assignment. -/
def converts (w : World) (t target : Ty) : Bool :=
  let real := isBasic w fun b => b.isNumeric && !b.isComplex
  let complex := isBasic w fun b => b.isComplex
  let text := isBasic w fun b => b.isString
  let whole := isBasic w fun b => b.isInteger
  let pointer := fun t => match w.underlying t with
    | .pointer _ | .basic .uintptr => true
    | _ => false
  let unsafePointer := isBasic w (· = .unsafePointer)
  sharesUnderlying w t target || (real t && real target) || (complex t && complex target) ||
    (text target && (whole t || isByteSequence w t)) || (text t && isByteSequence w target) ||
    (pointer t && unsafePointer target) || (unsafePointer t && pointer target) ||
    slicesToArray w t target

/-- Whether constants can have a type. -/
def isConstantType (w : World) (t : Ty) : Bool :=
  isBasic w (fun b => b.isBoolean || b.isString || b.isNumeric) t

/-- The text of the character with a number, of which only the last 32 bits count. What is no
character becomes the replacement character. -/
def characterText (n : Int) : List UInt8 :=
  let code := if Width.holds ⟨false, 64⟩ n then charOf? (n.toNat % Nat.pow 2 32) else none
  String.utf8EncodeChar (code.getD '\uFFFD')

/-- The constant that a constant is converted to, if it can be. -/
def convertConstant? (w : World) (t target : Ty) (c : Constant) : Option Constant :=
  match underlyingBasic? w t, underlyingBasic? w target with
  | some b, some goal =>
    match goal.represent? c with
    | some d => some d
    | none =>
      if b.isInteger && goal.isString then c.toInt?.map fun n => .text (characterText n)
      else none
  | _, _ => none

/-- A constant as it is shown when it cannot be converted: a whole number if that is asked for. -/
def triedConstant (w : World) (target : Ty) (c : Constant) : Constant :=
  if isBasic w (·.isInteger) target then (c.toInt?.map Constant.ofInt).getD c else c

/-- Ends with the fault that a constant cannot be converted. -/
def cannotConvert {α : Type} (s : Scope) (o : Operand) (target : Ty) (c : Constant) :
    Check α := do
  let w ← world
  let type ← typeText s target
  let tried := triedConstant w target c
  if isBasic w (·.isInteger) o.type && isBasic w (·.isInteger) target then
    fail o.expr.position (.overflows ("constant " ++ tried.render) type)
  else failAt s { o with mode := .constant tried } fun text => .conversion text type ""

/-- The type that an operand without one has before it is converted. -/
def typeBefore (w : World) (o : Operand) (target : Ty) : Ty :=
  if w.isInterface target || o.constant?.isSome then defaultType o.type else target

/-- A value converted to a type. -/
def convert (s : Scope) (o : Operand) (target : Ty) (e : Expr) : Check Operand := do
  let w ← world
  let result (mode : Mode) : Operand := ⟨mode, target, e, .conversion⟩
  match isConstantType w target, o.constant? with
  | true, some c =>
    match convertConstant? w o.type target c with
    | some d => return result (.constant d)
    | none => cannotConvert s o target c
  | _, _ =>
    match o.unassignable? w s.package.path target with
    | some detail =>
      if !converts w o.type target then
        let type ← typeText s target
        failAt s o fun text => .conversion text type detail
    | none => pure ()
    if isUntyped o.type && !o.isNil then settleLeaves s o (typeBefore w o target)
    return result .value

end EverEqual.Expression
