import EverEqual.Expression.Meaning.Operators

/-!
# Parts of values

What stands behind a pointer, an element of a sequence or map, a part of a sequence, and a value
taken as being of a type.

* `Rules.starOperand`, `Rules.indexOperand`, `Rules.sliceOperand`, `Rules.assertionOperand`: these
  four;
* `Rules.indexValue`: an index, which must be a whole number within its bounds.
-/

namespace EverEqual.Expression

/-- Something that has elements: how an element is to be used, its type, and the number of elements
if it is known. -/
structure Sequence where
  mode : Mode
  elem : Ty
  length : Option Int := none

/-- The elements of an operand. -/
def sequence? (w : World) (o : Operand) : Option Sequence :=
  match w.underlying o.type with
  | .basic b =>
    if b.isString then
      let length := match o.mode with
        | .constant (.text bytes) => some (bytes.length : Int)
        | .constant _ => some 0
        | _ => none
      some ⟨.value, .basic .byte, length⟩
    else none
  | .array n e => some ⟨if o.mode = .place then .place else .value, e, some n⟩
  | .slice e => some ⟨.place, e, none⟩
  | .pointer p =>
    match w.underlying p with
    | .array n e => some ⟨.place, e, some n⟩
    | _ => none
  | _ => none

namespace Rules

variable (g : Rules)

/-- A type with a star is a pointer type; a value with a star is what the pointer leads to. -/
def starOperand (s : Scope) (e inner : Expr) : Check Operand := do
  let o ← g.valueOrType s false inner
  match o.mode, (← world).underlying o.type with
  | .type, _ =>
    later (.valueType inner.position o.type)
    return ⟨.type, .pointer o.type, e, .none⟩
  | .function _, _ => failAt s o (.refused .indirect)
  | _, .pointer t => return ⟨.place, t, e, .none⟩
  | _, .basic .invalid => return ⟨.place, .invalid, e, .none⟩
  | _, _ => failAt s o (.refused .indirect)

/-! ### Elements -/

/-- A whole number as an operand that is not negative; its value, if it is a constant. -/
def wholeValue (s : Scope) (what : String) (o : Operand) : Check (Option Int) := do
  let o ← adapt s o (.basic .int)
  if o.type ≠ .invalid && !isBasic (← world) (·.isInteger) o.type then
    failAt s o (.indexNotWhole what)
  match o.constant?.bind Constant.toInt? with
  | none => return none
  | some n =>
    if n < 0 then failAt s o (.indexNegative what)
    else if !Width.holds ⟨true, 64⟩ n then failAt s o (.indexOverflows what)
    else return some n

/-- An index below a bound, if there is one; its value, if it is a constant. -/
def indexValue (s : Scope) (bound : Option Int) (e : Expr) : Check (Option Int) := do
  let o ← g.value s e
  let n? ← wholeValue s "index" o
  match n?, bound with
  | some n, some b =>
    if n ≥ b then fail o.expr.position (.indexBeyond (toString n) b) else return n?
  | _, _ => return n?

/-- The one index that there has to be. -/
def singleIndex (args : List Expr) : Check Expr :=
  match args with
  | [e] => return e
  | _ :: f :: _ => fail f.position .manyIndices
  | [] => return default

/-- An element of a sequence or map, or an instance of a generic type. -/
def indexOperand (s : Scope) (base : Expr) (args : List Expr) : Check Operand := do
  let e := Expr.index base args
  let w ← world
  let o ← g.valueOrType s true base
  match o.mode, w.underlying o.type with
  | .type, _ => return ⟨.type, ← g.valueType s e, e, .none⟩
  | .function _, _ => failAt s o .noIndex
  | _, .map k t =>
    let key ← g.value s (← singleIndex args)
    let _ ← assign s key (some k) "map index"
    return ⟨.entry, t, e, .none⟩
  | _, .basic .invalid =>
    let _ ← args.mapM (g.value s)
    return ⟨.value, .invalid, e, .none⟩
  | _, _ =>
    match sequence? w o with
    | none => failAt s o .noIndex
    | some q =>
      let _ ← g.indexValue s q.length (← singleIndex args)
      return ⟨q.mode, q.elem, e, .none⟩

/-! ### Slices -/

/-- The type of a part of an operand, and the number of its elements if it is known. -/
def sliceType (s : Scope) (o : Operand) (limit : Option Expr) : Check (Ty × Option Int) := do
  let w ← world
  match w.underlying o.type, sequence? w o with
  | .basic b, some q =>
    match limit with
    | some e => fail e.position .limitOfText
    | none => return (if b.isUntyped then .basic .string else o.type, q.length)
  | .array _ _, some q =>
    if o.mode = .place then return (.slice q.elem, q.length) else failAt s o .sliceOfValue
  | .slice _, some _ => return (o.type, none)
  | _, some q => return (.slice q.elem, q.length)
  | .basic .invalid, none => return (.invalid, none)
  | _, none => failAt s o .noSlice

/-- A bound of a part, which may reach the length. -/
def sliceBound (s : Scope) (length : Option Int) : Option Expr → Check (Option Int)
  | none => return none
  | some e => g.indexValue s (length.map (· + 1)) e

/-- The first pair of bounds that are in the wrong order, with the position of the later one. -/
def swapped? : List (Option Int × Position) → Option (Int × Int × Position)
  | [] => none
  | (none, _) :: rest => swapped? rest
  | (some x, _) :: rest =>
    match rest.findSome? fun (y?, p) => y?.bind fun y => if y < x then some (y, p) else none with
    | some (y, p) => some (y, x, p)
    | none => swapped? rest

/-- A part of a sequence. -/
def sliceOperand (s : Scope) (base : Expr) (low high limit : Option Expr) : Check Operand := do
  let e := Expr.slice base low high limit
  let o ← g.value s base
  let (type, length) ← sliceType s o limit
  let l ← g.sliceBound s length low
  let h ← g.sliceBound s length high
  let m ← g.sliceBound s length limit
  let place (b : Option Expr) := (b.map (·.position)).getD e.position
  match swapped? [(l, place low), (h, place high), (m, place limit)] with
  | some (y, x, p) => fail p (.bounds y x)
  | none => return ⟨.value, type, e, .none⟩

/-- Why a value of an interface cannot be of a type, if it cannot. -/
def unassertable? (w : World) (home : String) (t target : Ty) : Option String :=
  match w.underlying t, w.underlying target with
  | _, .basic .invalid | _, .interface _ _ _ => none
  | .interface f ms es, _ =>
    (w.unmetMethods? target (w.typeSet (.interface f ms es))).map (·.detail w home target t)
  | _, _ => none

/-- A value of an interface taken as being of a type. -/
def assertionOperand (s : Scope) (base : Expr) (type : Option Expr) : Check Operand := do
  let e := Expr.assertion base type
  let o ← g.value s base
  match type with
  | none => fail e.position .typeQuestion
  | some t =>
    let w ← world
    if o.type ≠ .invalid && !w.isInterface o.type then failAt s o .notInterface
    else
      let target ← g.valueType s t
      match unassertable? w s.package.path o.type target with
      | some why =>
        let type ← typeText s o.type
        fail e.position (.impossibleAssertion e.render (← typeText s target) type why)
      | none => return ⟨.checked, target, e, .none⟩

end Rules

end EverEqual.Expression
