import EverEqual.Expression.Meaning.Arguments

/-!
# Predeclared functions

Each predeclared function has a rule of its own: for how many arguments it takes, of which types
they are, and what it gives back. Two of them take a type. A call is constant if all it depends on
is.

* `arity`: how many arguments a function takes;
* `Rules.predeclaredCall`: a call of a predeclared function.
-/

namespace EverEqual.Expression

/-- How many arguments a predeclared function takes at least, and whether it takes more. -/
def arity (name : String) : Nat × Bool :=
  if name = "append" || name = "make" || name = "max" || name = "min" then (1, true)
  else if name = "print" || name = "println" then (0, true)
  else if name = "complex" || name = "copy" || name = "delete" then (2, false)
  else if name = "recover" then (0, false)
  else (1, false)

/-! ### Slices, maps and channels -/

/-- The length of a value, as a constant if it does not depend on anything that happens. -/
def lengthOperand (s : Scope) (e : Expr) (name : String) (acted : Bool) (o : Operand) :
    Check Operand := do
  let w ← world
  let known (n : Option Int) : Operand :=
    match n with
    | some n => ⟨.constant (.ofInt n), .basic .int, e, .none⟩
    | none => ⟨.value, .basic .int, e, .none⟩
  match w.underlying o.type, sequence? w o with
  | .basic .invalid, _ => return known none
  | .basic _, some q => if name = "len" then return known q.length else
    failAt s o fun text => .functionArgument text name
  | .map _ _, _ => if name = "len" then return known none else
    failAt s o fun text => .functionArgument text name
  | .chan _ _, _ => return known none
  | _, some q => return known (if acted then none else q.length)
  | _, none => failAt s o fun text => .functionArgument text name

/-- Whether a value can go to a place for a slice of bytes. -/
def isByteSlice (w : World) (o : Operand) : Bool :=
  o.isAssignable w (.slice (.basic .byte))

/-- Whether a type is a text type. -/
def isText (w : World) (t : Ty) : Bool :=
  isBasic w (·.isString) t

/-- The type of the elements of a slice, for a function of a name. -/
def sliceElement (s : Scope) (name : String) (o : Operand) : Check Ty := do
  match (← world).underlying o.type with
  | .slice elem => return elem
  | .basic .invalid => return .invalid
  | _ =>
    if o.isNil then fail o.expr.position (.noSliceArgument name "untyped nil")
    else failAt s o (.noSliceArgument name)

/-- A slice with elements added. A text can be added to bytes. -/
def appendOperand (s : Scope) (c : Call) : List Operand → Check Operand
  | [] => return default
  | o :: rest => do
    let w ← world
    let elem ← sliceElement s "append" o
    let addsText := match rest with
      | [y] => c.dots.isSome && isByteSlice w o && isText w y.type
      | _ => false
    if !addsText then passArguments s c [o.type, .slice elem] true (o :: rest)
    return ⟨.value, o.type, c.expr, .none⟩

/-- Elements of one slice for another one. A text can be copied to bytes. -/
def copyOperand (s : Scope) (e : Expr) (x y : Operand) : Check Operand := do
  let w ← world
  if !(isByteSlice w x && isText w y.type) then
    let elem ← sliceElement s "copy" x
    let other ← if isText w y.type then pure (Ty.basic .byte) else sliceElement s "copy" y
    if elem ≠ .invalid && other ≠ .invalid && !w.identical elem other then
      let texts := (← operandText s x, ← operandText s y)
      let types := (← typeText s elem, ← typeText s other)
      fail x.expr.position (.copiedElements texts.1 texts.2 types.1 types.2)
  return ⟨.value, .basic .int, e, .action⟩

/-- All elements of a map or slice are removed. -/
def clearOperand (s : Scope) (e : Expr) (o : Operand) : Check Operand := do
  match (← world).underlying o.type with
  | .map _ _ | .slice _ | .basic .invalid => return ⟨.nothing, .invalid, e, .action⟩
  | _ => failAt s o .cleared

/-- A channel is closed. -/
def closeOperand (s : Scope) (e : Expr) (o : Operand) : Check Operand := do
  match (← world).underlying o.type with
  | .chan .receive _ => failAt s o (.refused .closeBackward)
  | .chan _ _ | .basic .invalid => return ⟨.nothing, .invalid, e, .action⟩
  | _ => failAt s o (.refused .close)

/-- An element of a map is removed. -/
def deleteOperand (s : Scope) (e : Expr) (o key : Operand) : Check Operand := do
  match (← world).underlying o.type with
  | .map k _ =>
    let _ ← assign s key (some k) "argument to delete"
    return ⟨.nothing, .invalid, e, .action⟩
  | .basic .invalid => return ⟨.nothing, .invalid, e, .action⟩
  | _ => failAt s o .noMap

/-! ### Numbers -/

/-- The greatest or least of values that have an order. -/
def extremeOperand (s : Scope) (e : Expr) (name : String) : List Operand → Check Operand
  | [] => return default
  | o :: rest => do
    let w ← world
    let checkOrder (x : Operand) : Check Unit := do
      if x.type ≠ .invalid && !isBasic w isOrdered x.type then failAt s x .unordered
    checkOrder o
    let x ← rest.foldlM (fun x y => do
      checkOrder y
      let (x, y) ← matched s x y
      if x.type ≠ .invalid && y.type ≠ .invalid && !w.identical x.type y.type then
        fail y.expr.position
          (.mismatchedArgument (← typeText s x.type) (← typeText s y.type) y.expr.render)
      match x.constant?, y.constant? with
      | some c, some d =>
        let isMore := d.compare (if name = "max" then ">" else "<") c = .bool true
        return if isMore then y else x
      | _, _ =>
        let leaves := if isUntyped x.type then x.leaves ++ y.leaves else []
        return { x with mode := if leaves.isEmpty then .value else .pending leaves }) o
    if x.constant?.isSome then return ⟨x.mode, x.type, e, .none⟩
    else
      let mode := x.resultMode
      let x ← assign s { x with mode } (some .emptyInterface) ("argument to built-in " ++ name)
      return ⟨.value, x.type, e, .none⟩

/-- The complex type whose parts have a type. -/
def complexOf? : Basic → Option Basic
  | .float32 => some .complex64
  | .float64 => some .complex128
  | .untypedFloat => some .untypedComplex
  | _ => none

/-- The type of the parts of a complex type. -/
def partOf? : Basic → Option Basic
  | .complex64 => some .float32
  | .complex128 => some .float64
  | .untypedComplex => some .untypedFloat
  | _ => none

/-- A constant number without a type as one with a fraction. -/
def asFraction (o : Operand) : Operand :=
  match o.constant?, basic? o.type with
  | some c, some b =>
    if b.isNumeric && (c.toReal?.isSome || c = .unknown) then
      { o with type := .basic .untypedFloat }
    else o
  | _, _ => o

/-- The complex number with two parts. -/
def complexOperand (s : Scope) (e : Expr) (x y : Operand) : Check Operand := do
  let w ← world
  let (x, y) ← match isUntyped x.type, isUntyped y.type with
    | false, false => pure (x, y)
    | true, false => pure (← adapt s x y.type, y)
    | false, true => pure (x, ← adapt s y x.type)
    | true, true =>
      if x.constant?.isSome && y.constant?.isSome then pure (asFraction x, asFraction y)
      else pure (← adapt s x (.basic .float64), ← adapt s y (.basic .float64))
  if x.type = .invalid || y.type = .invalid then return ⟨.value, .invalid, e, .none⟩
  if !w.identical x.type y.type then
    fail x.expr.position (.mismatched e.render (← typeText s x.type) (← typeText s y.type))
  match (underlyingBasic? w x.type).bind complexOf? with
  | none => fail x.expr.position (.notFloating (← typeText s x.type))
  | some b =>
    let mode := match x.constant?, y.constant? with
      | some c, some d =>
        Mode.constant (.ofParts? (c.toReal?.map (·.toFraction)) (d.toReal?.map (·.toFraction)))
      | _, _ => .value
    return ⟨mode, .basic b, e, .none⟩

/-- The real or the imaginary part of a complex number. -/
def partOperand (s : Scope) (e : Expr) (name : String) (o : Operand) : Check Operand := do
  let w ← world
  let isNumber := (basic? o.type).any fun b => b.isUntyped && b.isNumeric
  let o ← if !isUntyped o.type then pure o
    else if o.constant?.isNone then adapt s o (.basic .complex128)
    else pure (if isNumber then { o with type := Ty.basic .untypedComplex } else o)
  if o.type = .invalid then return ⟨.value, .invalid, e, .none⟩
  match (underlyingBasic? w o.type).bind partOf? with
  | none => fail o.expr.position (.notComplex (← typeText s o.type))
  | some b =>
    let mode := match o.constant? with
      | none => Mode.value
      | some c =>
        match c.parts? with
        | some (re, im) => .constant (.real (if name = "real" then re else im))
        | none => .constant .unknown
    return ⟨mode, .basic b, e, .none⟩

/-! ### All predeclared functions -/

/-- What a predeclared function makes of its arguments, once they are worked out. -/
def predeclaredResult (s : Scope) (c : Call) (name : String) (acted : Bool)
    (args : List Operand) : Check Operand := do
  let e := c.expr
  match name, args with
  | "len", [o] | "cap", [o] => lengthOperand s e name acted o
  | "append", args => appendOperand s c args
  | "copy", [x, y] => copyOperand s e x y
  | "clear", [o] => clearOperand s e o
  | "close", [o] => closeOperand s e o
  | "delete", [o, key] => deleteOperand s e o key
  | "max", args | "min", args => extremeOperand s e name args
  | "complex", [x, y] => complexOperand s e x y
  | "real", [o] | "imag", [o] => partOperand s e name o
  | "panic", [o] =>
    let _ ← assign s o (some .emptyInterface) "argument to panic"
    return ⟨.nothing, .invalid, e, .action⟩
  | "print", args | "println", args =>
    for o in args do
      let _ ← assign s o none ("argument to built-in " ++ name)
    return ⟨.nothing, .invalid, e, .action⟩
  | "recover", _ => return ⟨.value, .emptyInterface, e, .action⟩
  | _, _ => return ⟨.nothing, .invalid, e, .action⟩

namespace Rules

variable (g : Rules)

/-- A new value of a type, or a copy of a value, by a pointer to it. -/
def newOperand (s : Scope) (e arg : Expr) : Check Operand := do
  let o ← g.valueOrType s false arg
  match o.mode with
  | .type =>
    later (.valueType arg.position o.type)
    return ⟨.value, .pointer o.type, e, .none⟩
  | .function _ => failAt s o fun text => .misused text .uncalled
  | _ =>
    let o ← assign s o none "argument to new"
    return ⟨.value, .pointer o.type, e, .none⟩

/-- A new slice, map or channel with room for a number of elements. -/
def makeOperand (s : Scope) (e arg : Expr) (sizes : List Expr) : Check Operand := do
  let t ← g.valueType s arg
  let least ← match (← world).underlying t with
    | .slice _ => pure 2
    | .map _ _ | .chan _ _ => pure 1
    | .basic .invalid => pure 1
    | _ => fail arg.position (.makes arg.render)
  if sizes.length + 1 < least || sizes.length > least then
    fail e.position (.makeArguments e.render least (sizes.length + 1))
  let values ← sizes.mapM (g.indexValue s none)
  match sizes, values with
  | size :: _, [some n, some m] => if n > m then fail size.position .swappedSizes
  | _, _ => pure ()
  return ⟨.value, t, e, .none⟩

/-- A call of a predeclared function. -/
def predeclaredCall (s : Scope) (c : Call) (name : String) : Check Operand := do
  let e := c.expr
  match c.dots with
  | some p => if name ≠ "append" then fail p (.spreadArgument name)
  | none => pure ()
  let isSpecial := name = "make" || name = "new"
  let (values, acted) ← actedIn do
    if isSpecial then pure [] else g.argumentValues s false c.args
  let count := if isSpecial then c.args.length else values.length
  let (least, takesMore) := arity name
  if count < least || (count > least && !takesMore) then
    fail c.closing (.functionArguments (count < least) e.render least count)
  let o ← match name, c.args with
    | "make", arg :: sizes => g.makeOperand s e arg sizes
    | "new", arg :: _ => g.newOperand s e arg
    | _, _ => predeclaredResult s c name acted values
  if o.constant?.isNone then markActed
  if name = "panic" then modify fun p => { p with panics := c.closing :: p.panics }
  return o

end Rules

end EverEqual.Expression
