import EverEqual.Expression.Meaning.Convert

/-!
# Operators

Operators in front of a value and between two values. Two operands must have one type; a value
without a type takes that of the other one. Operations on constants give constants. A constant that
is shifted by a count that is not one takes its type from what is around the shift.

* `Rules.unaryOperand`: an operator in front of a value;
* `Rules.binaryOperand`: an operator between two values.
-/

namespace EverEqual.Expression

/-- Whether an operator is defined for the values of a predeclared type. -/
def isDefined (op : String) (isUnary : Bool) (b : Basic) : Bool :=
  if isUnary then
    if op = "!" then b.isBoolean else if op = "^" then b.isInteger else b.isNumeric
  else if op = "+" then b.isNumeric || b.isString
  else if op = "-" || op = "*" || op = "/" then b.isNumeric
  else if op = "&&" || op = "||" then b.isBoolean
  else b.isInteger

/-- An operator has to be defined for an operand. -/
def checkOperator (s : Scope) (op : String) (isUnary : Bool) (o : Operand) : Check Unit := do
  if o.type = .invalid || isBasic (← world) (isDefined op isUnary) o.type then return
  else failAt s o (.operator op)

/-- The words for an operation that can make a number too large. -/
def operationWords : Expr → String
  | .binary _ _ "+" _ => "addition "
  | .binary _ _ "-" _ => "subtraction "
  | .binary _ _ "*" _ => "multiplication "
  | .binary _ _ "^" _ => "bitwise XOR "
  | .binary _ _ "<<" _ => "shift "
  | .unary _ "^" _ => "bitwise complement "
  | _ => ""

/-- Where an operation is: at its sign if it has two operands. -/
def operationPosition : Expr → Position
  | .binary _ position _ _ => position
  | e => e.position

/-- Whether a constant is a whole number that is too long to have no type. -/
def isLong : Constant → Bool
  | .real (.whole n) => Numeric.bitLength n.natAbs > constantBits
  | _ => false

/-- A constant must be known, be among the values of its type, which may round it, and not grow
beyond all bounds if it has none. -/
def checkRange (s : Scope) (o : Operand) : Check Operand := do
  match o.constant?, underlyingBasic? (← world) o.type with
  | some .unknown, _ => fail (operationPosition o.expr) .constantUnknown
  | some c, some b =>
    if b.isUntyped then
      if isLong c then
        fail (operationPosition o.expr) (.constantOverflow (operationWords o.expr))
      else return o
    else
      match b.represent? c with
      | some d => return { o with mode := .constant d }
      | none =>
        let type ← typeText s (.basic b)
        failAt s o fun text => .overflows text type
  | _, _ => return o

/-! ### One value -/

/-- Ends with the fault that a channel cannot be used so, by a position. -/
def refuseChannel {α : Type} (s : Scope) (position : Position) (refusal : Refusal) (o : Operand) :
    Check α := do
  let text ← operandText s o
  fail position (.refused refusal ((← typeText s o.type) ++ " " ++ text))

/-- Receives from a channel. -/
def receive (s : Scope) (e : Expr) (o : Operand) : Check Operand := do
  markActed
  match (← world).underlying o.type with
  | .chan .send _ => refuseChannel s o.expr.position .receiveBackward o
  | .chan _ elem => return ⟨.checked, elem, e, .action⟩
  | .basic .invalid => return ⟨.checked, .invalid, e, .action⟩
  | _ => refuseChannel s o.expr.position .receive o

/-- Whether an expression is a composed value. -/
def isComposite (e : Expr) : Bool :=
  match e.unparen with
  | .composite _ _ _ _ => true
  | _ => false

/-- How the result of an operation on an operand is to be used, if it is not constant. -/
def Operand.resultMode (o : Operand) : Mode :=
  match o.mode with
  | .pending leaves => .pending leaves
  | _ => .value

/-- An operator in front of an operand. -/
def unaryOf (s : Scope) (e : Expr) (op : String) (o : Operand) : Check Operand := do
  match op with
  | "&" =>
    if isComposite o.expr || o.mode = .place then return ⟨.value, .pointer o.type, e, .none⟩
    else failAt s o (.refused .address)
  | "<-" => receive s e o
  | "~" => fail e.position (.tildeValue (isBasic (← world) (·.isInteger) o.type))
  | _ =>
    checkOperator s op true o
    match o.constant? with
    | some .unknown => return ⟨o.mode, o.type, e, .none⟩
    | some c =>
      let b := (underlyingBasic? (← world) o.type).getD .invalid
      checkRange s ⟨.constant (c.unary op b), o.type, e, .none⟩
    | none => return ⟨o.resultMode, o.type, e, .none⟩

/-! ### Two values -/

/-- Whether two operands may take each other's type. -/
def mayAdapt (w : World) (x y : Operand) : Bool :=
  let both (kind : Basic → Bool) := isBasic w kind x.type = isBasic w kind y.type
  let isPointer (t : Ty) := match w.underlying t with
    | .pointer _ => true
    | _ => false
  if !isUntyped x.type && !isUntyped y.type then false
  else if w.isInterface x.type || w.isInterface y.type then true
  else if !both (·.isBoolean) || !both (·.isString) then false
  else if x.isNil then hasNil w y.type
  else if y.isNil then hasNil w x.type
  else !isPointer x.type && !isPointer y.type

/-- Two operands, each with the type of the other one if it has none. Of two numbers without a type
both take the more general one. -/
def matched (s : Scope) (x y : Operand) : Check (Operand × Operand) := do
  if !mayAdapt (← world) x y then return (x, y)
  else
    let x ← adapt s x y.type
    return (x, ← adapt s y x.type)

/-- Whether values of a type have an order. -/
def isOrdered (b : Basic) : Bool :=
  b.isString || (b.isNumeric && !b.isComplex)

/-- The text for an operator that is not defined on the values of a type. -/
def undefinedOn (w : World) (shown : Ty → String) (op : String) (t : Ty) : String :=
  "operator " ++ op ++ " not defined on " ++
    match w.underlying t with
    | .basic _ => shown t
    | u => Ty.formWord u

/-- Why values of a type are not the same or different. -/
def incomparable (w : World) (shown : Ty → String) (op : String) (t : Ty) : String :=
  match w.underlying t with
  | .slice _ | .func _ _ _ | .map _ _ =>
    Ty.formWord (w.underlying t) ++ " can only be compared to nil"
  | .struct fs =>
    match fs.find? fun f => !w.canBeKey f.type with
    | some f => "struct containing " ++ shown f.type ++ " cannot be compared"
    | none => undefinedOn w shown op t
  | .array _ _ => shown t ++ " cannot be compared"
  | _ => undefinedOn w shown op t

/-- The operand that cannot be compared, and why. -/
def comparisonFault? (w : World) (shown : Ty → String) (op : String) (x y : Operand) :
    Option (Operand × String) :=
  if !(x.isAssignable w y.type || y.isAssignable w x.type) then
    some (y, "mismatched types " ++ shown x.type ++ " and " ++ shown y.type)
  else if op ≠ "==" && op ≠ "!=" then
    if !isBasic w isOrdered x.type then some (x, undefinedOn w shown op x.type)
    else if !isBasic w isOrdered y.type then some (y, undefinedOn w shown op y.type)
    else none
  else if x.isNil || y.isNil then
    if x.isNil && y.isNil then some (y, undefinedOn w shown op y.type) else none
  else if !w.canBeKey x.type then some (x, incomparable w shown op x.type)
  else if !w.canBeKey y.type then some (y, incomparable w shown op y.type)
  else none

/-- Gives an operand without a type the one that it has if nothing else is said. -/
def settleDefault (s : Scope) (o : Operand) : Check Unit := do
  if isUntyped o.type then settleLeaves s o (defaultType o.type)

/-- A comparison of two operands. -/
def compareOperands (s : Scope) (e : Expr) (op : String) (x y : Operand) : Check Operand := do
  let w ← world
  if x.type ≠ .invalid && y.type ≠ .invalid then
    match comparisonFault? w (w.typeStringFrom s.package.path) op x y with
    | some (o, why) => fail o.expr.position (.comparison e.render why)
    | none => pure ()
  match x.constant?, y.constant? with
  | some c, some d => return ⟨.constant (c.compare op d), .basic .untypedBool, e, .none⟩
  | _, _ =>
    settleDefault s x
    settleDefault s y
    return ⟨.value, .basic .untypedBool, e, .none⟩

/-! ### Shifts -/

/-- The greatest number of places that a constant is shifted by. -/
def shiftLimit : Int := 1074

/-- The number of places of a shift has to be a whole number that is not negative. -/
def checkShiftCount (s : Scope) (y : Operand) : Check Unit := do
  let w ← world
  match y.constant?, basic? y.type with
  | some c, some b =>
    if c.toInt?.any (· < 0) then failAt s y .negativeShift
    if b.isUntyped then
      match fitConstant b .uint c with
      | .ok _ => return
      | .error misfit => failAt s y fun text => misfit.cause text "uint"
  | some c, none => if c.toInt?.any (· < 0) then failAt s y .negativeShift
  | none, _ => pure ()
  if isBasic w (fun b => b.isInteger || b = .invalid) y.type then return
  else if isUntyped y.type then
    let _ ← adapt s y (.basic .uint)
  else failAt s y .shiftNotWhole

/-- The constants of an operand, of which the outermost is shifted. -/
def Operand.shiftedLeaves (o : Operand) : List Leaf :=
  match o.leaves.reverse with
  | leaf :: inner => ({ leaf with isShifted := true } :: inner).reverse
  | [] => []

/-- A constant shifted by a constant number of places. -/
def shiftConstant (s : Scope) (e : Expr) (op : String) (type : Ty) (c d : Constant)
    (y : Operand) : Check Operand := do
  if c = .unknown || d = .unknown then return ⟨.constant .unknown, type, e, .none⟩
  else
    match d.toInt? with
    | some n =>
      if n > shiftLimit then failAt s y .shiftCount
      else checkRange s ⟨.constant (c.shift op n.toNat), type, e, .none⟩
    | none => failAt s y .shiftCount

/-- The bits of a number, moved by a number of places. A constant without a type that is moved by a
number of places that is not constant waits for its type. -/
def shiftOperands (s : Scope) (e : Expr) (op : String) (x y : Operand) : Check Operand := do
  let w ← world
  let isWhole := isBasic w (·.isInteger) x.type
  let whole? := x.constant?.bind Constant.toInt?
  if x.type ≠ .invalid && !isWhole && !(isUntyped x.type && whole?.isSome) then
    failAt s x .shifted
  checkShiftCount s y
  match x.constant?, y.constant? with
  | some c, some d =>
    shiftConstant s e op (if isWhole then x.type else .basic .untypedInt) c d y
  | some _, none =>
    let mode := if isUntyped x.type then Mode.pending x.shiftedLeaves else .value
    return ⟨mode, x.type, e, .none⟩
  | none, _ => return ⟨x.resultMode, x.type, e, .none⟩

/-! ### Arithmetic -/

/-- Whether a constant cannot be divided by. -/
def isNoDivisor (x y : Operand) (isWhole isComplex : Bool) : Bool :=
  y.constant?.any fun d =>
    ((x.constant?.isSome || isWhole) && d.isZero) ||
      (x.constant?.isSome && isComplex && d.vanishes)

/-- An operator between two operands of one type. -/
def arithmetic (s : Scope) (e : Expr) (op : String) (x y : Operand) : Check Operand := do
  let w ← world
  if x.type ≠ .invalid && y.type ≠ .invalid && !w.identical x.type y.type then
    fail e.position (.mismatched e.render (← typeText s x.type) (← typeText s y.type))
  checkOperator s op false x
  let isWhole := isBasic w (·.isInteger) x.type
  if (op = "/" || op = "%") && isNoDivisor x y isWhole (isBasic w (·.isComplex) x.type) then
    fail y.expr.position .divisionByZero
  match x.constant?, y.constant? with
  | some c, some d =>
    if c = .unknown || d = .unknown then return ⟨.constant .unknown, x.type, e, .none⟩
    else checkRange s ⟨.constant (c.binary op isWhole d), x.type, e, .none⟩
  | _, _ =>
    let waits := (basic? x.type).any fun b => b.isUntyped && b.isNumeric
    return ⟨if waits then .pending (x.leaves ++ y.leaves) else .value, x.type, e, .none⟩

/-- An operator between two operands. -/
def binaryOf (s : Scope) (e : Expr) (op : String) (x y : Operand) : Check Operand := do
  if op = "<<" || op = ">>" then shiftOperands s e op x y
  else
    let (x, y) ← matched s x y
    if ["==", "!=", "<", "<=", ">", ">="].contains op then compareOperands s e op x y
    else arithmetic s e op x y

namespace Rules

variable (g : Rules)

/-- An operator in front of a value. -/
def unaryOperand (s : Scope) (e : Expr) (op : String) (inner : Expr) : Check Operand := do
  unaryOf s e op (← g.value s inner)

/-- An operator between two values. -/
def binaryOperand (s : Scope) (e : Expr) (left : Expr) (op : String) (right : Expr) :
    Check Operand := do
  let x ← g.value s left
  binaryOf s e op x (← g.value s right)

end Rules

end EverEqual.Expression
