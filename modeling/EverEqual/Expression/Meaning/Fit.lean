import EverEqual.Expression.Meaning.Types

/-!
# Values without a type

A constant that is written down has no type of its own. It takes the type that its surroundings ask
for, if that type has its value; a floating type rounds it. The missing value has no type either and
keeps none. A number that waits for its type passes it on to the constants that it is made of, and
of those whose bits are moved the type has to be whole.

* `fit`: a value as one of a type, or why it does not fit;
* `Operand.leaves`: the constants that wait for the type of an operand;
* `adapt`: an operand with the type that another one has.
-/

namespace EverEqual.Expression

/-- Why a value without a type does not fit a type. -/
inductive Misfit
  | kind
  /-- It is not whole, but the type is. -/
  | truncated
  | overflows
deriving DecidableEq, Repr, Inhabited

/-- Whether a value without a type is of the kind of a predeclared type. -/
def sameKind (b target : Basic) : Bool :=
  (b.isBoolean && target.isBoolean) || (b.isString && target.isString) ||
    (b.isNumeric && target.isNumeric)

/-- A constant as a value of a predeclared type, or why it does not fit. -/
def fitConstant (b target : Basic) (c : Constant) : Except Misfit Constant :=
  match target.represent? c with
  | some d => .ok d
  | none =>
    .error (if !(b.isNumeric && target.isNumeric) then .kind
      else if !b.isInteger && target.isInteger then .truncated
      else .overflows)

/-- The more general one of two kinds of values without a type. -/
def moreGeneral? (a b : Basic) : Option Basic :=
  if a = b then some a
  else if a.untypedRank = 0 || b.untypedRank = 0 then none
  else some (if a.untypedRank > b.untypedRank then a else b)

/-- Whether the missing value is a value of a type. -/
def hasNil (w : World) (t : Ty) : Bool :=
  match w.underlying t with
  | .basic b => b = .unsafePointer || b = .invalid
  | .slice _ | .pointer _ | .func _ _ _ | .map _ _ | .chan _ _ | .interface _ _ _ => true
  | _ => false

/-- The type that a value gets if nothing else is said. -/
def defaultType : Ty → Ty
  | .basic b => .basic b.default
  | t => t

/-- A value without a type as one of a predeclared type, by the name of that type. -/
def fitBasic (o : Operand) (b goal : Basic) (target : Ty) : Except Misfit Operand :=
  match o.constant? with
  | some c => (fitConstant b goal c).map fun d => { o with mode := .constant d, type := target }
  | none => if sameKind b goal then .ok { o with type := target } else .error .kind

/-- A value without a type as one of a type, or why it does not fit. For an interface that any value
goes to it gets the type that it has if nothing else is said. -/
def fit (w : World) (o : Operand) (target : Ty) : Except Misfit Operand :=
  match basic? o.type, basic? target, w.underlying target with
  | none, _, _ | _, _, .basic .invalid => .ok o
  | some b, some t, u =>
    if !b.isUntyped then .ok o
    else if t.isUntyped then
      match moreGeneral? b t with
      | some m => .ok { o with type := .basic m }
      | none => .error .kind
    else if o.isNil then if hasNil w u then .ok o else .error .kind
    else fitBasic o b t target
  | some b, none, u =>
    if !b.isUntyped then .ok o
    else if o.isNil then if hasNil w u then .ok o else .error .kind
    else
      match u with
      | .basic t => fitBasic o b t target
      | .interface _ _ _ =>
        if w.isEmptyInterface target then .ok { o with type := defaultType o.type }
        else .error .kind
      | _ => .error .kind

/-! ### Constants that wait -/

/-- A constant expression with those that it is the parentheses around, the innermost first. -/
def constantLeaves (c : Constant) : Expr → List Leaf
  | .paren p inner => constantLeaves c inner ++ [⟨p, (Expr.paren p inner).render, c, false⟩]
  | e => [⟨e.position, e.render, c, false⟩]

/-- The constants that wait for the type of an operand. -/
def Operand.leaves (o : Operand) : List Leaf :=
  match o.mode with
  | .constant c => constantLeaves c o.expr
  | .pending leaves => leaves
  | _ => []

/-- The fault that something does not fit, by the texts of it and of the underlying type. -/
def Misfit.cause (text type : String) : Misfit → Cause
  | kind => .conversion text type ""
  | truncated => .truncated text type
  | overflows => .overflows text type

/-- Gives a constant its type. -/
def settleLeaf (s : Scope) (untyped type : Ty) (leaf : Leaf) : Check Unit := do
  let w ← world
  let shown := w.typeStringFrom s.package.path
  if leaf.isShifted && !(underlyingBasic? w type).any Basic.isInteger then
    fail leaf.position (.shiftedType leaf.text (shown type))
  match fit w ⟨.constant leaf.value, untyped, default, .none⟩ type with
  | .ok _ => return
  | .error misfit =>
    let text := Operand.describe w shown leaf.text (.constant leaf.value) untyped
    fail leaf.position (misfit.cause text (shown (w.underlying type)))

/-- Gives a type to the constants that wait for that of an operand. -/
def settleLeaves (s : Scope) (o : Operand) (type : Ty) : Check Unit :=
  o.leaves.forM (settleLeaf s o.type type)

/-- An operand that has been given a type, after what it was before. -/
def settleType (s : Scope) (before after : Operand) : Check Operand := do
  if !isUntyped before.type || isUntyped after.type then return after
  else
    settleLeaves s before after.type
    match after.mode with
    | .pending _ => return { after with mode := .value }
    | _ => return after

/-- The operand as a value of a type, if it has none itself. -/
def adapt (s : Scope) (o : Operand) (target : Ty) : Check Operand := do
  let w ← world
  match fit w o target with
  | .ok p => settleType s o p
  | .error misfit =>
    let under ← typeText s (w.underlying target)
    failAt s o fun text => misfit.cause text under

end EverEqual.Expression
