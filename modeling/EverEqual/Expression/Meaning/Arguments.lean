import EverEqual.Expression.Meaning.Literals

/-!
# Arguments

A function takes its arguments in order; the last parameter may stand for any number of them. A call
that gives several values back can be the only argument of another one.

* `passArguments`: arguments for parameters;
* `Rules.argumentValues`: the arguments of a call;
* `typesSummary`: a list of types as a message shows it.
-/

namespace EverEqual.Expression

/-- The text of a type in a list of types. -/
def summaryType (shown : Ty → String) (t : Ty) : String :=
  match t with
  | .basic .invalid => "unknown type"
  | .basic b =>
    if !b.isUntyped then shown t
    else if b.isNumeric then "number"
    else if b.isBoolean then "bool"
    else if b.isString then "string"
    else "nil"
  | t => shown t

/-- The text of a list of types; the last one may stand for any number of values, or be spread. -/
def typesSummary (shown : Ty → String) (isVariadic isSpread : Bool) (ts : List Ty) : String :=
  let texts := ts.mapIdx fun i t =>
    if i + 1 < ts.length then summaryType shown t
    else if isVariadic then
      match t with
      | .slice e => "..." ++ shown e
      | t => "..." ++ summaryType shown t
    else summaryType shown t ++ (if isSpread then "..." else "")
  "(" ++ ", ".intercalate texts ++ ")"

/-- The types of the parameters that a number of arguments go to; the last one of a variadic
function takes all that are left. -/
def parameterTypes (params : List Ty) (isVariadic isSpread : Bool) (count : Nat) : List Ty :=
  if isVariadic && !isSpread && count + 1 ≥ params.length then
    let fixed := params.dropLast
    let elem := match params.getLast? with
      | some (.slice e) => e
      | some t => t
      | none => .invalid
    fixed ++ List.replicate (count - fixed.length) elem
  else params

/-- The operand that a call of a function with results means. -/
def callResult (e : Expr) (results : List (Member Ty)) : Operand :=
  match results with
  | [] => ⟨.nothing, .invalid, e, .action⟩
  | [r] => ⟨.value, r.type, e, .action⟩
  | rs => ⟨.value, .tuple (rs.map (·.type)), e, .action⟩

/-- The values that an operand stands for: those of a call that gives several back, or itself. -/
def valuesOf (o : Operand) : List Operand :=
  match o.mode, o.type with
  | .value, .tuple ts => ts.map fun t => { o with type := t, effect := .none }
  | _, _ => [o]

/-- The parts of a call: what is called, its arguments, the dots after them and its end. -/
structure Call where
  callee : Expr
  args : List Expr
  dots : Option Position
  closing : Position

/-- The expression that a call is. -/
def Call.expr (c : Call) : Expr :=
  .call c.callee c.args c.dots c.closing

/-- Only the last parameter of a variadic function takes a spread argument, and only one value can
be spread. -/
def checkSpread (c : Call) (isVariadic : Bool) (count : Nat) : Check Unit := do
  match c.dots, c.args with
  | none, _ => return
  | some p, args =>
    if !isVariadic then fail p (.spreadFixed c.callee.render)
    match args with
    | [arg] => if count > 1 then fail p (.spreadMany count arg.render)
    | _ => return

/-- The arguments must be as many as the parameters, and go to them. -/
def passArguments (s : Scope) (c : Call) (params : List Ty) (isVariadic : Bool)
    (args : List Operand) : Check Unit := do
  checkSpread c isVariadic args.length
  let w ← world
  let shown := w.typeStringFrom s.package.path
  let isSpread := c.dots.isSome
  let types := parameterTypes params isVariadic isSpread args.length
  if args.length ≠ types.length then
    let isFew := args.length < types.length
    let given := typesSummary shown false isSpread (args.map (·.type))
    let wanted := typesSummary shown isVariadic false params
    let position := if isFew then c.closing
      else (args[types.length]?.map (·.expr.position)).getD c.closing
    fail position (.arguments isFew c.callee.render given wanted)
  for (o, t) in args.zip types do
    let _ ← assign s o (some t) ("argument to " ++ c.callee.render)

namespace Rules

variable (g : Rules)

/-- The arguments of a call. The flag says whether generic types get as far as to be refused as
types. -/
def argumentValues (s : Scope) (allowsGeneric : Bool) (args : List Expr) :
    Check (List Operand) := do
  match args with
  | [e] =>
    let o ← g.operand s none allowsGeneric e
    match o.mode, o.type with
    | .value, .tuple _ => return valuesOf o
    | _, _ => return [← excluding s false false o]
  | es => es.mapM fun e => do excluding s false false (← g.operand s none allowsGeneric e)

end Rules

end EverEqual.Expression
