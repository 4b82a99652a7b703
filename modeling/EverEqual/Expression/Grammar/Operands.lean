import EverEqual.Expression.Grammar.Types

/-!
# The grammar of values

Operands, what may follow them, and operators by their precedence. Types are operands too. The arrow
in front of a channel type belongs to the type; in front of anything else it receives from it.

* `Grammar.operandRule`, `Grammar.suffixes`: an operand, and the members, elements, calls and braces
  after it;
* `Grammar.unaryRule`: operators in front of an operand;
* `Grammar.climb`: operators between operands.
-/

namespace EverEqual.Expression

/-- How strongly an operator binds two values; zero if it binds none. -/
def precedence (op : String) : Nat :=
  if op = "||" then 1
  else if op = "&&" then 2
  else if ["==", "!=", "<", "<=", ">", ">="].contains op then 3
  else if ["+", "-", "|", "^"].contains op then 4
  else if ["*", "/", "%", "<<", ">>", "&", "&^"].contains op then 5
  else 0

/-- The operators in front of a value, apart from the star and the arrow. -/
def unaryOperators : List String := ["+", "-", "!", "^", "&", "~"]

/-- The channel type with an arrow in front of it. If its own arrow is for sending, that one goes on
to the element, which has to be a channel type in turn. -/
def receiving? (position : Position) : Expr → Option Expr
  | .chanType _ .both elem => some (.chanType position .receive elem)
  | .chanType p .send elem => (receiving? p elem).map (.chanType position .receive ·)
  | _ => none

namespace Expr

/-- Whether an expression is a channel type. -/
def isChannel : Expr → Bool
  | .chanType _ _ _ => true
  | _ => false

/-- Whether braces after an expression start a composed value at a level of brackets. -/
def startsComposite (level : Int) (e : Expr) : Bool :=
  match e.unparen with
  | .name _ | .select _ _ | .index _ _ => 0 ≤ level
  | .sliceType _ _ | .arrayType _ _ _ | .openArrayType _ _ _ | .structType _ _
  | .mapType _ _ _ => true
  | _ => false

end Expr

namespace Grammar

variable (g : Grammar)

/-- A composed value without its type. -/
def bracedRule (element : Reader Expr) (type : Option Expr) : Reader Expr := do
  let opening ← expect "\x7b"
  let elements ← nested (commaList element "\x7d" g.bound)
  let closing ← expect "\x7d"
  return .composite type opening closing elements

/-- One side of an element of a composed value, at some depth of braces. -/
def elementPart : Nat → Reader Expr
  | 0 => failure
  | k + 1 => do
    if ← nextIs "\x7b" then
      g.bracedRule (do
        let e ← elementPart k
        if ← accept ":" then return .pair e (← elementPart k) else return e) none
    else g.expr

/-- A composed value after its type. -/
def compositeRule (type : Expr) : Reader Expr :=
  g.bracedRule (do
    let e ← g.elementPart g.bound
    if ← accept ":" then return .pair e (← g.elementPart g.bound) else return e) (some type)

/-- The statements of a block up to the end of it. -/
def statements : Nat → Reader (List Stmt)
  | 0 => failure
  | k + 1 => do
    match ← peek with
    | some (.keyword "case") | some (.keyword "default") | some (.symbol "\x7d") | none =>
      return []
    | _ =>
      let s ← g.statement
      return s :: (← statements k)

/-- A block in braces, and the position of its end. -/
def block : Reader (List Stmt × Position) := do
  let _ ← expect "\x7b"
  let body ← g.statements g.bound
  return (body, ← expect "\x7d")

/-- A function type, or a function if a body follows. -/
def functionRule : Reader Expr := do
  let type ← g.signature (← expectKeyword "func")
  if ← nextIs "\x7b" then
    let (body, closing) ← nested g.block
    return .function type body closing
  else return type

/-- A literal, a name, a type or an expression in parentheses. -/
def operandRule : Reader Expr := do
  match ← peek with
  | some (.name _) => return .name (← takeName)
  | some (.number n) => return .number (← take).position n
  | some (.text bytes source) => return .text (← take).position bytes source
  | some (.character code source) => return .character (← take).position code source
  | some (.symbol "(") =>
    let position ← expect "("
    let inner ← nested g.value
    let _ ← expect ")"
    return .paren position inner
  | some (.keyword "func") => g.functionRule
  | _ =>
    match ← g.typeRule with
    | some t => return t
    | none => failure

/-- A member of a value, or a value taken as being of a type. -/
def memberRule (base : Expr) : Reader Expr := do
  let _ ← expect "."
  match ← peek with
  | some (.name _) => return .select base (← takeName)
  | _ =>
    let _ ← expect "("
    let type ← if (← peekKeyword) = "type" then do
        let _ ← take
        pure none
      else pure (some (← g.type))
    let _ ← expect ")"
    return .assertion base type

/-- A bound of a part of a sequence, if there is one before the next colon or the end. -/
def boundRule : Reader (Option Expr) := do
  if (← nextIs ":") || (← nextIs "]") then return none else return some (← g.value)

/-- A part of a sequence after its first bound. A third bound needs the second one. -/
def sliceRule (base : Expr) (low : Option Expr) : Reader Expr := do
  let _ ← expect ":"
  let high ← g.boundRule
  if ← accept ":" then
    let limit ← g.boundRule
    if high.isSome && limit.isSome then return .slice base low high limit else failure
  else return .slice base low high none

/-- What stands in brackets after an operand: an index, arguments, or the bounds of a part. Only the
first argument may be something else than a type. -/
def bracketSuffix (base : Expr) : Reader Expr := do
  let _ ← expect "["
  let e ← nested do
    if ← nextIs ":" then g.sliceRule base none
    else
      let first ← g.value
      if ← nextIs ":" then g.sliceRule base (some first)
      else if ← accept "," then
        return .index base (first :: (← commaList g.type "]" g.bound))
      else return .index base [first]
  let _ ← expect "]"
  return e

/-- The arguments of a call up to its end, and the position of the dots that spread the last one. -/
def callArgs : Nat → Reader (List Expr × Option Position)
  | 0 => failure
  | k + 1 => do
    if ← nextIs ")" then return ([], none)
    else
      let e ← g.value
      if ← nextIs "..." then
        let dots ← expect "..."
        let _ ← accept ","
        return ([e], some dots)
      else if ← accept "," then
        let (es, dots) ← callArgs k
        return (e :: es, dots)
      else return ([e], none)

/-- A call of an operand. -/
def callRule (callee : Expr) : Reader Expr := do
  let _ ← expect "("
  let (args, dots) ← nested (g.callArgs g.bound)
  return .call callee args dots (← expect ")")

/-- What may follow an operand: members, elements, calls and the braces of a composed value, whose
type must not be in parentheses. -/
def suffixes : Nat → Expr → Reader Expr
  | 0, _ => failure
  | k + 1, e => do
    match ← peekSymbol with
    | "." => suffixes k (← g.memberRule e)
    | "[" => suffixes k (← g.bracketSuffix e)
    | "(" => suffixes k (← g.callRule e)
    | "\x7b" =>
      if !e.startsComposite (← get).level then return e
      else if e.isParen then failure
      else suffixes k (← g.compositeRule e)
    | _ => return e

/-- An operand with what follows it. -/
def primaryRule : Reader Expr := do
  g.suffixes g.bound (← g.operandRule)

/-- An expression without an operator between two values. -/
def unaryRule : Reader Expr := do
  match ← peekSymbol with
  | "*" =>
    let position ← expect "*"
    return .star position (← g.unary)
  | "<-" =>
    let position ← expect "<-"
    let e ← g.unary
    if e.isChannel then receiving? position e else return .unary position "<-" e
  | op =>
    if unaryOperators.contains op then
      let position ← expect op
      return .unary position op (← g.unary)
    else g.primaryRule

/-- An expression that goes on with operators that bind at least as strongly as asked for. -/
def climb : Nat → Nat → Expr → Reader Expr
  | 0, _, _ => failure
  | k + 1, least, left => do
    let op ← peekSymbol
    if op = "=" && (← get).isUsed && least ≤ 3 then failure
    else if precedence op = 0 || precedence op < least then return left
    else
      let position ← expect op
      let right ← climb k (precedence op + 1) (← g.unary)
      climb k least (.binary left position op right)

/-- An expression. -/
def exprRule : Reader Expr := do
  g.climb g.bound 1 (← g.unary)

end Grammar

end EverEqual.Expression
