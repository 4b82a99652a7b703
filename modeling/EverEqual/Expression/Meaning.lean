import EverEqual.Expression.Grammar.Statements
import EverEqual.Expression.Meaning.Statements
import EverEqual.Package.Load

/-!
# What expressions mean

An expression is given its meaning in a package: a name is looked up among the packages that its
file imports, then among its declarations, then among the predeclared names. The meaning is a type
or a value. The instances that an expression mentions are made for it alone.

* `Rules.operandOf`: the rule for each kind of expression;
* `rules`: all rules;
* `World.evaluate`: the type that a text stands for in a package.
-/

namespace EverEqual.Expression

namespace Rules

variable (g : Rules)

/-- A function that is written out. Its body is put off. -/
def functionOperand (s : Scope) (type : Expr) (body : List Stmt) (closing : Position) :
    Check Operand := do
  let e := Expr.function type body closing
  match type with
  | .funcType _ params results =>
    let f ← g.signature s params results
    let function ← fresh
    let frame ← fresh
    let home := s.package.path
    let inner : Scope :=
      { s.enter frame with function, nesting := {}, results := f.results.map (·.member home) }
    let inner := f.named.foldl (fun inner (n, t, kind) =>
      if n.text = "_" then inner else inner.declare ⟨n, .var t kind⟩) inner
    later (.body inner body closing)
    return ⟨.value, f.type home, e, .none⟩
  | t => fail t.position (.misused t.render .type)

/-- What an expression means. -/
def operandOf (s : Scope) (hint : Option Ty) (e : Expr) : Check Operand := do
  match e with
  | .name n => nameOperand s false n
  | .number p n => numberOperand p n
  | .text _ bytes _ => return ⟨.constant (.text bytes), .basic .untypedString, e, .none⟩
  | .character _ code _ => return ⟨.constant (.ofInt code), .basic .untypedRune, e, .none⟩
  | .paren _ inner => return { ← g.operand s none false inner with expr := e }
  | .select base n => g.selectOperand s false base n
  | .index base args => g.indexOperand s base args
  | .slice base low high limit => g.sliceOperand s base low high limit
  | .assertion base type => g.assertionOperand s base type
  | .call callee args dots closing => g.callOperand s callee args dots closing
  | .star _ inner => g.starOperand s e inner
  | .unary _ op inner => g.unaryOperand s e op inner
  | .binary left _ op right => g.binaryOperand s e left op right
  | .pair key _ => fail key.position .pairAlone
  | .composite type opening closing elements =>
    g.compositeOperand s hint type opening closing elements
  | .function type body closing => g.functionOperand s type body closing
  | e => return ⟨.type, ← g.definedType s e, e, .none⟩

/-- What an expression means; a generic type has to be allowed. -/
def operandRule (s : Scope) (hint : Option Ty) (allowsGeneric : Bool) (e : Expr) :
    Check Operand := do
  let o ← g.operandOf s hint e
  if !allowsGeneric && (← world).isGeneric o.type then
    fail o.expr.position (.genericAlone o.expr.render)
  else return o

end Rules

/-- The rules down to some depth. -/
def rules : Nat → Rules
  | 0 => .nothing
  | k + 1 =>
    let g := rules k
    ⟨k, g.operandRule, g.typeOf, g.statementRule⟩

/-- What an expression means in a package: a type, or nothing if it is a value. The depth has to be
that of the expression at least. -/
def Expr.meaning (w : World) (p : Package) (depth : Nat) (e : Expr) :
    Except MeaningError (Option Ty) := do
  let s : Scope := { package := p }
  let g := rules (depth + 1)
  let steps : Check Operand := do
    let o ← g.operand s none true e
    g.settle s 0 depth
    return o
  let (o, _) ← steps.run { world := w }
  return if o.mode = .type then some o.type else none

end EverEqual.Expression

namespace EverEqual

/-- Why a text stands for no type in a package. -/
inductive EvalError
  | load (e : LoadError)
  /-- The text is no expression. -/
  | malformed (text path : String)
  /-- A part of the expression has no meaning. -/
  | meaningless (text path : String) (e : Expression.MeaningError)
  /-- The expression is a value. -/
  | notType (text path : String)
deriving DecidableEq, Repr, Inhabited

/-- The text of an evaluation error. -/
def EvalError.message : EvalError → String
  | load e => e.message
  | malformed text path =>
    "evaluate " ++ Text.quote text ++ " in package " ++ Text.quote path ++ ": <syntax>"
  | meaningless text path e =>
    "evaluate " ++ Text.quote text ++ " in package " ++ Text.quote path ++ ": " ++ e.message
  | notType text path => Text.quote text ++ " in package " ++ Text.quote path ++ " is not a type"

/-- The type that a text stands for in a package. -/
def World.evaluate (w : World) (path text : String) : Except EvalError Ty :=
  match w.load path with
  | .error e => .error (.load e)
  | .ok p =>
    match Expression.Expr.ofText? text with
    | none => .error (.malformed text path)
    | some x =>
      match x.meaning w p (4 * text.length + 16) with
      | .error e => .error (.meaningless text path e)
      | .ok none => .error (.notType text path)
      | .ok (some t) => .ok t

end EverEqual
