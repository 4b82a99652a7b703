import EverEqual.Expression.Meaning.Predeclared

/-!
# Calls

A type that is called is a conversion of its argument. A function takes arguments for its
parameters. Each predeclared function has a rule of its own.

* `Rules.conversionOperand`: a conversion;
* `Rules.callOperand`: a call or conversion.
-/

namespace EverEqual.Expression

namespace Rules

variable (g : Rules)

/-! ### Conversions -/

/-- A conversion of the one argument that there has to be. -/
def conversionOperand (s : Scope) (e : Expr) (target : Ty) (args : List Expr)
    (dots : Option Position) (closing : Position) : Check Operand := do
  let type ← typeText s target
  match args with
  | [] => fail closing (.conversionArguments true type)
  | [arg] =>
    let o ← g.value s arg
    let w ← world
    match w.underlying target with
    | .interface f ms es =>
      if !(w.typeSet (.interface f ms es)).isMethodSet then
        fail e.position (.constraintConversion type)
    | _ => pure ()
    if dots.isSome then fail arg.position (.spreadConversion type)
    convert s o target e
  | args =>
    args.forM (g.use s)
    fail ((args.getLast?.map (·.position)).getD e.position) (.conversionArguments false type)

/-! ### All calls -/

/-- A call or conversion. -/
def callOperand (s : Scope) (callee : Expr) (args : List Expr) (dots : Option Position)
    (closing : Position) : Check Operand := do
  let e := Expr.call callee args dots closing
  let f ← g.valueOrType s true callee
  match f.mode with
  | .type =>
    if (← world).isGeneric f.type then fail callee.position (.genericAlone callee.render)
    g.conversionOperand s e f.type args dots closing
  | .function name => g.predeclaredCall s ⟨callee, args, dots, closing⟩ name
  | _ =>
    match (← world).underlying f.type with
    | .func ps rs variadic =>
      let values ← g.argumentValues s true args
      passArguments s ⟨callee, args, dots, closing⟩ (ps.map (·.type)) variadic values
      markActed
      return callResult e rs
    | .basic .invalid =>
      let _ ← g.argumentValues s true args
      markActed
      return ⟨.value, .invalid, e, .action⟩
    | _ =>
      let type ← typeText s f.type
      failAt s f fun text => .noFunction text type

end Rules

end EverEqual.Expression
