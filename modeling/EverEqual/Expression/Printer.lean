import EverEqual.Expression.Syntax

/-!
# The text of an expression

An expression is written on one line, as a message shows it. What stands in the braces of a composed
value is left out, and so is the body of a function.

* `Expr.render`: the text.
-/

namespace EverEqual.Expression

/-- The text of a signature, by the texts of its parameters and results. A single result without a
name stands alone. -/
def signatureText (params results : List String) (isBare : Bool) : String :=
  "(" ++ ", ".intercalate params ++ ")" ++
    match results with
    | [] => ""
    | [r] => if isBare then " " ++ r else " (" ++ r ++ ")"
    | rs => " (" ++ ", ".intercalate rs ++ ")"

/-- Whether a list of fields is a single one without a name. -/
def isBare {E : Type} : List (Field E) → Bool
  | [f] => f.names.isEmpty
  | _ => false

/-- The names of a field in front of the text of its type. -/
def fieldText (names : List Name) (type : String) : String :=
  match names with
  | [] => type
  | ns => ", ".intercalate (ns.map (·.text)) ++ " " ++ type

namespace Expr

mutual
/-- The text of an expression. -/
def render : Expr → String
  | .name n => n.text
  | .number _ n => String.ofList n.text
  | .text _ _ source | .character _ _ source => source
  | .paren _ inner => "(" ++ render inner ++ ")"
  | .select base n => render base ++ "." ++ n.text
  | .index base args => render base ++ "[" ++ ", ".intercalate (texts args) ++ "]"
  | .slice base low high limit =>
    render base ++ "[" ++ optional low ++ ":" ++ optional high ++
      (if limit.isSome then ":" ++ optional limit else "") ++ "]"
  | .assertion base none => render base ++ ".(type)"
  | .assertion base (some t) => render base ++ ".(" ++ render t ++ ")"
  | .call callee args dots _ =>
    render callee ++ "(" ++ ", ".intercalate (texts args) ++
      (if dots.isSome then "..." else "") ++ ")"
  | .star _ inner => "*" ++ render inner
  | .unary _ op inner => op ++ render inner
  | .binary left _ op right => render left ++ " " ++ op ++ " " ++ render right
  | .pair key value => render key ++ ": " ++ render value
  | .composite type _ _ elements =>
    optional type ++ (if elements.isEmpty then "\x7b\x7d" else "\x7b…\x7d")
  | .function type _ _ => "(" ++ render type ++ " literal)"
  | .sliceType _ elem => "[]" ++ render elem
  | .arrayType _ length elem => "[" ++ render length ++ "]" ++ render elem
  | .openArrayType _ _ elem => "[...]" ++ render elem
  | .mapType _ key elem => "map[" ++ render key ++ "]" ++ render elem
  | .chanType _ .both (.chanType p .receive elem) =>
    "chan (" ++ render (.chanType p .receive elem) ++ ")"
  | .chanType _ .both elem => "chan " ++ render elem
  | .chanType _ .send elem => "chan<- " ++ render elem
  | .chanType _ .receive elem => "<-chan " ++ render elem
  | .funcType _ params results =>
    "func" ++ signatureText (fieldTexts params) (fieldTexts results) (isBare results)
  | .structType _ fields => "struct\x7b" ++ "; ".intercalate (fieldTexts fields) ++ "\x7d"
  | .interfaceType _ elements =>
    "interface\x7b" ++ "; ".intercalate (elementTexts elements) ++ "\x7d"
  | .variadic _ elem => "..." ++ render elem
/-- The texts of expressions. -/
def texts : List Expr → List String
  | [] => []
  | e :: es => render e :: texts es
/-- The text of an expression that may be missing. -/
def optional : Option Expr → String
  | none => ""
  | some e => render e
/-- The texts of fields. -/
def fieldTexts : List (Field Expr) → List String
  | [] => []
  | ⟨names, t, _⟩ :: fs => fieldText names (render t) :: fieldTexts fs
/-- The texts of the elements of an interface. -/
def elementTexts : List (Element Expr) → List String
  | [] => []
  | ⟨none, t⟩ :: es => render t :: elementTexts es
  | ⟨some n, .funcType _ params results⟩ :: es =>
    (n.text ++ signatureText (fieldTexts params) (fieldTexts results) (isBare results)) ::
      elementTexts es
  | ⟨some n, t⟩ :: es => (n.text ++ render t) :: elementTexts es
end

end Expr

end EverEqual.Expression
