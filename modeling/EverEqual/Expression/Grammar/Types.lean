import EverEqual.Expression.Reader

/-!
# The grammar of types

Names with their arguments, arrays, maps, channels, functions, structs and interfaces. Where a name
is followed by a bracket in a list of fields or parameters, the bracket may start the arguments of
an embedded type or the length of an array; what follows it decides.

* `Grammar.typeRule`: a type, if one is next;
* `Grammar.params`, `Grammar.structRule`, `Grammar.interfaceRule`: the lists in functions, structs
  and interfaces;
* `spread`: the parameters that the entries of a list stand for.
-/

namespace EverEqual.Expression

/-- An entry in a list of parameters: a name, a type or both. -/
structure Entry where
  name : Option Name := none
  type : Option Expr := none

namespace Entry

/-- Whether an entry has a name and a type. -/
def isFull (e : Entry) : Bool := e.name.isSome && e.type.isSome

/-- The parameters of a list in which names have types; a name alone shares the type that follows.
The entries come last one first. -/
def withNames : List Entry → List (Field Expr) → Option (List (Field Expr))
  | [], acc => some acc
  | ⟨some n, some t⟩ :: es, acc => withNames es ({ names := [n], type := t } :: acc)
  | ⟨some n, none⟩ :: es, f :: rest => withNames es ({ f with names := n :: f.names } :: rest)
  | _ :: _, _ => none

/-- The parameters of a list in which every entry is a type. -/
def withoutNames (es : List Entry) : Option (List (Field Expr)) :=
  es.mapM fun e =>
    match e.name, e.type with
    | _, some t => some { type := t }
    | some n, none => some { type := .name n }
    | none, none => none

/-- Whether a field takes any number of values. -/
def isVariadic (f : Field Expr) : Bool :=
  match f.type with
  | .variadic _ _ => true
  | _ => false

/-- The parameters that the entries of a list stand for. Either all have names or none has. Only the
last parameter may take any number of values, and only where this is allowed. -/
def spread (allowsVariadic : Bool) (es : List Entry) : Option (List (Field Expr)) := do
  let fields ← if es.any isFull then withNames es.reverse [] else withoutNames es
  let fixed := if allowsVariadic then fields.dropLast else fields
  let isShared := fields.any fun f => isVariadic f && f.names.length > 1
  if fixed.any isVariadic || isShared then none else some fields

end Entry

namespace Grammar

variable (g : Grammar)

/-- A name, perhaps of a package. -/
def typeName : Reader Expr := do
  let n ← takeName
  if ← accept "." then return .select (.name n) (← takeName) else return .name n

/-- The arguments of an instance in type position: types only, at least one. -/
def typeArgs (base : Expr) : Reader Expr := do
  let _ ← expect "["
  let args ← nested (commaList g.type "]" g.bound)
  let _ ← expect "]"
  if args.isEmpty then failure else return .index base args

/-- A type by its name, with arguments if there are any. -/
def namedType (base : Expr) : Reader Expr := do
  if ← nextIs "[" then g.typeArgs base else return base

/-- What follows the opening bracket of an array or slice type. -/
def arrayRule (position : Position) : Reader Expr := do
  match ← get with
  | ⟨⟨.symbol "...", dots⟩ :: _, _, _⟩ =>
    let _ ← take
    let _ ← expect "]"
    return .openArrayType position dots (← g.type)
  | _ =>
    if ← accept "]" then return .sliceType position (← g.type)
    else
      let length ← nested g.value
      let _ ← expect "]"
      return .arrayType position length (← g.type)

/-- What follows a name before a bracket in a list of fields or parameters: an array or slice type,
which the name is for, or arguments, which make the name a type. -/
def bracketRule (n : Name) : Reader (Option Name × Expr) := do
  let position ← expect "["
  if ← accept "]" then return (some n, .sliceType position (← g.type))
  else
    let first ← nested g.value
    let (more, trailing) ← nested do
      if ← accept "," then
        let more ← commaList g.value "]" g.bound
        pure (more, true)
      else pure ([], false)
    let _ ← expect "]"
    match more, ← (if more.isEmpty then g.type? else pure none) with
    | [], some elem => if trailing then failure else return (some n, .arrayType position first elem)
    | _, _ => return (none, .index (.name n) (first :: more))

/-- A term of a union: a type, or all types with that underlying type. -/
def termRule : Reader Expr := do
  if ← nextIs "~" then
    let position ← expect "~"
    return .unary position "~" (← g.type)
  else g.type

/-- The further terms of a union. -/
def unionRule : Nat → Expr → Reader Expr
  | 0, _ => failure
  | k + 1, left => do
    if ← nextIs "|" then
      let position ← expect "|"
      unionRule k (.binary left position "|" (← g.termRule))
    else return left

/-- The type of a parameter that takes any number of values. -/
def variadicRule : Reader Expr := do
  let position ← expect "..."
  return .variadic position (← g.type)

/-- What may follow the name of a parameter. -/
def afterName (n : Name) : Reader Entry := do
  match ← peekSymbol with
  | "[" =>
    let (name, type) ← g.bracketRule n
    return ⟨name, some type⟩
  | "..." => return ⟨some n, some (← g.variadicRule)⟩
  | "." =>
    let _ ← take
    return ⟨none, some (← g.namedType (.select (.name n) (← takeName)))⟩
  | _ => return ⟨some n, ← g.type?⟩

/-- An entry in a list of parameters. -/
def paramRule : Reader Entry := do
  match ← peek with
  | some (.name _) => g.afterName (← takeName)
  | some (.symbol "...") => return ⟨none, some (← g.variadicRule)⟩
  | _ => return ⟨none, some (← g.type)⟩

/-- An entry in a list of type parameters, whose types may be unions. -/
def typeParamRule : Reader Entry := do
  match ← peek with
  | some (.name _) =>
    let n ← takeName
    match ← peekSymbol with
    | "~" => return ⟨some n, some (← g.unionRule g.bound (← g.termRule))⟩
    | "|" => return ⟨none, some (← g.unionRule g.bound (.name n))⟩
    | _ =>
      let e ← g.afterName n
      match e.type with
      | some t => return { e with type := some (← g.unionRule g.bound t) }
      | none => return e
  | _ => return ⟨none, some (← g.unionRule g.bound (← g.termRule))⟩

/-- A list of parameters in parentheses. -/
def params (allowsVariadic : Bool) : Reader (List (Field Expr)) := do
  let _ ← expect "("
  let entries ← commaList g.paramRule ")" g.bound
  let _ ← expect ")"
  Entry.spread allowsVariadic entries

/-- The results of a function: a list in parentheses, a type or nothing. -/
def results : Reader (List (Field Expr)) := do
  if ← nextIs "(" then g.params false
  else
    match ← g.type? with
    | some t => return [{ type := t }]
    | none => return []

/-- The parameters and results of a function. -/
def signature (position : Position) : Reader Expr := do
  let ps ← g.params true
  return .funcType position ps (← g.results)

/-- A tag, if one is next. -/
def tagRule : Reader (List UInt8) := do
  match ← peek with
  | some (.text bytes _) =>
    let _ ← take
    return bytes
  | _ => return []

/-- The type of a field after its first name, with the names it is for. -/
def fieldRest (n : Name) : Reader (Field Expr) := do
  match ← peek with
  | some (.symbol ".") =>
    let _ ← take
    return { type := ← g.namedType (.select (.name n) (← takeName)) }
  | some (.text _ _) | some .lineEnd | some (.symbol ";") | some (.symbol "\x7d") =>
    return { type := .name n }
  | some (.symbol "[") =>
    let (name, type) ← g.bracketRule n
    return { names := name.toList, type }
  | some (.symbol ",") =>
    let _ ← take
    let more ← commaSeparated takeName g.bound
    return { names := n :: more, type := ← g.type }
  | _ => return { names := [n], type := ← g.type }

/-- A declaration of fields. -/
def fieldRule : Reader (Field Expr) := do
  let field ← match ← peek with
    | some (.symbol "*") =>
      let position ← expect "*"
      let base ← typeName
      pure { type := .star position (← g.namedType base) }
    | _ => g.fieldRest (← takeName)
  let tag ← tagRule
  endItem
  return { field with tag }

/-- The fields of a struct up to its closing brace. -/
def fields : Nat → Reader (List (Field Expr))
  | 0 => failure
  | k + 1 => do
    match ← peek with
    | some (.name _) | some (.symbol "*") =>
      let field ← g.fieldRule
      return field :: (← fields k)
    | _ =>
      let _ ← expect "\x7d"
      return []

/-- A struct after its word. -/
def structRule (position : Position) : Reader Expr := do
  let _ ← expect "\x7b"
  return .structType position (← g.fields g.bound)

/-- An element of an interface that starts with a name: a method or an embedded type. -/
def namedElement : Reader (Element Expr) := do
  match ← typeName with
  | .name n =>
    match ← peekSymbol with
    | "(" => return ⟨some n, ← g.signature n.position⟩
    | "[" =>
      let _ ← take
      let first ← nested g.expr
      let more ← if ← accept "," then nested (commaList g.type "]" g.bound) else pure []
      let _ ← expect "]"
      return ⟨none, .index (.name n) (first :: more)⟩
    | _ => return ⟨none, .name n⟩
  | base => return ⟨none, ← g.namedType base⟩

/-- The elements of an interface up to its closing brace. -/
def elements : Nat → Reader (List (Element Expr))
  | 0 => failure
  | k + 1 => do
    if ← accept "\x7d" then return []
    else
      let element ← match ← peek with
        | some (.name _) => g.namedElement
        | _ => pure ⟨none, ← g.termRule⟩
      let element ← if element.name.isSome then pure element
        else pure { element with type := ← g.unionRule g.bound element.type }
      endItem
      return element :: (← elements k)

/-- An interface after its word. -/
def interfaceRule (position : Position) : Reader Expr := do
  let _ ← expect "\x7b"
  return .interfaceType position (← g.elements g.bound)

/-- A map after its word. -/
def mapRule (position : Position) : Reader Expr := do
  let _ ← expect "["
  let key ← g.type
  let _ ← expect "]"
  return .mapType position key (← g.type)

/-- A channel after its word. -/
def chanRule (position : Position) : Reader Expr := do
  let dir ← if ← accept "<-" then pure Direction.send else pure .both
  return .chanType position dir (← g.type)

/-- A type that starts with a reserved word, if one is next. -/
def wordType (word : String) : Reader (Option Expr) := do
  match word with
  | "struct" => return some (← g.structRule (← expectKeyword word))
  | "interface" => return some (← g.interfaceRule (← expectKeyword word))
  | "map" => return some (← g.mapRule (← expectKeyword word))
  | "chan" => return some (← g.chanRule (← expectKeyword word))
  | "func" => return some (← g.signature (← expectKeyword word))
  | _ => return none

/-- A type that starts with a symbol, if one is next. -/
def symbolType (symbol : String) : Reader (Option Expr) := do
  match symbol with
  | "*" => return some (.star (← expect symbol) (← g.type))
  | "[" => return some (← g.arrayRule (← expect symbol))
  | "(" =>
    let position ← expect symbol
    let inner ← g.type
    let _ ← expect ")"
    return some (.paren position inner)
  | "<-" =>
    let position ← expect symbol
    let _ ← expectKeyword "chan"
    return some (.chanType position .receive (← g.type))
  | _ => return none

/-- A type, if one is next. -/
def typeRule : Reader (Option Expr) := do
  match ← peek with
  | some (.name _) => return some (← g.namedType (← typeName))
  | some (.keyword word) => g.wordType word
  | some (.symbol symbol) => g.symbolType symbol
  | _ => return none

end Grammar

end EverEqual.Expression
