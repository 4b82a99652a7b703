import EverEqual.Expression.Grammar.Operands

/-!
# The grammar of statements

The statements in the body of a function. In the head of a statement, a brace after a name starts
the body and not a composed value.

* `Grammar.simpleRule`: assignments, calls and other statements without a body;
* `Grammar.declarationRule`: constants, variables and types;
* `Grammar.statementRule`: all statements.
-/

namespace EverEqual.Expression

/-- What a simple statement may also be: a label with a statement, or the head of a loop. -/
inductive SimplePlace
  | plain
  | labels
  | loops
deriving DecidableEq, Repr, Inhabited

/-- A simple statement, or the head of a loop over elements. -/
inductive Simple
  | statement (s : Stmt)
  | range (position : Position) (left : List Expr) (declares : Bool) (subject : Expr)

/-- The signs of assignments and declarations. -/
def assignments : List String :=
  [":=", "=", "+=", "-=", "*=", "/=", "%=", "&=", "|=", "^=", "<<=", ">>=", "&^="]

/-- Whether a type is written in a form that is no value. -/
def Expr.isTypeElement : Expr → Bool
  | .sliceType _ _ | .arrayType _ _ _ | .openArrayType _ _ _ | .structType _ _ | .funcType _ _ _
  | .interfaceType _ _ | .mapType _ _ _ | .chanType _ _ _ => true
  | .binary left _ _ right => left.isTypeElement || right.isTypeElement
  | .unary _ op _ => op = "~"
  | .paren _ inner => inner.isTypeElement
  | _ => false

/-- An expression taken apart into a name and a constraint, if it can be read so. With force a
constraint that could be a value will do. -/
def Expr.splitName? (force : Bool) : Expr → Option (Name × Option Expr)
  | .name n => some (n, none)
  | .binary (.name n) _ "*" right =>
    if force || right.isTypeElement then some (n, some (.star right.position right)) else none
  | .binary left position "|" right =>
    match left.splitName? (force || right.isTypeElement) with
    | some (n, some constraint) => some (n, some (.binary constraint position "|" right))
    | _ => none
  | .call (.name n) [arg] none _ =>
    if force || arg.isTypeElement then some (n, some (.paren arg.position arg)) else none
  | _ => none

/-- The expression that a statement consists of. -/
def Stmt.expr? : Stmt → Option Expr
  | .eval e => some e
  | _ => none

/-- The value whose type a statement asks for, and the name it gets. -/
def Stmt.typeQuestion? : Stmt → Option (Option Name × Expr)
  | .eval (.assertion e none) => some (none, e)
  | .assign _ [left] ":=" [.assertion e none] => some (left.name?, e)
  | _ => none

/-- Whether a statement asks for the type of a value with the wrong sign. -/
def Stmt.isWrongTypeQuestion : Stmt → Bool
  | .assign _ [_] "=" [.assertion _ none] => true
  | _ => false

namespace Grammar

variable (g : Grammar)

/-! ### Simple statements -/

/-- An assignment or declaration after what stands on its left. -/
def assignRule (place : SimplePlace) (left : List Expr) : Reader Simple := do
  let op ← peekSymbol
  let position ← expect op
  if place = .loops && (op = ":=" || op = "=") && (← peekKeyword) = "range" then
    let _ ← take
    return .range position left (op = ":=") (← g.value)
  else return .statement (.assign position left op (← g.exprs true))

/-- A simple statement. -/
def simpleRule (place : SimplePlace) : Reader Simple := do
  let left ← g.exprs false
  let op ← peekSymbol
  if assignments.contains op then g.assignRule place left
  else
    match left with
    | [e] =>
      match op with
      | ":" =>
        let _ ← take
        match e, place with
        | .name n, .labels => return .statement (.labelled n (← g.statement))
        | _, _ => failure
      | "<-" =>
        let position ← expect "<-"
        return .statement (.send position e (← g.value))
      | "++" | "--" =>
        let _ ← take
        return .statement (.step e op)
      | _ => return .statement (.eval e)
    | _ => failure

/-- A simple statement that is no head of a loop. -/
def plainRule : Reader Stmt := do
  match ← g.simpleRule .plain with
  | .statement s => return s
  | .range _ _ _ _ => failure

/-- The expression that a statement has to consist of, if there is a statement. -/
def asExpr : Option Stmt → Reader (Option Expr)
  | none => return none
  | some s =>
    match s.expr? with
    | some e => return some e
    | none => failure

/-! ### Declarations -/

/-- A declaration of constants or variables. -/
def valueSpec (kind : DeclarationKind) (index : Nat) : Reader (Spec Expr) := do
  let names ← commaSeparated takeName g.bound
  let type ← if kind = .const then
      if ← atItemEnd then pure none
      else if ← nextIs ")" then pure none
      else g.type?
    else if ← nextIs "=" then pure none
    else pure (some (← g.type))
  let values ← if ← accept "=" then g.exprs true else pure []
  endItem
  return { kind, names, type, values, index }

/-- The type parameters of a declaration after its bracket, from the first one on. -/
def typeParams (first : Entry) : Reader (List (Field Expr)) := do
  let first ← match first.type with
    | some t => pure { first with type := some (← g.unionRule g.bound t) }
    | none => pure first
  let more ← if ← accept "," then commaList g.typeParamRule "]" g.bound else pure []
  let _ ← expect "]"
  let entries := first :: more
  if entries.any Entry.isFull then Entry.spread false entries else failure

/-- A type after the name of its declaration: an alias or a type of its own. -/
def typeRest (n : Name) (params : List (Field Expr)) : Reader (Spec Expr) := do
  let kind ← if ← accept "=" then pure DeclarationKind.synonym else pure .type
  return { kind, names := [n], params, type := some (← g.type) }

/-- A declaration of a type whose name a bracket follows: an array, or type parameters. -/
def bracketSpec (n : Name) : Reader (Spec Expr) := do
  let position ← expect "["
  match ← peek with
  | some (.name _) =>
    let first ← takeName
    if ← nextIs "[" then
      let (name, type) ← g.bracketRule first
      g.typeRest n (← g.typeParams ⟨name, some type⟩)
    else
      let e ← nested do g.climb g.bound 1 (← g.suffixes g.bound (.name first))
      let hasComma ← nextIs ","
      match e.splitName? hasComma, ← nextIs "]" with
      | some (m, some t), _ => g.typeRest n (← g.typeParams ⟨some m, some t⟩)
      | some (m, none), false =>
        let entry ← g.afterName m
        g.typeRest n (← g.typeParams entry)
      | _, _ =>
        let _ ← expect "]"
        return { kind := .type, names := [n], type := some (.arrayType position e (← g.type)) }
  | _ => return { kind := .type, names := [n], type := some (← g.arrayRule position) }

/-- A declaration of a type. -/
def typeSpec : Reader (Spec Expr) := do
  let n ← takeName
  let spec ← if ← nextIs "[" then g.bracketSpec n else g.typeRest n []
  endItem
  return spec

/-- A declaration after its word. -/
def specRule (word : String) (index : Nat) : Reader (Spec Expr) :=
  match word with
  | "type" => g.typeSpec
  | "const" => g.valueSpec .const index
  | _ => g.valueSpec .var index

/-- The declarations of a group up to its closing parenthesis. -/
def specs (word : String) : Nat → Nat → Reader (List (Spec Expr))
  | 0, _ => failure
  | k + 1, index => do
    if ← accept ")" then return []
    else
      let spec ← g.specRule word index
      return spec :: (← specs word k (index + 1))

/-- A declaration, or a group of them in parentheses. -/
def declarationRule (word : String) : Reader Stmt := do
  let position ← expectKeyword word
  if ← accept "(" then
    let list ← g.specs word g.bound 0
    endItem
    return .declare position list
  else return .declare position [← g.specRule word 0]

/-! ### Statements with a head and a body -/

/-- The head of a branch: a statement to start with, and the condition. -/
def branchHead : Reader (Option Stmt × Expr) := do
  let first ← if ← atItemEnd then pure none else pure (some (← g.plainRule))
  let (start, condition) ← if ← nextIs "\x7b" then pure (none, first)
    else if ← atItemEnd then
      let _ ← take
      pure (first, some (← g.plainRule))
    else failure
  match ← asExpr condition with
  | some e => return (start, e)
  | none => failure

/-- A branch after its word. -/
def branchRule : Reader Stmt := do
  let _ ← expectKeyword "if"
  let (start, condition) ← inHead g.branchHead
  let (body, _) ← g.block
  if (← peekKeyword) = "else" then
    let _ ← take
    if (← peekKeyword) = "if" then
      return .branch start condition body (some (← g.statement))
    else
      let (otherwise, _) ← g.block
      endItem
      return .branch start condition body (some (.block otherwise))
  else
    endItem
    return .branch start condition body none

/-- The clauses of a choice up to its closing brace. -/
def clauses {G : Type} (guard : Reader G) : Nat → Reader (List (Clause G Stmt))
  | 0 => failure
  | k + 1 => do
    match ← peekKeyword with
    | "case" =>
      let position ← expectKeyword "case"
      let guarded ← guard
      let _ ← expect ":"
      let body ← g.statements g.bound
      return ⟨position, some guarded, body⟩ :: (← clauses guard k)
    | "default" =>
      let position ← expectKeyword "default"
      let _ ← expect ":"
      let body ← g.statements g.bound
      return ⟨position, none, body⟩ :: (← clauses guard k)
    | _ =>
      let _ ← expect "\x7d"
      return []

/-- The head of a choice: a statement to start with, and the subject. -/
def choiceHead : Reader (Option Stmt × Option Stmt) := do
  if ← nextIs "\x7b" then return (none, none)
  else
    let first ← if ← atItemEnd then pure none else pure (some (← g.plainRule))
    if ← atItemEnd then
      let _ ← take
      if ← nextIs "\x7b" then return (first, none) else return (first, some (← g.plainRule))
    else return (none, first)

/-- A choice by values or by type. -/
def choiceRule : Reader Stmt := do
  let _ ← expectKeyword "switch"
  let (start, subject) ← inHead g.choiceHead
  if subject.any Stmt.isWrongTypeQuestion then failure
  let _ ← expect "\x7b"
  let list ← g.clauses (g.exprs true) g.bound
  endItem
  match subject.bind Stmt.typeQuestion? with
  | some (name, e) => return .chooseType start name e list
  | none => return .choose start (← asExpr subject) list

/-- What a clause waits for: sending, or receiving into at most two places. -/
def readyGuard : Reader Stmt := do
  let left ← g.exprs false
  match ← peekSymbol with
  | "<-" =>
    let position ← expect "<-"
    match left with
    | [e] => return .send position e (← g.value)
    | _ => failure
  | op =>
    if op = "=" || op = ":=" then
      let position ← expect op
      if left.length > 2 then failure
      return .assign position left op [← g.value]
    else
      match left with
      | [e] => return .eval e
      | _ => failure

/-- A choice by what is ready. -/
def readyRule : Reader Stmt := do
  let _ ← expectKeyword "select"
  let _ ← expect "\x7b"
  let list ← g.clauses g.readyGuard g.bound
  endItem
  return .chooseReady list

/-- The head of a loop: what to start with, the condition and what follows each turn, or the head of
a loop over elements. -/
def loopHead : Reader (Option Stmt × Option Simple × Option Stmt) := do
  if ← nextIs "\x7b" then return (none, none, none)
  else
    let first ← if ← atItemEnd then pure none
      else if (← peekKeyword) = "range" then
        let _ ← take
        pure (some (Simple.range default [] false (← g.value)))
      else pure (some (← g.simpleRule .loops))
    match first with
    | some (.range position left declares subject) =>
      return (none, some (.range position left declares subject), none)
    | _ =>
      if ← atItemEnd then
        let _ ← take
        let start := match first with
          | some (.statement s) => some s
          | _ => none
        let condition ← if ← atItemEnd then pure none
          else if ← nextIs "\x7b" then failure
          else pure (some (Simple.statement (← g.plainRule)))
        if ← atItemEnd then
          let _ ← take
        else failure
        if ← nextIs "\x7b" then return (start, condition, none)
        else return (start, condition, some (← g.plainRule))
      else return (none, first, none)

/-- A loop. -/
def loopRule : Reader Stmt := do
  let _ ← expectKeyword "for"
  let (start, condition, next) ← inHead g.loopHead
  let (body, _) ← g.block
  endItem
  match condition with
  | some (.range position left declares subject) =>
    if left.length > 2 then failure else return .range position left declares subject body
  | some (.statement s) => return .loop start (← asExpr (some s)) next body
  | none => return .loop start none next body

/-! ### Statements -/

/-- A call that runs beside the function or at its end; it must not be in parentheses. -/
def launchRule (word : String) : Reader Stmt := do
  let _ ← expectKeyword word
  match ← g.value with
  | .call callee args dots closing =>
    endItem
    return .launch word (.call callee args dots closing)
  | _ => failure

/-- The end of the function, with its results. -/
def giveBackRule : Reader Stmt := do
  let position ← expectKeyword "return"
  let values ← if (← atItemEnd) || (← nextIs "\x7d") then pure [] else g.exprs true
  endItem
  return .giveBack position values

/-- A jump. -/
def jumpRule (word : String) : Reader Stmt := do
  let position ← expectKeyword word
  let label ← if word = "goto" then some <$> takeName
    else match ← peek with
      | some (.name _) => if word = "fallthrough" then pure none else some <$> takeName
      | _ => pure none
  endItem
  return .jump position word label

/-- A statement that starts with a reserved word. -/
def wordStatement (word : String) : Reader Stmt :=
  match word with
  | "const" | "type" | "var" => g.declarationRule word
  | "go" | "defer" => g.launchRule word
  | "return" => g.giveBackRule
  | "break" | "continue" | "goto" | "fallthrough" => jumpRule word
  | "if" => g.branchRule
  | "switch" => g.choiceRule
  | "select" => g.readyRule
  | "for" => g.loopRule
  | "func" | "struct" | "map" | "chan" | "interface" => simpleStatement
  | _ => failure
where
  /-- A simple statement with its end. -/
  simpleStatement : Reader Stmt := do
    match ← g.simpleRule .labels with
    | .statement (.labelled n s) => return .labelled n s
    | .statement s =>
      endItem
      return s
    | .range _ _ _ _ => failure

/-- A statement that starts with a symbol. -/
def symbolStatement (symbol : String) : Reader Stmt :=
  match symbol with
  | "\x7b" => do
    let (body, _) ← g.block
    endItem
    return .block body
  | ";" => do
    let _ ← take
    return .empty
  | "\x7d" => return .empty
  | _ =>
    if ["(", "[", "+", "-", "*", "&", "^", "<-", "!"].contains symbol then
      wordStatement.simpleStatement g
    else failure

/-- A statement. -/
def statementRule : Reader Stmt := do
  match ← peek with
  | some (.keyword word) => g.wordStatement word
  | some (.symbol symbol) => g.symbolStatement symbol
  | some .lineEnd =>
    let _ ← take
    return .empty
  | some _ => wordStatement.simpleStatement g
  | none => failure

end Grammar

/-- The grammar down to some depth. -/
def grammar : Nat → Grammar
  | 0 => .nothing
  | k + 1 =>
    let g := grammar k
    ⟨k, g.typeRule, g.exprRule, g.unaryRule, g.statementRule⟩

/-- The tree of a whole text. The end of a line may follow it. -/
def Expr.ofText? (s : String) : Option Expr := do
  let tokens ← tokenize s
  let (e, rest) ← (grammar (4 * tokens.length + 8)).value.run { tokens }
  match rest.tokens with
  | [] | [⟨.lineEnd, _⟩] => some e
  | _ => none

end EverEqual.Expression
