import EverEqual.Expression.Syntax

/-!
# Reading tokens

A reader takes tokens from the front of a list and fails if they are not what it asks for; where and
why it fails is not kept. Besides the tokens it knows how deep it is inside brackets, which decides
whether a brace after a name starts a composed value, and whether an equals sign could be meant as a
comparison.

* `Reader`: the readers;
* `expect`, `accept`, `takeName`, `endItem`: single tokens;
* `commaList`: items with commas between them, up to a closing symbol.
-/

namespace EverEqual.Expression

/-- What a reader works on. -/
structure ReaderState where
  tokens : List Token
  /-- How deep reading is inside brackets; below zero in the head of a statement. -/
  level : Int := 0
  /-- Whether an expression is read that stands for a value to be used. -/
  isUsed : Bool := false

/-- Reads from the front of a list of tokens. -/
abbrev Reader := StateT ReaderState Option

/-- The next lexeme. -/
def peek : Reader (Option Lexeme) :=
  return (← get).tokens.head?.map (·.lexeme)

/-- The next symbol; empty if the next token is none. -/
def peekSymbol : Reader String := do
  match ← peek with
  | some (.symbol s) => return s
  | _ => return ""

/-- The next reserved word; empty if the next token is none. -/
def peekKeyword : Reader String := do
  match ← peek with
  | some (.keyword s) => return s
  | _ => return ""

/-- Whether the next lexeme is a given symbol. -/
def nextIs (s : String) : Reader Bool :=
  return (← peek) = some (.symbol s)

/-- Takes the next token. -/
def take : Reader Token := do
  match (← get).tokens with
  | t :: ts =>
    modify fun s => { s with tokens := ts }
    return t
  | [] => failure

/-- Takes a symbol that has to be next, and gives its position. -/
def expect (s : String) : Reader Position := do
  let t ← take
  if t.lexeme = .symbol s then return t.position else failure

/-- Takes a reserved word that has to be next, and gives its position. -/
def expectKeyword (s : String) : Reader Position := do
  let t ← take
  if t.lexeme = .keyword s then return t.position else failure

/-- Takes a symbol if it is next, and says whether it was. -/
def accept (s : String) : Reader Bool := do
  if ← nextIs s then
    let _ ← take
    return true
  else return false

/-- Takes a name that has to be next. -/
def takeName : Reader Name := do
  let t ← take
  match t.lexeme with
  | .name s => return ⟨t.position, s⟩
  | _ => failure

/-- Reads one level deeper inside brackets. -/
def nested {α : Type} (r : Reader α) : Reader α := do
  modify fun s => { s with level := s.level + 1 }
  let a ← r
  modify fun s => { s with level := s.level - 1 }
  return a

/-- Reads the head of a statement, where a brace after a name starts the body. -/
def inHead {α : Type} (r : Reader α) : Reader α := do
  let level := (← get).level
  modify fun s => { s with level := -1 }
  let a ← r
  modify fun s => { s with level }
  return a

/-- Reads with or without the expectation of a value to be used. -/
def used {α : Type} (isUsed : Bool) (r : Reader α) : Reader α := do
  let before := (← get).isUsed
  modify fun s => { s with isUsed }
  let a ← r
  modify fun s => { s with isUsed := before }
  return a

/-- Whether an item ends here: at a semicolon, explicit or at the end of a line. -/
def atItemEnd : Reader Bool := do
  let next ← peek
  return next = some (.symbol ";") || next = some .lineEnd

/-- Takes the end of an item. Before a closing bracket or brace there need be none. -/
def endItem : Reader Unit := do
  if (← nextIs ")") || (← nextIs "\x7d") then pure ()
  else if ← atItemEnd then
    let _ ← take
  else failure

/-- Reads items with commas between them up to a closing symbol, which is not taken. A comma may
follow the last item. -/
def commaList {α : Type} (item : Reader α) (close : String) : Nat → Reader (List α)
  | 0 => failure
  | k + 1 => do
    if ← nextIs close then return []
    else
      let a ← item
      if ← accept "," then return a :: (← commaList item close k)
      else if ← nextIs close then return [a]
      else failure

/-- Reads items with a comma between any two. -/
def commaSeparated {α : Type} (item : Reader α) : Nat → Reader (List α)
  | 0 => failure
  | k + 1 => do
    let a ← item
    if ← accept "," then return a :: (← commaSeparated item k) else return [a]

/-- The readers that grammar rules call on each other, down to some depth. -/
structure Grammar where
  /-- A bound on the number of items in a list. -/
  bound : Nat
  /-- A type, if one is next. -/
  type? : Reader (Option Expr)
  /-- An expression. -/
  expr : Reader Expr
  /-- An expression without an operator between two values. -/
  unary : Reader Expr
  /-- A statement. -/
  statement : Reader Stmt

namespace Grammar

/-- Nothing is read at depth zero. -/
def nothing : Grammar := ⟨0, failure, failure, failure, failure⟩

variable (g : Grammar)

/-- A type that has to be next. -/
def type : Reader Expr := do
  match ← g.type? with
  | some t => return t
  | none => failure

/-- An expression that stands for a value to be used. -/
def value : Reader Expr := used true g.expr

/-- Several expressions with commas between them. -/
def exprs (isUsed : Bool) : Reader (List Expr) := used isUsed (commaSeparated g.expr g.bound)

end Grammar

end EverEqual.Expression
