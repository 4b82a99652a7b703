import EverEqual.Expression.Labels
import EverEqual.Expression.Meaning.Declarations
import EverEqual.Expression.Meaning.Tasks
import EverEqual.Expression.Terminating

/-!
# Statements

A statement is checked in its scope and may declare names for those after it; what it puts off is
done at its end, before the scope changes. A block has a scope of its own, and so has each clause of
a choice. At the end of a function its labels have to be used, its last statement has to give its
results back, and its variables have to be used.

* `Rules.settle`: does what was put off;
* `Rules.statementOf`: the rule for each kind of statement;
* `Rules.body`: the body of a function.
-/

namespace EverEqual.Expression

/-- What is wrong with a function that a loop takes elements from, after what it should be. -/
def wrongIterator (why : String) : String :=
  "func must be func(yield func(...) bool): " ++ why

/-- The types of what a function hands on for each element, or why it hands on nothing. -/
def yieldTypes (w : World) (params results : List (Member Ty)) : Except String (List Ty) :=
  match params, results with
  | [⟨_, yield, _, _, _⟩], [] =>
    match w.underlying yield with
    | .func ps rs _ =>
      if ps.length > 2 then .error (wrongIterator "yield func has too many parameters")
      else
        match rs with
        | [⟨_, result, _, _, _⟩] =>
          if w.identical result (.basic .bool) then .ok (ps.map (·.type))
          else if isBasic w (·.isBoolean) result then
            .error "yield func returns user-defined boolean, not bool"
          else .error (wrongIterator "yield func does not return bool")
        | _ => .error (wrongIterator "yield func does not return bool")
    | _ => .error (wrongIterator "argument is not func")
  | [_], _ => .error (wrongIterator "unexpected results")
  | _, _ => .error (wrongIterator "wrong argument count")

/-- The types of what a loop over elements gives for each of them: nothing, one or two values; or
why there are no elements, which may be empty. -/
def rangeTypes (w : World) (t : Ty) : Except String (List Ty) :=
  match w.underlying t with
  | .basic b =>
    if b.isString then .ok [.basic .int, .basic .rune]
    else if b.isInteger then .ok [t]
    else if b = .invalid then .ok [.invalid, .invalid]
    else .error ""
  | .array _ e | .slice e => .ok [.basic .int, e]
  | .pointer p =>
    match w.underlying p with
    | .array _ e => .ok [.basic .int, e]
    | _ => .error ""
  | .map k e => .ok [k, e]
  | .chan .send _ => .error "receive from send-only channel"
  | .chan _ e => .ok [e]
  | .func ps rs _ => yieldTypes w ps rs
  | _ => .error ""

/-- Several statements without the empty ones at their end. -/
def trimEmpty (ss : List Stmt) : List Stmt :=
  (ss.reverse.dropWhile Stmt.isEmpty).reverse

/-- Whether an expression receives from a channel. -/
def isReceive (e : Expr) : Bool :=
  match e.unparen with
  | .unary _ "<-" _ => true
  | _ => false

/-- Whether a statement is one that can be waited for. -/
def canWait : Stmt → Bool
  | .send _ _ _ => true
  | .eval e => isReceive e
  | .assign _ _ _ [e] => isReceive e
  | _ => false

/-- Where a statement starts that has an expression in front. -/
def startOf : Stmt → Position
  | .eval e | .assign _ (e :: _) _ _ => e.position
  | _ => default

/-- The first variable of a function that is not used: outer blocks come before inner ones, and
earlier blocks before later ones. -/
def firstUnused (p : Progress) (function : Nat) : Option Local :=
  let unused := p.locals.filter fun l => l.function = function && !p.used.contains l.id
  (unused.mergeSort fun a b => a.frame < b.frame || (a.frame = b.frame && a.id ≤ b.id)).head?

/-- A jump without a label needs something to leave or to go on with. -/
def checkJump (s : Scope) (position : Position) (word : String) : Check Unit := do
  match word with
  | "break" => if !s.nesting.breaks then fail position (.statement .strayBreak)
  | "continue" => if !s.nesting.continues then fail position (.statement .strayContinue)
  | "fallthrough" =>
    match s.nesting.falls with
    | .allowed => return
    | .final => fail position (.statement .fallAtEnd)
    | .typeChoice => fail position (.statement .fallInTypeChoice)
    | .stray => fail position (.statement .strayFall)
  | _ => return

namespace Rules

variable (g : Rules)

/-! ### Blocks -/

/-- Several statements, one after the other. Only the last one may go on with the next clause. -/
def statements (s : Scope) : List Stmt → Check Scope
  | [] => return s
  | [x] => g.statement s x
  | x :: xs => do
    let inner := if s.nesting.falls = .allowed then
      { s with nesting := { s.nesting with falls := .stray } } else s
    let after ← g.statement inner x
    statements { after with nesting := s.nesting } xs

/-- Several statements in a block of their own. -/
def block (s : Scope) (body : List Stmt) : Check Unit := do
  let _ ← g.statements (s.enter (← fresh)) (trimEmpty body)

/-- The scope inside a statement, where control cannot fall into the next clause. -/
def inside (s : Scope) : Scope :=
  { s with nesting := { s.nesting with falls := .stray } }

/-- A condition, which has to be a truth value. -/
def condition (s : Scope) (statement : String) (e : Expr) : Check Unit := do
  let o ← g.value s e
  if o.type ≠ .invalid && !isBasic (← world) (·.isBoolean) o.type then
    fail e.position (.statement (.condition statement))

/-- A statement at the head of another one. -/
def start (s : Scope) : Option Stmt → Check Scope
  | none => return s
  | some x => g.statement s x

/-! ### Simple statements -/

/-- An expression as a statement has to do something. -/
def evalStatement (s : Scope) (e : Expr) : Check Unit := do
  let o ← g.operand s none false e
  match o.mode with
  | .function _ => failAt s o fun text => .misused text .uncalled
  | .type => failAt s o fun text => .misused text .expression
  | _ =>
    if o.effect = .action then return else failAt s o fun text => .misused text .nothing

/-- A value for a channel. -/
def sendStatement (s : Scope) (position : Position) (channel value : Expr) : Check Unit := do
  let c ← g.value s channel
  let o ← g.value s value
  match (← world).underlying c.type with
  | .chan .receive _ => refuseChannel s position .sendBackward c
  | .chan _ elem =>
    let _ ← assign s o (some elem) "send"
  | .basic .invalid => return
  | _ => refuseChannel s position .send c

/-- A number that is counted up or down. -/
def stepStatement (s : Scope) (e : Expr) (op : String) : Check Unit := do
  let o ← g.value s e
  if o.type ≠ .invalid && !isBasic (← world) (·.isNumeric) o.type then
    fail e.position (.stepType (e.render ++ op) (← typeText s o.type))
  let _ ← g.placeOf s e

/-- A call that runs beside the function or at its end. -/
def launchStatement (s : Scope) (word : String) (call : Expr) : Check Unit := do
  match call with
  | .call _ _ _ _ =>
    let o ← g.operand s none false call
    match o.effect with
    | .action => return
    | .conversion =>
      failAt s o (.discarded word "requires function call, not conversion")
    | .none => failAt s o (.discarded word "discards result of")
  | e => fail e.position (.statement (.noCall word))

/-! ### Choices -/

/-- At most one clause of a choice can be for all that is left; the first one is given, if it has
been met. -/
def checkDefaults {G : Type} : Option Position → List (Clause G Stmt) → Check Unit
  | _, [] => return
  | first, ⟨position, none, _⟩ :: rest =>
    match first with
    | some p => fail position (.repeatedDefault p)
    | none => checkDefaults (some position) rest
  | first, ⟨_, some _, _⟩ :: rest => checkDefaults first rest

/-- The cases of a clause, which are compared with the subject; no two constants are the same. The
values of those before are given, with their types. -/
def checkCases (s : Scope) (subject : Operand) :
    List (Constant × Ty) → List Expr → Check (List (Constant × Ty))
  | seen, [] => return seen
  | seen, e :: es => do
    let w ← world
    let (o, x) ← matched s (← g.value s e) subject
    if o.type ≠ .invalid && x.type ≠ .invalid then
      match comparisonFault? w (w.typeStringFrom s.package.path) "==" o x with
      | some (_, why) => fail e.position (.wrongCase e.render x.expr.render why)
      | none => pure ()
    match o.constant?.bind Constant.case? with
    | none => checkCases s subject seen es
    | some c =>
      if seen.any fun (d, t) => c = d && w.identical t o.type then failAt s o .repeatedCase
      else checkCases s subject (seen ++ [(c, o.type)]) es

/-- The clauses of a choice by values. -/
def valueClauses (s : Scope) (subject : Operand) (seen : List (Constant × Ty)) :
    List (Clause (List Expr) Stmt) → Check Unit
  | [] => return
  | clause :: rest => do
    let seen ← g.checkCases s subject seen (clause.guard.getD [])
    let falls := if rest.isEmpty then Fall.final else .allowed
    g.block { s with nesting := { s.nesting with breaks := true, falls } } clause.body
    valueClauses s subject seen rest

/-- What a choice is about; without a subject it is about what holds. -/
def subjectOf (s : Scope) : Option Expr → Check Operand
  | none => return ⟨.constant (.bool true), .basic .bool, .name ⟨default, "true"⟩, .none⟩
  | some e => do
    let o ← assign s (← g.value s e) none "switch expression"
    let w ← world
    if o.type ≠ .invalid && !w.canBeKey o.type && !hasNil w o.type then failAt s o .switchOn
    else return o

/-- Whether an expression is the name of the missing value. -/
def isMissing (w : World) (s : Scope) (e : Expr) : Bool :=
  (e.unparen.name?.bind fun n => s.entity? w n.text) = some .missing

/-- The type that a clause of a choice by type is for; the missing value has none. -/
def caseType (s : Scope) (e : Expr) : Check (Option Ty) := do
  if isMissing (← world) s e then return none else return some (← g.valueType s e)

/-- The types that a clause of a choice by type is for. No two are the same, and values of the
subject can have them. -/
def caseTypes (s : Scope) (subject : Operand) :
    List (Option Ty) → List Expr → Check (List (Option Ty))
  | seen, [] => return seen
  | seen, e :: es => do
    let w ← world
    let t? ← g.caseType s e
    let isSame (u? : Option Ty) := match t?, u? with
      | some t, some u => w.identical t u
      | t?, u? => t?.isNone && u?.isNone
    if seen.any isSame then
      fail e.position (.repeatedType ((← t?.mapM (typeText s)).getD "nil"))
    match t?, t?.bind (unassertable? w s.package.path subject.type) with
    | some t, some why =>
      let text ← operandText s subject
      fail e.position (.impossibleCase e.render text (← typeText s t) why)
    | _, _ => pure ()
    caseTypes s subject (seen ++ [t?]) es

/-- The clauses of a choice by type; the numbers of the variables that they declare are returned. -/
def typeClauses (s : Scope) (name : Option Name) (subject : Operand)
    (seen : List (Option Ty)) : List (Clause (List Expr) Stmt) → Check (List Nat)
  | [] => return []
  | clause :: rest => do
    let all ← g.caseTypes s subject seen (clause.guard.getD [])
    let type := match all.drop seen.length with
      | [some t] => t
      | _ => subject.type
    let inner := { s with nesting := { s.nesting with breaks := true, falls := .typeChoice } }
    let (scope, ids) ← match name with
      | none => pure (inner.enter (← fresh), [])
      | some n =>
        let id ← fresh
        pure ((inner.enter (← fresh)).declare ⟨n, .var type (.block id)⟩, [id])
    let _ ← g.statements scope (trimEmpty clause.body)
    return ids ++ (← typeClauses s name subject all rest)

/-- A choice by type. -/
def typeChoice (s : Scope) (name : Option Name) (subject : Expr)
    (clauses : List (Clause (List Expr) Stmt)) : Check Unit := do
  if let some n := name then
    if n.text = "_" then fail n.position .noNewVariable
  let o ← g.value s subject
  if o.type ≠ .invalid && !(← world).isInterface o.type then failAt s o .noInterfaceValue
  checkDefaults none clauses
  let ids ← g.typeClauses s name o [] clauses
  let used := (← get).used
  match name with
  | some n => if !ids.any used.contains then fail n.position (.unusedSubject n.text)
  | none => return

/-- The clauses of a choice by what is ready. -/
def readyClauses (s : Scope) : List (Clause Stmt Stmt) → Check Unit
  | [] => return
  | clause :: rest => do
    let scope := s.enter (← fresh)
    let scope ← match clause.guard with
      | none => pure scope
      | some x => if canWait x then g.statement scope x else
        fail (startOf x) .readyCase
    let _ ← g.statements { scope with nesting := { scope.nesting with breaks := true } }
      (trimEmpty clause.body)
    readyClauses s rest

/-! ### Loops -/

/-- The scope inside a loop. -/
def inLoop (s : Scope) : Scope :=
  { s with nesting := ⟨true, true, .stray⟩ }

/-- A loop with a condition. -/
def loopStatement (s : Scope) (first : Option Stmt) (test : Option Expr) (next : Option Stmt)
    (body : List Stmt) : Check Unit := do
  let scope ← g.start (inside (s.enter (← fresh))) first
  match test with
  | some e => g.condition scope "for" e
  | none => pure ()
  let _ ← g.start scope next
  match next with
  | some (.assign _ (e :: _) ":=" _) => fail e.position (.statement .lateDeclaration)
  | _ => g.block (inLoop scope) body

/-- The names that a loop gives elements to, with their types. Numbers come from the subject. -/
def elementNames (s : Scope) (number : Option Operand) : List (Expr × Ty) →
    Check (List (Name × Ty))
  | [] => return []
  | (.name n, t) :: rest => do
    let o ← match number with
      | some o => assign s o none "range clause"
      | none => assign s ⟨.value, t, .name n, .none⟩ none "assignment"
    return (n, o.type) :: (← elementNames s number rest)
  | (e, _) :: _ => fail e.position (.declaresPart e.render)

/-- Declares the names that a loop gives elements to, by the position of the sign after them. -/
def declareElements (s : Scope) (position : Position) (names : List (Name × Ty)) :
    Check Scope := do
  if names.all (·.1.text = "_") then fail position .noNewName
  else
    names.foldlM (fun scope (n, t) => declareOnce scope n fun scope => declareLocal scope n t) s

/-- Gives the elements of a loop to places. A place for the numbers of a loop has to be whole. -/
def assignElements (s : Scope) (number : Option Operand) : List (Expr × Ty) → Check Unit
  | [] => return
  | (e, t) :: rest => do
    let place ← g.placeOf s e
    match number with
    | some o =>
      let o ← assign s o place "range"
      if !isBasic (← world) (·.isInteger) o.type then
        fail e.position (.rangePlace (← typeText s o.type))
    | none =>
      let context := if place.isNone then "assignment to _ identifier" else "assignment"
      let _ ← assign s ⟨.value, t, e, .none⟩ place context
    assignElements s number rest

/-- A loop over elements. -/
def rangeStatement (s : Scope) (position : Position) (left : List Expr) (declares : Bool)
    (subject : Expr) (body : List Stmt) : Check Unit := do
  let s := inside s
  let o ← g.value s subject
  let w ← world
  let types ← match rangeTypes w o.type with
    | .ok types => pure types
    | .error why => failAt s o fun text => .rangeOver text why
  match left[types.length]? with
  | some e =>
    let text ← operandText s o
    fail e.position (.rangeNames text types.length)
  | none => pure ()
  let scope := s.enter (← fresh)
  let number := if isBasic w (·.isInteger) o.type then some o else none
  let scope ← if declares then
      declareElements scope position (← elementNames scope number (left.zip types))
    else
      g.assignElements scope number (left.zip types)
      match left, number with
      | [], some o =>
        let _ ← assign scope o none "range clause"
        pure scope
      | _, _ => pure scope
  g.block (inLoop scope) body

/-! ### All statements -/

/-- A statement; the scope after it is returned. -/
def statementOf (settle : Check Unit) (s : Scope) (x : Stmt) : Check Scope := do
  match x with
  | .empty => return s
  | .eval e =>
    g.evalStatement s e
    return s
  | .send position channel value =>
    g.sendStatement s position channel value
    return s
  | .step e op =>
    g.stepStatement s e op
    return s
  | .assign position left op right =>
    if op = ":=" then
      g.declareVariables settle s position left right
    else
      if op = "=" then g.assignTo s left right else g.assignWith s position left op right
      return s
  | .launch word call =>
    g.launchStatement s word call
    return s
  | .giveBack position values =>
    g.giveBack s position values
    return s
  | .jump position word label =>
    if label.isNone then checkJump s position word
    return s
  | .block body =>
    g.block (inside s) body
    return s
  | .branch first test body otherwise =>
    let scope ← g.start (inside (s.enter (← fresh))) first
    g.condition scope "if" test
    g.block scope body
    match otherwise with
    | some x =>
      let _ ← g.statement scope x
      return s
    | none => return s
  | .choose first subject clauses =>
    let scope ← g.start (inside (s.enter (← fresh))) first
    let x ← g.subjectOf scope subject
    checkDefaults none clauses
    g.valueClauses scope x [] clauses
    return s
  | .chooseType first name subject clauses =>
    let scope ← g.start (inside (s.enter (← fresh))) first
    g.typeChoice scope name subject clauses
    return s
  | .chooseReady clauses =>
    checkDefaults none clauses
    g.readyClauses (inside s) clauses
    return s
  | .loop first test next body =>
    g.loopStatement s first test next body
    return s
  | .range position left declares subject body =>
    g.rangeStatement s position left declares subject body
    return s
  | .labelled _ x => g.statement s x
  | .declare _ specs => g.declareAll settle s {} specs

/-! ### What was put off -/

/-- The body of a function. -/
def body (s : Scope) (statements : List Stmt) (closing : Position) : Check Unit := do
  let _ ← g.statements s (trimEmpty statements)
  liftM (checkLabels statements)
  let p ← get
  if !s.results.isEmpty && !Stmt.listTerminates p.panics statements then
    fail closing (.statement .missingReturn)
  match firstUnused p s.function with
  | some l => fail l.name.position (.unused l.name.text)
  | none => return

/-- Does what was put off. -/
def task (s : Scope) : Task → Check Unit
  | .body scope statements closing => g.body scope statements closing
  | t => typeTask s t

/-- Does what was put off since there were a number of tasks. -/
def settle (s : Scope) (before : Nat) : Nat → Check Unit
  | 0 => return
  | k + 1 => do
    let p ← get
    match p.tasks.drop before with
    | [] => return
    | t :: rest =>
      set { p with tasks := p.tasks.take before ++ rest }
      g.task s t
      settle s before k

/-- A statement, and what it puts off; the scope after it is returned. -/
def statementRule (s : Scope) (x : Stmt) : Check Scope := do
  let before := (← get).tasks.length
  let settle := g.settle s before g.bound
  let scope ← g.statementOf settle s x
  settle
  return scope

end Rules

end EverEqual.Expression
