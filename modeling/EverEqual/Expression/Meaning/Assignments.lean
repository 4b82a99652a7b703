import EverEqual.Expression.Meaning.Calls

/-!
# Assignments

Values go to places one by one, or the values of one call go to all places. A place can be assigned
to if it is a variable, an element of a map, or blank; that a variable is assigned to is no use of
its value. An assignment can also declare variables.

* `Goal`, `Rules.deliver`: values for places;
* `Rules.assignTo`, `Rules.assignWith`: assignments, plain and with an operator;
* `Rules.declareVariables`: a declaration of variables by assignment;
* `Rules.giveBack`: values for the results of a function.
-/

namespace EverEqual.Expression

/-- A number of things. -/
def measure (count : Nat) (unit : String) : String :=
  toString count ++ " " ++ unit ++ (if count = 1 then "" else "s")

/-- Whether an expression is a call. -/
def isCall (e : Expr) : Bool :=
  match e.unparen with
  | .call _ _ _ _ => true
  | _ => false

/-- Ends with the fault that there are more or fewer values than places. -/
def countMismatch {α : Type} (places : Nat) (right : List Expr) (values : Nat) : Check α := do
  let position := (right.head?.map (·.position)).getD default
  let left := measure places "variable"
  match right with
  | [e] =>
    match e.unparen with
    | .call callee _ _ _ =>
      fail position (.countMismatch left (callee.render ++ " returns " ++ measure values "value"))
    | _ => fail position (.countMismatch left (measure values "value"))
  | _ => fail position (.countMismatch left (measure values "value"))

/-- A new variable in the innermost block. -/
def declareLocal (s : Scope) (n : Name) (t : Ty) : Check Scope := do
  if n.text = "_" then return s
  else
    let id ← fresh
    let frame := (s.frames.head?.map (·.id)).getD 0
    modify fun p => { p with locals := p.locals ++ [⟨id, s.function, frame, n⟩] }
    return s.declare ⟨n, .var t (.block id)⟩

/-- A place that a value goes to: its type, if it has one, and what a message calls it. -/
structure Goal where
  type : Option Ty
  context : String

namespace Rules

variable (g : Rules)

/-- The values of one expression: those of a call that gives several back, and a value together with
whether it is there, if that is allowed. -/
def manyValues (s : Scope) (allowsCheck : Bool) (e : Expr) : Check (List Operand) := do
  let o ← g.operand s none false e
  match o.mode, o.type with
  | .value, .tuple _ => return valuesOf o
  | _, _ =>
    let o ← excluding s false false o
    if allowsCheck && (o.mode = .entry || o.mode = .checked) then
      return [o, ⟨.value, .basic .untypedBool, e, .none⟩]
    else return [o]

/-- Values for places, which are found one after the other. What to do if they are not equally many
is given too: for several expressions, and for the values of one. The values are returned as they go
to the places. -/
def deliver (s : Scope) (places : List (Check Goal)) (right : List Expr) (allowsCheck : Bool)
    (uneven : Check (List Operand)) (mismatch : List Operand → Check (List Operand)) :
    Check (List Operand) := do
  let isSingleCall := right.length = 1 && right.all isCall
  if places.length = right.length && !isSingleCall then
    (places.zip right).mapM fun (place, e) => do
      let p ← place
      assign s (← g.value s e) p.type p.context
  else
    match right with
    | [e] =>
      let values ← g.manyValues s (allowsCheck && places.length = 2) e
      if values.length = places.length then
        (places.zip values).mapM fun (place, o) => do
          let p ← place
          assign s o p.type p.context
      else mismatch values
    | _ => uneven

/-- Steps that are no use of variables. -/
def withoutUse {α : Type} (steps : Check α) : Check α := do
  let used := (← get).used
  let a ← steps
  modify fun p => { p with used }
  return a

/-- The place that an expression stands for: the type of it, or nothing if it is blank. -/
def placeOf (s : Scope) (e : Expr) : Check (Option Ty) := do
  match e.unparen with
  | .name n =>
    if n.text = "_" then return none
    else
      let o ← withoutUse (g.value s e)
      if o.mode = .place then return some o.type else fail e.position (.unassignable e.render)
  | _ =>
    let o ← g.value s e
    match o.mode, o.expr.unparen with
    | .place, _ | .entry, _ => return some o.type
    | _, .select base _ =>
      if (← g.value s base).mode = .entry then fail e.position (.mapField e.render)
      else fail e.position (.unassignable e.render)
    | _, _ => fail e.position (.unassignable e.render)

/-- Looks at an expression on the left of an assignment that goes wrong. -/
def useLeft (s : Scope) (e : Expr) : Check Unit :=
  match e.unparen with
  | .name _ => withoutUse (g.use s e)
  | _ => g.use s e

/-- An assignment. -/
def assignTo (s : Scope) (left right : List Expr) : Check Unit := do
  let place (e : Expr) : Check Goal := do
    let type ← g.placeOf s e
    return ⟨type, if type.isNone then "assignment to _ identifier" else "assignment"⟩
  let uneven : Check (List Operand) := do
    left.forM (g.useLeft s)
    right.forM (g.use s)
    countMismatch left.length right right.length
  let _ ← g.deliver s (left.map place) right true uneven fun values =>
    countMismatch left.length right values.length

/-- An assignment with an operator, by the position of its sign. -/
def assignWith (s : Scope) (position : Position) (left : List Expr) (sign : String)
    (right : List Expr) : Check Unit := do
  match left, right with
  | [l], [r] =>
    let x ← g.value s l
    let y ← g.value s r
    let op := String.ofList sign.toList.dropLast
    let o ← binaryOf s (.binary l position sign r) op x y
    let place ← g.placeOf s l
    let _ ← assign s o place "assignment operation"
  | _, _ => fail position (.assignCount sign)

/-- The name on the left of a declaration by assignment, after others. One that is declared in the
innermost block already has to be that of a variable. -/
def leftName (s : Scope) (before : List Name) (e : Expr) : Check Name := do
  match e with
  | .name n =>
    if n.text ≠ "_" && before.any (·.text = n.text) then fail n.position (.repeatedName n.text)
    else
      match s.innermost? n.text with
      | some ⟨_, .var _ _⟩ | none => return n
      | some _ => fail n.position (.noVariable n.text)
  | e =>
    g.useLeft s e
    fail e.position (.noName e.render)

/-- The names on the left of a declaration by assignment. -/
def leftNames (s : Scope) : List Name → List Expr → Check (List Name)
  | before, [] => return before
  | before, e :: es => do leftNames s (before ++ [← g.leftName s before e]) es

/-- The place of a name that may be declared already in the innermost block. -/
def knownPlace (s : Scope) (n : Name) : Check Goal :=
  match s.innermost? n.text with
  | some ⟨_, .var t _⟩ => return ⟨some t, "assignment"⟩
  | _ => return ⟨none, "assignment"⟩

/-- A declaration of variables by assignment, by the position of its sign. At least one has to be
new. -/
def declareVariables (settle : Check Unit) (s : Scope) (position : Position)
    (left right : List Expr) : Check Scope := do
  let names ← g.leftNames s [] left
  let uneven : Check (List Operand) := do
    right.forM (g.use s)
    countMismatch left.length right right.length
  let values ← g.deliver s (names.map (knownPlace s)) right true uneven fun values =>
    countMismatch left.length right values.length
  settle
  let isNew (n : Name) := n.text ≠ "_" && (s.innermost? n.text).isNone
  if !names.any isNew then fail position .noNewName
  (names.zip values).foldlM (fun scope (n, o) =>
    if isNew n then declareLocal scope n o.type else return scope) s

/-! ### Results -/

/-- Ends with the fault that there are more or fewer values than results. -/
def resultsMismatch {α : Type} (s : Scope) (position : Position) (os : List Operand) :
    Check α := do
  let shown := (← world).typeStringFrom s.package.path
  let want := s.results.map (·.type)
  let last := if os.length > want.length then os[want.length]? else os.getLast?
  fail ((last.map (·.expr.position)).getD position)
    (.results (os.length < want.length) (typesSummary shown false false (os.map (·.type)))
      (typesSummary shown false false want))

/-- The names of the results have to stand for them where a function gives their values back without
mentioning them. -/
def checkResultNames (s : Scope) (position : Position) : Check Unit := do
  let w ← world
  for r in s.results do
    match s.entity? w r.name with
    | none | some (.var _ .result) => pure ()
    | some _ => fail position (.hiddenResult r.name)

/-- The values that a function gives back. -/
def giveBack (s : Scope) (position : Position) (values : List Expr) : Check Unit := do
  let isNamed := s.results.any (·.name ≠ "")
  if values.isEmpty && (isNamed || s.results.isEmpty) then checkResultNames s position
  else
    let place (r : Member Ty) : Check Goal := return ⟨some r.type, "return statement"⟩
    let uneven : Check (List Operand) := do
      values.forM (g.use s)
      resultsMismatch s position (← values.mapM (g.value s))
    let _ ← g.deliver s (s.results.map place) values false uneven (resultsMismatch s position)

end Rules

end EverEqual.Expression
