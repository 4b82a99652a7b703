import EverEqual.Expression.Meaning.Assignments

/-!
# Declarations in functions

Constants, variables and types that are declared in a block. The scope of a constant or variable
starts after its declaration; that of a type starts at its name, so that it can mention itself,
also in the constraints of its parameters. Another name for a type must not mention itself. A
declared type gets a package of its own, which has no name, so that it is different from all other
types.

* `Rules.declareConstants`, `Rules.declareValues`, `Rules.declareType`: the kinds of declarations;
* `Rules.declareAll`: a group of declarations.
-/

namespace EverEqual.Expression

/-- Declares a name in the innermost block, where it must be new. -/
def declareOnce (s : Scope) (n : Name) (declare : Scope → Check Scope) : Check Scope := do
  if n.text ≠ "_" && (s.innermost? n.text).isSome then fail n.position (.redeclared n.text)
  else declare s

/-- What a declaration of constants takes over from the one before: the type and the values. -/
structure Inherited where
  type : Option Expr := none
  values : List Expr := []

/-- Steps of which all faults are at one position. -/
def withPosition {α : Type} (position : Position) (steps : Check α) : Check α := fun p =>
  match steps p with
  | .ok a => .ok a
  | .error e => .error { e with position }

/-- There must be as many values as names. -/
def checkArity (names : List Name) (values : List Expr) (isConst : Bool) : Check Unit := do
  match values[names.length]?, names[values.length]? with
  | some e, _ => fail e.position .extraValue
  | none, some n => if isConst || values.length ≠ 1 then fail n.position (.missingValue n.text)
  | none, none => return

/-- Puts a type into a package of its own. -/
def addType (path : String) (d : Declaration) : Check Unit :=
  modify fun p =>
    let others := p.world.packages.filter (·.path ≠ path)
    { p with world := { p.world with
        packages := others ++ [{ path, name := "", declarations := [d] }] } }

namespace Rules

variable (g : Rules)

/-- A constant. -/
def constantOf (s : Scope) (type : Option Ty) (e : Expr) : Check Entity := do
  let o ← g.value s e
  if o.constant?.isNone then failAt s o .notConstant
  else
    let t := type.getD o.type
    let o ← assign s o (some t) "constant declaration"
    return .constant t (o.constant?.getD .unknown)

/-- The type of a declaration of constants, which constants must be able to have. -/
def constantType (s : Scope) : Option Expr → Check (Option Ty)
  | none => return none
  | some e => do
    let t ← g.definedType s e
    if isConstantType (← world) t then return some t
    else fail e.position (.constantType (← typeText s t))

/-- Constants; without values they repeat those before, and then faults are at their names. -/
def declareConstants (settle : Check Unit) (s : Scope) (before : Inherited) (spec : Spec Expr) :
    Check (Scope × Inherited) := do
  let isOwn := spec.type.isSome || !spec.values.isEmpty
  let source : Inherited := if isOwn then ⟨spec.type, spec.values⟩ else before
  let inner := { s with counter := some spec.index }
  let entities ← spec.names.mapIdxM fun i n => do
    let type ← g.constantType inner source.type
    match source.values[i]? with
    | none => return .constant .invalid .unknown
    | some e =>
      if isOwn then g.constantOf inner type e
      else withPosition n.position (g.constantOf inner type e)
  checkArity spec.names source.values true
  settle
  let scope ← (spec.names.zip entities).foldlM (fun scope (n, entity) =>
    declareOnce scope n fun scope => return scope.declare ⟨n, entity⟩) s
  return (scope, source)

/-- The types of variables whose values are declared one by one, or all by one call. -/
def variableTypes (s : Scope) (spec : Spec Expr) : Check (List Ty) := do
  let declaredType : Check (Option Ty) := spec.type.mapM (g.valueType s)
  let count := spec.names.length
  if spec.values.length = count || (spec.values.length ≠ 1 && !spec.values.isEmpty) then
    spec.names.mapIdxM fun i _ => do
      let target ← declaredType
      match spec.values[i]? with
      | some e =>
        let o ← assign s (← g.value s e) target "variable declaration"
        return target.getD o.type
      | none => return target.getD .invalid
  else
    let target ← declaredType
    match spec.values with
    | [] => return List.replicate count (target.getD .invalid)
    | es =>
      let places := List.replicate count (pure ⟨target, "assignment"⟩)
      let values ← g.deliver s places es true (countMismatch count es es.length) fun values =>
        countMismatch count es values.length
      return values.map fun o => target.getD o.type

/-- Variables. -/
def declareValues (settle : Check Unit) (s : Scope) (spec : Spec Expr) : Check Scope := do
  let types ← g.variableTypes s spec
  if spec.type.isNone || !spec.values.isEmpty then checkArity spec.names spec.values false
  settle
  (spec.names.zip types).foldlM (fun scope (n, t) =>
    declareOnce scope n fun scope => declareLocal scope n t) s

/-- The constraint of a type parameter, which must not be another one. -/
def constraintOf (s : Scope) (e : Expr) : Check Ty := do
  match e with
  | .unary _ "~" _ | .binary _ _ "|" _ =>
    let t ← g.embeddedElement s e
    later (.typeSet [] [(e.position, t)])
    return .interface .implicit [] [t]
  | e =>
    let t ← g.definedType s e
    if isParam t then fail e.position .parameterConstraint else return t

/-- The type parameters of a declaration. -/
def typeParams (s : Scope) (fields : List (Field Expr)) : Check (List TypeParam) := do
  let params ← fields.mapM fun f => do
    let constraint ← g.constraintOf s f.type
    return f.names.map fun n => ⟨n.text, constraint⟩
  return params.flatten

/-- A type or another name for one. -/
def declareType (s : Scope) (spec : Spec Expr) : Check Scope := do
  match spec.names, spec.type with
  | [n], some e =>
    let id ← fresh
    let path := " " ++ toString id
    let name : TypeName := ⟨path, n.text⟩
    let blank : Declaration := { name := n.text, type := .invalid }
    addType path blank
    let scope ← declareOnce s n fun scope =>
      if n.text = "_" then return scope else return scope.declare ⟨n, .type (.named name [])⟩
    later (.recursion n name)
    let names := spec.params.flatMap (·.names)
    match repeated? [] names with
    | some p => fail p.position (.redeclared p.text)
    | none => pure ()
    let isAlias := spec.kind = .synonym
    let outer := if isAlias && n.text ≠ "_" then s.declare ⟨n, .unfinished n⟩ else scope
    let inner := names.zipIdx.foldl (fun inner (p, i) =>
      inner.declare ⟨p, .type (.param ⟨name, none⟩ i p.text)⟩) (outer.enter (← fresh))
    addType path { blank with params := names.map (⟨·.text, .invalid⟩) }
    let params ← g.typeParams inner spec.params
    addType path { blank with params }
    let type ← g.definedType inner e
    if isParam type then fail e.position (.parameterAlone isAlias)
    addType path { blank with params, type, isAlias }
    return scope
  | _, _ => return s

/-- A group of declarations. -/
def declareAll (settle : Check Unit) (s : Scope) : Inherited → List (Spec Expr) → Check Scope
  | _, [] => return s
  | before, spec :: specs => do
    match spec.kind with
    | .const =>
      let (scope, source) ← g.declareConstants settle s before spec
      declareAll settle scope source specs
    | .var => declareAll settle (← g.declareValues settle s spec) before specs
    | .type | .synonym => declareAll settle (← g.declareType s spec) before specs

end Rules

end EverEqual.Expression
