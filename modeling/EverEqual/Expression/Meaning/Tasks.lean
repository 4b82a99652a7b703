import EverEqual.Expression.Meaning.Types

/-!
# Checks that were put off

What types demand of their parts is checked once the parts are complete: that values do not have the
type of a constraint, that keys can be compared, that embedded fields can be embedded, that terms
and methods do not clash, that the arguments of an instance meet the constraints, and that no
declared type contains a value of its own type.

* `typeTask`: one such check.
-/

namespace EverEqual.Expression

/-- The type of a value must not be an interface that is only for constraints. -/
def checkValueType (s : Scope) (position : Position) (t : Ty) : Check Unit := do
  let w ← world
  match t, w.underlying t with
  | .param _ _ _, _ => return
  | _, .interface f ms es =>
    let set := w.typeSet (.interface f ms es)
    if set.isMethodSet then return
    else fail position (.constraintAlone (← typeText s t) set.comparable)
  | _, _ => return

/-- What is wrong with the type of an embedded field. -/
def embeddingFault? (w : World) (t : Ty) : Option EmbeddingFault :=
  let (base, isPointer) := w.deref t
  match base, w.underlying base with
  | .param _ _ _, _ => some .parameter
  | _, .basic .unsafePointer => some .unsafePointer
  | _, .pointer _ => some .pointer
  | _, .interface _ _ _ => if isPointer then some .interfacePointer else none
  | _, _ => none

/-- A term without its tilde, and whether it had one. -/
def splitTilde : Ty → Ty × Bool
  | .tilde t => (t, true)
  | t => (t, false)

/-- An interface as a term of a union must not ask for methods or comparable values. -/
def checkInterfaceTerm (s : Scope) (position : Position) (t : Ty) (set : TypeSet) :
    Check Unit := do
  let text := (← world).pathStringFrom s.package.path t
  if !set.methods.isEmpty then fail position (.unionMethods text)
  else if t = .named ⟨"", "comparable"⟩ [] then fail position .unionComparable
  else if set.comparable then fail position (.unionEmbedsComparable text)

/-- A term of a union must not overlap one before it. -/
def checkOverlap (s : Scope) (position : Position) (before : List Ty) (t : Ty) : Check Unit := do
  let w ← world
  let text := w.pathStringFrom s.package.path
  let term (t : Ty) : Term := ⟨(splitTilde t).2, (splitTilde t).1⟩
  let other? := before.find? fun u =>
    !w.isInterface (term u).type && !w.disjoint w.identical (term t) (term u)
  match other? with
  | some u => fail position (.overlap (text t) (text u))
  | none => return

/-- A term of a union must make sense. -/
def checkTerm (s : Scope) (position : Position) (before : List Ty) (t : Ty) : Check Unit := do
  let w ← world
  let (core, tilde) := splitTilde t
  let under := w.underlying core
  match under with
  | .basic .invalid => return
  | .interface f ms es =>
    if tilde then fail position (.tildeInterface (← typeText s core))
    else checkInterfaceTerm s position t (w.typeSet (.interface f ms es))
  | _ =>
    if tilde && !w.identical under core then
      fail position (.tildeUnderlying (← typeText s core) (← typeText s under))
    else checkOverlap s position before t

/-- The terms of a union, one after the other. -/
def checkTerms (s : Scope) : List Ty → List (Position × Ty) → Check Unit
  | _, [] => return
  | before, (position, t) :: rest => do
    checkTerm s position before t
    checkTerms s (before ++ [t]) rest

/-- The methods that are written in an interface must have different names. -/
def checkMethods : List (Member Ty) → List (Position × Member Ty) → Check Unit
  | _, [] => return
  | seen, (position, m) :: rest => do
    if seen.any (·.isNamed m.home m.name) then fail position (.repeatedMethod m.name)
    else checkMethods (seen ++ [m]) rest

/-- The methods with those of an embedded element; one that is there already has to be compared. -/
def embedMethods (position : Position) (seen : List (Member Ty)) :
    List (Member Ty) → Check (List (Member Ty))
  | [] => return seen
  | m :: ms => do
    match seen.find? (·.isNamed m.home m.name) with
    | some n =>
      later (.sameMethod position m n)
      embedMethods position seen ms
    | none => embedMethods position (seen ++ [m]) ms

/-- The embedded elements of an interface, one after the other. The terms of a union must not be too
many. -/
def checkEmbeds : List (Member Ty) → List (Position × Ty) → Check Unit
  | _, [] => return
  | seen, (position, t) :: rest => do
    let w ← world
    match w.underlying t with
    | .interface f ms es =>
      let methods := (w.typeSet (.interface f ms es)).methods.mergeSort Ty.methodOrder
      checkEmbeds (← embedMethods position seen methods) rest
    | _ =>
      if (w.elementTerms? w.identical w.typeSet t).isNone then
        fail position (.manyTerms unionLimit)
      checkEmbeds seen rest

/-- The constraint of a parameter as an interface. -/
def constraintOf (w : World) (c : Ty) : Ty :=
  match w.definition c with
  | .interface _ _ _ | .basic .invalid => c
  | _ => .interface .implicit [] [c]

/-- The arguments of an instance must meet the constraints of the parameters. -/
def checkConstraints (s : Scope) (n : TypeName) (all : List Ty) :
    List (TypeParam × Ty × Position) → Check Unit
  | [] => return
  | (p, t, position) :: rest => do
    let w ← world
    let target := constraintOf w (p.constraint.subst n all)
    match w.unmet? .satisfy t target with
    | some reason =>
      fail position (.unmet (reason.message w s.package.path .satisfy t target))
    | none => checkConstraints s n all rest

/-- The arguments of an instance must be as many as the parameters and meet their constraints. -/
def checkArguments (s : Scope) (position : Position) (positions : List Position) (n : TypeName)
    (args : List Ty) : Check Unit := do
  let params := (((← world).declaration? n).map (·.params)).getD []
  if args.length ≠ params.length then
    fail position (.typeArguments (args.length < params.length) n.name args.length params.length)
  else checkConstraints s n args (params.zip (args.zip positions))

/-- A list of types up to one of them, which it must contain, in reverse. -/
def backTo (t : Ty) (path : List Ty) : List Ty :=
  (path.takeWhile (· ≠ t) ++ [t]).reverse

/-- The declared types by way of which a value of a type contains a value of the same type, followed
to a given depth. The types that the value is part of are the nest, those passed on the way the
path, the innermost first. A type parameter stands for the argument of the innermost instance, and
that argument is part of what is around the instance. -/
def cycle? (w : World) : Nat → List Ty → List Ty → Ty → Option (List Ty)
  | 0, _, _, _ => none
  | k + 1, nest, path, t =>
    match t with
    | .array _ e => cycle? w k nest path e
    | .struct fs => fs.findSome? fun f => cycle? w k nest path f.type
    | .union ts => ts.findSome? (cycle? w k nest path)
    | .tilde t => cycle? w k nest path t
    | .interface _ _ es => es.findSome? (cycle? w k nest path)
    | .named n _ =>
      if nest.contains t then some (backTo t path)
      else
        match w.declaration? n with
        | some d =>
          if d.isAlias then cycle? w k nest path (w.definition t)
          else cycle? w k (t :: nest) (t :: path) d.type
        | none => none
    | .param b i _ =>
      match nest with
      | .named n args :: outer =>
        if b.declaration = n then args[i]?.bind (cycle? w k outer path) else none
      | _ => none
    | _ => none

/-- The type that is written first, with its place. -/
def firstWritten? : List (Ty × Position) → Option (Ty × Position)
  | [] => none
  | a :: rest => some <| rest.foldl (fun a b => if b.2.isBefore a.2 then b else a) a

/-- The values of a declared type must not contain values of the type itself. The fault is where the
first of the types by way of which they do is written. -/
def checkRecursion (n : Name) (name : TypeName) : Check Unit := do
  let w ← world
  let written := (.named name [], n.position) :: (← get).written
  let types := (cycle? w w.horizon [] [] (.named name [])).getD []
  match firstWritten? (types.filterMap fun t => written.find? (·.1 = t)) with
  | some (.named m _, position) =>
    fail position (if types.length = 1 then .recursiveType m.name else .recursiveTypes m.name)
  | _ => return

/-- A check on types that was put off. -/
def typeTask (s : Scope) : Task → Check Unit
  | .valueType position t => checkValueType s position t
  | .keyType position t => do
    if (← world).canBeKey t then return
    else fail position (.keyType (← typeText s t) (isParam t))
  | .embedded position t => do
    match embeddingFault? (← world) t with
    | some fault => fail position (.embedding fault)
    | none => return
  | .union terms => checkTerms s [] terms
  | .typeSet methods embeds => do
    let sorted := methods.mergeSort fun a b => Ty.methodOrder a.2 b.2
    checkMethods [] sorted
    checkEmbeds (sorted.map (·.2)) embeds
  | .sameMethod position m n => do
    if (← world).identical m.type n.type then return else fail position (.repeatedMethod m.name)
  | .arguments position positions n args => checkArguments s position positions n args
  | .recursion n name => checkRecursion n name
  | .body _ _ _ => return

end EverEqual.Expression
