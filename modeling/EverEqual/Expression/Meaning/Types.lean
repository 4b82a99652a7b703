import EverEqual.Expression.Meaning.Names

/-!
# What type expressions mean

The types that names, instances, arrays, functions, structs and interfaces stand for. A generic type
needs its arguments wherever a type is used. What a type demands of its parts is put off, because
those parts may be declared types that are not complete yet.

* `Rules.typeOf`: the type that an expression stands for;
* `Signature`: a function type with the names of its parameters.
-/

namespace EverEqual.Expression

/-- A parameter or result: its type, and its name if it has one. -/
structure Param where
  name : Option Name
  type : Ty

/-- A function type with the names of its parameters. -/
structure Signature where
  params : List Param
  results : List Param
  variadic : Bool

/-- A parameter as a part of a function type. -/
def Param.member (home : String) (p : Param) : Member Ty :=
  ⟨(p.name.map (·.text)).getD "", p.type, home, false, []⟩

/-- The function type of a signature. -/
def Signature.type (home : String) (f : Signature) : Ty :=
  .func (f.params.map (·.member home)) (f.results.map (·.member home)) f.variadic

/-- The named parameters and results of a signature. -/
def Signature.named (f : Signature) : List (Name × Ty × VarKind) :=
  let named (kind : VarKind) (p : Param) := p.name.map (·, p.type, kind)
  f.params.filterMap (named .parameter) ++ f.results.filterMap (named .result)

/-- The first name that occurs before in a list; blank names do not count. -/
def repeated? : List Name → List Name → Option Name
  | _, [] => none
  | seen, n :: ns =>
    if n.text = "_" then repeated? seen ns
    else if seen.any (·.text = n.text) then some n
    else repeated? (seen ++ [n]) ns

/-- The terms of a union. -/
def unionTerms : Expr → List Expr
  | .binary left _ "|" right => unionTerms left ++ [right]
  | e => [e]

/-- Notes an instance and where it is written, and gives the one that was made earlier if there is
one. -/
def makeInstance (position : Position) (n : TypeName) (args : List Ty) : Check Ty := do
  let p ← get
  let (t, instances) := (p.world.makeInstance n args).run p.instances
  let isNew := p.written.all (·.1 ≠ t)
  set { p with instances, written := p.written ++ if isNew then [(t, position)] else [] }
  return t

/-- The underlying type of a type, if it is predeclared. -/
def underlyingBasic? (w : World) (t : Ty) : Option Basic :=
  basic? (w.underlying t)

/-- Whether a type is a type parameter. -/
def isParam : Ty → Bool
  | .param _ _ _ => true
  | _ => false

namespace Rules

variable (g : Rules)

/-! ### Arrays -/

/-- The length of an array that a constant stands for. -/
def lengthOf (s : Scope) (o : Operand) : Check Int := do
  match o.constant? with
  | none => failAt s o .lengthNotConstant
  | some c =>
    let b := (underlyingBasic? (← world) o.type).getD .invalid
    let n? := if b.isUntyped || b.isInteger then c.toInt? else none
    match n? with
    | some n =>
      if 0 ≤ n && Width.holds ⟨true, 64⟩ n then return n
      else failAt s o (if b.isInteger then .lengthValue else .lengthNotWhole)
    | none => failAt s o (if b.isInteger then .lengthValue else .lengthNotWhole)

/-- The length of an array. A name must be that of a constant. -/
def arrayLength (s : Scope) (e : Expr) : Check Int := do
  match e with
  | .name n =>
    match s.entity? (← world) n.text with
    | none => fail n.position (.undefinedLength n.text)
    | some (.constant _ _) | some .counter => pure ()
    | some _ => fail n.position (.lengthName n.text)
  | _ => pure ()
  lengthOf s (← g.value s e)

/-! ### Functions and structs -/

/-- The parameters that a field stands for, and whether it takes any number of values. -/
def paramsOf (s : Scope) (f : Field Expr) : Check (List Param × Bool) := do
  let (type, variadic) ← match f.type with
    | .variadic _ elem => do pure (Ty.slice (← g.valueType s elem), true)
    | t => do pure (← g.valueType s t, false)
  match f.names with
  | [] => return ([⟨none, type⟩], variadic)
  | ns => return (ns.map fun n => ⟨some n, type⟩, variadic)

/-- The signature that parameters and results stand for. Their names must differ. -/
def signature (s : Scope) (params results : List (Field Expr)) : Check Signature := do
  let ps ← params.mapM (g.paramsOf s)
  let rs ← results.mapM (g.paramsOf s)
  let f : Signature := ⟨ps.flatMap (·.1), rs.flatMap (·.1), ps.any (·.2)⟩
  match repeated? [] (f.named.map (·.1)) with
  | some n => fail n.position (.redeclared n.text)
  | none => return f

/-- Notes the fields of a struct, whose names must differ. -/
def fieldsOf (s : Scope) : List Name → List (Field Expr) → Check (List (Member Ty))
  | _, [] => return []
  | seen, f :: fs => do
    let type ← g.valueType s f.type
    let embedded := f.names.isEmpty
    let names := if embedded then (f.type.baseName?).toList else f.names
    match repeated? seen names with
    | some n => fail n.position (.repeatedField n.text)
    | none => pure ()
    if embedded then later (.embedded f.type.position type)
    let rest ← fieldsOf s (seen ++ names.filter (·.text ≠ "_")) fs
    return names.map (fun n => ⟨n.text, type, s.package.path, embedded, f.tag⟩) ++ rest

/-! ### Interfaces -/

/-- A term of a union. -/
def termOf (s : Scope) (e : Expr) : Check Ty := do
  let (core, tilde) := match e with
    | .unary _ "~" core => (core, true)
    | e => (e, false)
  match ← g.definedType s core with
  | .param _ _ _ =>
    if tilde then fail core.position (.parameterTilde e.render)
    else fail core.position .parameterTerm
  | t => return if tilde then .tilde t else t

/-- Whether a type is a term with a tilde. -/
def isTilde : Ty → Bool
  | .tilde _ => true
  | _ => false

/-- The terms of a union, of which there are so many before. There must not be too many. -/
def termsOf (s : Scope) : Nat → List Expr → Check (List Ty)
  | _, [] => return []
  | before, e :: es => do
    let t ← g.termOf s e
    if before ≥ unionLimit then fail e.position (.manyTerms unionLimit)
    return t :: (← termsOf s (before + 1) es)

/-- An embedded element: a type, or a union of terms. -/
def embeddedElement (s : Scope) (e : Expr) : Check Ty := do
  let terms := unionTerms e
  let types ← g.termsOf s 0 terms
  match types with
  | [t] =>
    if isTilde t then
      later (.union [(e.position, t)])
      return .union [t]
    else return t
  | ts =>
    later (.union ((terms.map (·.position)).zip ts))
    return .union ts

/-- The methods and embedded elements of an interface, with their positions. -/
def elementsOf (s : Scope) : List (Element Expr) →
    Check (List (Position × Member Ty) × List (Position × Ty))
  | [] => return ([], [])
  | ⟨none, e⟩ :: es => do
    let t ← g.embeddedElement s e
    let (methods, embeds) ← elementsOf s es
    return (methods, (e.position, t) :: embeds)
  | ⟨some n, e⟩ :: es => do
    if n.text = "_" then fail n.position .blankMethod
    let t ← g.definedType s e
    let (methods, embeds) ← elementsOf s es
    return ((n.position, ⟨n.text, t, s.package.path, false, []⟩) :: methods, embeds)

/-- The interface that elements make. -/
def interfaceOf (s : Scope) (elements : List (Element Expr)) : Check Ty := do
  let (methods, embeds) ← g.elementsOf s elements
  if !(methods.isEmpty && embeds.isEmpty) then later (.typeSet methods embeds)
  return .ofMethods .literal (methods.map (·.2)) (embeds.map (·.2))

/-! ### Instances and all types -/

/-- The instance of a generic type. -/
def instanceOf (s : Scope) (base : Expr) (args : List Expr) : Check Ty := do
  let t ← g.type s base
  match (← world).isGeneric t, t with
  | true, .named n _ =>
    let types ← args.mapM (g.valueType s)
    let made ← makeInstance base.position n types
    later (.arguments base.position (args.map (·.position)) n types)
    return made
  | _, _ => fail base.position (.notGeneric (Expr.index base args).render (← typeText s t))

/-- The type that an expression stands for, which may be generic. -/
def typeOf (s : Scope) (e : Expr) : Check Ty := do
  match e with
  | .name n => return (← nameOperand s true n).type
  | .select base n =>
    let o ← g.selectOperand s true base n
    if o.mode = .type then return o.type else failAt s o fun text => .misused text .type
  | .index base args => g.instanceOf s base args
  | .paren _ inner => g.definedType s inner
  | .sliceType _ elem => return .slice (← g.valueType s elem)
  | .openArrayType _ dots _ => fail dots .openArray
  | .arrayType _ length elem =>
    let n ← g.arrayLength s length
    return .array n (← g.valueType s elem)
  | .star _ inner => return .pointer (← g.valueType s inner)
  | .mapType _ key elem =>
    let k ← g.valueType s key
    let t ← g.valueType s elem
    later (.keyType key.position k)
    return .map k t
  | .chanType _ dir elem => return .chan dir (← g.valueType s elem)
  | .funcType _ params results => return (← g.signature s params results).type s.package.path
  | .structType _ fields => return .struct (← g.fieldsOf s [] fields)
  | .interfaceType _ elements => g.interfaceOf s elements
  | e => fail e.position (.misused e.render .type)

end Rules

end EverEqual.Expression
