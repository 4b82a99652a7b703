import EverEqual.Expression.Meaning.Parts
import EverEqual.Expression.Number.Value

/-!
# Literals

Numbers, texts and characters are constants without a type. A composed value has the type in front
of its braces or, inside another one, the type of the elements there; its elements are the fields of
a struct, by their names or in order, or the elements of a sequence or map, perhaps with keys. A
field of an embedded struct can be given a value by its name too, unless the embedded struct is.

* `numberOperand`: a number;
* `Rules.compositeOperand`: a composed value.
-/

namespace EverEqual.Expression

/-- The type of a number without a type. -/
def numeralType (n : Numeral) : Basic :=
  if n.isImaginary then .untypedComplex else if n.isWhole then .untypedInt else .untypedFloat

/-- The most characters of a number. -/
def numeralLimit : Nat := 10000

/-- A number. -/
def numberOperand (p : Position) (n : Numeral) : Check Operand := do
  let length := n.text.length
  if length > numeralLimit then fail p (.longNumber (String.ofList (n.text.take 10)) length)
  match n.value? with
  | none => fail p (.malformedNumber (String.ofList n.text))
  | some q =>
    let c := if n.isImaginary then Constant.complex (.whole 0) q else .real q
    if isLong c then fail p (.constantOverflow "")
    else return ⟨.constant c, .basic (numeralType n), .number p n, .none⟩

/-! ### Fields -/

/-- A field of a struct with a value: its name, and the numbers of the fields that lead to it. -/
structure GivenField where
  name : String
  path : List Nat

/-- Why a field cannot have a value beside one that has, if it cannot. -/
def GivenField.clash? (f other : GivenField) : Option Cause :=
  if f.path = other.path then some (.repeatedValue f.name)
  else if other.path.isPrefixOf f.path then some (.promotedValue f.name other.name)
  else if f.path.isPrefixOf other.path then some (.embeddedValue f.name other.name)
  else none

/-- The field of a struct type that a name stands for as seen from a package. -/
def fieldOf? (w : World) (t : Ty) (home name : String) : Option Hit :=
  (Search.hit? (w.search t true (·.isNamed home name))).filter Hit.isField

/-- A field that is spelled almost like a name: one of the struct itself, or one that is embedded
in it. -/
def nearField? (w : World) (t : Ty) (fields : List (Member Ty)) (name : String) : Option Hit :=
  match fields.find? fun f => Text.sameIgnoringCase f.name name with
  | some f => some ⟨f.name, f.home, .field f.type, false, false, []⟩
  | none =>
    let isNear (m : Member Ty) := Text.sameIgnoringCase m.name name
    (Search.hit? (w.search t true isNear)).filter Hit.isField

/-- Why a struct has no field of a name, by the text of its type. -/
def noField (home type name : String) (near : Option Hit) : String :=
  let plain := "unknown field " ++ name ++ " in struct literal of type " ++ type
  match near with
  | none => plain
  | some f =>
    match likeness home name f with
    | .none => plain
    | .misspelled => plain ++ ", but does have " ++ f.name
    | .unexported => plain ++ ", but does have unexported " ++ f.name
    | .inaccessible =>
      "cannot refer to unexported field " ++ f.name ++ " in struct literal of type " ++ type

namespace Rules

variable (g : Rules)

/-! ### Structs -/

/-- The field that a key of a struct value stands for, and its type. -/
def keyField (s : Scope) (t : Ty) (fields : List (Member Ty)) (n : Name) :
    Check (GivenField × Ty) := do
  let w ← world
  let home := s.package.path
  match fieldOf? w t home n.text with
  | some ⟨name, _, .field type, _, isIndirect, path⟩ =>
    if isIndirect then fail n.position (.behindPointer n.text)
    else return (⟨name, path⟩, type)
  | _ =>
    let near := nearField? w t fields n.text
    fail n.position (.noField (noField home (← typeText s t) n.text near))

/-- The fields of a struct by their names, after those that have a value. -/
def keyedFields (s : Scope) (t : Ty) (fields : List (Member Ty)) :
    List GivenField → List Expr → Check Unit
  | _, [] => return
  | given, .pair key value :: rest => do
    let o ← g.value s value
    match key with
    | .name n =>
      let (f, type) ← keyField s t fields n
      let _ ← assign s o (some type) "struct literal"
      match given.findSome? f.clash? with
      | some cause => fail n.position cause
      | none => keyedFields s t fields (given ++ [f]) rest
    | e => fail e.position (.fieldName e.render)
  | _, e :: _ => fail e.position .mixedElements

/-- The fields of a struct in order. -/
def orderedFields (s : Scope) (type : String) (closing : Position) :
    List (Member Ty) → List Expr → Check Unit
  | [], [] => return
  | _ :: _, [] => fail closing (.valueCount true type)
  | _, .pair key _ :: _ => fail key.position .mixedElements
  | [], e :: _ => do
    let o ← g.value s e
    fail o.expr.position (.valueCount false type)
  | f :: fields, e :: rest => do
    let o ← g.value s e
    if !Text.isExported f.name && f.home ≠ s.package.path then
      fail o.expr.position (.hiddenField f.name type)
    let _ ← assign s o (some f.type) "struct literal"
    orderedFields s type closing fields rest

/-- The elements of a struct value. -/
def structElements (s : Scope) (t : Ty) (fields : List (Member Ty)) (closing : Position)
    (elements : List Expr) : Check Unit := do
  match elements with
  | [] => return
  | .pair _ _ :: _ => g.keyedFields s t fields [] elements
  | _ => g.orderedFields s (← typeText s t) closing fields elements

/-! ### Sequences and maps -/

/-- The elements of a sequence from an index on; the length that they make is returned. -/
def sequenceElements (s : Scope) (elem : Ty) (length : Option Int) :
    List Int → Int → Int → List Expr → Check Int
  | _, _, most, [] => return most
  | seen, index, most, e :: rest => do
    let (i, value) ← match e with
      | .pair key value =>
        match ← g.indexValue s length key with
        | some i => pure (i, value)
        | none => fail key.position (.indexNotConstant key.render)
      | value =>
        match length with
        | some n =>
          if index ≥ n then fail e.position (.elementBeyond index n) else pure (index, value)
        | none => pure (index, value)
    if seen.contains i then fail e.position (.repeatedIndex i)
    let o ← g.element s elem value
    let _ ← assign s o (some elem) "array or slice literal"
    sequenceElements s elem length (i :: seen) (i + 1) (max most (i + 1)) rest

/-- The elements of a map. Keys that are constants must differ. -/
def mapElements (s : Scope) (key elem : Ty) : List (Constant × Ty) → List Expr → Check Unit
  | _, [] => return
  | seen, .pair k v :: rest => do
    let o ← assign s (← g.element s key k) (some key) "map literal"
    let w ← world
    let known := match o.constant?.bind Constant.key? with
      | some c => [(c, o.type)]
      | none => []
    if known.any fun (c, t) => seen.any fun (d, u) => c = d && w.identical t u then
      fail o.expr.position (.repeatedKey ((o.constant?.map (·.render)).getD ""))
    let value ← g.element s elem v
    let _ ← assign s value (some elem) "map literal"
    mapElements s key elem (known ++ seen) rest
  | _, e :: _ => fail e.position .missingKey

/-! ### Composed values -/

/-- The value of an element, without its key. -/
def elementValue : Expr → Expr
  | .pair _ value => value
  | e => e

/-- The type of a composed value: as it is shown, without the pointer that an element may have in
front, and whether it comes from the elements around it. -/
def compositeType (s : Scope) (hint : Option Ty) (opening : Position) (type : Option Expr) :
    Check (Ty × Ty × Bool) := do
  match type, hint with
  | some (.openArrayType _ _ elem), _ =>
    let t := Ty.array (-1) (← g.valueType s elem)
    return (t, t, false)
  | some e, _ =>
    let t ← g.definedType s e
    return (t, t, false)
  | none, some t =>
    match (← world).underlying t with
    | .pointer base => return (t, base, true)
    | _ => return (t, t, true)
  | none, none => fail opening .untypedLiteral

/-- A composed value. -/
def compositeOperand (s : Scope) (hint : Option Ty) (type : Option Expr)
    (opening closing : Position) (elements : List Expr) : Check Operand := do
  let e := Expr.composite type opening closing elements
  let (shown, base, isElement) ← g.compositeType s hint opening type
  match (← world).underlying base with
  | .struct fields =>
    g.structElements s base fields closing elements
    return ⟨.value, shown, e, .none⟩
  | .array n elem =>
    let made ← g.sequenceElements s elem (if n < 0 then none else some n) [] 0 0 elements
    return ⟨.value, if n < 0 then .array made elem else shown, e, .none⟩
  | .slice elem =>
    let _ ← g.sequenceElements s elem none [] 0 0 elements
    return ⟨.value, shown, e, .none⟩
  | .map key elem =>
    g.mapElements s key elem [] elements
    return ⟨.value, shown, e, .none⟩
  | u =>
    elements.forM fun e => g.use s (elementValue e)
    if u = .invalid then return ⟨.value, .invalid, e, .none⟩
    else fail e.position (.literalType isElement (← typeText s shown))

end Rules

end EverEqual.Expression
