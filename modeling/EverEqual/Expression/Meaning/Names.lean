import EverEqual.Expression.Meaning.Basic

/-!
# Names and members

A name stands for what its scope says. Behind the name of a package stands one of its exported
names; behind a value stands one of its fields or methods; and behind a type stands one of its
methods, as a function that takes the receiver first. If there is none, a message points to a member
that is spelled almost alike.

* `nameOperand`: what a name means;
* `Rules.selectOperand`: what a member means.
-/

namespace EverEqual.Expression

/-- What a name means; if a type is wanted, other kinds of things are refused as such. -/
def nameOperand (s : Scope) (wantsType : Bool) (n : Name) : Check Operand := do
  let operand (mode : Mode) (type : Ty) : Operand := ⟨mode, type, .name n, .none⟩
  match s.entity? (← world) n.text with
  | none => fail n.position (if n.text = "_" then .blank else .undefined n.text)
  | some (.type t) => return operand .type t
  | some (.unfinished m) => fail m.position (.recursiveType m.text)
  | some entity =>
    if wantsType then fail n.position (.wrongKind n.text entity.kind)
    else
      match entity with
      | .package _ => fail n.position (.packageAlone n.text)
      | .type t => return operand .type t
      | .unfinished m => fail m.position (.recursiveType m.text)
      | .constant t c => return operand (.constant c) t
      | .var t kind =>
        markUsed kind
        return operand .place t
      | .function name => return operand (.function name) .invalid
      | .missing => return operand .value (.basic .untypedNil)
      | .counter =>
        match s.counter with
        | some k => return operand (.constant (.ofInt k)) (.basic .untypedInt)
        | none => fail n.position .counter

/-- All names that a package declares. -/
def packageNames (p : Package) : List String :=
  p.declarations.map (·.name) ++ p.consts.map (·.1) ++ p.vars.map (·.1)

/-- The first exported name of a package that differs from a name only by its case. -/
def nearName? (p : Package) (name : String) : Option String :=
  ((packageNames p).mergeSort (· ≤ ·)).find? fun n =>
    Text.isExported n && Text.sameIgnoringCase n name

/-- What a name of another package means. -/
def packageMember (p : Package) (e : Expr) (n : Name) : Check Operand := do
  match declared? p n.text with
  | none =>
    match nearName? p n.text with
    | some other => fail n.position (.misspelled e.render other)
    | none => fail n.position (.undefined e.render)
  | some entity =>
    if !Text.isExported n.text then fail n.position (.unexported n.text p.name)
    else
      match entity with
      | .type t => return ⟨.type, t, e, .none⟩
      | .constant t c => return ⟨.constant c, t, e, .none⟩
      | .var t _ => return ⟨.place, t, e, .none⟩
      | _ => return ⟨.value, .invalid, e, .none⟩

/-! ### Members of values and types -/

/-- How a member that is there is like one that was asked for. -/
inductive Likeness
  | none
  | misspelled
  /-- It would be exported if it were written as it was asked for. -/
  | unexported
  /-- It has that name but belongs to another package. -/
  | inaccessible
deriving DecidableEq, Repr, Inhabited

/-- A name without its first letter. -/
def tail (name : String) : List Char :=
  name.toList.drop 1

/-- How a member is like a name as seen from a package. -/
def likeness (home name : String) (hit : Hit) : Likeness :=
  if hit.home = home then .misspelled
  else if hit.name = name then .inaccessible
  else
    match Text.isExported name, Text.isExported hit.name with
    | true, true => .misspelled
    | true, false => if tail hit.name = tail name then .unexported else .none
    | false, true => if tail hit.name = tail name then .misspelled else .none
    | false, false => .none

/-- The word for what a name selects. -/
def Selection.word : Selection → String
  | .field _ => "field"
  | .method _ => "method"

/-- Why a type has no member of a name, by the text of the type and a member that is spelled almost
alike. -/
def noMember (home type name : String) (near : Option Hit) : String :=
  let none := "type " ++ type ++ " has no field or method " ++ name
  match near with
  | .none => none
  | some hit =>
    let word := Selection.word hit.selection
    match likeness home name hit with
    | .none => none
    | .misspelled => none ++ ", but does have " ++ word ++ " " ++ hit.name
    | .unexported => none ++ ", but does have unexported " ++ word ++ " " ++ hit.name
    | .inaccessible => "cannot refer to unexported " ++ word ++ " " ++ hit.name

/-- The search for a member of an operand. A declared pointer type has the fields behind the
pointer but no methods. -/
def searchMember (w : World) (o : Operand) (isSought : Member Ty → Bool) : Search :=
  match w.unalias o.type, w.underlying o.type with
  | .named _ _, .pointer e =>
    match w.search (.pointer e) false isSought with
    | .found hit => if hit.isField then .found hit else .missing
    | .ambiguous => .ambiguous
    | _ => .missing
  | _, _ => w.search o.type (o.mode = .place) isSought

/-- The found member that a search ends with. -/
def Search.hit? : Search → Option Hit
  | .found hit => some hit
  | _ => none

/-- A method as a function that takes its receiver first. -/
def methodOfType (receiver : Ty) : Ty → Ty
  | .func ps rs v =>
    let name := if (ps.head?.map (·.name)).getD "" = "" then "" else "_"
    .func (⟨name, receiver, "", false, []⟩ :: ps) rs v
  | t => t

/-- What a member that was found means. -/
def memberOperand (s : Scope) (o : Operand) (e : Expr) (n : Name) (hit : Hit) : Check Operand := do
  match o.mode, hit.selection with
  | .type, .method signature => return ⟨.value, methodOfType o.type signature, e, .none⟩
  | .type, .field _ => fail e.position (.fieldOfType n.text (← typeText s o.type))
  | _, .method signature => return ⟨.value, signature, e, .none⟩
  | mode, .field t =>
    return ⟨if mode = .place || hit.indirect then .place else .value, t, e, .none⟩

/-- What a member of an operand means. -/
def member (s : Scope) (o : Operand) (e : Expr) (n : Name) : Check Operand := do
  let w ← world
  let home := s.package.path
  let type ← typeText s o.type
  match searchMember w o fun m => n.text ≠ "_" && m.isNamed home n.text with
  | .found hit => memberOperand s o e n hit
  | .ambiguous => fail n.position (.ambiguousMember o.expr.render n.text)
  | .needsPointer =>
    if o.mode = .type then fail n.position (.pointerMethodOfType type n.text)
    else fail n.position (.pointerMethod n.text type)
  | .missing =>
    if w.underlying o.type = .invalid then return ⟨.value, .invalid, e, .none⟩
    else if w.isInterfacePointer o.type then
      fail n.position (.noMember o.expr.render n.text
        ("type " ++ type ++ " is pointer to interface, not interface"))
    else
      let near := Search.hit? (searchMember w o fun m => Text.sameIgnoringCase m.name n.text)
      fail n.position (.noMember o.expr.render n.text (noMember home type n.text near))

namespace Rules

variable (g : Rules)

/-- What a name behind a package, a value or a type means. -/
def selectOperand (s : Scope) (wantsType : Bool) (base : Expr) (n : Name) : Check Operand := do
  let e := Expr.select base n
  let w ← world
  match base.name?.bind fun q => s.entity? w q.text with
  | some (.package p) => packageMember p e n
  | _ =>
    let o ← g.valueOrType s false base
    match o.mode with
    | .function _ => failAt s o .memberOfFunction
    | _ =>
      if wantsType then fail n.position (.misused e.render .type)
      else member s o e n

end Rules

end EverEqual.Expression
