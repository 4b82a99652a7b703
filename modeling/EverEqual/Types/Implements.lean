import EverEqual.Types.Identical

/-!
# Selecting members and implementing interfaces

A name selects a field or method of a type, its own or one of an embedded field. The search goes
level by level: the shallowest level that has the name decides, and there the name must be unique.
A type that was seen on an earlier level is skipped; a type that is reached twice on one level makes
its members ambiguous. A type may have a method and a field of one name: selecting it gives the
method, but the method is not listed among those of the type.

* `World.search`: what the search for a member comes to;
* `World.listedMethod?`: the method of a name among those that a type lists;
* `World.implements`: whether a type implements an interface.
-/

namespace EverEqual

/-- What a name selects. -/
inductive Selection
  | field (type : Ty)
  /-- A method with its function type. -/
  | method (signature : Ty)
deriving DecidableEq, Repr, Inhabited

/-- A type to be searched on one level. -/
structure Candidate where
  type : Ty
  /-- Whether a pointer leads to it. -/
  indirect : Bool
  /-- Whether it is reached more than once on its level. -/
  repeated : Bool := false
  /-- The numbers of the embedded fields that lead to it. -/
  path : List Nat := []
deriving DecidableEq, Repr, Inhabited

/-- One occurrence of the name. -/
structure Hit where
  name : String
  /-- The path of the package in which the member was written. -/
  home : String
  selection : Selection
  /-- Whether the method needs a pointer to its receiver. -/
  needsPointer : Bool
  indirect : Bool
  /-- The numbers of the fields that lead to it, its own included. -/
  path : List Nat := []
deriving DecidableEq, Repr, Inhabited

/-- Whether the name is that of a field. -/
def Hit.isField (hit : Hit) : Bool :=
  match hit.selection with
  | .field _ => true
  | .method _ => false

/-- What the search for a member comes to. -/
inductive Search
  | missing
  /-- The name occurs more than once on the level that decides. -/
  | ambiguous
  /-- The method needs a pointer to its receiver, and none leads to it. -/
  | needsPointer
  | found (hit : Hit)
deriving DecidableEq, Repr, Inhabited

/-- The function type of the method that a search ends with. -/
def Search.method? : Search → Option Ty
  | found hit =>
    match hit.selection with
    | .method signature => some signature
    | .field _ => none
  | _ => none

/-- The search on one level: what is seen, what is found, and what is embedded. -/
structure Level where
  seen : List Ty
  hits : List Hit := []
  next : List Candidate := []
deriving DecidableEq, Repr, Inhabited

/-- Adds an occurrence of the name; one in a repeated type counts twice. -/
def Level.record (l : Level) (c : Candidate) (path : List Nat) (m : Member Ty)
    (selection : Selection) (needsPointer : Bool) : Level :=
  let hit : Hit := ⟨m.name, m.home, selection, needsPointer, c.indirect, path⟩
  { l with hits := l.hits ++ (if c.repeated then [hit, hit] else [hit]) }

namespace World

variable (w : World)

/-- The type behind a pointer, and whether there was one. -/
def deref (t : Ty) : Ty × Bool :=
  match w.unalias t with
  | .pointer e => (e, true)
  | _ => (t, false)

/-- Looks at one field, by its number: it is sought, or it is embedded, or neither. -/
def searchField (isSought : Member Ty → Bool) (c : Candidate) (l : Level) (f : Member Ty × Nat) :
    Level :=
  let (f, i) := f
  if isSought f then l.record c (c.path ++ [i]) f (.field f.type) false
  else if f.embedded then
    let (t, isPointer) := w.deref f.type
    { l with next := l.next ++ [⟨t, c.indirect || isPointer, c.repeated, c.path ++ [i]⟩] }
  else l

/-- Looks at the fields or interface methods of a type. -/
def searchParts (isSought : Member Ty → Bool) (c : Candidate) (l : Level) : Level :=
  match w.underlying c.type with
  | .struct fs => fs.zipIdx.foldl (w.searchField isSought c) l
  | .interface f ms es =>
    match (w.typeSet (.interface f ms es)).methods.find? isSought with
    | some m => l.record c c.path m (.method m.type) false
    | none => l
  | _ => l

/-- Looks at one type of a level. If fields are in the way, those beside a method count too. -/
def searchType (fieldsClash : Bool) (isSought : Member Ty → Bool) (l : Level) (c : Candidate) :
    Level :=
  match w.unalias c.type with
  | .named n args =>
    let t := Ty.named n args
    if l.seen.any (w.identical t) then l
    else
      let l := { l with seen := t :: l.seen }
      match (w.methods t).find? fun (m, _) => isSought m with
      | some (m, needsPointer) =>
        let l := l.record c c.path m (.method m.type) needsPointer
        if fieldsClash then w.searchParts isSought c l else l
      | none => w.searchParts isSought c l
  | _ => w.searchParts isSought c l

/-- Marks a type that is in the list already, or adds it. -/
def consolidateOne (cs : List Candidate) (c : Candidate) : List Candidate :=
  if cs.any fun d => w.identical d.type c.type then
    cs.map fun d => if w.identical d.type c.type then { d with repeated := true } else d
  else cs ++ [c]

/-- The types of a level, each once. -/
def consolidate (cs : List Candidate) : List Candidate :=
  cs.foldl w.consolidateOne []

/-- The search from one level on. -/
def searchLevels (fieldsClash : Bool) (isSought : Member Ty → Bool) :
    Nat → List Ty → List Candidate → Search
  | 0, _, _ => .missing
  | _, _, [] => .missing
  | k + 1, seen, cs =>
    let l := cs.foldl (w.searchType fieldsClash isSought) { seen }
    match l.hits with
    | [] => searchLevels fieldsClash isSought k l.seen (w.consolidate l.next)
    | [hit] => .found hit
    | _ => .ambiguous

/-- Whether a type is an interface. -/
def isInterface (t : Ty) : Bool :=
  match w.underlying t with
  | .interface _ _ _ => true
  | _ => false

/-- The search for a member of a type, where fields beside a method may be in its way. A pointer to
an interface has no members, and a method that needs a pointer is only there if one leads to it, or
if one can be had from the place of a value. -/
def searchWith (fieldsClash : Bool) (t : Ty) (isPlace : Bool) (isSought : Member Ty → Bool) :
    Search :=
  let (base, isPointer) := w.deref t
  if isPointer && w.isInterface base then .missing
  else
    match w.searchLevels fieldsClash isSought w.horizon [] [⟨base, isPointer, false, []⟩] with
    | .found hit =>
      if hit.needsPointer && !hit.indirect && !isPlace then .needsPointer else .found hit
    | other => other

/-- The search for a member of a type. -/
def search (t : Ty) (isPlace : Bool) (isSought : Member Ty → Bool) : Search :=
  w.searchWith false t isPlace isSought

/-- The function type of the method that a name selects in a type as seen from a package. -/
def method? (t : Ty) (home name : String) : Option Ty :=
  if name = "_" then none else (w.search t false (·.isNamed home name)).method?

/-- The function type of the method of an exported name that a type lists. -/
def listedMethod? (t : Ty) (name : String) : Option Ty :=
  (w.searchWith true t false (·.isNamed "" name)).method?

/-- Whether a type has all methods that an interface asks for, with identical function types. -/
def hasMethods (t : Ty) (s : TypeSet) : Bool :=
  s.methods.all fun m =>
    let found := match w.underlying t with
      | .interface f ms es =>
        ((w.typeSet (.interface f ms es)).method? m.home m.name).map (·.type)
      | _ => w.method? t m.home m.name
    match found with
    | some signature => w.identical signature m.type
    | none => false

/-- Whether a type meets the demands of an interface on comparability. -/
def meetsComparability (t : Ty) (s : TypeSet) : Bool :=
  !w.isComparableSet s || w.strictlyComparable t

/-- Whether a type is among those that an interface allows. -/
def allows (t : Ty) (s : TypeSet) : Bool :=
  match s.terms with
  | .all => true
  | .only ts =>
    match w.underlying t with
    | .interface f ms es => w.subset w.identical (w.typeSet (.interface f ms es)).terms (.only ts)
    | _ => ts.any fun x => w.includes w.identical x t

/-- Whether a type is a pointer to something whose underlying type is invalid. -/
def pointsToInvalid (t : Ty) : Bool :=
  match w.underlying t with
  | .pointer e => w.underlying e = .invalid
  | _ => false

/-- Whether an interface type has an empty type set. -/
def isUninhabited (t : Ty) : Bool :=
  match w.underlying t with
  | .interface f ms es => (w.typeSet (.interface f ms es)).terms.isEmpty
  | _ => false

/-- Whether a type implements an interface. -/
def implements (t target : Ty) : Bool :=
  let s := w.typeSet target
  if w.underlying t = .invalid then false
  else if w.pointsToInvalid t then true
  else if s.isAll then true
  else if w.isUninhabited t then true
  else if s.terms.isEmpty then false
  else w.hasMethods t s && w.allows t s && w.meetsComparability t s

end World

end EverEqual
