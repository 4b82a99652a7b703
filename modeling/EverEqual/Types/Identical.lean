import EverEqual.Types.World

/-!
# Identical types and type sets

Two types are identical if they are built alike from identical types. Aliases stand for their
targets, the names of parameters do not count, and a declared type is identical only to itself, or
to an instance of the same declaration with identical arguments. Interfaces are identical if they
have the same type sets: the methods that are asked for, the types that are allowed, and whether
values must be comparable. A union of too many terms is not worked out; the interface that embeds it
is taken as if it did not.

* `World.identical`: identity of types;
* `World.spelledAlike`: identity of types that also agree in the names of aliases;
* `World.normalTerms`: terms of which no two have a type in common;
* `World.typeSet`: the type set of an interface;
* `World.strictlyComparable`: whether comparing values of a type never fails.

They rest on each other, because an interface may list types and embed interfaces. Names are
followed only as deep as the horizon of the world. An interface may lead back to itself through the
types of its methods; a pair of interfaces that is met again while it is being compared counts as
identical. An interface that is embedded in several ways counts once, and so does a type that is
looked at in several ways.
-/

namespace EverEqual

/-- How much two types have to agree. -/
inductive Sameness
  | identical
  /-- Identical apart from the tags of fields. -/
  | untagged
  /-- Identical, and an alias or a second name of a predeclared type only agrees with itself. -/
  | spelled
deriving DecidableEq, Repr, Inhabited

/-- Whether two predeclared types agree. -/
def Sameness.basic (mode : Sameness) (a b : Basic) : Bool :=
  match mode with
  | .identical | .untagged => a.canonical = b.canonical
  | .spelled => a = b

/-- A term of a type set: one type, or all types with that underlying type. -/
structure Term where
  tilde : Bool
  type : Ty
deriving DecidableEq, Repr, Inhabited

/-- The types that an interface allows. -/
inductive Terms
  | all
  | only (terms : List Term)
deriving DecidableEq, Repr, Inhabited

namespace Terms

/-- Whether every type is allowed. -/
def isAll : Terms → Bool
  | all => true
  | only _ => false

/-- Whether no type is allowed. -/
def isEmpty : Terms → Bool
  | all => false
  | only ts => ts.isEmpty

/-- The number of terms. -/
def count : Terms → Nat
  | all => 1
  | only ts => ts.length

end Terms

/-- The most terms that a union is worked out for. -/
def unionLimit : Nat := 100

/-- What an interface asks of a type. -/
structure TypeSet where
  methods : List (Member Ty) := []
  terms : Terms := .all
  comparable : Bool := false
deriving DecidableEq, Repr, Inhabited

namespace TypeSet

/-- The method that goes by a name as seen from a package. -/
def method? (s : TypeSet) (home name : String) : Option (Member Ty) :=
  s.methods.find? (·.isNamed home name)

/-- Whether the set is described by methods alone. -/
def isMethodSet (s : TypeSet) : Bool :=
  !s.comparable && s.terms.isAll

/-- Whether every type is in the set. -/
def isAll (s : TypeSet) : Bool :=
  s.isMethodSet && s.methods.isEmpty

end TypeSet

namespace World

variable (w : World)

/-- Whether two terms have no type in common, for a given notion of identity. -/
def disjoint (identical : Ty → Ty → Bool) (x y : Term) : Bool :=
  let ux := if y.tilde then w.underlying x.type else x.type
  let uy := if x.tilde then w.underlying y.type else y.type
  !identical ux uy

/-- A term with all those of a list that have a type in common with it, and the others of the list.
Of two terms with a type in common, one with a tilde takes in the other one. -/
def absorb (identical : Ty → Ty → Bool) : Term → List Term → Term × List Term
  | x, [] => (x, [])
  | x, y :: ys =>
    if w.disjoint identical x y then
      let (z, rest) := absorb identical x ys
      (z, y :: rest)
    else absorb identical (if x.tilde || !y.tilde then x else y) ys

theorem length_absorb (identical : Ty → Ty → Bool) (x : Term) (ys : List Term) :
    (w.absorb identical x ys).2.length ≤ ys.length := by
  induction ys generalizing x with
  | nil => simp [absorb]
  | cons y ys ih =>
    rw [absorb]
    split
    · simpa using ih x
    · exact Nat.le_succ_of_le (ih _)

/-- Terms of which no two have a type in common, in the order of the first ones. -/
def normalTerms (identical : Ty → Ty → Bool) : List Term → List Term
  | [] => []
  | x :: xs =>
    (w.absorb identical x xs).1 :: normalTerms identical (w.absorb identical x xs).2
termination_by xs => xs.length
decreasing_by
  exact Nat.lt_succ_of_le (w.length_absorb identical x xs)

/-- The types that one of two lists of terms allows. -/
def unite (identical : Ty → Ty → Bool) : Terms → Terms → Terms
  | .only xs, .only ys => .only (w.normalTerms identical (xs ++ ys))
  | _, _ => .all

/-- The types that both of two lists of terms allow. -/
def intersect (identical : Ty → Ty → Bool) : Terms → Terms → Terms
  | .all, ys => ys
  | xs, .all => xs
  | .only xs, .only ys =>
    .only (w.normalTerms identical (xs.flatMap fun x => ys.filterMap fun y =>
      if w.disjoint identical x y then none
      else if !x.tilde || y.tilde then some x else some y))

/-- Whether every type that one list of terms allows is allowed by another one. -/
def subset (identical : Ty → Ty → Bool) : Terms → Terms → Bool
  | _, .all => true
  | .all, .only _ => false
  | .only xs, .only ys =>
    xs.all fun x => ys.any fun y => !w.disjoint identical x y && (!x.tilde || y.tilde)

/-- Whether a type is one that a term allows. -/
def includes (identical : Ty → Ty → Bool) (x : Term) (t : Ty) : Bool :=
  identical x.type (if x.tilde then w.underlying t else t)

/-- The terms of one element of a union. -/
def unionTerm (identical : Ty → Ty → Bool) (typeSet : Ty → TypeSet) (t : Ty) : Terms :=
  let (tilde, t) := match t with
    | .tilde core => (true, core)
    | t => (false, t)
  match w.underlying t with
  | .interface f ms es => (typeSet (.interface f ms es)).terms
  | .basic .invalid => .only []
  | u => if tilde && !identical t u then .only [] else .only [⟨tilde, t⟩]

/-- The terms of a union, unless there are too many on the way. -/
def unionTerms? (identical : Ty → Ty → Bool) (typeSet : Ty → TypeSet) (ts : List Ty) :
    Option Terms :=
  ts.foldlM (fun acc t =>
    let sum := w.unite identical acc (w.unionTerm identical typeSet t)
    if sum.count > unionLimit then none else some sum) (.only [])

/-- The terms of an embedded element that is no interface; none if they are too many. -/
def elementTerms? (identical : Ty → Ty → Bool) (typeSet : Ty → TypeSet) (e : Ty) : Option Terms :=
  match w.underlying e with
  | .union ts => w.unionTerms? identical typeSet ts
  | .tilde core => some (w.unionTerm identical typeSet (.tilde core))
  | _ => some (.only [⟨false, e⟩])

/-! ### Embedded elements -/

/-- What an interface consists of, with the interfaces embedded in it opened. -/
structure Elements where
  /-- The embedded elements met so far. -/
  met : List Ty := []
  /-- The methods; of two methods with one name the first. -/
  methods : List (Member Ty) := []
  /-- The embedded elements that are no interfaces. -/
  others : List Ty := []
  comparable : Bool := false
deriving DecidableEq, Repr, Inhabited

/-- The elements with methods added; of two methods with one name the first stays. -/
def Elements.addMethods (s : Elements) (ms : List (Member Ty)) : Elements :=
  { s with methods := ms.foldl (fun acc m =>
      if acc.any (·.isNamed m.home m.name) then acc else acc ++ [m]) s.methods }

/-- The elements with those of one more type: an interface is opened, once. -/
def gather (w : World) : Nat → Elements → Ty → Elements
  | 0, s, _ => s
  | k + 1, s, .interface form ms es =>
    let s := { s.addMethods ms with comparable := s.comparable || form = .comparable }
    es.foldl (fun s e =>
      if s.met.contains e then s
      else
        let s := { s with met := e :: s.met }
        match w.underlying e with
        | .interface f ms es => gather w k s (.interface f ms es)
        | .basic .invalid => s
        | _ => { s with others := s.others ++ [e] }) s
  | _ + 1, s, _ => s

/-- The elements of an interface. -/
def elements (t : Ty) : Elements :=
  w.gather w.horizon {} t

/-- The type set of an interface with given elements. A union of too many terms does not count. If
values have to be comparable, this either remains to be asked or removes terms. -/
def Elements.typeSet (w : World) (identical : Ty → Ty → Bool) (comparable : Ty → Bool)
    (typeSet : Ty → TypeSet) (s : Elements) : TypeSet :=
  let terms := (s.others.filterMap (w.elementTerms? identical typeSet)).foldl
    (w.intersect identical) .all
  match s.comparable, terms with
  | true, .only ts => ⟨s.methods, .only (ts.filter (comparable ·.type)), false⟩
  | c, terms => ⟨s.methods, terms, c⟩

/-! ### Identity -/

/-- Whether two lists are equally long and related element by element. -/
def related {α : Type} (r : α → α → Bool) (xs ys : List α) : Bool :=
  xs.length = ys.length && (xs.zip ys).all fun (x, y) => r x y

/-- Whether two fields agree, for a given notion of identity. -/
def sameField (mode : Sameness) (identical : Ty → Ty → Bool) (f g : Member Ty) : Bool :=
  f.embedded = g.embedded && (mode = .untagged || f.tag = g.tag) && f.isNamed g.home g.name &&
    identical f.type g.type

/-- Whether two type sets agree, for a given notion of identity. -/
def sameTypeSet (identical : Ty → Ty → Bool) (s t : TypeSet) : Bool :=
  s.comparable = t.comparable && w.subset identical s.terms t.terms &&
    w.subset identical t.terms s.terms && s.methods.length = t.methods.length &&
    s.methods.all fun m =>
      match t.method? m.home m.name with
      | some n => identical m.type n.type
      | none => false

/-- What a type is compared as: where spelling matters, an alias is compared by its name. -/
def resolved (mode : Sameness) (t : Ty) : Ty :=
  match mode with
  | .identical | .untagged => w.unalias t
  | .spelled => t

mutual
/-- Agreement of types, followed to a given depth; the pairs are interfaces being compared. -/
def identicalIn (w : World) (mode : Sameness) : Nat → List (Ty × Ty) → Ty → Ty → Bool
  | 0, _, _, _ => true
  | k + 1, pairs, a, b =>
    let a := w.resolved mode a
    let b := w.resolved mode b
    let same := identicalIn w mode k pairs
    a = b ||
    match a, b with
    | .basic x, .basic y => mode.basic x y
    | .named n xs, .named m ys =>
      let sameArgument := if mode = .untagged then identicalIn w .identical k pairs else same
      n = m && related sameArgument xs ys
    | .param p i _, .param q j _ => p = q && i = j
    | .pointer x, .pointer y => same x y
    | .slice x, .slice y => same x y
    | .array m x, .array n y => (m < 0 || n < 0 || m = n) && same x y
    | .map k x, .map l y => same k l && same x y
    | .chan d x, .chan e y => d = e && same x y
    | .func ps rs v, .func qs ss u =>
      v = u && related same (ps.map (·.type)) (qs.map (·.type)) &&
        related same (rs.map (·.type)) (ss.map (·.type))
    | .struct fs, .struct gs => related (sameField mode same) fs gs
    | .tuple xs, .tuple ys => related same xs ys
    | .interface f ms es, .interface g ns ds =>
      let x := Ty.interface f ms es
      let y := Ty.interface g ns ds
      pairs.contains (x, y) ||
        w.sameTypeSet (identicalIn w mode k ((x, y) :: pairs)) (typeSetIn w k x) (typeSetIn w k y)
    | .union xs, .union ys =>
      let terms (ts : List Ty) :=
        (w.unionTerms? (identicalIn w .identical k pairs) (typeSetIn w k) ts).getD (.only [])
      w.subset same (terms xs) (terms ys) && w.subset same (terms ys) (terms xs)
    | _, _ => false
/-- The type set of an interface, followed to a given depth. -/
def typeSetIn (w : World) : Nat → Ty → TypeSet
  | 0, _ => {}
  | k + 1, t =>
    (w.elements t).typeSet w (identicalIn w .identical k []) (fun t => comparableIn w k [] [t])
      (typeSetIn w k)
/-- Whether comparing values of the last types never fails, followed to a given depth; the first
types have been looked at. -/
def comparableIn (w : World) : Nat → List Ty → List Ty → Bool
  | 0, _, _ => true
  | _, _, [] => true
  | k + 1, seen, t :: rest =>
    if seen.contains t then comparableIn w k seen rest
    else
      let next := fun parts => comparableIn w k (t :: seen) (parts ++ rest)
      match w.underlying t with
      | .basic b => b ≠ .untypedNil && next []
      | .pointer _ | .chan _ _ => next []
      | .struct fs => next (fs.map (·.type))
      | .array _ e => next [e]
      | .interface f ms es =>
        let s := typeSetIn w k (.interface f ms es)
        match s.terms with
        | .all => s.comparable && next []
        | .only ts => !ts.isEmpty && next (ts.map (·.type))
      | _ => false
end

/-- Whether two types are identical. -/
def identical (a b : Ty) : Bool :=
  w.identicalIn .identical w.horizon [] a b

/-- Whether two types are identical apart from the tags of fields. -/
def identicalUntagged (a b : Ty) : Bool :=
  w.identicalIn .untagged w.horizon [] a b

/-- Whether two types are identical and agree in the names of aliases. -/
def spelledAlike (a b : Ty) : Bool :=
  w.identicalIn .spelled w.horizon [] a b

/-- The type set of an interface. -/
def typeSet (t : Ty) : TypeSet :=
  w.typeSetIn w.horizon t

/-- Whether comparing values of a type never fails. -/
def strictlyComparable (t : Ty) : Bool :=
  w.comparableIn w.horizon [] [t]

/-- Whether all values of a type set can be compared. Those of an empty one cannot. -/
def isComparableSet (s : TypeSet) : Bool :=
  match s.terms with
  | .all => s.comparable
  | .only ts => !ts.isEmpty && ts.all fun x => w.strictlyComparable x.type

/-- Whether a type is an interface that every type implements. -/
def isEmptyInterface (t : Ty) : Bool :=
  match w.underlying t with
  | .interface f ms es => (w.typeSet (.interface f ms es)).isAll
  | _ => false

end World

end EverEqual
