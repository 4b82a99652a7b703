import EverEqual.Types.Implements

/-!
# The interfaces that a type mentions

The named interfaces that can be reached from a type through its parts, the arguments of instances
and the underlying types of names. The search does not look inside interfaces.

Every name is visited once, an alias apart from its target; so an interface is listed again if it is
reached both by its own name and by an alias. A type that is written out in a declaration is visited
once too, whatever name leads to it.

An instance is expanded when its underlying type is visited. What depends on its arguments then is
made for this expansion, so the same name with the same arguments may stand for several instances:
one that was written out, and others that came about by expanding. Expansions that belong together
share a context, in which an instance is made once. An expansion continues the context of the one
that it came about in, if both declarations are of one package, and otherwise opens a context. What
depends on no argument is shared by all instances.

* `Occurrence`: a type as it is written, with the place and the expansion that fills parameters;
* `Mark`: what the search remembers of a visited type;
* `World.interfacesIn`: the list, in the order of the search.
-/

namespace EverEqual

/-- A type as it is written somewhere: in a declaration, or in the operand if there is none. The
path leads from the whole type down through parts. The scope says which expansion fills the
parameters; zero is none. -/
structure Occurrence where
  written : Ty
  home : Option TypeName := none
  path : List Nat := []
  scope : Nat := 0
deriving DecidableEq, Repr, Inhabited

/-- What the search remembers of a visited type: the name, with the context in which an instance was
made by expanding, or a type without a name and its place. -/
inductive Mark
  | name (context : Option Nat) (t : Ty)
  | place (home : Option TypeName) (path : List Nat) (scope : Nat) (t : Ty)
deriving DecidableEq, Repr, Inhabited

/-- The expansion of an instance. -/
structure Expansion where
  /-- The instance. -/
  mark : Mark
  owner : TypeName
  args : List Ty
  /-- Where the arguments are written. -/
  sources : List Occurrence
  /-- The expansion that opened the context. -/
  context : Nat
deriving DecidableEq, Repr, Inhabited

/-- What the search has visited, expanded and found; the last ones visited and found are first. -/
structure Discovery where
  seen : List Mark := []
  expansions : List Expansion := []
  found : List Ty := []
deriving DecidableEq, Repr, Inhabited

/-- The parts of a type through which the search goes. -/
def Ty.parts : Ty → List Ty
  | .pointer e | .slice e | .array _ e | .chan _ e => [e]
  | .map k e => [k, e]
  | .struct fs => fs.map (·.type)
  | .tuple ts => ts
  | _ => []

namespace Discovery

/-- The expansion that a scope stands for. -/
def expansion? (d : Discovery) (scope : Nat) : Option Expansion :=
  if scope = 0 then none else d.expansions[scope - 1]?

/-- The type of an occurrence, with parameters filled. -/
def typeOf (d : Discovery) (o : Occurrence) : Ty :=
  match d.expansion? o.scope with
  | some e => o.written.subst e.owner e.args
  | none => o.written

/-- Whether an occurrence depends on the arguments of an expansion. -/
def depends (d : Discovery) (o : Occurrence) : Bool :=
  (d.expansion? o.scope).any fun e => o.written.mentions e.owner

/-- The occurrence itself, or where the argument is written that fills it. -/
def source (d : Discovery) (o : Occurrence) : Occurrence :=
  match o.written, d.expansion? o.scope with
  | .param b i _, some e => if b.declaration = e.owner then e.sources.getD i o else o
  | _, _ => o

/-- The occurrences of types that are written inside another one. -/
def inside (d : Discovery) (o : Occurrence) (ts : List Ty) : List Occurrence :=
  ts.mapIdx fun i t => d.source { o with written := t, path := o.path ++ [i] }

end Discovery

namespace World

variable (w : World)

/-- The mark of an instance that was made in the context of an expansion: that of the instance that
opened the context, or of an earlier one, if the arguments are spelled alike. -/
def instanceMark (d : Discovery) (e : Expansion) (t : Ty) : Mark :=
  let opener := (d.expansion? (e.context + 1)).map (·.mark)
  let alike : Mark → Bool
    | .name _ u => w.spelledAlike t u
    | .place _ _ _ _ => false
  match opener.toList.find? alike with
  | some m => m
  | none =>
    let earlier := d.seen.find? fun m =>
      match m with
      | .name c _ => c = some e.context && alike m
      | .place _ _ _ _ => false
    earlier.getD (.name (some e.context) t)

/-- The mark of an occurrence. -/
def mark (d : Discovery) (o : Occurrence) : Mark :=
  let t := d.typeOf o
  match t, d.expansion? o.scope with
  | .named _ _, some e => if d.depends o then w.instanceMark d e t else .name none t
  | .named _ _, none => .name none t
  | _, _ => .place o.home o.path (if d.depends o then o.scope else 0) t

/-- The scope of the expansion of an instance, which is expanded if that has not happened. -/
def expand (d : Discovery) (o : Occurrence) (owner : TypeName) (args : List Ty) :
    Discovery × Nat :=
  let m := w.mark d o
  match d.expansions.findIdx? (·.mark = m) with
  | some i => (d, i + 1)
  | none =>
    let sources := match o.written with
      | .named _ xs => d.inside o xs
      | _ => []
    let fresh := d.expansions.length
    let context := match m, d.expansion? o.scope with
      | .name (some c) _, some e => if e.owner.path = owner.path then c else fresh
      | _, _ => fresh
    ({ d with expansions := d.expansions ++ [⟨m, owner, args, sources, context⟩] }, fresh + 1)

/-- The occurrence of the underlying type of a declared type. -/
def underlyingIn : Nat → Discovery → Occurrence → Discovery × Option Occurrence
  | 0, d, _ => (d, none)
  | k + 1, d, o =>
    match d.typeOf o with
    | .named n args =>
      match w.declaration? n with
      | none => (d, none)
      | some decl =>
        match w.unalias decl.type, args with
        | .named m xs, [] => underlyingIn k d { written := .named m xs, home := some n }
        | .named m xs, _ :: _ =>
          let (d, scope) := w.expand d o n args
          (d, some { written := w.definition (.named m xs), home := some n, scope })
        | t, [] => (d, some { written := t, home := some n })
        | t, _ :: _ =>
          let (d, scope) := w.expand d o n args
          (d, some { written := t, home := some n, scope })
    | _ => (d, none)

/-- The occurrences to be visited after a type, and the discovery with what was expanded. A name
leads to its arguments and its underlying type, any other type to its parts. -/
def following (d : Discovery) (o : Occurrence) : Discovery × List Occurrence :=
  let t := d.typeOf o
  let u := w.unalias t
  let o := if t = u then o else
    { written := u, home := match t with
      | .named n _ => some n
      | _ => none }
  match u with
  | .named _ _ =>
    let args := match o.written with
      | .named _ xs => d.inside o xs
      | _ => []
    let (d, under) := w.underlyingIn (w.size + 1) d o
    (d, args ++ under.toList)
  | _ => (d, d.inside o o.written.parts)

/-- The search from one occurrence. -/
def discover : Nat → Discovery → Occurrence → Discovery
  | 0, d, _ => d
  | k + 1, d, o =>
    let m := w.mark d o
    if d.seen.contains m then d
    else
      let d := { d with seen := m :: d.seen }
      let t := w.unalias (d.typeOf o)
      let isName := match t with
        | .named _ _ => true
        | _ => false
      if isName && w.isInterface t then { d with found := t :: d.found }
      else
        let (d, next) := w.following d o
        next.foldl (discover k) d

/-- The named interfaces that a type mentions, in the order in which the search meets them. -/
def interfacesIn : Option Ty → List Ty
  | none => []
  | some t => (w.discover w.horizon {} { written := t }).found.reverse

end World

end EverEqual
