import EverEqual.Proofs.Check.Accepts
import EverEqual.Proofs.Check.Swap
import EverEqual.Proofs.Describe.Declared

/-!
# Registered interfaces

Before the operands of a check are described, interfaces are registered: that of errors, those given
with the pair, and those that a search finds in the operands. The descriptor of a declared type has
every registered interface as an ancestor that the type implements by itself or by its pointer. The
search does not look at what functions yield, at methods, or inside interfaces, but descriptors do
come about that way, and interfaces among them are ancestors of nothing that does not embed them.

* `World.Realizes`: a declared type implements a declared interface;
* `World.Inherits`: a type gets an ancestor from what it embeds;
* `Draft.Denotes.hasAncestor_of_registered`, `Draft.Denotes.hasAncestor_iff_inherits`: interfaces
  that are registered and interfaces that are not;
* `ancestors_registered`: both for any two descriptors of a check;
* `ancestors_yielded`: an interface that is only yielded.
-/

namespace EverEqual

namespace World

/-- A declared type other than an interface implements a declared interface, by itself or by its
pointer. -/
structure Realizes (w : World) (t u : Ty) : Prop where
  declared : w.Declared t
  declaredInterface : w.Declared u
  concrete : w.isInterface t = false
  interface : w.isInterface u = true
  implements : w.implementsSomehow t u = true
  /-- All instances of the declaration of an interface are interfaces. -/
  apart : w.originOf t ≠ w.originOf u

variable {w : World} {interfaces : List Ty} {roots : Set Ty} {t u : Ty} {a : Identity}

theorem Realizes.not_identical (h : w.Realizes t u) (hpos : 0 < w.horizon) :
    w.identical u t = false := by
  have hne := h.apart
  obtain ⟨m, ys, rfl, hualias⟩ := h.declaredInterface
  obtain ⟨n, xs, rfl, htalias⟩ := h.declared
  have hname : m ≠ n := by
    rintro rfl
    exact hne rfl
  obtain ⟨k, hk⟩ : ∃ k, w.horizon = k + 1 := ⟨w.horizon - 1, by omega⟩
  unfold identical
  rw [hk, identicalIn]
  simp [resolved, hualias, htalias, hname]

theorem Realizes.id_ne (h : w.Realizes t u) (ho : w.Orderly interfaces roots)
    (ht : w.Met roots t) (hu : w.Met roots u) : (w.plan u).id ≠ (w.plan t).id := by
  intro hid
  have hkind := ho.kind_eq_of_id hu ht hid
  rw [(plan_interface h.declaredInterface h.interface).1] at hkind
  exact kind_of_concrete h.declared h.concrete hkind.symm

theorem unalias_any : w.unalias (.named ⟨"", "any"⟩ []) = .emptyInterface := by
  obtain ⟨k, hk⟩ : ∃ k, w.size = k + 1 := by
    refine ⟨w.size - 1, ?_⟩
    simp [size, predeclared]
  have htarget : w.aliasTarget? (.named ⟨"", "any"⟩ []) = some .emptyInterface := by
    simp [aliasTarget?, declaration?, predeclared, Ty.subst, Ty.substMembers, Ty.substAll]
  unfold unalias
  rw [hk, unaliasIn, htarget]
  cases k <;> rfl

theorem parameterList_cases (qualify : TypeName → String) (n : TypeName) :
    w.parameterList qualify n = "" ∨ '[' ∈ (w.parameterList qualify n).toList := by
  unfold parameterList
  split
  · exact Or.inl rfl
  · split
    · exact Or.inl rfl
    · right
      simp

theorem Declared.typeString_ne_any (h : w.Declared t) : w.typeString t ≠ "any" := by
  obtain ⟨n, xs, rfl, halias⟩ := h
  intro hany
  have hchars : ∀ c ∈ (w.typeString (.named n xs)).toList, c = 'a' ∨ c = 'n' ∨ c = 'y' := by
    rw [hany]
    simp
  cases xs with
  | cons x xs => simpa using hchars '[' (by simp [typeString, Ty.render])
  | nil =>
    have htext : w.typeString (.named n []) = qualified n.path n.name ++
        w.parameterList (fun n => qualified n.path n.name) n := by
      rw [typeString, Ty.render]
    rw [htext, String.toList_append] at hchars
    rcases w.parameterList_cases (fun n => qualified n.path n.name) n with hnone | hbracket
    · rw [htext, hnone, String.append_empty] at hany
      by_cases hpath : n.path = ""
      · obtain ⟨path, name⟩ := n
        obtain rfl : path = "" := hpath
        obtain rfl : name = "any" := hany
        rw [unalias_any] at halias
        cases halias
      · rw [qualified, if_neg hpath] at hchars
        simpa using hchars '.' (by simp)
    · simpa using hchars '[' (List.mem_append_right _ hbracket)

/-! ### Inherited ancestors -/

/-- A type embeds an interface, or something that has the interface as an ancestor. -/
def Inherits (w : World) (interfaces : List Ty) (roots : Set Ty) (t u : Ty) : Prop :=
  ∃ v ∈ (w.portrait interfaces t).bases, (w.plan v).id = (w.plan u).id ∨
    w.Ancestor interfaces roots (w.entry v) (w.plan u).id

theorem Orderly.ancestor_iff (ho : w.Orderly interfaces roots) (ht : w.Met roots t) :
    w.Ancestor interfaces roots (w.entry t) (w.plan u).id ↔
      (w.plan u).id ∈ (w.portrait interfaces t).own ∨ w.Inherits interfaces roots t u := by
  have hbases : ∀ {t' : Ty} {f : Identity}, w.Met roots t' → w.entry t' = w.entry t →
      f ∈ (w.outline interfaces t').bases →
      ∃ v ∈ (w.portrait interfaces t).bases, w.entry v = f := by
    intro t' f ht' he hf
    rw [ho.outline_eq_of_entry ht' ht he] at hf
    exact List.mem_map.mp hf
  constructor
  · intro h
    unfold Ancestor at h
    generalize he : w.entry t = e at h
    generalize ha : (w.plan u).id = a at h ⊢
    cases h with
    | own ht' hown =>
      rw [ho.outline_eq_of_entry ht' ht he.symm] at hown
      exact Or.inl hown
    | @base t' v' ht' hv' hbase =>
      obtain ⟨v, hv, hve⟩ := hbases ht' he.symm hbase
      have hmet : w.Met roots v := .part ht (mem_types_of_mem_bases hv)
      exact Or.inr ⟨v, hv, Or.inl ((ho.id_eq_of_entry hmet hv' hve).trans ha.symm)⟩
    | inherited ht' hbase _ hanc =>
      obtain ⟨v, hv, rfl⟩ := hbases ht' he.symm hbase
      exact Or.inr ⟨v, hv, Or.inr (ha ▸ hanc)⟩
  · rintro (hown | ⟨v, hv, hid | hanc⟩)
    · exact .own ht hown
    · rw [← hid]
      exact .base ht (.part ht (mem_types_of_mem_bases hv)) (List.mem_map_of_mem hv)
    · exact .inherited ht (List.mem_map_of_mem hv) trivial hanc

end World

namespace Draft

variable {w : World} {interfaces : List Ty} {roots : Set Ty} {s : Draft} {t u : Ty} {l r x y : Ref}

theorem Denotes.hasAncestor_of_registered (ho : w.Orderly interfaces roots)
    (hs : s.Faithful w interfaces roots []) (hx : Denotes w roots s t x)
    (hy : Denotes w roots s u y) (h : w.Realizes t u) (hvalid : w.underlying t ≠ .invalid)
    (hreg : u ∈ interfaces) : (s.graph.node x).hasAncestor (s.graph.node y).id = true := by
  have hpos : 0 < w.horizon := by
    obtain ⟨E, hcard, -⟩ := ho.followed
    omega
  have hown : w.typeString u ∈ (w.outline interfaces t).own :=
    World.mem_own_of_implements h.declared hvalid hreg (h.not_identical hpos) h.implements
  have hne := h.id_ne ho hx.1 hy.1
  rw [hy.id_eq hs]
  rw [(World.plan_interface h.declaredInterface h.interface).2] at hne ⊢
  have hd := hs.drawn t x hx.1 hx.2 List.not_mem_nil
  unfold Node.hasAncestor
  rw [List.contains_iff_mem]
  exact hd.certain _ (.own hx.1 hown) hne

/-- Where no registered interface has its text, an interface is an ancestor of what inherits it. -/
theorem Denotes.hasAncestor_iff_inherits (ho : w.Orderly interfaces roots)
    (hset : w.Settled interfaces roots) (hs : s.Faithful w interfaces roots [])
    (hx : Denotes w roots s t x) (hy : Denotes w roots s u y) (h : w.Realizes t u)
    (hres : (w.plan t).kind ≠ .unknown)
    (hreg : ∀ i ∈ interfaces, w.typeString i ≠ w.typeString u) :
    (s.graph.node x).hasAncestor (s.graph.node y).id = true ↔
      w.Inherits interfaces roots t u := by
  have hnone : (w.plan u).id ∉ (w.portrait interfaces t).own := by
    rw [(World.plan_interface h.declaredInterface h.interface).2]
    intro hown
    rcases World.eq_or_exists_of_mem_own h.declared h.concrete hres hown with
      hany | ⟨i, hi, htext⟩
    · exact h.declaredInterface.typeString_ne_any hany
    · exact hreg i hi htext
  rw [hy.id_eq hs, hx.hasAncestor_iff hset hs (h.id_ne ho hx.1 hy.1), ho.ancestor_iff hx.1]
  exact or_iff_right hnone

theorem Stands.exists_denotes {o : Option Ty} (hs : s.Faithful w interfaces roots [])
    (hmet : ∀ t, o = some t → w.Met roots t) (hx : s.Stands w o x) (h : s.graph.Reach x y) :
    s.graph.node y = .missing ∨ ∃ t, Denotes w roots s t y := by
  cases o with
  | none =>
    left
    rw [eq_of_reach_missing hx.2.1 h]
    exact hx.2.1
  | some t =>
    right
    exact Denotes.exists_of_reach ⟨hmet t rfl, hx⟩ hs h

end Draft

/-- **Which interfaces are ancestors** of a declared type that implements them, in the descriptors
of a check: those of errors, those given with the pair and those found in an operand. One whose text
no registered interface has is an ancestor only of what inherits it. -/
theorem ancestors_registered {w : World} {p : Operands}
    (ho : w.Orderly (p.interfacesFor w) p.roots) :
    ∃ l r s, p.describe w = .ok (l, r, s.graph) ∧ s.Stands w p.left l ∧ s.Stands w p.right r ∧
      (∀ z, s.graph.ReachEither l r z →
        s.graph.node z = .missing ∨ ∃ t, Draft.Denotes w p.roots s t z) ∧
      ∀ t u x y, Draft.Denotes w p.roots s t x → Draft.Denotes w p.roots s u y →
        w.Realizes t u → (w.plan t).kind ≠ .unknown →
        (u = .error ∨ u ∈ p.interfaces ∨ u ∈ w.interfacesIn p.left ∨
          u ∈ w.interfacesIn p.right →
            (s.graph.node x).hasAncestor (s.graph.node y).id = true) ∧
        (w.Settled (p.interfacesFor w) p.roots →
          (∀ i ∈ p.interfacesFor w, w.typeString i ≠ w.typeString u) →
            ((s.graph.node x).hasAncestor (s.graph.node y).id = true ↔
              w.Inherits (p.interfacesFor w) p.roots t u)) := by
  obtain ⟨l, r, s, hdesc, hs, hl, hr⟩ := Operands.exists_describe ho
  refine ⟨l, r, s, hdesc, hl, hr, ?_, ?_⟩
  · rintro z (hz | hz)
    · exact hl.exists_denotes hs (fun t ht => .root (Or.inl ht)) hz
    · exact hr.exists_denotes hs (fun t ht => .root (Or.inr ht)) hz
  · intro t u x y hx hy h hres
    constructor
    · intro hreg
      have hmem : u ∈ p.interfacesFor w :=
        Operands.mem_interfacesFor.mpr (hreg.imp_right fun hreg => ⟨h.interface, hreg⟩)
      exact hx.hasAncestor_of_registered ho hs hy h
        (fun hinv => hres (World.kind_of_invalid h.declared hinv)) hmem
    · intro hset hreg
      exact hx.hasAncestor_iff_inherits ho hset hs hy h hres hreg

/-! ### A function that yields figures -/

/-- A method without parameters, by its name and result. -/
def Member.returning (name : String) (result : Ty) : Member Ty where
  name := name
  type := .func [] [⟨"", result, "", false, []⟩] false
  home := "p"

/-- The declaration of the same method, for a pointer or not. -/
def Method.returning (name : String) (pointer : Bool) (result : Ty) : Method where
  name := name
  pointer := pointer
  signature := (Member.returning name result).type

/-- A function that yields values of a type one by one. -/
def Ty.yielding (t : Ty) : Ty :=
  .func [⟨"", .func [⟨"", t, "", false, []⟩] [⟨"", .basic .bool, "", false, []⟩] false, "", false,
    []⟩] [] false

/-- A pointer to `Square` has an area, and a `Figure` is what has an area. -/
def figures : World where
  packages := [{
    path := "p"
    name := "p"
    declarations :=
      [{ name := "Square", type := .struct [⟨"Side", .basic .int, "p", false, []⟩]
         methods := [.returning "Area" true (.basic .int)] },
       { name := "Figure"
         type := .interface .literal [.returning "Area" (.basic .int)] [] }] }]
  horizon := 20

/-- A list of squares and a function that yields figures, tested against further interfaces. -/
def squaresAndFigures (interfaces : List Ty) : Operands where
  leftText := "s"
  rightText := "f"
  left := some (.slice (.declared "Square"))
  right := some (.yielding (.declared "Figure"))
  interfaces := interfaces

theorem realizes_figures : figures.Realizes (.declared "Square") (.declared "Figure") where
  declared := ⟨_, _, rfl, by decide⟩
  declaredInterface := ⟨_, _, rfl, by decide⟩
  concrete := by decide
  interface := by decide
  implements := by decide
  apart := by decide

/-- The types that squares and figures come across. -/
def squaresAndFigures.parts : List Ty :=
  [.slice (.declared "Square"), .declared "Square", .yielding (.declared "Figure"),
    .declared "Figure"]

namespace squaresAndFigures

theorem mem_parts (interfaces : List Ty) :
    ∀ t ∈ (squaresAndFigures interfaces).roots, t ∈ parts := by
  rintro t (ht | ht) <;> cases ht <;> decide

theorem closed_parts : ∀ t ∈ parts, ∀ u ∈ (figures.plan t).types, u ∈ parts := by
  decide

theorem orderly_alone : figures.Orderly ((squaresAndFigures []).interfacesFor figures)
    (squaresAndFigures []).roots :=
  World.orderly_of_closed parts (mem_parts _) closed_parts (by decide) (by decide)

theorem orderly_informed :
    figures.Orderly ((squaresAndFigures [.declared "Figure"]).interfacesFor figures)
      (squaresAndFigures [.declared "Figure"]).roots :=
  World.orderly_of_closed parts (mem_parts _) closed_parts (by decide) (by decide)

theorem settled_alone : figures.Settled ((squaresAndFigures []).interfacesFor figures)
    (squaresAndFigures []).roots :=
  World.settled_of_closed parts (mem_parts _) closed_parts
    (fun e => if e = "p.Square" ∨ e = "p.Figure" then 0 else 1) (by decide)

end squaresAndFigures

/-- A square has the figure as an ancestor if the figure is given with the operands, and not
otherwise. -/
theorem ancestors_registered_figures :
    (∃ (l r : Ref) (s : Draft),
      (squaresAndFigures [.declared "Figure"]).describe figures = .ok (l, r, s.graph) ∧
        ∀ x y, s.Denotes figures (squaresAndFigures [.declared "Figure"]).roots
            (.declared "Square") x →
          s.Denotes figures (squaresAndFigures [.declared "Figure"]).roots
            (.declared "Figure") y →
          (s.graph.node x).hasAncestor (s.graph.node y).id = true) ∧
    ∃ (l r : Ref) (s : Draft), (squaresAndFigures []).describe figures = .ok (l, r, s.graph) ∧
      ∀ x y, s.Denotes figures (squaresAndFigures []).roots (.declared "Square") x →
        s.Denotes figures (squaresAndFigures []).roots (.declared "Figure") y →
        (s.graph.node x).hasAncestor (s.graph.node y).id = false := by
  constructor
  · obtain ⟨l, r, s, hdesc, -, -, -, h⟩ := ancestors_registered squaresAndFigures.orderly_informed
    refine ⟨l, r, s, hdesc, fun x y hx hy => ?_⟩
    exact (h _ _ x y hx hy realizes_figures (by decide)).1 (Or.inr (Or.inl (by decide)))
  · obtain ⟨l, r, s, hdesc, -, -, -, h⟩ := ancestors_registered squaresAndFigures.orderly_alone
    refine ⟨l, r, s, hdesc, fun x y hx hy => ?_⟩
    have hiff := (h _ _ x y hx hy realizes_figures (by decide)).2 squaresAndFigures.settled_alone
      (by decide)
    rw [← Bool.not_eq_true, hiff]
    have hbases : (figures.portrait ((squaresAndFigures []).interfacesFor figures)
        (.declared "Square")).bases = [] := by
      decide
    rintro ⟨v, hv, -⟩
    rw [hbases] at hv
    cases hv

/-- **An interface that is only yielded is not registered.** Squares are figures, and both have
descriptors, but the search for interfaces does not look at what functions yield. -/
theorem ancestors_yielded :
    figures.Realizes (.declared "Square") (.declared "Figure") ∧
      (figures.typeSet (figures.underlying (.declared "Figure"))).isMethodSet = true ∧
      ((squaresAndFigures []).describe figures).toOption.bind (fun z => do
        let x ← (z.2.2.node z.1).element
        let y ← (z.2.2.node z.2.1).element
        return ((z.2.2.node x).id, (z.2.2.node y).id,
          (z.2.2.node x).hasAncestor (z.2.2.node y).id)) = some ("p.Square", "p.Figure", false) ∧
      (check figures {} none (squaresAndFigures [])).toOption.map
        (fun z => (z.1.forward, z.1.reverse)) = some (false, false) :=
  ⟨realizes_figures, by decide, by decide +kernel, by decide +kernel⟩

end EverEqual
