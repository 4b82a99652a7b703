import EverEqual.Proofs.Check.Pointers
import EverEqual.Proofs.Check.Registered
import EverEqual.Proofs.Types.Listed

/-!
# Checking an interface against its values

A variable of an interface type can hold a value of any type that implements the interface, so a
check of the two should accept either direction. The interface is registered, since it is an
operand, and is an ancestor of the type. But ancestors are looked at late in the decision order. Of
all the stages before, an interface without layers and without keys leaves only those that settle
the pair well and the one at which elements decide. That stage is reached if the interface asks for
a method that exposes elements and the type has elements as well: its own, if it is a sequence or a
collection.

* `Face.stage_elements_symm`, `Face.stage_interface`: the stages of an interface and others;
* `World.Fulfills`: a declared type implements an interface with methods;
* `World.Fulfills.unknown_pointee`: a declared pointer does so only if it is unresolved;
* `Draft.exists_unwraps`: what is left of both without layers, and what the rules make of it;
* `check_implemented`: the finding on an interface and a type that implements it, behind pointers;
* `check_listings`: a sequence that no variable of an interface seems to hold, although it can.
-/

namespace EverEqual

/-! ### Stages -/

namespace Face

theorem not_nullable_of_elements {a b : Face} (h : a.stage b = .elements) :
    a.kind ≠ .nullable ∧ b.kind ≠ .nullable :=
  have hplain := (decided_of_stage h).1
  ⟨hplain.left, hplain.right⟩

theorem stage_elements_symm {a b : Face} (h : a.stage b = .elements) : b.stage a = .elements := by
  obtain ⟨ha, hb⟩ := not_nullable_of_elements h
  rwa [stage_comm hb ha]

theorem hasElement_of_elements {a b : Face} (h : a.stage b = .elements) :
    a.hasElement = true ∧ b.hasElement = true :=
  (decided_of_stage h).2.1

/-- A pair with an interface on the right side is decided by elements, or it is settled. -/
theorem stage_interface {a b : Face} (ha : a.kind ≠ .nullable) (hb : b.kind = .interface)
    (hkey : b.hasKey = false) (horigin : a.origin = "" ∨ a.origin ≠ b.origin) :
    a.stage b = .unknown ∨ a.stage b = .identity ∨ a.stage b = .anyElement ∨
      a.stage b = .elements ∨ a.stage b = .rest := by
  unfold stage
  simp only [ha, hb, hkey, if_false]
  grind

end Face

namespace Graph

variable {g : Graph} {x y : Ref}

theorem mem_allowed_of_settled (h : g.stage x y = .unknown ∨ g.stage x y = .identity ∨
    g.stage x y = .anyElement) : (x, y) ∈ g.allowed Rule.defaults := by
  rw [mem_allowed_iff]
  left
  rcases h with h | h | h <;> rw [h] <;> rfl

theorem mem_allowed_of_related (h : g.stage x y = .rest) (hrel : g.Related x y) :
    (x, y) ∈ g.allowed Rule.defaults := by
  rw [mem_allowed_iff, h, decision, if_pos hrel]
  exact Or.inl rfl

end Graph

namespace World

variable {w : World} {rank : String → Nat} {interfaces : List Ty} {roots : Set Ty} {t u : Ty}

/-! ### Implementing types -/

/-- A declared type implements an interface with methods. -/
structure Fulfills (w : World) (t u : Ty) : Prop extends Realizes w t u where
  demanding : (w.typeSet (w.underlying u)).methods ≠ []
  /-- A declared pointer has no methods. -/
  pointer : ∀ e, w.underlying t = .pointer e → w.methods t = []

theorem searchLevels_declaredPointer {e : Ty} (ht : w.Declared t)
    (hunder : w.underlying t = .pointer e) (hmethods : w.methods t = [])
    (isSought : Member Ty → Bool) (k : Nat) (indirect : Bool) :
    w.searchLevels false isSought k [] [⟨t, indirect, false, []⟩] = .missing := by
  obtain ⟨n, xs, rfl, halias⟩ := ht
  cases k with
  | zero => rfl
  | succ k =>
    simp [searchLevels, searchType, halias, hmethods, searchParts, hunder, consolidate,
      searchLevels_nil]

theorem hasMethods_declaredPointer {e : Ty} (ht : w.Declared t)
    (hunder : w.underlying t = .pointer e) (hmethods : w.methods t = []) {s : TypeSet}
    (hs : s.methods ≠ []) :
    w.hasMethods t s = false ∧ w.hasMethods (.pointer t) s = false := by
  have hinterface : w.isInterface t = false := by
    simp [isInterface, hunder]
  have hnone : ∀ home name, w.method? t home name = none ∧
      w.method? (.pointer t) home name = none := by
    intro home name
    have hsearch := searchLevels_declaredPointer ht hunder hmethods
    obtain ⟨n, xs, rfl, halias⟩ := ht
    constructor <;>
      simp [method?, search, searchWith, deref, halias, unalias_pointer, hinterface, hsearch,
        Search.method?]
  have hpointer : w.underlying (.pointer t) = .pointer t := rfl
  obtain ⟨m, ms, hms⟩ := List.exists_cons_of_ne_nil hs
  constructor
  · simp [hasMethods, hms, hunder, hnone]
  · simp [hasMethods, hms, hpointer, hnone]

/-- A declared pointer that implements an interface points to an unresolved type. -/
theorem Fulfills.unknown_pointee (hw : w.Checked rank) (h : w.Fulfills t u) {e : Ty}
    (hunder : w.underlying t = .pointer e) : (w.plan e).kind = .unknown := by
  obtain ⟨hself, hbehind⟩ :=
    hasMethods_declaredPointer h.declared hunder (h.pointer e hunder) h.demanding
  have hall : (w.typeSet (w.underlying u)).isAll = false := by
    simp [TypeSet.isAll, h.demanding]
  have hpointer : w.underlying (.pointer t) = .pointer t := rfl
  have hinvalid : w.underlying e = .invalid := by
    have himpl := h.implements
    simpa [implementsSomehow, World.implements, hunder, hpointer, hself, hbehind, hall,
      pointsToInvalid, isUninhabited] using himpl
  rw [← hw.underlying_unalias] at hinvalid
  exact kind_of_unalias_invalid hinvalid

theorem Realizes.stage_cases (interfaces : List Ty) (h : w.Realizes t u)
    (hkind : (w.plan t).kind ≠ .nullable) :
    w.stage interfaces t u = .unknown ∨ w.stage interfaces t u = .identity ∨
      w.stage interfaces t u = .anyElement ∨ w.stage interfaces t u = .elements ∨
      w.stage interfaces t u = .rest := by
  have hface : (w.portrait interfaces u).face.kind = .interface :=
    (w.kind_portrait u).trans (plan_interface h.declaredInterface h.interface).1
  have hnone : (w.portrait interfaces u).face.hasKey = false := by
    unfold Portrait.face
    rw [key_interface h.declaredInterface h.interface]
    rfl
  refine Face.stage_interface ?_ hface hnone ?_
  · exact fun hnull => hkind ((w.kind_portrait t).symm.trans hnull)
  · change (w.portrait interfaces t).origin = "" ∨
      (w.portrait interfaces t).origin ≠ (w.portrait interfaces u).origin
    by_cases hempty : (w.portrait interfaces t).origin = ""
    · exact Or.inl hempty
    · right
      rw [(origin_declared h.declared).resolve_left hempty]
      rcases @origin_declared w interfaces u h.declaredInterface with hu | hu
      · rw [hu, ← (origin_declared h.declared).resolve_left hempty]
        exact hempty
      · rw [hu]
        exact h.apart

theorem Realizes.stage_comm (interfaces : List Ty) (h : w.Realizes t u)
    (hkind : (w.plan t).kind ≠ .nullable) : w.stage interfaces u t = w.stage interfaces t u := by
  refine Face.stage_comm (fun hnull => ?_) (fun hnull => ?_)
  · have hu := (plan_interface h.declaredInterface h.interface).1
    rw [← w.kind_portrait (I := interfaces)] at hu
    cases hu.symm.trans hnull
  · exact hkind ((w.kind_portrait t).symm.trans hnull)

end World

/-! ### Descriptors -/

namespace Draft

variable {w : World} {rank : String → Nat} {interfaces : List Ty} {roots : Set Ty} {s : Draft}
  {t u : Ty} {x y : Ref}

/-- **An implementing type and the interface** are allowed in either order, unless their elements
decide. -/
theorem mem_allowed_of_realizes (ho : w.Orderly interfaces roots)
    (hs : s.Faithful w interfaces roots []) (h : w.Realizes t u) (hreg : u ∈ interfaces)
    (hx : Denotes w roots s t x) (hy : Denotes w roots s u y)
    (hkind : (w.plan t).kind ≠ .nullable) (hst : w.stage interfaces t u ≠ .elements) :
    (x, y) ∈ s.graph.allowed Rule.defaults ∧ (y, x) ∈ s.graph.allowed Rule.defaults := by
  have hxy := hx.stage_eq hy hs
  have hyx := (hy.stage_eq hx hs).trans (h.stage_comm interfaces hkind)
  by_cases hrest : w.stage interfaces t u = .rest
  · have hvalid : w.underlying t ≠ .invalid := by
      intro hinv
      have hunk : w.stage interfaces t u = .unknown :=
        World.stage_of_unresolved (Or.inl (World.kind_of_invalid h.declared hinv))
      cases hrest.symm.trans hunk
    have hanc := hx.hasAncestor_of_registered ho hs hy h hvalid hreg
    rw [hrest] at hxy hyx
    exact ⟨Graph.mem_allowed_of_related hxy (Or.inl hanc),
      Graph.mem_allowed_of_related hyx (Or.inr (Or.inl hanc))⟩
  · have hsettled : w.stage interfaces t u = .unknown ∨ w.stage interfaces t u = .identity ∨
        w.stage interfaces t u = .anyElement := by
      rcases h.stage_cases interfaces hkind with h' | h' | h' | h' | h'
      · exact Or.inl h'
      · exact Or.inr (Or.inl h')
      · exact Or.inr (Or.inr h')
      · exact absurd h' hst
      · exact absurd h' hrest
    rw [← hxy] at hsettled
    refine ⟨Graph.mem_allowed_of_settled hsettled, Graph.mem_allowed_of_settled ?_⟩
    rwa [hyx, ← hxy]

/-- What is left of an implementing type without layers. Only a declared pointer has any, around an
unresolved type. -/
theorem exists_unwraps_of_fulfills (hw : w.Checked rank) (ho : w.Orderly interfaces roots)
    (hs : s.Faithful w interfaces roots []) (h : w.Fulfills t u) (hreg : u ∈ interfaces)
    (hx : Denotes w roots s t x) (hy : Denotes w roots s u y) :
    ∃ z, s.graph.Unwraps x z ∧
      (w.stage interfaces t u ≠ .elements →
        (z, y) ∈ s.graph.allowed Rule.defaults ∧ (y, z) ∈ s.graph.allowed Rule.defaults) ∧
      (w.stage interfaces t u = .elements → z = x) := by
  by_cases hkind : (w.plan t).kind = .nullable
  · obtain ⟨e, hunder, he⟩ := World.underlying_declared interfaces h.declared hkind
    obtain ⟨z, hof, hz⟩ := exists_of_rel_left (hx.depicts hs).underlying he
    have hunk : (s.graph.node z).kind = .unknown :=
      (hz.kind_eq hs).trans (h.unknown_pointee hw hunder)
    refine ⟨z, .wrapped ((hx.kind_eq hs).trans hkind) hof (.bare ?_), fun _ => ⟨?_, ?_⟩,
      fun hst => ?_⟩
    · rw [hunk]
      nofun
    · exact Graph.mem_allowed_of_unknown (Or.inl hunk)
    · exact Graph.mem_allowed_of_unknown (Or.inr hunk)
    · exact absurd ((w.kind_portrait t).trans hkind) (Face.not_nullable_of_elements hst).1
  · refine ⟨x, .bare ?_, mem_allowed_of_realizes ho hs h.toRealizes hreg hx hy hkind, fun _ => rfl⟩
    rwa [hx.kind_eq hs]

/-- **What is left of an interface and a type that implements it** is allowed in either order,
unless elements decide; then it is all of both. -/
theorem exists_unwraps (hw : w.Checked rank) (ho : w.Orderly interfaces roots)
    (hs : s.Faithful w interfaces roots []) (h : w.Fulfills t u ∨ w.Fulfills u t)
    (hreg : ∀ v, w.Declared v → w.isInterface v = true → v = t ∨ v = u → v ∈ interfaces)
    (hx : Denotes w roots s t x) (hy : Denotes w roots s u y) :
    ∃ a b, s.graph.Unwraps x a ∧ s.graph.Unwraps y b ∧
      (w.stage interfaces t u ≠ .elements →
        (a, b) ∈ s.graph.allowed Rule.defaults ∧ (b, a) ∈ s.graph.allowed Rule.defaults) ∧
      (w.stage interfaces t u = .elements → a = x ∧ b = y) := by
  have hbare : ∀ {v : Ty} {z : Ref}, w.Declared v → w.isInterface v = true →
      Denotes w roots s v z → s.graph.Unwraps z z := by
    intro v z hv hinterface hz
    refine .bare ?_
    rw [hz.kind_eq hs, (World.plan_interface hv hinterface).1]
    nofun
  rcases h with h | h
  · have hu := hreg u h.declaredInterface h.interface (Or.inr rfl)
    obtain ⟨z, hz, hother, helements⟩ := exists_unwraps_of_fulfills hw ho hs h hu hx hy
    exact ⟨z, y, hz, hbare h.declaredInterface h.interface hy, hother,
      fun hst => ⟨helements hst, rfl⟩⟩
  · have ht := hreg t h.declaredInterface h.interface (Or.inl rfl)
    obtain ⟨z, hz, hother, helements⟩ := exists_unwraps_of_fulfills hw ho hs h ht hy hx
    refine ⟨x, z, hbare h.declaredInterface h.interface hx, hz, fun hst => ?_,
      fun hst => ⟨rfl, helements (Face.stage_elements_symm hst)⟩⟩
    exact (hother fun hst' => hst (Face.stage_elements_symm hst')).symm

end Draft

theorem Operands.mem_interfacesFor_of_pointers {w : World} {p : Operands} {u : Ty} {j : Nat}
    (ho : w.Orderly (p.interfacesFor w) p.roots) (hu : w.Declared u)
    (hinterface : w.isInterface u = true)
    (hop : p.left = some (u.pointers j) ∨ p.right = some (u.pointers j)) :
    u ∈ p.interfacesFor w := by
  have hkind : (w.plan u).kind ≠ .nullable := by
    rw [(World.plan_interface hu hinterface).1]
    nofun
  have hj : j < w.horizon := Nat.lt_of_succ_lt (ho.pointers_lt_horizon hkind (.root hop))
  have hmem := World.mem_interfacesIn_pointers hu hinterface hj
  refine mem_interfacesFor.mpr (Or.inr ⟨hinterface, Or.inr ?_⟩)
  rcases hop with hleft | hright
  · left
    rwa [hleft]
  · right
    rwa [hright]

theorem World.accepts_iff_of_elements {w : World} {interfaces : List Ty} {roots : Set Ty}
    {t u a b : Ty} (hst : w.stage interfaces t u = .elements)
    (ha : (w.portrait interfaces t).element = some a)
    (hb : (w.portrait interfaces u).element = some b) :
    w.Accepts interfaces roots t u ↔ w.Accepts interfaces roots a b := by
  constructor
  · intro h
    cases h with
    | elements _ ha' hb' hab =>
      cases ha.symm.trans ha'
      cases hb.symm.trans hb'
      exact hab
    | _ => simp_all
  · exact .elements hst ha hb

/-- **An interface and a type that implements it may be equal both ways**, behind any number of
pointers and in either order, unless both have elements and no keys. Then it depends on whether the
elements accept each other. -/
theorem check_implemented {w : World} {rank : String → Nat} {p : Operands} {l r : Ty} {i j : Nat}
    (options : CheckOptions) (hw : w.Checked rank) (hleft : p.left = some (l.pointers i))
    (hright : p.right = some (r.pointers j)) (h : w.Fulfills l r ∨ w.Fulfills r l)
    (ho : w.Orderly (p.interfacesFor w) p.roots) :
    ∃ f, check w options none p = .ok (f, none) ∧
      (w.stage (p.interfacesFor w) l r ≠ .elements → f.forward = true ∧ f.reverse = true) ∧
      (w.stage (p.interfacesFor w) l r = .elements → w.Settled (p.interfacesFor w) p.roots →
        ∃ a b, (w.portrait (p.interfacesFor w) l).element = some a ∧
          (w.portrait (p.interfacesFor w) r).element = some b ∧
          (f.forward = true ↔ w.Accepts (p.interfacesFor w) p.roots a b) ∧
          (f.reverse = true ↔ w.Accepts (p.interfacesFor w) p.roots b a)) := by
  obtain ⟨f, x₀, y₀, s, hf, hs, hx₀, hy₀, hforward, hreverse⟩ :=
    check_iff_allowed options hleft hright ho
  obtain ⟨x, hx, hwrapx⟩ := hx₀.exists_pointee hs
  obtain ⟨y, hy, hwrapy⟩ := hy₀.exists_pointee hs
  have hreg : ∀ u, w.Declared u → w.isInterface u = true → u = l ∨ u = r →
      u ∈ p.interfacesFor w := by
    rintro u hu hinterface (rfl | rfl)
    · exact Operands.mem_interfacesFor_of_pointers ho hu hinterface (Or.inl hleft)
    · exact Operands.mem_interfacesFor_of_pointers ho hu hinterface (Or.inr hright)
  obtain ⟨a, b, ha, hb, hother, helements⟩ := Draft.exists_unwraps hw ho hs h hreg hx hy
  obtain ⟨hab, hba⟩ := hx₀.mem_allowed_pointers_iff ho hs hy₀ (hwrapx a ha) (hwrapy b hb)
  rw [hab] at hforward
  rw [hba] at hreverse
  refine ⟨f, hf, fun hst => ?_, fun hst hset => ?_⟩
  · obtain ⟨hallowed, hallowed'⟩ := hother hst
    exact ⟨hforward.mpr hallowed, hreverse.mpr hallowed'⟩
  · obtain ⟨rfl, rfl⟩ := helements hst
    obtain ⟨hel, her⟩ := Face.hasElement_of_elements hst
    obtain ⟨c, hc⟩ := Option.isSome_iff_exists.mp hel
    obtain ⟨d, hd⟩ := Option.isSome_iff_exists.mp her
    rw [Draft.mem_allowed_iff_accepts hset hs hx hy,
      World.accepts_iff_of_elements hst hc hd] at hforward
    rw [Draft.mem_allowed_iff_accepts hset hs hy hx,
      World.accepts_iff_of_elements (Face.stage_elements_symm hst) hd hc] at hreverse
    exact ⟨c, d, hc, hd, hforward, hreverse⟩

/-! ### Two worlds -/

/-- A pointer to `Square` and a pointer to a pointer to `Figure`. -/
def squareAndFigure : Operands where
  leftText := "s"
  rightText := "f"
  left := some ((Ty.declared "Square").pointers 1)
  right := some ((Ty.declared "Figure").pointers 2)

theorem fulfills_figures : figures.Fulfills (.declared "Square") (.declared "Figure") where
  toRealizes := realizes_figures
  demanding := by decide
  pointer e he := by
    have hunder : figures.underlying (.declared "Square") =
      .struct [⟨"Side", .basic .int, "p", false, []⟩] := by decide
    cases hunder.symm.trans he

/-- The types that `squareAndFigure` comes across. -/
def squareAndFigure.parts : List Ty :=
  [(Ty.declared "Square").pointers 1, .declared "Square", (Ty.declared "Figure").pointers 2,
    (Ty.declared "Figure").pointers 1, .declared "Figure"]

theorem orderly_squareAndFigure :
    figures.Orderly (squareAndFigure.interfacesFor figures) squareAndFigure.roots := by
  refine World.orderly_of_closed squareAndFigure.parts ?_ ?_ ?_ ?_
  · rintro t (ht | ht) <;> cases ht <;> decide
  · decide
  · decide
  · decide

theorem checked_figures : figures.Checked fun path => if path = "p" then 1 else 0 :=
  World.checked_of_checks (by decide)

/-- A pointer to a square and a pointer to a pointer to a figure may be equal. -/
theorem check_implemented_figures :
    ∃ f, check figures {} none squareAndFigure = .ok (f, none) ∧ f.forward = true ∧
      f.reverse = true := by
  obtain ⟨f, hf, h, -⟩ := check_implemented {} (p := squareAndFigure) checked_figures rfl rfl
    (Or.inl fulfills_figures) orderly_squareAndFigure
  exact ⟨f, hf, h (by decide)⟩

/-- `Numbers` are numbers, but their method yields texts, as `Listing` asks. -/
def listings : World where
  packages := [{
    path := "p"
    name := "p"
    declarations :=
      [{ name := "Texts", type := .yielding (.basic .string) },
       { name := "Numbers", type := .slice (.basic .int)
         methods := [.returning "All" false (.declared "Texts")] },
       { name := "Listing"
         type := .interface .literal [.returning "All" (.declared "Texts")] [] }] }]
  horizon := 20

/-- The operands `Numbers` and `Listing`. -/
def numbersAndListing : Operands where
  leftText := "n"
  rightText := "l"
  left := some (.declared "Numbers")
  right := some (.declared "Listing")

theorem fulfills_listings : listings.Fulfills (.declared "Numbers") (.declared "Listing") where
  declared := ⟨_, _, rfl, by decide⟩
  declaredInterface := ⟨_, _, rfl, by decide⟩
  concrete := by decide
  interface := by decide
  demanding := by decide
  implements := by decide
  apart := by decide
  pointer e he := by
    have hunder : listings.underlying (.declared "Numbers") = .slice (.basic .int) := by
      decide
    cases hunder.symm.trans he

/-- **Elements can keep an interface from its values.** A sequence is described by what it holds and
not by what its method yields, so its elements differ from those of the interface. -/
theorem check_listings :
    listings.Fulfills (.declared "Numbers") (.declared "Listing") ∧
      (listings.typeSet (listings.underlying (.declared "Listing"))).isMethodSet = true ∧
      (check listings {} none numbersAndListing).toOption.map
        (fun z => (z.1.forward, z.1.reverse)) = some (false, false) ∧
      (check listings {} none numbersAndListing.swap).toOption.map
        (fun z => (z.1.forward, z.1.reverse)) = some (false, false) :=
  ⟨fulfills_listings, by decide, by decide +kernel, by decide +kernel⟩

end EverEqual
