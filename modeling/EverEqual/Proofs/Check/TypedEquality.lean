import EverEqual.Proofs.Check.Mirrored
import EverEqual.Proofs.Check.Pointers
import EverEqual.Proofs.Comparison.Nested
import EverEqual.Proofs.Describe.Layers

/-!
# Typed equalities behind pointers

A struct type declares an equality by a method `Equal` or `Equals`. The rules take pointers off both
sides before they ask for it, so the method has to count for what is left of its parameter then. It
does as long as pointers without a name are taken off. The pointers of declared pointer types are
not, so what is behind them is related to the struct only if something else relates it.

* `World.DeclaresEquality`: a struct type with a method for equality;
* `Draft.Sketched.consistent`, `Draft.Sketched.unwraps_of_behind`: what is remembered is consistent
  and has the layers of its types;
* `equality_found`: the answer for a struct and the parameter of its method, behind any pointers;
* `equality_missed`: an equality that is not found, for a declared pointer type.
-/

namespace EverEqual

/-- A declared type without elements meets what is neither nullable nor an enumeration: no stage
that follows parts is left. -/
theorem Face.stage_of_userDefined {a b : Face} (hkind : a.kind = .userDefined)
    (helement : a.hasElement = false) (horigin : a.origin = "") (hnull : b.kind ≠ .nullable)
    (henum : b.kind ≠ .enumeration) :
    a.stage b =
      if b.kind = .unknown then .unknown else if a.id = b.id then .identity else .rest := by
  simp [stage, enumerable, hkind, helement, horigin, hnull, henum]

namespace World

variable {w : World} {interfaces : List Ty} {t u x z : Ty} {k : Nat}

/-- A declared struct type that yields no elements and has a method for equality with a type. -/
structure DeclaresEquality (w : World) (t x : Ty) : Prop where
  declared : ∃ n, t = .named n [] ∧ w.unalias t = t
  struct : ∃ fields, w.underlying t = .struct fields
  silent : w.listedMethod? (.pointer t) "All" = none
  equality : ∃ name ∈ ["Equal", "Equals"], ∃ p r v,
    w.listedMethod? (.pointer t) name = some (.func [p] [r] v) ∧ p.type = x ∧
      w.isBoolean r.type = true

theorem DeclaresEquality.pointee_eq_none (h : w.DeclaresEquality t x) : w.pointee? t = none := by
  obtain ⟨n, -, halias⟩ := h.declared
  obtain ⟨fields, hfields⟩ := h.struct
  rw [pointee?, core, halias, hfields]

theorem DeclaresEquality.plan_eq (h : w.DeclaresEquality t x) :
    ∃ n, t = .named n [] ∧ (w.plan t).kind = .userDefined ∧
      (w.plan t).features = w.namedFeatures n [] .userDefined := by
  obtain ⟨n, rfl, halias⟩ := h.declared
  obtain ⟨fields, hfields⟩ := h.struct
  have hkind : w.kindOfNamed n [] = .userDefined := by
    simp [kindOfNamed, isEnumeration, hfields, kindOf]
  refine ⟨n, rfl, ?_, ?_⟩ <;> simp [plan, halias, namedPlan, hfields, hkind]

theorem DeclaresEquality.face_eq (h : w.DeclaresEquality t x) (interfaces : List Ty) :
    (w.portrait interfaces t).kind = .userDefined ∧ (w.portrait interfaces t).element = none ∧
      (w.portrait interfaces t).origin = "" := by
  obtain ⟨fields, hfields⟩ := h.struct
  obtain ⟨n, rfl, hkind, hfeatures⟩ := h.plan_eq
  refine ⟨(w.kind_portrait _).trans hkind, ?_, ?_⟩
  · refine Option.eq_none_iff_forall_ne_some.mpr fun e he => ?_
    have hsilent := h.silent
    have hf := mem_features_of_element he
    rw [hfeatures] at hf
    simp only [namedFeatures, hfields, underlyingFeatures, baseFeatures, instanceFeatures,
      capabilityFeatures, methodFeatures, List.mem_append, List.mem_flatMap] at hf
    grind
  · obtain ⟨_, hname, halias⟩ := h.declared
    cases hname
    refine congrArg Prod.fst (generic_portrait interfaces halias ?_)
    rw [core, halias, hfields]
    intro hinvalid
    cases hinvalid

theorem DeclaresEquality.mem_equatable (h : w.DeclaresEquality t x) (hz : w.Under k x z)
    (hk : k < w.horizon) (interfaces : List Ty) :
    (w.plan z).id ∈ (w.portrait interfaces t).equatable := by
  obtain ⟨name, hname, p, r, v, hmethod, rfl, hbool⟩ := h.equality
  obtain ⟨n, rfl, -, hfeatures⟩ := h.plan_eq
  refine Portrait.mem_equatable_foldl.mpr (Or.inr ⟨z, ?_, rfl⟩)
  have htarget : Feature.equatable z ∈ w.methodFeatures .userDefined name (.func [p] [r] v) := by
    have hmem := List.mem_map_of_mem (f := Feature.equatable) (hz.mem_withoutPointers hk)
    rcases List.mem_pair.mp hname with rfl | rfl <;>
      simpa [methodFeatures, equalTargets, hbool] using hmem
  have hcapable : Feature.equatable z ∈ w.capabilityFeatures (.named n []) .userDefined := by
    refine List.mem_flatMap.mpr ⟨name, by simp at hname ⊢; tauto, ?_⟩
    simpa [hmethod] using htarget
  rw [hfeatures]
  simp [namedFeatures, hcapable]

end World

namespace Draft

variable {w : World} {interfaces : List Ty} {roots : Set Ty} {s : Draft} {t u x z : Ty} {a b : Ref}
variable {k : Nat}

theorem Sketched.unwraps_of_behind (h : s.Sketched w roots) (hs : s.Tidy interfaces [])
    (hbehind : w.Behind k t u) (ha : w.Shows roots s t a) :
    ∃ b, w.Shows roots s u b ∧ s.graph.Unwraps a b := by
  induction hbehind generalizing a with
  | bare hnone =>
    refine ⟨a, ha, .bare ?_⟩
    rw [(h.head _ a ha).2]
    exact World.kind_of_pointee_eq_none hnone
  | pointer hsome _ ih =>
    obtain ⟨c, hof, hc⟩ := exists_of_rel_left (h.depicts_portrait hs [] ha).underlying
      ((World.underlying_portrait [] _).trans hsome)
    obtain ⟨b, hb, hcb⟩ := ih hc
    refine ⟨b, hb, .wrapped ?_ hof hcb⟩
    rw [(h.head _ a ha).2]
    exact World.kind_of_pointee hsome

theorem Sketched.consistent (h : s.Sketched w roots) (hw : w.Discerning roots)
    (hs : s.Tidy interfaces []) (ha : w.Shows roots s t a) (hb : w.Shows roots s u b) :
    s.graph.Consistent a b := by
  have hshown : ∀ {c}, s.graph.ReachEither a b c → ∃ v, w.Shows roots s v c := by
    intro c hc
    have hmem : s.Remembered c := by
      rcases hc with hc | hc
      · exact hs.remembered_of_reach ⟨_, ha.2⟩ hc
      · exact hs.remembered_of_reach ⟨_, hb.2⟩ hc
    obtain ⟨e, he⟩ := hmem
    obtain ⟨v, hv, rfl⟩ := h.known e c he
    exact ⟨v, hv, he⟩
  intro c d hc hd hid
  obtain ⟨v, hvc⟩ := hshown hc
  obtain ⟨v', hvd⟩ := hshown hd
  rw [(h.head v c hvc).1, (h.head v' d hvd).1] at hid
  have hsketch := hw v v' hvc.1 hvd.1 _ (World.id_mem_names v) (hid ▸ World.id_mem_names v')
  have hentry := congrArg Portrait.entry hsketch
  rw [w.entry_sketch, w.entry_sketch] at hentry
  cases hvc.2.unique (hentry ▸ hvd.2)
  exact (Node.match_self _).imp_of_mem fun c _ d _ hcd =>
    congrArg (fun a => (s.graph.node a).id) hcd

/-- **The struct against what is no pointer**: they are allowed if the type is unresolved or the
struct itself, or if they are related. -/
theorem Sketched.mem_allowed_iff_related (h : s.Sketched w roots) (hs : s.Tidy interfaces [])
    (hequality : w.DeclaresEquality t x) (hnone : w.pointee? z = none)
    (henum : (w.plan z).kind ≠ .enumeration) (ha : w.Shows roots s t a)
    (hb : w.Shows roots s z b) :
    (a, b) ∈ s.graph.allowed Rule.defaults ↔
      (w.plan z).kind = .unknown ∨ (w.plan t).id = (w.plan z).id ∨ s.graph.Related a b := by
  obtain ⟨hkind, helement, horigin⟩ := hequality.face_eq []
  have hdep := h.depicts_portrait hs [] ha
  have hbkind : (s.graph.node b).face.kind = (w.plan z).kind := (h.head z b hb).2
  have hstage : s.graph.stage a b = if (w.plan z).kind = .unknown then .unknown
      else if (w.plan t).id = (w.plan z).id then .identity else .rest := by
    have hnull : (s.graph.node b).face.kind ≠ .nullable := by
      rw [hbkind]
      exact World.kind_of_pointee_eq_none hnone
    have hyields : (s.graph.node a).face.hasElement = false := by
      rw [hdep.face_eq, Portrait.face, helement]
      rfl
    rw [← (h.head t a ha).1, ← (h.head z b hb).1, ← hbkind]
    exact Face.stage_of_userDefined (hdep.kind.trans hkind) hyields (hdep.origin.trans horigin)
      hnull (hbkind ▸ henum)
  rw [mem_allowed_iff, hstage]
  split_ifs with hunknown hid
  · simp [Graph.decision, hunknown]
  · simp [Graph.decision, hid]
  · by_cases hrelated : s.graph.Related a b <;>
      simp [Graph.decision, hunknown, hid, hrelated]

end Draft

theorem World.Behind.pointers {w : World} {k : Nat} {t u : Ty} (h : w.Behind k t u) (i : Nat) :
    w.Behind (k + i) (t.pointers i) u := by
  induction i with
  | zero => exact h
  | succ i ih => exact .pointer (pointee_of_unalias (unalias_pointer _)) ih

/-- **A typed equality is found behind any pointers.** Whatever a describer is asked for, if the
types to describe unfold to fewer texts than the world is followed deep and types that share a text
look the same: a struct behind any pointers against the parameter of its method for equality, behind
any pointers, can be equal if only pointers without a name are to be taken off the parameter. In
general, what is left of the parameter decides, unless it is an enumeration: whether it is
unresolved, the struct itself, or related to the struct. -/
theorem equality_found (w : World) (requests : List Request) (E : Finset Identity)
    (hcard : E.card < w.horizon)
    (hE : ∀ t, .describe (some t) ∈ requests → ∀ u, w.Met {t} u → w.entry u ∈ E)
    (hw : w.Discerning (Draft.asked requests)) {t x z : Ty} {k : Nat}
    (hequality : w.DeclaresEquality t x) (hz : w.Behind k x z)
    (henum : (w.plan z).kind ≠ .enumeration) :
    ∃ rs s, Draft.serve w w.horizon {} requests = .ok (rs, s) ∧
      ∀ i j l r, (some (t.pointers i), l) ∈ (requests.filterMap Request.operand?).zip rs →
        (some (x.pointers j), r) ∈ (requests.filterMap Request.operand?).zip rs →
        (w.Under k x z → canBeEqual s.graph Rule.defaults (some l) (some r) = .ok true) ∧
        ∃ a b, s.Has w t a ∧ s.Has w z b ∧
          (canBeEqual s.graph Rule.defaults (some l) (some r) = .ok true ↔
            (w.plan z).kind = .unknown ∨ (w.plan t).id = (w.plan z).id ∨ s.graph.Related a b) := by
  obtain ⟨rs, s, interfaces, hserve, hs, hsketched, hrs⟩ := Draft.exists_serve_shown hE hw
  refine ⟨rs, s, hserve _ hcard, fun i j l r hl hr => ?_⟩
  obtain ⟨-, hzip⟩ := List.forall₂_iff_zip.mp hrs
  have hlshown := hzip hl _ rfl
  have hrshown := hzip hr _ rfl
  obtain ⟨a, ha, hla⟩ := hsketched.unwraps_of_behind hs
    (World.Behind.pointers (.bare hequality.pointee_eq_none) i) hlshown
  obtain ⟨b, hb, hrb⟩ := hsketched.unwraps_of_behind hs (hz.pointers j) hrshown
  have hconsistent := hsketched.consistent hw hs hlshown hrshown
  obtain ⟨answer, hanswer, hiff⟩ := hconsistent.exists_answer Rule.defaults
    (hs.finishedFrom ⟨_, hlshown.2⟩) (hs.finishedFrom ⟨_, hrshown.2⟩)
  have hexact : canBeEqual s.graph Rule.defaults (some l) (some r) = .ok true ↔
      (w.plan z).kind = .unknown ∨ (w.plan t).id = (w.plan z).id ∨ s.graph.Related a b := by
    rw [hanswer, Except.ok.injEq, hiff,
      (Graph.agree_unwrapped hconsistent hla hrb (Or.inl .refl) (Or.inr .refl)).allowed]
    exact hsketched.mem_allowed_iff_related hs hequality hz.pointee_eq_none henum ha hb
  refine ⟨fun hunder => hexact.mpr (Or.inr (Or.inr ?_)), a, b, hsketched.has_of_shows hw ha,
    hsketched.has_of_shows hw hb, hexact⟩
  have hk : k < w.horizon :=
    calc k ≤ k + j := Nat.le_add_right k j
      _ < E.card := (hz.pointers j).lt_card hw (Draft.entry_mem_of_asked hE) hrshown.1
      _ < w.horizon := hcard
  have hequatable := hequality.mem_equatable hunder hk []
  have hdep := hsketched.depicts_portrait hs [] ha
  refine Or.inr (Or.inr (Or.inr (Or.inr ?_)))
  rw [(hsketched.head z b hb).1, hdep.equatableTo, decide_eq_true_iff]
  exact hequatable

/-! ### Prices and quotes -/

/-- A price that equals pointers to quotes, and an offer that equals a declared pointer type. -/
def prices : World where
  packages := [{
    path := "p"
    name := "p"
    declarations :=
      [{ name := "Quote", type := .struct [] },
       { name := "Ref", type := .pointer (.named ⟨"p", "Quote"⟩ []) },
       { name := "Price"
         type := .struct []
         methods := [⟨"Equal", false,
           .func [⟨"q", .pointer (.named ⟨"p", "Quote"⟩ []), "p", false, []⟩]
             [⟨"", .basic .bool, "p", false, []⟩] false⟩] },
       { name := "Offer"
         type := .struct []
         methods := [⟨"Equal", false, .func [⟨"r", .named ⟨"p", "Ref"⟩ [], "p", false, []⟩]
           [⟨"", .basic .bool, "p", false, []⟩] false⟩] }] }]
  horizon := 12

/-- The type `Quote`. -/
def Ty.quote : Ty := .named ⟨"p", "Quote"⟩ []

/-- The declared pointer type `Ref`. -/
def Ty.ref : Ty := .named ⟨"p", "Ref"⟩ []

/-- The type `Price`. -/
def Ty.price : Ty := .named ⟨"p", "Price"⟩ []

/-- The type `Offer`. -/
def Ty.offer : Ty := .named ⟨"p", "Offer"⟩ []

/-- What the operands are made of. -/
def prices.parts : List Ty :=
  [.pointer .price, .price, .pointer (.pointer (.pointer .quote)), .pointer (.pointer .quote),
    .pointer .quote, .quote]

/-- Requests for a price and a quote behind pointers. -/
def prices.requests : List Request :=
  [.describe (some (.pointer .price)), .describe (some (.pointer (.pointer (.pointer .quote))))]

theorem prices.mem_parts_of_asked {t : Ty} (ht : t ∈ Draft.asked prices.requests) :
    t ∈ prices.parts := by
  change Request.describe (some t) ∈ prices.requests at ht
  simp only [prices.requests, List.mem_cons, List.not_mem_nil, or_false,
    Request.describe.injEq, Option.some.injEq] at ht
  rcases ht with rfl | rfl <;> decide

theorem orderly_prices : prices.Orderly [] (Draft.asked prices.requests) :=
  World.orderly_of_closed prices.parts (fun _ => prices.mem_parts_of_asked) (by decide)
    (by decide) (by decide)

theorem declaresEquality_price : prices.DeclaresEquality .price (.pointer .quote) where
  declared := ⟨_, rfl, by decide⟩
  struct := ⟨[], by decide⟩
  silent := by decide
  equality := ⟨"Equal", by decide, _, _, _, rfl, rfl, by decide⟩

theorem under_quote : prices.Under 1 (.pointer .quote) .quote :=
  .pointer (by decide) (.bare (by decide))

theorem equality_found_price :
    ∃ l r s, Draft.serve prices prices.horizon {} prices.requests = .ok ([l, r], s) ∧
      canBeEqual s.graph Rule.defaults (some l) (some r) = .ok true := by
  obtain ⟨E, hcard, hE⟩ := orderly_prices.followed
  obtain ⟨rs, s, hserve, hfound⟩ := equality_found prices prices.requests E hcard
    (fun t ht u hu => hE u (hu.mono (Set.singleton_subset_iff.mpr ht))) orderly_prices.discerning
    declaresEquality_price under_quote.behind (by decide)
  have hrun : (Draft.serve prices prices.horizon {} prices.requests).toOption.map Prod.fst =
      some [0, 4] := by
    decide +kernel
  obtain rfl : rs = [0, 4] := by
    rw [hserve] at hrun
    exact Option.some.inj hrun
  exact ⟨0, 4, s, hserve, (hfound 1 2 0 4 (by decide) (by decide)).1 under_quote⟩

/-- The equality of an offer with `Ref` is not found: what is left of `Ref` is a quote. -/
theorem equality_missed :
    prices.DeclaresEquality .offer .ref ∧ prices.Behind 1 .ref .quote ∧
      (prices.plan .quote).kind ≠ .enumeration ∧
      ∃ l r s, Draft.serve prices prices.horizon {}
          [.describe (some .offer), .describe (some .ref)] = .ok ([l, r], s) ∧
        canBeEqual s.graph Rule.defaults (some l) (some r) = .ok false := by
  refine ⟨⟨⟨_, rfl, by decide⟩, ⟨[], by decide⟩, by decide,
    ⟨"Equal", by decide, _, _, _, rfl, rfl, by decide⟩⟩,
    .pointer (by decide) (.bare (by decide)), by decide, ?_⟩
  have hrun : (Draft.serve prices prices.horizon {}
      [.describe (some .offer), .describe (some .ref)]).toOption.map
        (fun z => (z.1, (canBeEqual z.2.graph Rule.defaults (some 0) (some 1)).toOption)) =
      some ([0, 1], some false) := by
    decide +kernel
  obtain ⟨⟨rs, s⟩, hserve, heq⟩ := exists_ok_of_toOption hrun
  obtain ⟨rfl, hanswer⟩ := Prod.mk.inj heq
  obtain ⟨answer, hok, rfl⟩ := exists_ok_of_toOption (f := id) (by rwa [Option.map_id])
  exact ⟨0, 1, s, hserve, hok⟩

end EverEqual
