import EverEqual.Proofs.Check.Answered
import EverEqual.Proofs.Check.Mirrored
import EverEqual.Proofs.Describe.Ancestry
import EverEqual.Proofs.Describe.Steps

/-!
# No ancestor without a reason

Whatever a describer is asked for and whenever interfaces are registered, every ancestor of a
descriptor has a reason in the types. The reason may pass through a type that is written like the one
that is embedded. Where texts tell types apart, that is the embedded type itself; where they do not,
a descriptor can have an interface as an ancestor that nothing embedded in its type implements.

* `Draft.registered`: what has been registered;
* `Draft.Traced`, `Draft.sustains_traced`: every ancestor has a trace, kept up by requests;
* `ancestors_reasoned`: every ancestor has a reason;
* `ancestors_boxed`: an ancestor without one, where two types are written alike.
-/

namespace EverEqual

open Relation

/-- What a request registers. -/
def Request.registers : Request → List Ty
  | register ts => ts
  | describe _ => []

namespace Draft

variable {w : World} {interfaces : List Ty} {roots : Set Ty} {s s' : Draft} {t : Ty}
variable {e : Identity} {r : Ref}

/-- The interfaces that have been registered by the end of some requests. That of errors is
registered from the start. -/
def registered (w : World) (requests : List Request) : List Ty :=
  .error :: (requests.flatMap Request.registers).filter w.isInterface

theorem Steps.interfaces_eq (h : Steps w roots s s') :
    s'.describer.interfaces = s.describer.interfaces := by
  induction h with
  | refl => rfl
  | tail _ hstep ih =>
    rw [← ih]
    cases hstep with
    | reserve _ _ => rfl
    | fillIn _ _ _ _ => rfl

theorem interfaces_describeTo {depth : Nat} {o : Option Ty}
    (hrun : s.describeTo w depth o = .ok (r, s')) :
    s'.describer.interfaces = s.describer.interfaces := by
  cases o with
  | none =>
    cases hrun
    rfl
  | some t =>
    have hsteps : Steps w {t} s s' := World.steps_of_run depth (.root rfl) hrun
    exact hsteps.interfaces_eq

theorem mem_interfaces_serve {requests : List Request} {rs : List Ref} {depth : Nat} {i : Ty}
    (hserve : s.serve w depth requests = .ok (rs, s')) (hi : i ∈ s'.describer.interfaces) :
    i ∈ s.describer.interfaces ∨
      (i ∈ requests.flatMap Request.registers ∧ w.isInterface i = true) := by
  induction requests generalizing s rs with
  | nil =>
    cases hserve
    exact Or.inl hi
  | cons q rest ih =>
    rw [List.flatMap_cons, List.mem_append]
    cases q with
    | register ts =>
      rcases ih hserve with h | ⟨h, hint⟩
      · rcases (Describer.mem_interfaces_register _ ts).mp h with h | ⟨h, hint⟩
        · exact Or.inl h
        · exact Or.inr ⟨Or.inl h, hint⟩
      · exact Or.inr ⟨Or.inr h, hint⟩
    | describe o =>
      rw [serve] at hserve
      cases hrun : s.describeTo w depth o with
      | error d =>
        rw [hrun] at hserve
        cases hserve
      | ok z =>
        rw [hrun] at hserve
        simp only [bind, Except.bind] at hserve
        cases hserves : z.2.serve w depth rest with
        | error d =>
          rw [hserves] at hserve
          cases hserve
        | ok y =>
          rw [hserves] at hserve
          cases hserve
          rcases ih hserves with h | ⟨h, hint⟩
          · exact Or.inl (interfaces_describeTo hrun ▸ h)
          · exact Or.inr ⟨Or.inr h, hint⟩

/-! ### Traces are kept up -/

/-- The descriptor was built for the type: it has the identity of the type, and every ancestor has a
trace. -/
structure BuiltFor (w : World) (roots : Set Ty) (s : Draft) (t : Ty) (r : Ref) : Prop where
  met : w.Met roots t
  id_eq : (s.graph.node r).id = (w.plan t).id
  trace : ∀ a ∈ (s.graph.node r).ancestors,
    a ≠ (w.plan t).id ∧ w.Trace s.describer.interfaces (w.FoundFor roots) t a

/-- Every descriptor that is remembered was built for a type that is remembered that way. -/
structure Traced (w : World) (roots : Set Ty) (s : Draft) : Prop where
  injective : ∀ e f r, s.Remembers e r → s.Remembers f r → e = f
  built : ∀ e r, s.Remembers e r → ∃ t, w.entry t = e ∧ s.BuiltFor w roots t r

theorem BuiltFor.of_node (h : s.BuiltFor w roots t r) (hnode : s'.graph.node r = s.graph.node r)
    (hregistered : s.describer.interfaces ⊆ s'.describer.interfaces) :
    s'.BuiltFor w roots t r where
  met := h.met
  id_eq := hnode ▸ h.id_eq
  trace := by
    rw [hnode]
    exact fun a ha => (h.trace a ha).imp_right (·.mono hregistered)

theorem Traced.begin (h : s.Traced w roots) (ht : w.Met roots t)
    (hs : ∀ r, s.Remembered r → r < s.graph.size) : (s.begin (w.plan t)).Traced w roots where
  injective := injective_begin (fun e r hr => hs r ⟨e, hr⟩) h.injective
  built := by
    intro e r hr
    rcases remembers_begin.mp hr with ⟨rfl, rfl⟩ | ⟨-, hr⟩
    · -- the descriptor is blank
      have hnode : (s.begin (w.plan t)).graph.node s.graph.size =
          { kind := (w.plan t).kind, id := (w.plan t).id } := by
        rw [s.node_begin, if_pos rfl]
      refine ⟨t, rfl, ht, ?_, ?_⟩
      · rw [hnode]
      · rw [hnode]
        exact fun a ha => absurd ha List.not_mem_nil
    · obtain ⟨u, hu, hbuilt⟩ := h.built e r hr
      refine ⟨u, hu, hbuilt.of_node ?_ (List.Subset.refl _)⟩
      rw [s.node_begin, if_neg (Nat.ne_of_lt (hs r ⟨e, hr⟩))]

/-- **What is filled in by the plan of a type was built for it.** An ancestor is one of its own, or it
comes from the descriptor that was found for a base. -/
theorem Traced.trace_of_fill (h : s.Traced w roots) {as : List Attribute} {m : Node}
    (has : List.Forall₂ (Feature.Becomes w s.describer.interfaces (s.Found w)) (w.plan t).features
      as)
    (hfill : Node.fill s.graph { kind := (w.plan t).kind, id := (w.plan t).id } as = (m, none))
    {a : Identity} (ha : a ∈ m.ancestors) :
    a ≠ (w.plan t).id ∧ w.Trace s.describer.interfaces (w.FoundFor roots) t a := by
  obtain ⟨hne, f, hf, hlists⟩ := Node.lists_of_fill has hfill rfl ha
  refine ⟨hne, ?_⟩
  cases f with
  | ancestors u kind => exact .own (Portrait.mem_own_foldl.mpr (Or.inr ⟨u, kind, hf, hlists⟩))
  | bases us =>
    obtain ⟨u, hu, x, hx, hax⟩ := hlists
    have hbase : u ∈ (w.portrait s.describer.interfaces t).bases :=
      World.mem_bases_foldl.mpr (Or.inr ⟨us, hf, hu⟩)
    obtain ⟨v, hvu, hbuilt⟩ : ∃ v, (w.entry v = w.text u ∨ w.entry v = w.entry u) ∧
        s.BuiltFor w roots v x := by
      rcases hx with hx | hx
      · obtain ⟨v, hv, hbuilt⟩ := h.built _ x hx
        exact ⟨v, Or.inl hv, hbuilt⟩
      · obtain ⟨v, hv, hbuilt⟩ := h.built _ x hx
        exact ⟨v, Or.inr hv, hbuilt⟩
    rcases hax with rfl | hax
    · rw [hbuilt.id_eq]
      exact .base hbase ⟨hbuilt.met, hvu⟩
    · exact .inherited hbase ⟨hbuilt.met, hvu⟩ (hbuilt.trace a hax).2
  | _ => cases hlists

theorem Traced.finish (h : s.Traced w roots) (ht : w.Met roots t) (hr : s.Remembers (w.entry t) r)
    (hlt : r < s.graph.size) {as : List Attribute} {m : Node}
    (has : List.Forall₂ (Feature.Becomes w s.describer.interfaces (s.Found w)) (w.plan t).features
      as)
    (hfill : Node.fill s.graph { kind := (w.plan t).kind, id := (w.plan t).id } as = (m, none)) :
    (s.finish r m).Traced w roots where
  injective := h.injective
  built := by
    intro e x hx
    by_cases hxr : x = r
    · subst hxr
      have hnode : (s.finish x m).graph.node x = m := by rw [s.node_finish m hlt, if_pos rfl]
      refine ⟨t, h.injective _ _ x hr hx, ht, ?_, ?_⟩
      · rw [hnode]
        exact Node.id_fill hfill
      · rw [hnode]
        exact fun a ha => h.trace_of_fill has hfill ha
    · obtain ⟨u, hu, hbuilt⟩ := h.built e x hx
      refine ⟨u, hu, hbuilt.of_node ?_ (List.Subset.refl _)⟩
      rw [s.node_finish m hlt, if_neg hxr]

/-- **Requests keep up the traces.** -/
theorem sustains_traced (w : World) (roots : Set Ty) : Sustains w roots (Traced w roots) where
  upholds := fun interfaces =>
    { begin := fun ht hs h _ => h.begin ht hs.inside
      finish := by
        intro t s opened r as m ht hs h hr hblank has hfill
        rw [hblank] at hfill
        rw [← hs.registered] at has
        exact h.finish ht hr (hs.inside r ⟨_, hr⟩) has hfill }
  register := by
    intro s ts h
    have hmemo := (Describer.register_frame (w := w) s.describer ts).1
    have hrem : ∀ {e r}, Remembers { s with describer := s.describer.register w ts } e r →
        s.Remembers e r := fun hr => by rwa [Remembers, hmemo] at hr
    refine ⟨fun e f r he hf => h.injective e f r (hrem he) (hrem hf), fun e r hr => ?_⟩
    obtain ⟨t, ht, hbuilt⟩ := h.built e r (hrem hr)
    refine ⟨t, ht, hbuilt.of_node rfl fun i hi => ?_⟩
    exact (Describer.mem_interfaces_register _ ts).mpr (Or.inl hi)
  add := by
    intro s interfaces hs h
    refine ⟨h.injective, fun e r hr => ?_⟩
    obtain ⟨t, ht, hbuilt⟩ := h.built e r hr
    refine ⟨t, ht, hbuilt.of_node ?_ (List.Subset.refl _)⟩
    rw [Graph.node_add, if_neg (Nat.ne_of_lt (hs.inside r ⟨e, hr⟩))]

theorem traced_start (w : World) (roots : Set Ty) : Traced w roots {} where
  injective e f r he := by cases he
  built e r hr := by cases hr

/-- Where texts tell types apart, what is found for a type might have been built for it. -/
theorem Traced.builtFor_of_found {I : List Ty} {a : Identity} (h : s.Traced w roots)
    (hc : w.Coherent I roots) (hI : s.describer.interfaces ⊆ I) (ht : w.Met roots t)
    (hr : s.Found w t r) :
    (s.graph.node r).id = (w.plan t).id ∧
      (a ∈ (s.graph.node r).ancestors → a ≠ (w.plan t).id ∧ w.Trace I Eq t a) := by
  obtain ⟨v, hbuilt, hsame⟩ : ∃ v, s.BuiltFor w roots v r ∧ w.outline I t = w.outline I v := by
    rcases hr with hr | hr
    · obtain ⟨v, hv, hbuilt⟩ := h.built _ r hr
      refine ⟨v, hbuilt, hc t v ht hbuilt.met _ (World.text_mem_names t) ?_⟩
      exact hv ▸ World.entry_mem_names v
    · obtain ⟨v, hv, hbuilt⟩ := h.built _ r hr
      refine ⟨v, hbuilt, hc t v ht hbuilt.met _ (World.entry_mem_names t) ?_⟩
      exact hv ▸ World.entry_mem_names v
  have hid : (w.plan v).id = (w.plan t).id := by
    simpa using (congrArg Portrait.id hsame).symm
  rw [hbuilt.id_eq, hid]
  refine ⟨rfl, fun ha => ?_⟩
  obtain ⟨hne, htrace⟩ := hbuilt.trace a ha
  exact ⟨hid ▸ hne, (htrace.mono hI).exact hc hbuilt.met ht hsame⟩

end Draft

/-- **No ancestor is recorded without a reason.** Whatever a describer is asked for, if the types to
describe unfold to finitely many texts, then every descriptor that it remembers was built for a type
remembered that way. The descriptor is no ancestor of itself, and each of its ancestors is `any`, or
the identity of a type that is reached by steps to what is embedded, or what the type or one that is
so reached gets on its own. With every step, the type whose descriptor is found for the embedded one
takes its place. Where types that share a name look alike, this does no harm: whatever is found for a
type has its identity, and it has ancestors for reasons of the type itself, by steps to what really
is embedded. -/
theorem ancestors_reasoned (w : World) (requests : List Request) (E : Finset Identity)
    (hE : ∀ t, .describe (some t) ∈ requests → ∀ u, w.Met {t} u → w.entry u ∈ E) :
    ∃ rs s, (∀ depth, E.card < depth → Draft.serve w depth {} requests = .ok (rs, s)) ∧
      List.Forall₂ (s.Answered w) (requests.filterMap Request.operand?) rs ∧
      (∀ e r, s.Remembers e r → ∃ t, w.Met (Draft.asked requests) t ∧ w.entry t = e ∧
        (s.graph.node r).id = (w.plan t).id ∧
        ∀ a ∈ (s.graph.node r).ancestors, a ≠ (w.plan t).id ∧
          w.Reason (Draft.registered w requests)
            (Comp w.Embeds (w.FoundFor (Draft.asked requests))) t a) ∧
      (w.Coherent (Draft.registered w requests) (Draft.asked requests) →
        ∀ t r, w.Met (Draft.asked requests) t → s.Found w t r →
          (s.graph.node r).id = (w.plan t).id ∧
          ∀ a ∈ (s.graph.node r).ancestors, a ≠ (w.plan t).id ∧
            w.Reason (Draft.registered w requests) w.Embeds t a) := by
  obtain ⟨rs, s, interfaces, hserve, -, -, htraced, hrs⟩ := Draft.exists_serve_upheld
    (Draft.sustains_traced w _) (Draft.entry_mem_of_asked hE) (Nat.lt_succ_self _) subset_rfl
    Draft.tidy_start (Draft.traced_start w _)
  have hI : s.describer.interfaces ⊆ Draft.registered w requests := by
    intro i hi
    refine List.mem_cons.mpr ((Draft.mem_interfaces_serve hserve hi).imp List.mem_singleton.mp ?_)
    exact fun h => List.mem_filter.mpr h
  refine ⟨rs, s, fun depth hdepth => Draft.serve_of_le hdepth hserve, hrs, fun e r hr => ?_,
    fun hc t r ht hr => ?_⟩
  · obtain ⟨t, hte, hbuilt⟩ := htraced.built e r hr
    refine ⟨t, hbuilt.met, hte, hbuilt.id_eq, fun a ha => ?_⟩
    obtain ⟨hne, htrace⟩ := hbuilt.trace a ha
    exact ⟨hne, (htrace.mono hI).reason⟩
  · have hbuilt := fun a => htraced.builtFor_of_found (a := a) hc hI ht hr
    refine ⟨(hbuilt "").1, fun a ha => ?_⟩
    obtain ⟨hne, htrace⟩ := (hbuilt a).2 ha
    have hreason := htrace.reason
    rw [comp_eq] at hreason
    exact ⟨hne, hreason⟩

/-! ### Embedded fields that are written alike -/

/-- The struct with the field `x` that is not exported, as it is written in a package. -/
def Ty.hidden (home : String) : Ty := .struct [⟨"x", .basic .int, home, false, []⟩]

/-- The box for such structs. -/
def Ty.boxOf (home : String) : Ty := .named ⟨"q", "Box"⟩ [.hidden home]

/-- The method of a box that takes a value in. -/
def Ty.put (t : Ty) : Ty := .func [⟨"", t, "", false, []⟩] [] false

/-- `Box` is generic. In the package `a` the type `A` embeds the box of a struct, and in `b` the type
`B` embeds the box of a struct that is written the same. Only the former is an `I`. -/
def boxed : World where
  packages :=
    [{ path := "q"
       name := "q"
       declarations :=
         [{ name := "Box"
            type := .struct []
            params := [⟨"T", .named ⟨"", "any"⟩ []⟩]
            methods := [⟨"Put", false, .put (.param ⟨⟨"q", "Box"⟩, none⟩ 0 "T")⟩] }] },
     { path := "a"
       name := "a"
       declarations :=
         [{ name := "I"
            type := .interface .literal [⟨"Put", .put (.hidden "a"), "a", false, []⟩] [] },
          { name := "A", type := .struct [⟨"Box", .boxOf "a", "a", true, []⟩] }] },
     { path := "b"
       name := "b"
       declarations := [{ name := "B", type := .struct [⟨"Box", .boxOf "b", "b", true, []⟩] }] }]
  horizon := 12

/-- The interface `a.I`. -/
def Ty.taker : Ty := .named ⟨"a", "I"⟩ []

/-- The type `a.A`. -/
def Ty.boxA : Ty := .named ⟨"a", "A"⟩ []

/-- The type `b.B`. -/
def Ty.boxB : Ty := .named ⟨"b", "B"⟩ []

/-- The interface is registered and `A` is described. -/
def boxed.requests : List Request := [.register [.taker], .describe (some .boxA)]

/-- What `A` is made of. -/
def boxed.parts : List Ty := [.boxA, .boxOf "a", .hidden "a", .basic .int]

theorem boxed.mem_parts_of_met {roots : Set Ty} (hroots : roots ⊆ {.boxA}) {u : Ty}
    (hu : boxed.Met roots u) : u ∈ boxed.parts := by
  refine World.mem_of_met (fun t ht => ?_) (by decide) hu
  rw [Set.mem_singleton_iff.mp (hroots ht)]
  exact List.mem_cons_self

theorem boxed.eq_of_asked {t : Ty} (ht : t ∈ Draft.asked boxed.requests) : t = .boxA := by
  change Request.describe (some t) ∈ boxed.requests at ht
  simp only [boxed.requests, List.mem_cons, List.not_mem_nil, or_false, reduceCtorEq, false_or,
    Request.describe.injEq, Option.some.injEq] at ht
  exact ht

theorem coherent_boxed :
    boxed.Coherent (Draft.registered boxed boxed.requests) (Draft.asked boxed.requests) := by
  have hcoherent : ∀ t ∈ boxed.parts, ∀ u ∈ boxed.parts, ∀ a ∈ boxed.names t, a ∈ boxed.names u →
      boxed.outline (Draft.registered boxed boxed.requests) t =
        boxed.outline (Draft.registered boxed boxed.requests) u := by
    decide
  have hroots : Draft.asked boxed.requests ⊆ {.boxA} := fun t => boxed.eq_of_asked
  intro t u ht hu
  exact hcoherent t (boxed.mem_parts_of_met hroots ht) u (boxed.mem_parts_of_met hroots hu)

theorem ancestors_reasoned_boxed :
    ∃ r s, Draft.serve boxed 8 {} boxed.requests = .ok ([r], s) ∧
      ∀ a ∈ (s.graph.node r).ancestors,
        a ≠ "a.A" ∧ boxed.Reason (Draft.registered boxed boxed.requests) boxed.Embeds .boxA a := by
  obtain ⟨rs, s, hserve, hrs, -, hfound⟩ := ancestors_reasoned boxed boxed.requests
    (boxed.parts.map boxed.entry).toFinset fun t ht u hu => by
      have hmem := boxed.mem_parts_of_met
        (Set.singleton_subset_iff.mpr (boxed.eq_of_asked ht)) hu
      exact List.mem_toFinset.mpr (List.mem_map_of_mem hmem)
  have hcard : (boxed.parts.map boxed.entry).toFinset.card < 8 :=
    (List.toFinset_card_le _).trans_lt (by decide)
  change List.Forall₂ _ [some Ty.boxA] rs at hrs
  cases hrs with
  | cons hr hnil =>
    cases hnil
    cases hr with
    | found hr =>
      have hasked : Request.describe (some .boxA) ∈ boxed.requests := by decide
      have hmet : boxed.Met (Draft.asked boxed.requests) .boxA := .root hasked
      have hid : (boxed.plan .boxA).id = "a.A" := by decide
      have hall := (hfound coherent_boxed .boxA _ hmet hr).2
      rw [hid] at hall
      exact ⟨_, s, hserve 8 hcard, hall⟩

theorem eq_of_embeds_boxB {u : Ty} (h : boxed.Embeds .boxB u) : u = .boxOf "b" := by
  obtain ⟨fs, f, hcore, hf, -, hstands⟩ := h
  have hstruct : boxed.core .boxB = .struct [⟨"Box", .boxOf "b", "b", true, []⟩] := by decide
  obtain rfl := Ty.struct.inj (hstruct.symm.trans hcore)
  obtain rfl := List.mem_singleton.mp hf
  have halias : boxed.unalias (.boxOf "b") = .boxOf "b" := by decide
  cases hstands with
  | declared h => exact h.symm.trans halias
  | pointer h _ => cases halias.symm.trans h

theorem not_embeds_boxOf {u : Ty} : ¬ boxed.Embeds (.boxOf "b") u := by
  rintro ⟨fs, f, hcore, hf, -⟩
  have hstruct : boxed.core (.boxOf "b") = .struct [] := by decide
  obtain rfl := Ty.struct.inj (hstruct.symm.trans hcore)
  cases hf

theorem not_grounds_boxB {t : Ty} (ht : t ∈ [Ty.boxB, .boxOf "b"]) :
    ¬ boxed.Grounds (Draft.registered boxed boxed.requests) t "a.I" := by
  have hstruct : ∀ t ∈ [Ty.boxB, .boxOf "b"], ∀ v ∈ [boxed.unalias t, boxed.core t],
      boxed.isInterface v = false := by
    decide
  have himplements : ∀ t ∈ [Ty.boxB, .boxOf "b"], ∀ v ∈ [boxed.unalias t, boxed.core t],
      ∀ i ∈ Draft.registered boxed boxed.requests, boxed.typeString i = "a.I" →
        boxed.implements v (boxed.underlying i) = false ∧
          boxed.implements (.pointer v) (boxed.underlying i) = false := by
    decide
  intro h
  generalize ha : "a.I" = a at h
  cases h with
  | @implemented v i hv hi h =>
    obtain ⟨hvalue, hpointer⟩ := himplements t ht v (by simpa using hv) i hi ha.symm
    rcases h with h | ⟨-, h⟩
    · cases hvalue.symm.trans h
    · cases hpointer.symm.trans h
  | @embedded v e form ms es n xs hv hunder =>
    have hno := hstruct t ht v (by simpa using hv)
    rw [World.isInterface, hunder] at hno
    cases hno

theorem not_reason_boxB :
    ¬ boxed.Reason (Draft.registered boxed boxed.requests) boxed.Embeds .boxB "a.I" := by
  have hreach : ∀ {u}, ReflTransGen boxed.Embeds .boxB u → u ∈ [Ty.boxB, .boxOf "b"] := by
    intro u hu
    induction hu with
    | refl => exact List.mem_cons_self
    | tail _ hstep ih =>
      rcases List.mem_pair.mp ih with rfl | rfl
      · exact List.mem_pair.mpr (Or.inr (eq_of_embeds_boxB hstep))
      · exact absurd hstep not_embeds_boxOf
  have hids : ∀ u ∈ [Ty.boxB, .boxOf "b"], "a.I" ≠ (boxed.plan u).id := by decide
  rintro (h | ⟨u, hu, h⟩ | ⟨u, hu, h⟩)
  · exact absurd h (by decide)
  · exact hids u (hreach hu.to_reflTransGen) h
  · exact not_grounds_boxB (hreach hu) h

/-- **An ancestor without a reason.** The box of `b` is written like that of `a`, so `B` gets the
descriptor of the latter as a base and inherits the interface. -/
theorem ancestors_boxed :
    ∃ x y s, Draft.serve boxed 8 {} (boxed.requests ++ [.describe (some .boxB)]) = .ok ([x, y], s) ∧
      "a.I" ∈ (s.graph.node y).ancestors ∧
      ¬ boxed.Reason (Draft.registered boxed (boxed.requests ++ [.describe (some .boxB)]))
        boxed.Embeds .boxB "a.I" := by
  have hrun : (Draft.serve boxed 8 {} (boxed.requests ++ [.describe (some .boxB)])).toOption.map
      (fun z => (z.1, (z.2.graph.node 4).ancestors)) =
        some ([0, 4], ["a.I", "any", "q.Box[struct\x7bx int\x7d]"]) := by
    decide +kernel
  obtain ⟨⟨rs, s⟩, hserve, heq⟩ := exists_ok_of_toOption hrun
  obtain ⟨rfl, hancestors⟩ := Prod.mk.inj heq
  refine ⟨0, 4, s, hserve, ?_, not_reason_boxB⟩
  rw [hancestors]
  exact List.mem_cons_self

end EverEqual
