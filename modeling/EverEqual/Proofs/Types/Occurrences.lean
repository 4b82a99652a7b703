import EverEqual.Proofs.Types.Mentions

/-!
# Where types occur

The search knows types by where they are written. What is written at an occurrence may have
parameters, which an expansion fills in; the argument for a parameter occurs where it is written
itself. Expansions are only added, so what an occurrence stands for does not change.

* `Discovery.Later`: a discovery that came of another one;
* `Discovery.Placed`: an occurrence whose parameters are filled in by an expansion of its package;
* `Discovery.typeOf_inside`: what the types inside an occurrence stand for.
-/

namespace EverEqual

namespace Discovery

/-- A discovery with what has been added to it. -/
structure Later (d d' : Discovery) : Prop where
  expansions : d.expansions <+: d'.expansions
  seen : d.seen ⊆ d'.seen
  found : d.found ⊆ d'.found

/-- The parameters of an occurrence are filled in by an expansion, if it has a scope: names belong
to the package of the expansion or to packages below it, and a parameter that is written alone is
none for which there is an argument. -/
def Placed (rank : String → Nat) (d : Discovery) (o : Occurrence) : Prop :=
  o.scope = 0 ∨ ∃ e, d.expansion? o.scope = some e ∧ o.written.Names (Layered rank e.owner) ∧
    ∀ b i l, o.written = .param b i l → b.declaration = e.owner → e.args.length ≤ i

/-- The arguments of an expansion occur where they are written. -/
structure Sourced (rank : String → Nat) (d : Discovery) (e : Expansion) : Prop where
  types : e.sources.map d.typeOf = e.args
  placed : ∀ o ∈ e.sources, d.Placed rank o

variable {rank : String → Nat} {d d' : Discovery} {o : Occurrence} {e : Expansion} {t : Ty}
  {ts : List Ty} {n : TypeName} {xs : List Ty} {scope : Nat}

theorem Later.refl (d : Discovery) : d.Later d :=
  ⟨List.prefix_refl _, fun _ h => h, fun _ h => h⟩

theorem Later.trans {d'' : Discovery} (h : d.Later d') (h' : d'.Later d'') : d.Later d'' :=
  ⟨h.expansions.trans h'.expansions, fun _ hm => h'.seen (h.seen hm),
    fun _ ht => h'.found (h.found ht)⟩

theorem Later.getElem?_expansions (h : d.Later d') {i : Nat} (he : d.expansions[i]? = some e) :
    d'.expansions[i]? = some e := by
  obtain ⟨added, hadded⟩ := h.expansions
  rw [← hadded, List.getElem?_append_left (List.getElem?_eq_some_iff.mp he).1]
  exact he

theorem Later.expansion? (h : d.Later d') (he : d.expansion? scope = some e) :
    d'.expansion? scope = some e := by
  rw [Discovery.expansion?] at he ⊢
  split at he
  · cases he
  · next hscope =>
    rw [if_neg hscope]
    exact h.getElem?_expansions he

theorem Later.placed (h : d.Later d') (ho : d.Placed rank o) : d'.Placed rank o := by
  rcases ho with ho | ⟨e, he, ho⟩
  · exact .inl ho
  · exact .inr ⟨e, h.expansion? he, ho⟩

theorem typeOf_of_zero (ho : o.scope = 0) : d.typeOf o = o.written := by
  rw [typeOf, expansion?, if_pos ho]

theorem typeOf_of_expansion (he : d.expansion? o.scope = some e) :
    d.typeOf o = o.written.subst e.owner e.args := by
  rw [typeOf, he]

theorem Later.typeOf_eq (h : d.Later d') (ho : d.Placed rank o) : d'.typeOf o = d.typeOf o := by
  rcases ho with ho | ⟨e, he, -⟩
  · rw [typeOf_of_zero ho, typeOf_of_zero ho]
  · rw [typeOf_of_expansion he, typeOf_of_expansion (h.expansion? he)]

theorem Later.map_typeOf (h : d.Later d') {os : List Occurrence}
    (hos : ∀ o ∈ os, d.Placed rank o) : os.map d'.typeOf = os.map d.typeOf :=
  List.map_congr_left fun o ho => h.typeOf_eq (hos o ho)

theorem Later.sourced (h : d.Later d') (he : d.Sourced rank e) : d'.Sourced rank e :=
  ⟨(h.map_typeOf he.placed).trans he.types, fun o ho => h.placed (he.placed o ho)⟩

/-! ### Inside an occurrence -/

/-- What a type stands for that is written inside an occurrence. -/
def fill (d : Discovery) (o : Occurrence) (t : Ty) : Ty :=
  d.typeOf { o with written := t }

theorem fill_of_zero (ho : o.scope = 0) : d.fill o = id :=
  funext fun _ => typeOf_of_zero ho

theorem fill_of_expansion (he : d.expansion? o.scope = some e) :
    d.fill o = Ty.subst e.owner e.args :=
  funext fun _ => typeOf_of_expansion he

theorem Placed.typeOf_eq_param (ho : d.Placed rank o) {b : Binder} {i : Nat} {l : String}
    (hparam : o.written = .param b i l) : d.typeOf o = .param b i l := by
  rcases ho with hscope | ⟨e, he, -, hout⟩
  · rw [typeOf_of_zero hscope, hparam]
  · rw [typeOf_of_expansion he, hparam, Ty.subst_param]
    split
    · next howner =>
      rw [List.getD_eq_getElem?_getD, List.getElem?_eq_none (hout b i l hparam howner)]
      rfl
    · rfl

theorem Placed.exists_written (ho : d.Placed rank o) (ht : d.typeOf o = .named n xs) :
    ∃ ys, o.written = .named n ys ∧ xs = ys.map (d.fill o) := by
  by_cases hparam : ∃ b i l, o.written = .param b i l
  · obtain ⟨b, i, l, hparam⟩ := hparam
    rw [ho.typeOf_eq_param hparam] at ht
    cases ht
  · push Not at hparam
    rcases ho with hscope | ⟨e, he, -⟩
    · rw [typeOf_of_zero hscope] at ht
      exact ⟨xs, ht, by rw [fill_of_zero hscope, List.map_id]⟩
    · rw [typeOf_of_expansion he] at ht
      rw [fill_of_expansion he]
      exact Ty.exists_of_subst_eq_named hparam ht

theorem Placed.parts_typeOf (ho : d.Placed rank o) :
    (d.typeOf o).parts = o.written.parts.map (d.fill o) := by
  by_cases hparam : ∃ b i l, o.written = .param b i l
  · obtain ⟨b, i, l, hparam⟩ := hparam
    rw [ho.typeOf_eq_param hparam, hparam]
    rfl
  · push Not at hparam
    rcases ho with hscope | ⟨e, he, -⟩
    · rw [typeOf_of_zero hscope, fill_of_zero hscope, List.map_id]
    · rw [typeOf_of_expansion he, fill_of_expansion he, Ty.parts_subst hparam]

/-- A parameter for which there is an argument occurs where the argument is written. -/
theorem source_cases (o : Occurrence) :
    (∃ e b i l, d.expansion? o.scope = some e ∧ o.written = .param b i l ∧
      b.declaration = e.owner ∧ d.source o = e.sources.getD i o) ∨
    d.source o = o ∧ ∀ e b i l, d.expansion? o.scope = some e → o.written = .param b i l →
      b.declaration ≠ e.owner := by
  rw [source]
  split
  · next b i l e hwritten he =>
    split
    · next howner => exact .inl ⟨e, b, i, l, he, hwritten, howner, rfl⟩
    · next howner =>
      refine .inr ⟨rfl, fun e' b' i' l' he' hwritten' => ?_⟩
      rw [he] at he'
      rw [hwritten] at hwritten'
      cases he'
      cases hwritten'
      exact howner
  · next hother =>
    exact .inr ⟨rfl, fun e b i l he hwritten => absurd he (hother b i l e hwritten)⟩

/-- **The source of an occurrence stands for the same type.** -/
theorem typeOf_source (hsourced : ∀ e, d.expansion? o.scope = some e → d.Sourced rank e) :
    d.typeOf (d.source o) = d.typeOf o := by
  rcases d.source_cases o with ⟨e, b, i, l, he, hwritten, howner, hsource⟩ | ⟨hsource, -⟩
  · rw [hsource, List.getD_eq_getElem?_getD]
    cases hi : e.sources[i]? with
    | none => rfl
    | some o' =>
      rw [typeOf_of_expansion he, hwritten, Ty.subst_param, if_pos howner, ← (hsourced e he).types,
        List.getD_eq_getElem?_getD, List.getElem?_map, hi]
      rfl
  · rw [hsource]

theorem placed_source (hsourced : ∀ e, d.expansion? o.scope = some e → d.Sourced rank e)
    (ho : o.scope = 0 ∨
      ∃ e, d.expansion? o.scope = some e ∧ o.written.Names (Layered rank e.owner)) :
    d.Placed rank (d.source o) := by
  rcases d.source_cases o with ⟨e, b, i, l, he, hwritten, -, hsource⟩ | ⟨hsource, hother⟩
  · rw [hsource, List.getD_eq_getElem?_getD]
    cases hi : e.sources[i]? with
    | none =>
      have hlength : e.args.length ≤ i := by
        rw [← (hsourced e he).types, List.length_map]
        exact List.getElem?_eq_none_iff.mp hi
      refine ho.imp id fun ⟨e', he', hnames⟩ => ⟨e', he', hnames, fun b' i' l' hwritten' _ => ?_⟩
      obtain rfl := Option.some.inj (he.symm.trans he')
      cases hwritten.symm.trans hwritten'
      exact hlength
    | some o' => exact (hsourced e he).placed o' (List.mem_of_getElem? hi)
  · rw [hsource]
    exact ho.imp id fun ⟨e, he, hnames⟩ => ⟨e, he, hnames, fun b i l hwritten howner =>
      absurd howner (hother e b i l he hwritten)⟩

variable (hsourced : ∀ e, d.expansion? o.scope = some e → d.Sourced rank e)

include hsourced

theorem typeOf_inside (ts : List Ty) : (d.inside o ts).map d.typeOf = ts.map (d.fill o) := by
  refine List.ext_getElem? fun i => ?_
  rw [inside, List.getElem?_map, List.getElem?_mapIdx, List.getElem?_map, Option.map_map]
  refine congrArg (fun f => Option.map f ts[i]?) (funext fun t => ?_)
  exact typeOf_source hsourced

theorem Placed.inside (ho : d.Placed rank o) (hts : ∀ t ∈ ts, t ∈ o.written.children) :
    ∀ o' ∈ d.inside o ts, d.Placed rank o' := by
  intro o' ho'
  obtain ⟨i, hi, rfl⟩ := List.mem_mapIdx.mp ho'
  exact placed_source hsourced (ho.imp id fun ⟨e, he, hnames, _⟩ =>
    ⟨e, he, hnames.child (hts _ (List.getElem_mem hi))⟩)

end Discovery

end EverEqual
