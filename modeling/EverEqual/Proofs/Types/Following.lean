import EverEqual.Proofs.Types.Expansions

/-!
# The next occurrences

What is visited after a type stands for what the type refers to, or for twins of that.

* `World.Territory.underlyingIn`: the occurrence of an underlying type;
* `World.Territory.following_named`: the occurrences that are visited after a name;
* `World.Regular.following_parts`: those that are visited after another type.
-/

namespace EverEqual

namespace World

open Discovery

variable {w : World} {rank : String → Nat} {F G : Set Ty} {d d' : Discovery} {o : Occurrence}
  {n : TypeName} {args : List Ty} {decl : Declaration} {t : Ty} {k : Nat}

/-- An occurrence of a type, or of a twin of it. -/
structure Occurs (w : World) (rank : String → Nat) (F : Set Ty) (d : Discovery) (t : Ty)
    (o : Occurrence) : Prop where
  placed : d.Placed rank o
  mem : d.typeOf o ∈ F
  twin : w.Twin t (d.typeOf o)

theorem Occurs.later (ho : w.Occurs rank F d t o) (h : d.Later d') : w.Occurs rank F d' t o := by
  have htype := h.typeOf_eq ho.placed
  exact ⟨h.placed ho.placed, htype ▸ ho.mem, htype ▸ ho.twin⟩

/-- The underlying type of an instance, as it is written in the declaration, occurs in the expansion
of the instance. -/
theorem Territory.occurs_body (h : w.Territory rank F G) (hd : w.Regular rank F G d)
    (hdecl : w.declaration? n = some decl) {scope : Nat} {e : Expansion}
    (he : d.expansion? scope = some e) (howner : e.owner = n)
    (hargs : List.Forall₂ w.Twin args e.args) (home : Option TypeName) :
    w.Occurs rank F d (w.underlying (.named n args)) { written := w.body decl, home, scope } := by
  subst howner
  obtain ⟨i, hi⟩ := hd.of_expansion? he
  have htype : d.typeOf { written := w.body decl, home, scope } =
      w.underlying (.named e.owner e.args) :=
    (typeOf_of_expansion he).trans (h.checked.underlying_named hdecl).symm
  refine ⟨.inr ⟨e, he, h.checked.names_body hdecl, fun b i l hparam => ?_⟩, ?_, ?_⟩
  · exact absurd hparam (h.checked.body_ne_param hdecl b i l)
  · exact htype ▸ hi.underlying_mem
  · exact htype ▸ h.checked.underlying_twin hargs

theorem Checked.underlying_nil (h : w.Checked rank) (hdecl : w.declaration? n = some decl) :
    w.underlying (.named n []) = w.body decl := by
  rw [h.underlying_named hdecl, Ty.subst_nil]

theorem siteIn_rightSide (hdecl : w.declaration? n = some decl)
    (hsite : (w.siteIn (k + 1) (.named n [])).isSome) {m : TypeName} {xs : List Ty}
    (htarget : w.unalias decl.type = .named m xs) : (w.siteIn k (.named m xs)).isSome := by
  obtain ⟨site, hsite⟩ := Option.isSome_iff_exists.mp hsite
  obtain ⟨n', args', decl', j, hname, hdecl', hj, hcases⟩ := siteIn_cases hsite
  cases hname
  cases hj
  obtain rfl := Option.some.inj (hdecl.symm.trans hdecl')
  rw [Ty.subst_nil] at hcases
  rcases hcases with ⟨m', ys, htype, hsite⟩ | ⟨hname, -⟩
  · rcases siteIn_unalias (htype ▸ hsite) with hleads | hleads
    · rw [← htarget, hleads]
      rfl
    · exact absurd (hleads.symm.trans htarget) ((exists_of_siteIn hsite).2 m xs)
  · rw [unalias_of_not_named hname] at htarget
    exact absurd htarget (hname m xs)

/-- **The occurrence of the underlying type of a declared type.** -/
theorem Territory.underlyingIn (h : w.Territory rank F G) (hd : w.Regular rank F G d)
    (ho : d.Placed rank o) (ht : d.typeOf o = .named n args) (hmem : .named n args ∈ G)
    (hunder : w.underlying (.named n args) ∈ F) (hdecl : w.declaration? n = some decl)
    (hsite : (w.siteIn k (.named n args)).isSome) :
    ∃ d' o', w.underlyingIn k d o = (d', some o') ∧ w.Expanded rank F G d d' ∧
      w.Occurs rank F d' (w.underlying (.named n args)) o' := by
  induction k generalizing o n args decl with
  | zero => cases hsite
  | succ k ih =>
    have hexpand := h.expand hd ho ht hmem hunder (Option.isSome_of_eq_some hdecl)
    rw [World.underlyingIn, ht]
    simp only [hdecl]
    split
    · next m xs htarget =>
      have hsame : w.underlying (.named n []) = w.underlying (.named m xs) := by
        rw [h.checked.underlying_nil hdecl, body, htarget]
        rfl
      have hsite' := siteIn_rightSide hdecl hsite htarget
      obtain ⟨site, hm⟩ := Option.isSome_iff_exists.mp hsite'
      obtain ⟨m', xs', decl', j, hname, hdecl', -⟩ := siteIn_cases hm
      cases hname
      rw [hsame] at hunder ⊢
      exact ih (.inl rfl) rfl (htarget ▸ h.type_mem hdecl) hunder hdecl' hsite'
    · next m xs x xs' htarget =>
      obtain ⟨d', scope, e, heq, hd', -, he, howner, hall⟩ := hexpand
      rw [heq]
      refine ⟨d', _, rfl, hd', ?_⟩
      have hbody : w.definition (.named m xs) = w.body decl := by rw [body, htarget]
      exact hbody ▸ h.occurs_body hd'.regular hdecl he howner hall (some n)
    · next hname =>
      have hbody : w.unalias decl.type = w.body decl :=
        (definition_of_not_named fun m xs hm => hname m xs hm).symm
      rw [h.checked.underlying_nil hdecl] at hunder ⊢
      exact ⟨d, _, rfl, hd.expanded, .inl rfl, hbody ▸ hunder, hbody ▸ .refl w _⟩
    · next x xs' hname =>
      obtain ⟨d', scope, e, heq, hd', -, he, howner, hall⟩ := hexpand
      rw [heq]
      refine ⟨d', _, rfl, hd', ?_⟩
      have hbody : w.unalias decl.type = w.body decl :=
        (definition_of_not_named fun m xs hm => hname m xs hm).symm
      exact hbody ▸ h.occurs_body hd'.regular hdecl he howner hall (some n)

/-! ### What is visited next -/

/-- The occurrence of what the type of an occurrence stands for. -/
def resolvedAt (w : World) (d : Discovery) (o : Occurrence) : Occurrence :=
  if d.typeOf o = w.unalias (d.typeOf o) then o
  else
    { written := w.unalias (d.typeOf o)
      home := match d.typeOf o with
        | .named n _ => some n
        | _ => none }

theorem typeOf_resolvedAt : d.typeOf (w.resolvedAt d o) = w.unalias (d.typeOf o) := by
  rw [resolvedAt]
  split
  · next hsame => exact hsame
  · exact typeOf_of_zero rfl

theorem placed_resolvedAt (ho : d.Placed rank o) : d.Placed rank (w.resolvedAt d o) := by
  rw [resolvedAt]
  split
  · exact ho
  · exact .inl rfl

theorem following_eq : w.following d o =
    match w.unalias (d.typeOf o) with
    | .named _ _ =>
      ((w.underlyingIn (w.size + 1) d (w.resolvedAt d o)).1,
        (match (w.resolvedAt d o).written with
          | .named _ ys => d.inside (w.resolvedAt d o) ys
          | _ => []) ++ (w.underlyingIn (w.size + 1) d (w.resolvedAt d o)).2.toList)
    | _ => (d, d.inside (w.resolvedAt d o) (w.resolvedAt d o).written.parts) :=
  rfl

theorem Territory.unalias_mem (h : w.Territory rank F G) (ht : t ∈ F) : w.unalias t ∈ F :=
  unalias_induction (P := (· ∈ F)) ht fun _ _ htarget ht => h.closed ht (.target htarget)

theorem Regular.following_parts (hd : w.Regular rank F G d) (ho : d.Placed rank o)
    (ht : ∀ n xs, w.unalias (d.typeOf o) ≠ .named n xs) :
    ∃ next, w.following d o = (d, next) ∧
      (∀ o' ∈ next, d.Placed rank o') ∧ next.map d.typeOf = (w.unalias (d.typeOf o)).parts := by
  have ho' := placed_resolvedAt (w := w) ho
  refine ⟨_, ?_, ho'.inside hd.sourced fun t ht => Ty.mem_children_of_mem_parts ht, ?_⟩
  · rw [following_eq]
    split
    · next n xs hname => exact absurd hname (ht n xs)
    · rfl
  · rw [typeOf_inside hd.sourced, ← ho'.parts_typeOf, typeOf_resolvedAt]

theorem Regular.occurs_args (hd : w.Regular rank F G d) (ho : d.Placed rank o) {ys : List Ty}
    (hwritten : o.written = .named n ys) (hmem : ∀ t ∈ ys.map (d.fill o), t ∈ F) :
    List.Forall₂ (w.Occurs rank F d) (ys.map (d.fill o)) (d.inside o ys) := by
  rw [← typeOf_inside hd.sourced] at hmem ⊢
  refine List.forall₂_map_left_iff.mpr (List.forall₂_same.mpr fun o' ho' => ?_)
  exact ⟨ho.inside hd.sourced (fun t ht => hwritten ▸ ht) o' ho', hmem _ (List.mem_map_of_mem ho'),
    .refl w _⟩

theorem Territory.occurs_underlying (h : w.Territory rank F G) (hd : w.Regular rank F G d)
    (ho : d.Placed rank o) (ht : d.typeOf o = .named n args) (hself : .named n args ∈ F)
    (hunder : (w.declaration? n).isSome → w.underlying (.named n args) ∈ F) :
    ∃ d' under, w.underlyingIn (w.size + 1) d o = (d', under) ∧ w.Expanded rank F G d d' ∧
      List.Forall₂ (w.Occurs rank F d')
        (if (w.declaration? n).isSome then [w.underlying (.named n args)] else []) under.toList := by
  cases hdecl : w.declaration? n with
  | none =>
    refine ⟨d, none, ?_, hd.expanded, .nil⟩
    rw [World.underlyingIn, ht]
    simp only [hdecl]
  | some decl =>
    obtain ⟨site, hsite, -⟩ := h.checked.exists_site hdecl args
    obtain ⟨d', o', heq, hd', hoccurs⟩ := h.underlyingIn hd ho ht (h.subset hself)
      (hunder (Option.isSome_of_eq_some hdecl)) hdecl (Option.isSome_of_eq_some hsite)
    exact ⟨d', some o', heq, hd', .cons hoccurs .nil⟩

/-- **The arguments of a name are visited next, and its underlying type.** -/
theorem Territory.following_named (h : w.Territory rank F G) (hd : w.Regular rank F G d)
    (ho : d.Placed rank o) (hmem : d.typeOf o ∈ F)
    (ht : w.unalias (d.typeOf o) = .named n args)
    (hconcrete : w.isInterface (.named n args) = false) :
    ∃ d' next, w.following d o = (d', next) ∧ w.Expanded rank F G d d' ∧
      List.Forall₂ (w.Occurs rank F d') (w.followers (.named n args)) next := by
  have ho' := placed_resolvedAt (w := w) ho
  have htype : d.typeOf (w.resolvedAt d o) = .named n args := typeOf_resolvedAt.trans ht
  have hself : .named n args ∈ F := ht ▸ h.unalias_mem hmem
  have hends : w.aliasTarget? (.named n args) = none := ht ▸ h.checked.unalias_ended _
  obtain ⟨ys, hwritten, rfl⟩ := ho'.exists_written htype
  have hargs := hd.occurs_args ho' hwritten fun t ht =>
    h.closed hself (.argument hends hconcrete ht)
  obtain ⟨d', under, heq, hd', hunder⟩ := h.occurs_underlying hd ho' htype hself fun hdeclared =>
    h.closed hself (.underlying hends hconcrete hdeclared)
  refine ⟨d', d.inside (w.resolvedAt d o) ys ++ under.toList, ?_, hd', ?_⟩
  · rw [following_eq, ht]
    simp only [hwritten, heq]
  · rw [followers_of_concrete hconcrete]
    exact List.rel_append (hargs.imp fun _ _ hoccurs => hoccurs.later hd'.later) hunder

end World

end EverEqual
