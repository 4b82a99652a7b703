import EverEqual.Proofs.Types.Twins

/-!
# Checked declarations

A program whose packages load has been checked: every name in a declaration is declared in its own
package or in one below it, an instance has as many arguments as there are parameters, chains of
aliases end, and every declared type has an underlying type. The right side of a declaration is no
parameter by itself, so which names a chain goes through does not depend on the arguments: the
target of an alias and the underlying type are the same for all instances, apart from the arguments.

* `World.Checked`, `World.checks`: what holds of the declarations of a program that has been
  checked, and a test for it;
* `World.unaliasIn_rel`: what is kept from aliases to targets, is kept by what they stand for;
* `World.Checked.unalias_eq`: an alias stands for what its target stands for;
* `World.body`: the underlying type as it is written in a declaration;
* `World.Checked.underlying_named`, `World.Checked.underlying_unalias`: the underlying type of an
  instance and of an alias.
-/

namespace EverEqual

/-- A name belongs to the package of another one, or to a package below that. -/
def Layered (rank : String → Nat) (n m : TypeName) : Prop :=
  m.path = n.path ∨ rank m.path < rank n.path

theorem Layered.trans {rank : String → Nat} {k m n : TypeName} (h : Layered rank n m)
    (h' : Layered rank m k) : Layered rank n k := by
  rcases h with h | h
  · rwa [Layered, ← h]
  · rcases h' with h' | h'
    · exact .inr (h' ▸ h)
    · exact .inr (Nat.lt_trans h' h)

namespace World

/-- What a declaration is made of: names that it may use, with an argument for each parameter, and
its own parameters. -/
def WellWritten (w : World) (rank : String → Nat) (n : TypeName) (count : Nat) : Ty → Prop
  | .named m xs => Layered rank n m ∧ ∀ d, w.declaration? m = some d → xs.length = d.params.length
  | .param b i _ => b.declaration = n ∧ i < count
  | _ => True

/-- The declarations of a program that has been checked; a package has a higher rank than those that
it imports. -/
structure Checked (w : World) (rank : String → Nat) : Prop where
  written {n d} (h : w.declaration? n = some d) :
    d.type.Every (w.WellWritten rank n d.params.length)
  ne_param {n d} (h : w.declaration? n = some d) (b : Binder) (i : Nat) (l : String) :
    d.type ≠ .param b i l
  alias_ends {n d} (h : w.declaration? n = some d) :
    w.aliasTarget? (w.unalias (.named n [])) = none
  defined {n d} (h : w.declaration? n = some d) : (w.site? (.named n [])).isSome

variable {w : World} {rank : String → Nat} {s t u : Ty} {m n : TypeName} {xs ys : List Ty}
  {d : Declaration} {site : Site} {j k : Nat}

/-- The declarations of a world with their names. -/
def entries (w : World) : List (TypeName × Declaration) :=
  (predeclared.map fun d => (⟨"", d.name⟩, d)) ++
    w.packages.flatMap fun p => p.declarations.map fun d => (⟨p.path, d.name⟩, d)

theorem mem_entries (hd : w.declaration? n = some d) : (n, d) ∈ w.entries := by
  rw [declaration?] at hd
  have hname : d.name = n.name := by simpa using List.find?_some hd
  have hmem := List.mem_of_find?_eq_some hd
  split at hmem
  · next hpath =>
    refine List.mem_append_left _ (List.mem_map.mpr ⟨d, hmem, ?_⟩)
    rw [hname, ← hpath]
  · cases hp : w.package? n.path with
    | none =>
      rw [hp] at hmem
      cases hmem
    | some p =>
      rw [hp] at hmem
      rw [package?] at hp
      have hpath : p.path = n.path := by simpa using List.find?_some hp
      refine List.mem_append_right _ (List.mem_flatMap.mpr ⟨p, List.mem_of_find?_eq_some hp, ?_⟩)
      refine List.mem_map.mpr ⟨d, hmem, ?_⟩
      rw [hname, hpath]

instance (rank : String → Nat) (n m : TypeName) : Decidable (Layered rank n m) :=
  inferInstanceAs (Decidable (_ ∨ _))

instance (rank : String → Nat) (n : TypeName) (count : Nat) :
    DecidablePred (w.WellWritten rank n count)
  | .named _ _ | .param _ _ _ => inferInstanceAs (Decidable (_ ∧ _))
  | .basic _ | .pointer _ | .slice _ | .array _ _ | .map _ _ | .chan _ _ | .func _ _ _ | .struct _
  | .tuple _ | .interface _ _ _ | .union _ | .tilde _ => inferInstanceAs (Decidable True)

/-- Whether the declarations of a world pass the check. -/
def checks (w : World) (rank : String → Nat) : Bool :=
  w.entries.all fun (n, d) =>
    d.type.everyIn (fun t => decide (w.WellWritten rank n d.params.length t)) 20 &&
    (match d.type with
      | .param _ _ _ => false
      | _ => true) &&
    (w.aliasTarget? (w.unalias (.named n []))).isNone && (w.site? (.named n [])).isSome

theorem checked_of_checks (h : w.checks rank = true) : w.Checked rank := by
  have hall : ∀ {n d}, w.declaration? n = some d → _ := fun hd =>
    List.all_eq_true.mp h _ (mem_entries hd)
  simp only [Bool.and_eq_true, Option.isNone_iff_eq_none] at hall
  refine ⟨fun hd => ?_, fun hd b i l htype => ?_, fun hd => (hall hd).1.2, fun hd => (hall hd).2⟩
  · exact (Ty.every_of_everyIn (hall hd).1.1.1).imp fun t ht => of_decide_eq_true ht
  · have hparam := (hall hd).1.1.2
    rw [htype] at hparam
    cases hparam

namespace Checked

theorem params (h : w.Checked rank) (hd : w.declaration? n = some d) :
    d.type.Every (Ty.Fillable n d.params.length) :=
  (h.written hd).imp fun s hs => by
    cases s with
    | param b i l => exact hs
    | _ => trivial

theorem names (h : w.Checked rank) (hd : w.declaration? n = some d) :
    d.type.Names (Layered rank n) :=
  (h.written hd).imp fun s hs m xs hm => by
    subst hm
    exact hs.1

theorem saturated (h : w.Checked rank) (hd : w.declaration? n = some d)
    (htype : d.type = .named m ys) {e : Declaration} (he : w.declaration? m = some e) :
    ys.length = e.params.length := by
  have hself := (h.written hd).self
  rw [htype] at hself
  exact hself.2 e he

end Checked

/-! ### Aliases -/

theorem exists_of_aliasTarget? (h : w.aliasTarget? t = some u) :
    ∃ n xs d, t = .named n xs ∧ w.declaration? n = some d ∧ d.isAlias = true ∧
      d.type.subst n xs = u := by
  cases t with
  | named n xs =>
    rw [aliasTarget?] at h
    split at h
    · next d hd =>
      split at h
      · next halias => exact ⟨n, xs, d, rfl, hd, halias, Option.some.inj h⟩
      · cases h
    · cases h
  | _ => cases h

theorem unaliasIn_of_none (h : w.aliasTarget? t = none) : w.unaliasIn k t = t := by
  cases k with
  | zero => rfl
  | succ k => rw [unaliasIn, h]

theorem unaliasIn_of_target (h : w.aliasTarget? t = some u) :
    w.unaliasIn (k + 1) t = w.unaliasIn k u := by
  rw [unaliasIn, h]

theorem unalias_of_none (h : w.aliasTarget? t = none) : w.unalias t = t :=
  unaliasIn_of_none h

theorem aliasTarget?_of_not_named (ht : ∀ n xs, t ≠ .named n xs) : w.aliasTarget? t = none := by
  cases t with
  | named n xs => exact absurd rfl (ht n xs)
  | _ => rfl

theorem unalias_of_not_named (ht : ∀ n xs, t ≠ .named n xs) : w.unalias t = t :=
  unalias_of_none (aliasTarget?_of_not_named ht)

theorem unaliasIn_succ (h : w.aliasTarget? (w.unaliasIn k t) = none) :
    w.unaliasIn (k + 1) t = w.unaliasIn k t := by
  induction k generalizing t with
  | zero => exact unaliasIn_of_none h
  | succ k ih =>
    cases ht : w.aliasTarget? t with
    | none => rw [unaliasIn_of_none ht, unaliasIn_of_none ht]
    | some u =>
      rw [unaliasIn_of_target ht] at h ⊢
      rw [unaliasIn_of_target ht]
      exact ih h

theorem exists_size_eq (w : World) : ∃ k, w.size = k + 1 :=
  ⟨_, rfl⟩

theorem unalias_induction {P : Ty → Prop} (ht : P t)
    (hstep : ∀ t u, w.aliasTarget? t = some u → P t → P u) : P (w.unalias t) := by
  rw [unalias]
  generalize w.size = k
  induction k generalizing t with
  | zero => exact ht
  | succ k ih =>
    cases htarget : w.aliasTarget? t with
    | none => rwa [unaliasIn_of_none htarget]
    | some u =>
      rw [unaliasIn_of_target htarget]
      exact ih (hstep t u htarget ht)

/-- What is kept from aliases to targets, is kept by what they stand for. -/
theorem unaliasIn_rel {r : Ty → Ty → Prop}
    (hr : ∀ {t u}, r t u → Option.Rel r (w.aliasTarget? t) (w.aliasTarget? u)) (htu : r t u) :
    r (w.unaliasIn k t) (w.unaliasIn k u) := by
  induction k generalizing t u with
  | zero => exact htu
  | succ k ih =>
    have htargets := hr htu
    rw [unaliasIn, unaliasIn]
    cases ht : w.aliasTarget? t <;> cases hu : w.aliasTarget? u <;> rw [ht, hu] at htargets
    · exact htu
    · cases htargets
    · cases htargets
    · cases htargets with
      | some h => exact ih h

theorem aliasTarget?_rel {r r' : Ty → Ty → Prop} (htu : t.SameHead r u)
    (hr : ∀ {n d xs ys}, w.declaration? n = some d → List.Forall₂ r xs ys →
      r' (d.type.subst n xs) (d.type.subst n ys)) :
    Option.Rel r' (w.aliasTarget? t) (w.aliasTarget? u) := by
  cases htu with
  | @named n xs ys hargs =>
    rw [aliasTarget?, aliasTarget?]
    cases hd : w.declaration? n with
    | none => exact .none
    | some d =>
      cases halias : d.isAlias with
      | true => simpa [halias] using Option.Rel.some (hr hd hargs)
      | false => simp [halias]
  | other ht hu _ =>
    rw [aliasTarget?_of_not_named ht, aliasTarget?_of_not_named hu]
    exact .none

theorem aliasTarget?_of_sameHead {r : Ty → Ty → Prop} (htu : t.SameHead r u)
    (ht : w.aliasTarget? t = none) : w.aliasTarget? u = none := by
  have htargets : Option.Rel (fun _ _ => True) (w.aliasTarget? t) (w.aliasTarget? u) :=
    aliasTarget?_rel htu fun _ _ => trivial
  rw [ht] at htargets
  cases hu : w.aliasTarget? u with
  | none => rfl
  | some v =>
    rw [hu] at htargets
    cases htargets

namespace Checked

/-- Which names a chain of aliases goes through does not depend on the arguments. -/
theorem sameHead_unaliasIn (h : w.Checked rank) (hd : w.declaration? n = some d) (xs ys : List Ty) :
    (w.unaliasIn k (d.type.subst n xs)).SameHead (fun _ _ => True)
      (w.unaliasIn k (d.type.subst n ys)) := by
  have hfilled : ∀ {n d} (xs ys : List Ty), w.declaration? n = some d →
      (d.type.subst n xs).SameHead (fun _ _ => True) (d.type.subst n ys) := fun _ _ hd =>
    .subst (fun _ => trivial) (h.ne_param hd)
  exact unaliasIn_rel (fun htu => aliasTarget?_rel htu fun hd _ => hfilled _ _ hd)
    (hfilled xs ys hd)

theorem unalias_ended (h : w.Checked rank) (t : Ty) : w.aliasTarget? (w.unalias t) = none := by
  cases ht : w.aliasTarget? t with
  | none => rwa [unalias_of_none ht]
  | some u =>
    obtain ⟨n, xs, d, rfl, hd, halias, rfl⟩ := exists_of_aliasTarget? ht
    have hbare : w.aliasTarget? (.named n []) = some (d.type.subst n []) := by
      rw [aliasTarget?, hd]
      exact if_pos halias
    have hends := h.alias_ends hd
    obtain ⟨k, hk⟩ := w.exists_size_eq
    rw [unalias, hk, unaliasIn_of_target hbare] at hends
    rw [unalias, hk, unaliasIn_of_target ht]
    exact aliasTarget?_of_sameHead (h.sameHead_unaliasIn hd [] xs) hends

theorem unalias_eq (h : w.Checked rank) (ht : w.aliasTarget? t = some u) :
    w.unalias t = w.unalias u := by
  have hends := h.unalias_ended t
  obtain ⟨k, hk⟩ := w.exists_size_eq
  rw [unalias, hk, unaliasIn_of_target ht] at hends
  rw [unalias, unalias, hk, unaliasIn_of_target ht, unaliasIn_succ hends]

end Checked

/-! ### Where underlying types are written -/

theorem siteIn_succ (hd : w.declaration? n = some d) :
    w.siteIn (k + 1) (.named n xs) =
      match d.type.subst n xs with
      | .named m ys => w.siteIn k (.named m ys)
      | _ => some ⟨n, xs, d.type⟩ := by
  rw [siteIn, hd]
  rfl

theorem siteIn_cases (h : w.siteIn k t = some site) :
    ∃ n xs d j, t = .named n xs ∧ w.declaration? n = some d ∧ k = j + 1 ∧
      ((∃ m ys, d.type.subst n xs = .named m ys ∧ w.siteIn j (.named m ys) = some site) ∨
        (∀ m ys, d.type.subst n xs ≠ .named m ys) ∧ site = ⟨n, xs, d.type⟩) := by
  cases k with
  | zero => cases h
  | succ j =>
    cases t with
    | named n xs =>
      cases hd : w.declaration? n with
      | none => rw [siteIn, hd] at h; cases h
      | some d =>
        refine ⟨n, xs, d, j, rfl, hd, rfl, ?_⟩
        rw [siteIn_succ hd] at h
        split at h
        · next m ys htype => exact .inl ⟨m, ys, htype, h⟩
        · next hname => exact .inr ⟨hname, (Option.some.inj h).symm⟩
    | _ => cases h

theorem siteIn_mono (h : w.siteIn k t = some site) (hk : k ≤ j) : w.siteIn j t = some site := by
  induction k generalizing t j with
  | zero => cases h
  | succ k ih =>
    obtain ⟨n, xs, d, k', rfl, hd, hk', hcases⟩ := siteIn_cases h
    obtain rfl := Nat.succ.inj hk'
    obtain ⟨j, rfl⟩ := Nat.exists_eq_add_of_le' (Nat.le_trans (Nat.succ_pos k) hk)
    rw [siteIn_succ hd]
    rcases hcases with ⟨m, ys, htype, hsite⟩ | ⟨hname, rfl⟩
    · rw [htype]
      exact ih hsite (Nat.le_of_succ_le_succ hk)
    · split
      · next m ys htype => exact absurd htype (hname m ys)
      · rfl

/-- A site is the right side of a declaration, and the type there is no name. -/
theorem exists_of_siteIn (h : w.siteIn k t = some site) :
    (∃ d, w.declaration? site.owner = some d ∧ site.written = d.type) ∧
      ∀ n xs, site.type ≠ .named n xs := by
  induction k generalizing t with
  | zero => cases h
  | succ k ih =>
    obtain ⟨n, xs, d, k', rfl, hd, hk', hcases⟩ := siteIn_cases h
    obtain rfl := Nat.succ.inj hk'
    rcases hcases with ⟨m, ys, -, hsite⟩ | ⟨hname, rfl⟩
    · exact ih hsite
    · exact ⟨⟨d, hd, rfl⟩, hname⟩

theorem definition_of_siteIn (h : w.siteIn k (.named n xs) = some site) (hk : k ≤ w.size + 1) :
    w.definition (.named n xs) = site.type := by
  rw [definition, site?, siteIn_mono h hk]
  rfl

theorem underlying_of_undeclared (hn : w.declaration? n = none) :
    w.underlying (.named n xs) = .invalid := by
  change w.definition (.named n xs) = .invalid
  rw [definition, site?, siteIn, hn]
  rfl

theorem definition_of_not_named (ht : ∀ n xs, t ≠ .named n xs) : w.definition t = t := by
  cases t with
  | named n xs => exact absurd rfl (ht n xs)
  | _ => rfl

/-- Where a name leads, what it stands for leads too, unless it is the type there. -/
theorem siteIn_unalias (hsite : w.siteIn k t = some site) :
    w.siteIn k (w.unalias t) = some site ∨ w.unalias t = site.type := by
  refine unalias_induction (P := fun u => w.siteIn k u = some site ∨ u = site.type) (.inl hsite)
    fun t u htarget ht => ?_
  obtain ⟨n, xs, d, rfl, hd, halias, rfl⟩ := exists_of_aliasTarget? htarget
  rcases ht with ht | ht
  · obtain ⟨n', xs', d', j, ht', hd', rfl, hcases⟩ := siteIn_cases ht
    cases ht'
    obtain rfl := Option.some.inj (hd.symm.trans hd')
    rcases hcases with ⟨m, ys, htype, hsite⟩ | ⟨-, rfl⟩
    · exact .inl (htype ▸ siteIn_mono hsite (Nat.le_succ j))
    · exact .inr rfl
  · exact absurd ht.symm ((exists_of_siteIn hsite).2 n xs)

theorem definition_unalias (hsite : w.siteIn k t = some site) (hk : k ≤ w.size + 1) :
    w.definition (w.unalias t) = site.type := by
  rcases siteIn_unalias hsite with hleads | hleads
  · obtain ⟨n, xs, d, j, hname, -⟩ := siteIn_cases hleads
    rw [hname] at hleads ⊢
    exact definition_of_siteIn hleads hk
  · rw [hleads]
    exact definition_of_not_named (exists_of_siteIn hsite).2

namespace Checked

theorem siteIn_subst (h : w.Checked rank) (hsite : w.siteIn k (.named m ys) = some site)
    (hfull : ∀ e, w.declaration? m = some e → ys.length = e.params.length) :
    ∃ site', w.siteIn k (.named m (ys.map (Ty.subst n xs))) = some site' ∧
      site'.type = site.type.subst n xs := by
  induction k generalizing m ys with
  | zero => cases hsite
  | succ k ih =>
    obtain ⟨m', ys', d, k', ht, hd, hk', hcases⟩ := siteIn_cases hsite
    cases ht
    cases hk'
    have hsubst : (d.type.subst m ys).subst n xs = d.type.subst m (ys.map (Ty.subst n xs)) :=
      Ty.subst_subst (hfull d hd ▸ h.params hd)
    rw [siteIn_succ hd, ← hsubst]
    rcases hcases with ⟨p, qs, htype, hsite⟩ | ⟨hname, rfl⟩
    · obtain ⟨zs, hzs, rfl⟩ := Ty.exists_of_subst_eq_named (h.ne_param hd) htype
      rw [htype, Ty.subst_named]
      refine ih hsite fun e he => ?_
      rw [List.length_map]
      exact h.saturated hd hzs he
    · have hname' : ∀ p qs, (d.type.subst m ys).subst n xs ≠ .named p qs :=
        Ty.subst_ne_named (Ty.subst_ne_param (h.ne_param hd)) hname
      split
      · next p qs hp => exact absurd hp (hname' p qs)
      · exact ⟨_, rfl, hsubst.symm⟩

end Checked

/-- The underlying type of a declaration, as it is written there. -/
def body (w : World) (d : Declaration) : Ty :=
  w.definition (w.unalias d.type)

namespace Checked

/-- A declaration has its own type for underlying type, or leads to that of a name. -/
theorem body_cases (h : w.Checked rank) (hd : w.declaration? n = some d) :
    (∃ m ys site, d.type = .named m ys ∧ w.siteIn w.size (.named m ys) = some site ∧
      w.body d = site.type) ∨
    (∀ m ys, d.type ≠ .named m ys) ∧ w.body d = d.type := by
  obtain ⟨site, hsite⟩ := Option.isSome_iff_exists.mp (h.defined hd)
  obtain ⟨n', xs', d', j, ht, hd', hj, hcases⟩ := siteIn_cases hsite
  cases ht
  cases hj
  obtain rfl := Option.some.inj (hd.symm.trans hd')
  rw [Ty.subst_nil] at hcases
  rcases hcases with ⟨m, ys, htype, hsite⟩ | ⟨hname, rfl⟩
  · exact .inl ⟨m, ys, site, htype, hsite,
      definition_unalias (htype ▸ hsite) (Nat.le_succ _)⟩
  · refine .inr ⟨hname, ?_⟩
    rw [body, unalias_of_not_named hname, definition_of_not_named hname]

theorem exists_site (h : w.Checked rank) (hd : w.declaration? n = some d) (xs : List Ty) :
    ∃ site, w.site? (.named n xs) = some site ∧ site.type = (w.body d).subst n xs := by
  rw [site?, siteIn_succ hd]
  rcases h.body_cases hd with ⟨m, ys, site, htype, hsite, hbody⟩ | ⟨hname, hbody⟩
  · rw [hbody, htype, Ty.subst_named]
    exact h.siteIn_subst hsite fun e he => h.saturated hd htype he
  · rw [hbody]
    have hname' : ∀ m ys, d.type.subst n xs ≠ .named m ys :=
      Ty.subst_ne_named (h.ne_param hd) hname
    split
    · next m ys hm => exact absurd hm (hname' m ys)
    · exact ⟨_, rfl, rfl⟩

/-- **The underlying type of an instance** is that of its declaration, with the arguments in
place. -/
theorem underlying_named (h : w.Checked rank) (hd : w.declaration? n = some d) :
    w.underlying (.named n xs) = (w.body d).subst n xs := by
  obtain ⟨site, hsite, htype⟩ := h.exists_site hd xs
  exact (definition_of_siteIn hsite (Nat.le_refl _)).trans htype

theorem body_ne_param (h : w.Checked rank) (hd : w.declaration? n = some d) (b : Binder) (i : Nat)
    (l : String) : w.body d ≠ .param b i l := by
  rcases h.body_cases hd with ⟨_, _, site, -, hsite, hbody⟩ | ⟨-, hbody⟩
  · obtain ⟨⟨e, he, hwritten⟩, -⟩ := exists_of_siteIn hsite
    rw [hbody, Site.type, hwritten]
    exact Ty.subst_ne_param (h.ne_param he) b i l
  · exact hbody ▸ h.ne_param hd b i l

/-- **An alias has the underlying type of what it stands for.** -/
theorem underlying_unalias (h : w.Checked rank) (t : Ty) :
    w.underlying (w.unalias t) = w.underlying t := by
  by_cases hname : ∃ n xs d, t = .named n xs ∧ w.declaration? n = some d
  · obtain ⟨n, xs, d, rfl, hd⟩ := hname
    obtain ⟨site, hsite, htype⟩ := h.exists_site hd xs
    have hparam : ∀ b i l, w.unalias (.named n xs) ≠ .param b i l := by
      intro b i l hparam
      rcases siteIn_unalias hsite with hleads | hleads
      · rw [hparam] at hleads
        cases hleads
      · exact Ty.subst_ne_param (h.body_ne_param hd) b i l
          (htype.symm.trans (hleads.symm.trans hparam))
    have hdefined := definition_unalias hsite (Nat.le_refl _)
    rw [h.underlying_named hd, ← htype, ← hdefined]
    generalize w.unalias (.named n xs) = u at hparam
    cases u with
    | param b i l => exact absurd rfl (hparam b i l)
    | _ => rfl
  · have htarget : w.aliasTarget? t = none := by
      cases htarget : w.aliasTarget? t with
      | none => rfl
      | some u =>
        obtain ⟨n, xs, d, rfl, hd, -⟩ := exists_of_aliasTarget? htarget
        exact absurd ⟨n, xs, d, rfl, hd⟩ hname
    rw [unalias_of_none htarget]

/-! ### The packages of names -/

theorem names_siteIn (h : w.Checked rank) (hsite : w.siteIn k t = some site)
    (ht : t.Names (Layered rank n)) : site.type.Names (Layered rank n) := by
  induction k generalizing t with
  | zero => cases hsite
  | succ k ih =>
    obtain ⟨m, xs, d, k', rfl, hd, hk, hcases⟩ := siteIn_cases hsite
    cases hk
    have htype : (d.type.subst m xs).Names (Layered rank n) :=
      ((h.names hd).imp fun _ => ht.head.trans).subst fun x hx => ht.child hx
    rcases hcases with ⟨_, _, hname, hsite⟩ | ⟨-, rfl⟩
    · exact ih hsite (hname ▸ htype)
    · exact htype

theorem names_body (h : w.Checked rank) (hd : w.declaration? n = some d) :
    (w.body d).Names (Layered rank n) := by
  rcases h.body_cases hd with ⟨_, _, site, htype, hsite, hbody⟩ | ⟨-, hbody⟩
  · exact hbody ▸ h.names_siteIn hsite (htype ▸ h.names hd)
  · exact hbody ▸ h.names hd

end Checked

end World

end EverEqual
