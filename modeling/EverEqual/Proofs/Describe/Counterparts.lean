import EverEqual.Proofs.Describe.Layers
import EverEqual.Proofs.Types.Listed
import EverEqual.Proofs.Types.Mentions

/-!
# What identical types are made of

Types that are one type have one shape behind aliases and names too: instances of a declaration have
its underlying type, with arguments that are one type filled in. So both point to something, yield
something or hold something under keys, or neither does, and what they point to, yield and hold is
one type again.

An instance may have a method that exposes elements. Methods are looked up in a type and in what is
embedded there; the search compares the types that it comes across down to the depth that the world
is followed to. That it finds the same in identical types is asked of the world. It does unless
instances have the method from what they embed.

* `World.Checked.built_core`: the shape behind aliases and names;
* `World.Checked.pointee_of_oneType`, `World.Checked.behind_of_oneType`: what identical types point
  to, and how far;
* `World.Held`, `World.Checked.held_of_oneType`: what their values hold;
* `World.Uniform`, `World.Checked.exposed_of_oneType`: what their methods expose;
* `World.Checked.uniform_of_firsthand`: where these methods are identical.
-/

namespace EverEqual

namespace World

variable {w : World} {rank : String → Nat} {interfaces : List Ty} {roots : Set Ty} {n : TypeName}
  {xs ys : List Ty} {t u a b c k : Ty} {r : RangeElements} {j : Nat} {kind : Kind}

/-! ### Yielding functions -/

/-- What a function takes that is called with every element. -/
def handed? : List Ty → Option RangeElements
  | [e] => some ⟨none, e⟩
  | [k, e] => some ⟨some k, e⟩
  | _ => none

theorem rangeElements_eq_some : w.rangeElements t = some r ↔
    ∃ yield v ps b v', t = .func [yield] [] v ∧ w.underlying yield.type = .func ps [b] v' ∧
      w.isBoolean b.type = true ∧ handed? (ps.map (·.type)) = some r := by
  constructor
  · intro h
    unfold rangeElements at h
    split at h
    · next yield v =>
      split at h
      · next e b v' hyield =>
        split at h
        · next hb => exact ⟨yield, v, [e], b, v', rfl, hyield, hb, h⟩
        · cases h
      · next k e b v' hyield =>
        split at h
        · next hb => exact ⟨yield, v, [k, e], b, v', rfl, hyield, hb, h⟩
        · cases h
      · cases h
    · cases h
  · rintro ⟨yield, v, ps, b, v', rfl, hyield, hb, hr⟩
    unfold handed? at hr
    split at hr
    · next e hparams =>
      obtain ⟨p, rfl, rfl⟩ := List.map_eq_singleton_iff.mp hparams
      simpa [rangeElements, hyield, hb] using hr
    · next k e hparams =>
      obtain ⟨p, ps, rfl, rfl, hrest⟩ := List.map_eq_cons_iff.mp hparams
      obtain ⟨q, rfl, rfl⟩ := List.map_eq_singleton_iff.mp hrest
      simpa [rangeElements, hyield, hb] using hr
    · cases hr

theorem handed_of_forall₂ {as bs : List Ty} (h : List.Forall₂ w.OneType as bs)
    (hr : handed? as = some r) :
    ∃ s, handed? bs = some s ∧ w.OneType r.element s.element ∧
      Option.Rel w.OneType r.key s.key := by
  match as, hr, h with
  | [e], rfl, .cons he .nil => exact ⟨_, rfl, he, .none⟩
  | [k, e], rfl, .cons hk (.cons he .nil) => exact ⟨_, rfl, he, .some hk⟩

theorem exposedElement_eq_some : w.exposedElement? t = some a ↔
    ∃ b v r, t = .func [] [b] v ∧ w.rangeElements (w.underlying b.type) = some r ∧
      r.element = a := by
  constructor
  · intro h
    unfold exposedElement? at h
    split at h
    · next b v =>
      obtain ⟨r, hr, ha⟩ := Option.map_eq_some_iff.mp h
      exact ⟨b, v, r, rfl, hr, ha⟩
    · cases h
  · rintro ⟨b, v, r, rfl, hr, rfl⟩
    simp [exposedElement?, hr]

/-! ### Shapes behind names -/

theorem underlying_of_item (h : t.item? = some a) : w.underlying t = t := by
  cases t with
  | slice | array | chan => rfl
  | _ => cases h

theorem underlying_of_components {as : List Ty} (h : t.components? = some as) :
    w.underlying t = t := by
  cases t with
  | struct | tuple => rfl
  | _ => cases h

namespace Checked

variable (hw : w.Checked rank)

include hw

theorem core_eq (t : Ty) : w.core t = w.underlying t :=
  hw.underlying_unalias t

theorem built_underlying (h : w.Built t u) : w.Built (w.underlying t) (w.underlying u) := by
  cases h with
  | same t => exact .same _
  | @named n xs ys hargs =>
    cases hd : w.declaration? n with
    | none =>
      rw [underlying_of_undeclared hd, underlying_of_undeclared hd]
      exact .same _
    | some d =>
      rw [hw.underlying_named hd, hw.underlying_named hd]
      exact built_filled hargs (hw.body_ne_param hd)
  | item ht hu h =>
    rw [underlying_of_item ht, underlying_of_item hu]
    exact .item ht hu h
  | components ht hu h =>
    rw [underlying_of_components ht, underlying_of_components hu]
    exact .components ht hu h
  | param p i l l' => exact .same (w.underlying (.param p i l))
  | basic h => exact .basic h
  | pointer h => exact .pointer h
  | map hk h => exact .map hk h
  | func hparams hresults => exact .func hparams hresults
  | interface => exact .interface _ _ _ _ _ _
  | union => exact .union _ _
  | tilde => exact .tilde _ _

/-- **Types that are one type have one shape**, behind aliases and names. -/
theorem built_core (h : w.OneType t u) : w.Built (w.core t) (w.core u) :=
  hw.built_underlying (hw.built_of_oneType h)

theorem pointee_of_oneType (h : w.OneType t u) (ht : w.pointee? t = some a) :
    ∃ b, w.pointee? u = some b ∧ w.OneType a b := by
  have hbuilt := hw.built_core h
  rw [pointee_eq_some.mp ht] at hbuilt
  obtain ⟨b, hu, hab⟩ := hbuilt.exists_pointer
  exact ⟨b, pointee_eq_some.mpr hu, hab⟩

theorem behind_of_oneType (h : w.OneType t u) (hbehind : w.Behind j t c) :
    ∃ c', w.Behind j u c' := by
  induction hbehind generalizing u with
  | @bare t ht =>
    refine ⟨u, .bare ?_⟩
    cases hu : w.pointee? u with
    | none => rfl
    | some b =>
      obtain ⟨a, ha, -⟩ := hw.pointee_of_oneType h.symm hu
      cases ht.symm.trans ha
  | pointer ht _ ih =>
    obtain ⟨b, hb, hone⟩ := hw.pointee_of_oneType h ht
    obtain ⟨c', hc'⟩ := ih hone
    exact ⟨c', .pointer hb hc'⟩

theorem isBoolean_of_oneType (h : w.OneType t u) (ht : w.isBoolean t = true) :
    w.isBoolean u = true := by
  have hbuilt := hw.built_core h
  rw [hw.core_eq, hw.core_eq] at hbuilt
  unfold isBoolean at ht ⊢
  generalize w.underlying t = T at ht hbuilt
  generalize w.underlying u = U at hbuilt
  cases hbuilt with
  | same => exact ht
  | @basic x y hxy =>
    have hcanonical : ∀ z : Basic, z.canonical.isBoolean = z.isBoolean := by
      intro z
      cases z <;> rfl
    change y.isBoolean = true
    rwa [← hcanonical y, ← hxy, hcanonical x]
  | item hitem => cases T <;> first | cases ht | cases hitem
  | components hparts => cases T <;> first | cases ht | cases hparts
  | _ => cases ht

theorem rangeElements_of_built (h : w.Built t u) (hr : w.rangeElements t = some r) :
    ∃ s, w.rangeElements u = some s ∧ w.OneType r.element s.element ∧
      Option.Rel w.OneType r.key s.key := by
  obtain ⟨yield, v, ps, b, v', rfl, hyield, hb, hhanded⟩ := rangeElements_eq_some.mp hr
  obtain ⟨qs, ss, v₂, rfl, hparams, hresults⟩ := h.exists_func
  match qs, ss, hparams, hresults with
  | [yield₂], [], .cons hone .nil, .nil =>
    have hcalled := hw.built_core hone
    rw [hw.core_eq, hyield, hw.core_eq] at hcalled
    obtain ⟨ps₂, bs, v₃, hyield₂, htaken, hgiven⟩ := hcalled.exists_func
    match bs, hgiven with
    | [b₂], .cons hb₂ .nil =>
      obtain ⟨s, hs, helement, hkey⟩ := handed_of_forall₂ htaken hhanded
      exact ⟨s, rangeElements_eq_some.mpr ⟨yield₂, v₂, ps₂, b₂, v₃, rfl, hyield₂,
        hw.isBoolean_of_oneType hb₂ hb, hs⟩, helement, hkey⟩

/-- **What types yield that are one type**, behind aliases and names. -/
theorem yields_of_oneType (h : w.OneType t u) (hr : w.yields? (w.core t) = some r) :
    ∃ s, w.yields? (w.core u) = some s ∧ w.OneType r.element s.element ∧
      Option.Rel w.OneType r.key s.key := by
  have hbuilt := hw.built_core h
  generalize w.core t = T at hr hbuilt
  generalize w.core u = U at hbuilt
  cases hitem : T.item? with
  | some a =>
    rw [yields_of_item hitem] at hr
    cases hr
    cases hbuilt with
    | same => exact ⟨_, yields_of_item hitem, .refl w a, .none⟩
    | item ht hu hab =>
      cases hitem.symm.trans ht
      exact ⟨_, yields_of_item hu, hab, .none⟩
    | components ht => cases hitem.symm.trans (Ty.item_of_components ht)
    | _ => cases hitem
  | none =>
    simp only [yields?, hitem] at hr
    obtain ⟨s, hs, hone⟩ := hw.rangeElements_of_built hbuilt hr
    exact ⟨s, yields_of_rangeElements hs, hone⟩

theorem map_of_oneType (h : w.OneType t u) (ht : w.core t = .map k a) :
    ∃ l b, w.core u = .map l b ∧ w.OneType a b :=
  (ht ▸ hw.built_core h).exists_map

end Checked

/-! ### Arrays and collections -/

theorem kindOf_of_yields (h : w.yields? t = some r) :
    w.kindOf t = .array ∨ w.kindOf t = .collection := by
  cases t with
  | slice | array => exact .inl rfl
  | chan => exact .inr rfl
  | func ps rs v =>
    have hr : w.rangeElements (.func ps rs v) = some r := h
    exact .inr (by simp [kindOf, hr])
  | _ => simp [yields?, Ty.item?, rangeElements] at h

theorem kindOf_of_mem_partFeatures {f : Feature} (h : f ∈ w.partFeatures t)
    (hf : (∃ e, f = .element e) ∨ ∃ k, f = .key k) :
    w.kindOf t = .array ∨ w.kindOf t = .collection := by
  cases t with
  | slice | array => exact .inl rfl
  | map | chan => exact .inr rfl
  | func ps rs v =>
    cases hr : w.rangeElements (.func ps rs v) with
    | some r => exact kindOf_of_yields (yields_of_rangeElements hr)
    | none => simp [partFeatures, hr] at h
  | struct fs =>
    simp only [partFeatures, baseFeatures] at h
    grind
  | pointer e | tuple ts =>
    obtain rfl := List.mem_singleton.mp h
    rcases hf with ⟨_, hf⟩ | ⟨_, hf⟩ <;> cases hf
  | _ => cases h

theorem yields_or_map (h : w.kindOf t = .array ∨ w.kindOf t = .collection) :
    (∃ r, w.yields? t = some r) ∨ ∃ k a, t = .map k a := by
  cases t with
  | slice a | array l a | chan d a => exact .inl ⟨_, rfl⟩
  | map k a => exact .inr ⟨k, a, rfl⟩
  | func ps rs v =>
    cases hr : w.rangeElements (.func ps rs v) with
    | some r => exact .inl ⟨r, yields_of_rangeElements hr⟩
    | none => simp [kindOf, hr] at h
  | basic b => exact absurd (h.imp_right .inl) b.kind_simple
  | _ => simp [kindOf] at h

theorem core_ne_invalid (h : (w.plan t).kind ≠ .unknown) : w.core t ≠ .invalid :=
  fun hinvalid => h (kind_of_unalias_invalid hinvalid)

theorem core_of_unnamed (hname : ∀ n xs, w.unalias t ≠ .named n xs)
    (hres : w.kindOf (w.unalias t) ≠ .unknown) : w.core t = w.unalias t := by
  rw [core]
  generalize w.unalias t = u at hname hres
  cases u with
  | named n xs => exact absurd rfl (hname n xs)
  | param => exact absurd rfl hres
  | _ => rfl

theorem components_of_kind (h : (w.plan t).kind = .tuple) :
    ∃ as, (w.unalias t).components? = some as := by
  by_cases hname : ∃ n xs, w.unalias t = .named n xs
  · obtain ⟨n, xs, ht⟩ := hname
    rw [(plan_of_named ht (core_ne_invalid (by rw [h]; nofun))).1, kindOfNamed] at h
    split at h
    · cases h
    · split at h
      · cases h
      · next hother => exact absurd h hother
  · push Not at hname
    rw [plan_of_unnamed hname, unnamedPlan] at h
    dsimp only at h
    split at h
    · cases h
    · generalize w.unalias t = u at h
      cases u with
      | struct | tuple => exact ⟨_, rfl⟩
      | basic b => cases b <;> cases h
      | func ps rs v =>
        simp only [kindOf] at h
        split at h <;> cases h
      | _ => cases h

theorem named_of_origin (h : (w.portrait interfaces t).origin ≠ "") :
    ∃ n xs, w.unalias t = .named n xs := by
  by_contra hname
  push Not at hname
  rcases Portrait.generic_foldl (w := w) (I := interfaces) (w.plan t).features
    (.blank (w.plan t)) with hblank | hf
  · exact h hblank.1
  · rw [plan_of_unnamed hname, unnamedPlan] at hf
    dsimp only at hf
    split at hf
    · cases hf
    · unfold shapeFeatures partFeatures elementFeatures baseFeatures at hf
      grind

/-- **A type is an array or a collection exactly if its core is.** -/
theorem kind_core_iff (hkind : kind = .array ∨ kind = .collection) :
    (w.plan t).kind = kind ↔ w.kindOf (w.core t) = kind := by
  constructor
  · intro h
    by_cases hname : ∃ n xs, w.unalias t = .named n xs
    · obtain ⟨n, xs, ht⟩ := hname
      have hvalid : w.core t ≠ .invalid :=
        core_ne_invalid (by rw [h]; rcases hkind with rfl | rfl <;> nofun)
      rw [(plan_of_named ht hvalid).1, kindOfNamed] at h
      rw [core, ht]
      split at h
      · rcases hkind with rfl | rfl <;> cases h
      · split at h
        · rcases hkind with rfl | rfl <;> cases h
        · exact h
    · push Not at hname
      have hkindOf : w.kindOf (w.unalias t) = kind := by
        rw [plan_of_unnamed hname, unnamedPlan] at h
        dsimp only at h
        split at h
        · rcases hkind with rfl | rfl <;> cases h
        · exact h
      rwa [core_of_unnamed hname (by rcases hkind with rfl | rfl <;> simp [hkindOf])]
  · intro h
    obtain ⟨fs, -, hportrait⟩ := exists_portrait_of_core [] h hkind
    rw [← w.kind_portrait (I := []), hportrait, (Portrait.foldl_attach_head _ _).2.2,
      (Portrait.foldl_attach_head _ _).2.2]

/-- Where a type is no array and no collection, only its methods say something of elements and
keys. -/
theorem mem_capabilityFeatures_of_plan {f : Feature} (hf : f ∈ (w.plan t).features)
    (hpart : (∃ e, f = .element e) ∨ ∃ k, f = .key k) (harray : (w.plan t).kind ≠ .array)
    (hcollection : (w.plan t).kind ≠ .collection) :
    ∃ n xs, w.unalias t = .named n xs ∧
      f ∈ w.capabilityFeatures (.named n xs) (w.plan t).kind := by
  have hplain : ¬ (w.kindOf (w.core t) = .array ∨ w.kindOf (w.core t) = .collection) := by
    rw [← kind_core_iff (.inl rfl), ← kind_core_iff (.inr rfl)]
    exact fun h => h.elim harray hcollection
  by_cases hname : ∃ n xs, w.unalias t = .named n xs
  · obtain ⟨n, xs, ht⟩ := hname
    have hvalid : w.core t ≠ .invalid := by
      intro hinv
      rw [core, ht] at hinv
      simp [plan, ht, namedPlan, hinv, Plan.unresolved] at hf
    obtain ⟨hkind, hfeatures⟩ := plan_of_named ht hvalid
    refine ⟨n, xs, ht, ?_⟩
    rw [core, ht] at hplain
    rw [hfeatures, namedFeatures, List.mem_append, List.mem_append, List.mem_append,
      List.mem_singleton] at hf
    rcases hf with ((hf | hf) | hf) | rfl
    · refine absurd (kindOf_of_mem_partFeatures ?_ hpart) hplain
      unfold underlyingFeatures shapeFeatures baseFeatures at hf
      grind
    · unfold instanceFeatures at hf
      grind
    · rwa [hkind]
    · rcases hpart with ⟨_, h⟩ | ⟨_, h⟩ <;> cases h
  · push Not at hname
    rw [plan_of_unnamed hname, unnamedPlan] at hf
    dsimp only at hf
    split at hf
    · cases hf
    · next hres =>
      refine absurd (kindOf_of_mem_partFeatures ?_ hpart) hplain
      rw [core_of_unnamed hname hres]
      unfold shapeFeatures at hf
      grind

theorem key_of_plain (interfaces : List Ty) (harray : (w.plan t).kind ≠ .array)
    (hcollection : (w.plan t).kind ≠ .collection) : (w.portrait interfaces t).key = none := by
  refine Option.eq_none_iff_forall_ne_some.mpr fun k hk => ?_
  obtain ⟨n, xs, -, hf⟩ := mem_capabilityFeatures_of_plan (mem_features_of_key hk)
    (.inr ⟨k, rfl⟩) harray hcollection
  obtain ⟨e, hf | hf | hf⟩ := mem_capabilityFeatures_cases hf <;> cases hf

theorem kind_of_yields (h : w.yields? (w.core t) = some r) :
    (w.plan t).kind = .array ∨ (w.plan t).kind = .collection :=
  (kindOf_of_yields h).imp (kind_core_iff (.inl rfl)).mpr (kind_core_iff (.inr rfl)).mpr

theorem kind_of_map (h : w.core t = .map k a) : (w.plan t).kind = .collection :=
  (kind_core_iff (.inr rfl)).mpr (by rw [h]; rfl)

/-- What the values of types hold that are one type: they yield something, they are maps, or they
are no arrays and no collections. -/
inductive Held (w : World) (t u : Ty) : Prop
  | yields {r s : RangeElements} (hr : w.yields? (w.core t) = some r)
      (hs : w.yields? (w.core u) = some s) (h : w.OneType r.element s.element)
      (hkey : Option.Rel w.OneType r.key s.key)
  | map {k l a b : Ty} (ht : w.core t = .map k a) (hu : w.core u = .map l b) (h : w.OneType a b)
  | nothing (ht : (w.plan t).kind ≠ .array ∧ (w.plan t).kind ≠ .collection)
      (hu : (w.plan u).kind ≠ .array ∧ (w.plan u).kind ≠ .collection)

theorem Checked.held_of_oneType (hw : w.Checked rank) (h : w.OneType t u) : w.Held t u := by
  have hplain : ∀ {v}, ¬ (w.kindOf (w.core v) = .array ∨ w.kindOf (w.core v) = .collection) →
      (w.plan v).kind ≠ .array ∧ (w.plan v).kind ≠ .collection := fun hv =>
    ⟨fun hkind => hv (.inl ((kind_core_iff (.inl rfl)).mp hkind)),
      fun hkind => hv (.inr ((kind_core_iff (.inr rfl)).mp hkind))⟩
  by_cases ht : w.kindOf (w.core t) = .array ∨ w.kindOf (w.core t) = .collection
  · rcases yields_or_map ht with ⟨r, hr⟩ | ⟨k, a, ha⟩
    · obtain ⟨s, hs, helement, hkey⟩ := hw.yields_of_oneType h hr
      exact .yields hr hs helement hkey
    · obtain ⟨l, b, hb, hab⟩ := hw.map_of_oneType h ha
      exact .map ha hb hab
  · refine .nothing (hplain ht) (hplain fun hu => ht ?_)
    rcases yields_or_map hu with ⟨s, hs⟩ | ⟨l, b, hb⟩
    · obtain ⟨r, hr, -⟩ := hw.yields_of_oneType h.symm hs
      exact kindOf_of_yields hr
    · obtain ⟨k, a, ha, -⟩ := hw.map_of_oneType h.symm hb
      exact .inr (by rw [ha]; rfl)

/-! ### What methods expose -/

/-- The function type of the method by which a declared type of a kind exposes elements. -/
def exposing? (w : World) (t : Ty) (kind : Kind) : Option Ty :=
  w.listedMethod? (if kind = .interface then t else .pointer t) "All"

theorem exposed_of_element (ha : (w.portrait interfaces t).element = some a)
    (harray : (w.plan t).kind ≠ .array) (hcollection : (w.plan t).kind ≠ .collection) :
    ∃ n xs s, w.unalias t = .named n xs ∧
      w.exposing? (.named n xs) (w.plan t).kind = some s ∧ w.exposedElement? s = some a := by
  obtain ⟨n, xs, ht, hf⟩ := mem_capabilityFeatures_of_plan (mem_features_of_element ha)
    (.inl ⟨a, rfl⟩) harray hcollection
  refine ⟨n, xs, ?_⟩
  unfold capabilityFeatures at hf
  obtain ⟨name, -, hf⟩ := List.mem_flatMap.mp hf
  split at hf
  · next s hs =>
    unfold methodFeatures at hf
    split at hf
    · split at hf
      · cases hf
      · split at hf
        · next e he =>
          unfold elementFeatures at hf
          split at hf
          · cases hf
          · cases List.mem_singleton.mp hf
            exact ⟨s, ht, hs, he⟩
        · cases hf
    · grind
    · grind
  · cases hf

/-- The methods by which identical instances expose elements are identical. -/
def Uniform (w : World) (roots : Set Ty) : Prop :=
  ∀ t u n xs ys s s', w.Met roots t → w.Met roots u → w.OneType t u →
    w.unalias t = .named n xs → w.unalias u = .named n ys →
      w.exposing? (.named n xs) (w.plan t).kind = some s →
        w.exposing? (.named n ys) (w.plan u).kind = some s' → w.OneType s s'

namespace Checked

variable (hw : w.Checked rank)

include hw

/-- The methods are identical unless instances have them from what they embed. -/
theorem uniform_of_firsthand
    (h : ∀ t n xs, w.Met roots t → w.unalias t = .named n xs → xs ≠ [] →
      (w.exposing? (.named n xs) (w.plan t).kind).isSome = true →
        w.Firsthand "All" (.named n xs)) : w.Uniform roots := by
  intro t u n xs ys s s' hmt hmu hone ht hu hs hs'
  have hbuilt := hw.built_of_oneType hone
  rw [ht, hu] at hbuilt
  obtain ⟨_, hname, hargs⟩ := hbuilt.exists_named
  cases hname
  by_cases hxs : xs = []
  · subst hxs
    cases hargs
    rw [plan_congr (ht.trans hu.symm)] at hs
    cases hs.symm.trans hs'
    exact .refl w s
  · have hys : ys ≠ [] := by
      rintro rfl
      exact hxs (List.length_eq_zero_iff.mp hargs.length_eq)
    have hself : ∀ {v zs}, w.unalias v = .named n zs → w.unalias (.named n zs) = .named n zs :=
      fun hv => unalias_of_none (hv ▸ hw.unalias_ended _)
    have hderef : ∀ {v zs} (kind : Kind), w.unalias v = .named n zs → ∃ indirect,
        w.deref (if kind = .interface then .named n zs else .pointer (.named n zs)) =
          (.named n zs, indirect) := by
      intro v zs kind hv
      by_cases hkind : kind = .interface
      · exact ⟨false, by rw [if_pos hkind, deref, hself hv]⟩
      · exact ⟨true, by rw [if_neg hkind, deref, unalias_of_not_named (by simp)]⟩
    obtain ⟨_, hx⟩ := hderef (w.plan t).kind ht
    obtain ⟨_, hy⟩ := hderef (w.plan u).kind hu
    exact hw.oneType_of_listed hargs (hself ht) (hself hu)
      (h t n xs hmt ht hxs (Option.isSome_of_eq_some hs))
      (h u n ys hmu hu hys (Option.isSome_of_eq_some hs')) hx hy hs hs'

theorem exposedElement_of_oneType {s s' : Ty} (h : w.OneType s s')
    (ha : w.exposedElement? s = some a) (hb : w.exposedElement? s' = some b) :
    w.OneType a b := by
  obtain ⟨c, v, r, rfl, hr, rfl⟩ := exposedElement_eq_some.mp ha
  obtain ⟨c', v', r', rfl, hr', rfl⟩ := exposedElement_eq_some.mp hb
  obtain ⟨qs, ss, _, hfunc, -, hresults⟩ := (hw.built_of_oneType h).exists_func
  cases hfunc
  cases hresults with
  | cons hc _ =>
    rw [← hw.core_eq] at hr hr'
    obtain ⟨s, hs, hone, -⟩ := hw.rangeElements_of_built (hw.built_core hc) hr
    cases hr'.symm.trans hs
    exact hone

/-- **What types expose that are one type**, if it is not they themselves that hold it. -/
theorem exposed_of_oneType (huniform : w.Uniform roots) (hmt : w.Met roots t)
    (hmu : w.Met roots u) (h : w.OneType t u)
    (ha : (w.portrait interfaces t).element = some a)
    (hb : (w.portrait interfaces u).element = some b)
    (ht : (w.plan t).kind ≠ .array ∧ (w.plan t).kind ≠ .collection)
    (hu : (w.plan u).kind ≠ .array ∧ (w.plan u).kind ≠ .collection) :
    ∃ n xs ys, w.unalias t = .named n xs ∧ w.unalias u = .named n ys ∧ w.OneType a b := by
  obtain ⟨n, xs, s, htn, hs, has⟩ := exposed_of_element ha ht.1 ht.2
  obtain ⟨m, ys, s', hum, hs', hbs'⟩ := exposed_of_element hb hu.1 hu.2
  have hbuilt := hw.built_of_oneType h
  rw [htn, hum] at hbuilt
  obtain ⟨_, hname, -⟩ := hbuilt.exists_named
  cases hname
  have hone := huniform t u n xs ys s s' hmt hmu h htn hum hs hs'
  exact ⟨n, xs, ys, htn, hum, hw.exposedElement_of_oneType hone has hbs'⟩

end Checked

end World

end EverEqual
