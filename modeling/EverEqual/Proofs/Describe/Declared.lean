import EverEqual.Proofs.Describe.Web

/-!
# Portraits of declared types

The portrait of a declared type is put together from the shape of its underlying type, the arguments
it is an instance with, what its methods declare, and the interfaces it implements. What a portrait
says in the end comes from one of its features, so it can be found out feature by feature.

* `World.Declared`, `World.originOf`: a declared type and the declaration it is an instance of;
* `Portrait.foldl_attach_cases`, `Portrait.mem_of_foldl_attach`: what a portrait says comes from a
  feature;
* `World.mem_namedFeatures_cases`: the features of a declared type;
* `World.plan_interface`, `World.key_interface`: declared interfaces;
* `World.mem_own_of_implements`, `World.eq_or_exists_of_mem_own`: the ancestors of a declared type
  that are not inherited.
-/

namespace EverEqual

/-! ### What portraits say -/

namespace Portrait

variable {w : World} {I : List Ty}

/-- What is said in the end was said at first, or one of the features says it. -/
theorem foldl_attach_cases {α : Type} {F : Portrait Ty → α} {S : α → Feature → Prop}
    (hstep : ∀ P f, F (P.attach w I f) = F P ∨ S (F (P.attach w I f)) f)
    (fs : List Feature) (P : Portrait Ty) :
    F (fs.foldl (attach w I) P) = F P ∨ ∃ f ∈ fs, S (F (fs.foldl (attach w I) P)) f := by
  induction fs generalizing P with
  | nil => exact Or.inl rfl
  | cons f fs ih =>
    rw [List.foldl_cons]
    rcases ih (P.attach w I f) with h | ⟨f', hf', hsays⟩
    · rw [h]
      exact (hstep P f).imp_right fun hsays => ⟨f, List.mem_cons_self, hsays⟩
    · exact Or.inr ⟨f', List.mem_cons_of_mem _ hf', hsays⟩

/-- A part that a portrait does not have at first comes from a feature of its own. -/
theorem mem_of_foldl_attach {F : Portrait Ty → Option Ty} {c : Ty → Feature}
    (hstep : ∀ P f, F (P.attach w I f) = F P ∨ ∃ e, F (P.attach w I f) = some e ∧ f = c e)
    {fs : List Feature} {P : Portrait Ty} {e : Ty} (hP : F P = none)
    (h : F (fs.foldl (attach w I) P) = some e) : c e ∈ fs := by
  rcases foldl_attach_cases (S := fun o f => ∃ e, o = some e ∧ f = c e) hstep fs P with
    hnone | ⟨f, hf, e', he, rfl⟩
  · cases hP.symm.trans (hnone.symm.trans h)
  · cases h.symm.trans he
    exact hf

theorem generic_foldl (fs : List Feature) (P : Portrait Ty) :
    ((fs.foldl (attach w I) P).origin = P.origin ∧
        (fs.foldl (attach w I) P).typeArgs = P.typeArgs) ∨
      Feature.generic (fs.foldl (attach w I) P).origin (fs.foldl (attach w I) P).typeArgs ∈ fs := by
  refine (foldl_attach_cases (F := fun P => (P.origin, P.typeArgs))
    (S := fun a f => f = .generic a.1 a.2) (fun P f => ?_) fs P).imp Prod.mk.inj ?_
  · cases f with
    | generic o args => exact Or.inr rfl
    | _ => exact Or.inl rfl
  · rintro ⟨f, hf, rfl⟩
    exact hf

theorem mem_own_foldl {fs : List Feature} {P : Portrait Ty} {a : Identity} :
    a ∈ (fs.foldl (attach w I) P).own ↔
      a ∈ P.own ∨ ∃ t kind, Feature.ancestors t kind ∈ fs ∧ a ∈ w.ancestorIds I t kind := by
  induction fs generalizing P with
  | nil => simp
  | cons f fs ih =>
    rw [List.foldl_cons, ih]
    cases f with
    | ancestors t kind =>
      simp only [attach, Finset.mem_union, List.mem_toFinset, List.mem_cons]
      grind
    | _ => simp [attach]

theorem mem_equatable_foldl {fs : List Feature} {P : Portrait Ty} {a : Identity} :
    a ∈ (fs.foldl (attach w I) P).equatable ↔
      a ∈ P.equatable ∨ ∃ t, Feature.equatable t ∈ fs ∧ a = (w.plan t).id := by
  induction fs generalizing P with
  | nil => simp
  | cons f fs ih =>
    rw [List.foldl_cons, ih]
    cases f with
    | equatable t =>
      simp only [attach, Finset.mem_insert, List.mem_cons]
      grind
    | _ => simp [attach]

end Portrait

namespace World

/-- A declared type, by its own name and not by an alias. -/
def Declared (w : World) (t : Ty) : Prop := ∃ n xs, t = .named n xs ∧ w.unalias t = t

/-- The text of the declaration of which a declared type is an instance. -/
def originOf (w : World) : Ty → Identity
  | .named n _ => w.typeString (.named n [])
  | _ => ""

variable {w : World} {interfaces : List Ty} {n : TypeName} {xs : List Ty} {kind : Kind} {t u e : Ty}
variable {f : Feature} {a : Identity}

/-! ### Parts that come from features -/

theorem mem_features_of_key (h : (w.portrait interfaces t).key = some e) :
    .key e ∈ (w.plan t).features :=
  Portrait.mem_of_foldl_attach (F := Portrait.key) (fun P f => by
    cases f with
    | key k => exact .inr ⟨k, rfl, rfl⟩
    | _ => exact .inl rfl) rfl h

theorem mem_features_of_element (h : (w.portrait interfaces t).element = some e) :
    .element e ∈ (w.plan t).features :=
  Portrait.mem_of_foldl_attach (F := Portrait.element) (fun P f => by
    cases f with
    | element e => exact .inr ⟨e, rfl, rfl⟩
    | _ => exact .inl rfl) rfl h

theorem mem_features_of_underlying (h : (w.portrait interfaces t).underlying = some e) :
    .underlying e ∈ (w.plan t).features :=
  Portrait.mem_of_foldl_attach (F := Portrait.underlying) (fun P f => by
    cases f with
    | underlying e => exact .inr ⟨e, rfl, rfl⟩
    | _ => exact .inl rfl) rfl h

/-! ### Features of declared types -/

theorem mem_capabilityFeatures_cases (h : f ∈ w.capabilityFeatures t kind) :
    ∃ e, f = .element e ∨ f = .conversion e ∨ f = .equatable e := by
  unfold capabilityFeatures at h
  obtain ⟨name, -, hf⟩ := List.mem_flatMap.mp h
  split at hf
  · unfold methodFeatures elementFeatures at hf
    grind
  · cases hf

/-- The features of a declared type: those of its underlying type, its arguments, what its methods
declare, and its ancestors. -/
theorem mem_namedFeatures_cases (h : f ∈ w.namedFeatures n xs kind) :
    f ∈ w.underlyingFeatures (w.underlying (.named n xs)) kind ∨
      f = .generic (w.typeString (.named n [])) xs ∨
      (∃ e, f = .element e ∨ f = .conversion e ∨ f = .equatable e) ∨
      f = .ancestors (.named n xs) kind := by
  unfold namedFeatures at h
  rw [List.mem_append, List.mem_append, List.mem_append, List.mem_singleton] at h
  rcases h with ((h | h) | h) | h
  · exact Or.inl h
  · right
    left
    cases xs with
    | nil => cases h
    | cons x xs => exact List.mem_singleton.mp h
  · exact Or.inr (Or.inr (Or.inl (mem_capabilityFeatures_cases h)))
  · exact Or.inr (Or.inr (Or.inr h))

theorem generic_not_mem_underlyingFeatures {o : Identity} {args : List Ty} :
    Feature.generic o args ∉ w.underlyingFeatures t kind := by
  unfold underlyingFeatures shapeFeatures partFeatures elementFeatures baseFeatures
  grind

theorem ancestors_mem_underlyingFeatures {kind' : Kind}
    (h : Feature.ancestors u kind' ∈ w.underlyingFeatures t kind) : u = t := by
  unfold underlyingFeatures shapeFeatures partFeatures elementFeatures baseFeatures at h
  grind

theorem plan_declared (h : w.Declared t) :
    ∃ n xs, t = .named n xs ∧ w.plan t = w.namedPlan n xs := by
  obtain ⟨n, xs, rfl, halias⟩ := h
  refine ⟨n, xs, rfl, ?_⟩
  unfold plan
  rw [halias]

theorem mem_features_namedPlan (h : f ∈ (w.namedPlan n xs).features) :
    f ∈ w.namedFeatures n xs (w.kindOfNamed n xs) := by
  unfold namedPlan at h
  split at h
  · cases h
  · exact h

theorem kind_of_unalias_invalid (h : w.underlying (w.unalias t) = .invalid) :
    (w.plan t).kind = .unknown := by
  unfold plan
  generalize w.unalias t = u at h
  cases u with
  | named n xs => simp [namedPlan, h, Plan.unresolved]
  | param b i l => rfl
  | basic b =>
    cases h
    rfl
  | _ => cases h

theorem kind_of_invalid (ht : w.Declared t) (h : w.underlying t = .invalid) :
    (w.plan t).kind = .unknown := by
  obtain ⟨n, xs, rfl, halias⟩ := ht
  exact kind_of_unalias_invalid (halias.symm ▸ h)

/-! ### Interfaces -/

theorem kindOfNamed_of_isInterface (h : w.isInterface (.named n xs) = true) :
    w.kindOfNamed n xs = .interface := by
  unfold isInterface at h
  unfold kindOfNamed isEnumeration
  split at h
  next hunder => simp [hunder, kindOf]
  next => cases h

theorem plan_interface (hu : w.Declared u) (h : w.isInterface u = true) :
    (w.plan u).kind = .interface ∧ (w.plan u).id = w.typeString u := by
  obtain ⟨n, xs, rfl, hplan⟩ := plan_declared hu
  have hvalid : w.underlying (.named n xs) ≠ .invalid := by
    intro hinv
    simp [isInterface, hinv] at h
  rw [hplan]
  unfold namedPlan
  rw [if_neg hvalid]
  exact ⟨kindOfNamed_of_isInterface h, rfl⟩

theorem kind_of_concrete (ht : w.Declared t) (h : w.isInterface t = false) :
    (w.plan t).kind ≠ .interface := by
  obtain ⟨n, xs, rfl, hplan⟩ := plan_declared ht
  rw [hplan]
  unfold namedPlan
  split
  · nofun
  · change w.kindOfNamed n xs ≠ .interface
    unfold isInterface at h
    unfold kindOfNamed
    generalize w.underlying (.named n xs) = u at h
    cases u with
    | interface f ms es => cases h
    | basic b =>
      cases b <;> cases w.isEnumeration n xs <;>
        simp [kindOf, Basic.kind, Basic.isBoolean, Basic.isString, Basic.isNumeric, Basic.isInteger]
    | func ps rs v =>
      simp only [kindOf]
      grind
    | _ => cases w.isEnumeration n xs <;> simp [kindOf]

theorem key_interface (hu : w.Declared u) (h : w.isInterface u = true) :
    (w.portrait interfaces u).key = none := by
  obtain ⟨n, xs, rfl, hplan⟩ := plan_declared hu
  refine Option.eq_none_iff_forall_ne_some.mpr fun k hk => ?_
  have hf := mem_features_of_key hk
  rw [hplan] at hf
  replace hf := mem_features_namedPlan hf
  rw [kindOfNamed_of_isInterface h] at hf
  rcases mem_namedFeatures_cases hf with hf | hf | ⟨e, hf | hf | hf⟩ | hf
  · unfold isInterface at h
    split at h
    next hunder => simp [hunder, underlyingFeatures, shapeFeatures, partFeatures] at hf
    next => cases h
  all_goals cases hf

/-! ### Instances and pointers -/

theorem origin_declared (ht : w.Declared t) :
    (w.portrait interfaces t).origin = "" ∨ (w.portrait interfaces t).origin = w.originOf t := by
  obtain ⟨n, xs, rfl, hplan⟩ := plan_declared ht
  refine (Portrait.generic_foldl _ _).imp And.left fun hf => ?_
  change Feature.generic (w.portrait interfaces (.named n xs)).origin _ ∈ _ at hf
  rw [hplan] at hf
  rcases mem_namedFeatures_cases (mem_features_namedPlan hf) with h | h | ⟨e, h | h | h⟩ | h
  · exact absurd h generic_not_mem_underlyingFeatures
  · exact (Feature.generic.inj h).1
  all_goals cases h

theorem underlying_declared (interfaces : List Ty) (ht : w.Declared t)
    (hkind : (w.plan t).kind = .nullable) :
    ∃ e, w.underlying t = .pointer e ∧ (w.portrait interfaces t).underlying = some e := by
  obtain ⟨a, ha⟩ := exists_underlying interfaces hkind
  obtain ⟨n, xs, rfl, hplan⟩ := plan_declared ht
  have hmem := mem_features_of_underlying ha
  rw [hplan] at hmem hkind
  have hnamed : w.kindOfNamed n xs = .nullable := by
    unfold namedPlan at hkind
    split at hkind
    · cases hkind
    · exact hkind
  obtain ⟨e, he⟩ := eq_pointer_of_kindOf (kindOf_of_kindOfNamed hnamed)
  refine ⟨e, he, ?_⟩
  rw [ha]
  rcases mem_namedFeatures_cases (mem_features_namedPlan hmem) with h | h | ⟨e', h | h | h⟩ | h
  · rw [hnamed, he] at h
    have hae : a = e := by simpa [underlyingFeatures, shapeFeatures, partFeatures] using h
    rw [hae]
  all_goals cases h

/-! ### Ancestors -/

/-- **A registered interface is an ancestor of every type that implements it.** -/
theorem mem_own_of_implements (ht : w.Declared t) (hvalid : w.underlying t ≠ .invalid)
    (hu : u ∈ interfaces) (hother : w.identical u t = false)
    (himpl : w.implementsSomehow t u = true) :
    w.typeString u ∈ (w.portrait interfaces t).own := by
  obtain ⟨n, xs, rfl, hplan⟩ := plan_declared ht
  refine Portrait.mem_own_foldl.mpr (Or.inr ⟨.named n xs, w.kindOfNamed n xs, ?_, ?_⟩)
  · rw [hplan]
    unfold namedPlan
    rw [if_neg hvalid]
    simp [namedFeatures]
  · have hmem : u ∈ interfaces.filter
        fun i => !w.identical i (.named n xs) && w.implementsSomehow (.named n xs) i := by
      rw [List.mem_filter, hother, himpl]
      exact ⟨hu, rfl⟩
    unfold ancestorIds
    exact List.mem_append_left _ (List.mem_append_right _ (List.mem_map_of_mem hmem))

/-- The ancestors that a type without an interface below it gets on its own: registered ones and the
interface without methods. -/
theorem eq_or_exists_of_mem_ancestorIds (hconcrete : w.isInterface t = false)
    (h : a ∈ w.ancestorIds interfaces t kind) :
    a = "any" ∨ ∃ i ∈ interfaces, w.typeString i = a := by
  have htop : a ∈ (if kind ≠ .interface || !w.isEmptyInterface t then ["any"] else []) →
      a = "any" := by
    intro htop
    split at htop
    · exact List.mem_singleton.mp htop
    · cases htop
  have hnone : w.embeddedIds t = [] := by
    unfold isInterface at hconcrete
    unfold embeddedIds
    cases hunder : w.underlying t with
    | interface f ms es =>
      rw [hunder] at hconcrete
      cases hconcrete
    | _ => rfl
  unfold ancestorIds at h
  generalize (if kind ≠ .interface || !w.isEmptyInterface t then ["any"] else []) = top at h htop
  cases t with
  | tuple ts => exact Or.inl (htop h)
  | _ =>
    simp only [hnone, List.append_nil, List.mem_append] at h
    rcases h with h | h
    · exact Or.inl (htop h)
    · obtain ⟨i, hi, rfl⟩ := List.mem_map.mp h
      exact Or.inr ⟨i, List.mem_of_mem_filter hi, rfl⟩

theorem isInterface_underlying (ht : w.Declared t) (hconcrete : w.isInterface t = false)
    (hres : (w.plan t).kind ≠ .unknown) : w.isInterface (w.underlying t) = false := by
  obtain ⟨n, xs, rfl, hplan⟩ := plan_declared ht
  rw [hplan] at hres
  unfold namedPlan at hres
  split at hres
  · exact absurd rfl hres
  · change w.kindOfNamed n xs ≠ .unknown at hres
    unfold isInterface at hconcrete ⊢
    unfold kindOfNamed isEnumeration at hres
    generalize w.underlying (.named n xs) = t at hconcrete hres
    cases t with
    | param b i l => simp [kindOf] at hres
    | named m ys => simp [kindOf] at hres
    | interface f ms es => cases hconcrete
    | _ => rfl

theorem eq_or_exists_of_mem_own (ht : w.Declared t) (hconcrete : w.isInterface t = false)
    (hres : (w.plan t).kind ≠ .unknown) (h : a ∈ (w.portrait interfaces t).own) :
    a = "any" ∨ ∃ i ∈ interfaces, w.typeString i = a := by
  have hunder := isInterface_underlying ht hconcrete hres
  obtain ⟨n, xs, rfl, hplan⟩ := plan_declared ht
  rcases Portrait.mem_own_foldl.mp h with h | ⟨u, kind, hf, h⟩
  · cases h
  · rw [hplan] at hf
    rcases mem_namedFeatures_cases (mem_features_namedPlan hf) with hf | hf | ⟨e, hf | hf | hf⟩ | hf
    · rw [ancestors_mem_underlyingFeatures hf] at h
      exact eq_or_exists_of_mem_ancestorIds hunder h
    · cases hf
    · cases hf
    · cases hf
    · cases hf
    · cases hf
      exact eq_or_exists_of_mem_ancestorIds hconcrete h

end World

end EverEqual
