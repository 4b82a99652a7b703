import EverEqual.Proofs.Describe.Declared
import EverEqual.Proofs.Describe.Literal

/-!
# Portraits behind names

What a pointer wraps, what values yield and what a map holds is in a portrait whether the type is
written out or has a name: a declaration adds its arguments, what its methods declare and ancestors,
and leaves the rest as it is.

* `World.core`, `World.pointee?`: the type behind aliases and names, and what it points to;
* `World.exists_portrait_of_core`: the portrait of a type is that of its core, with additions;
* `World.underlying_portrait`, `World.portrait_of_yields`, `World.portrait_of_map`,
  `World.generic_portrait`: what it says, part by part.
-/

namespace EverEqual

theorem Basic.kind_simple (b : Basic) :
    ¬ (b.kind = .array ∨ b.kind = .collection ∨ b.kind = .nullable) := by
  cases b <;> decide

/-- A feature that says nothing about elements, keys or what is wrapped. -/
def Feature.Aside : Feature → Prop
  | .conversion _ | .equatable _ | .ancestors _ _ | .generic _ _ => True
  | _ => False

namespace Portrait

variable {w : World} {I : List Ty}

theorem foldl_of_aside {fs : List Feature} (h : ∀ f ∈ fs, f.Aside) (P : Portrait Ty) :
    (fs.foldl (attach w I) P).element = P.element ∧ (fs.foldl (attach w I) P).key = P.key ∧
      (fs.foldl (attach w I) P).underlying = P.underlying := by
  induction fs generalizing P with
  | nil => exact ⟨rfl, rfl, rfl⟩
  | cons f fs ih =>
    obtain ⟨helement, hkey, hunder⟩ := ih (fun f hf => h f (List.mem_cons_of_mem _ hf))
      (P.attach w I f)
    rw [List.foldl_cons, helement, hkey, hunder]
    have hf := h f List.mem_cons_self
    cases f with
    | conversion t | equatable t | ancestors t k | generic o ts => exact ⟨rfl, rfl, rfl⟩
    | element t | key t | underlying t | bases ts | tuple ts => cases hf

end Portrait

namespace World

/-- The type behind aliases and names. -/
def core (w : World) (t : Ty) : Ty := w.underlying (w.unalias t)

/-- What a type points to, behind aliases and names. -/
def pointee? (w : World) (t : Ty) : Option Ty :=
  match w.core t with
  | .pointer e => some e
  | _ => none

variable {w : World} {interfaces : List Ty} {n : TypeName} {xs : List Ty} {kind : Kind}
variable {t u e k : Ty} {r : RangeElements}

theorem pointee_eq_some : w.pointee? t = some e ↔ w.core t = .pointer e := by
  unfold pointee?
  cases w.core t <;> simp

/-! ### The plan of a type and of its core -/

theorem plan_of_named (ht : w.unalias t = .named n xs) (hvalid : w.core t ≠ .invalid) :
    (w.plan t).kind = w.kindOfNamed n xs ∧
      (w.plan t).features = w.namedFeatures n xs (w.kindOfNamed n xs) := by
  rw [core, ht] at hvalid
  unfold plan
  rw [ht]
  simp only [namedPlan, if_neg hvalid, and_self]

/-- What the methods of an array or a collection declare says nothing of elements; nor do those of
what has no method by that name. -/
theorem aside_of_mem_capabilityFeatures {f : Feature}
    (hkind : kind = .array ∨ kind = .collection) (hf : f ∈ w.capabilityFeatures t kind) :
    f.Aside := by
  unfold capabilityFeatures at hf
  obtain ⟨name, -, hf⟩ := List.mem_flatMap.mp hf
  split at hf
  · unfold methodFeatures at hf
    split at hf
    · rw [if_pos (by rcases hkind with rfl | rfl <;> simp)] at hf
      cases hf
    · split at hf
      · obtain rfl := List.mem_singleton.mp hf
        trivial
      · cases hf
    · obtain ⟨u, -, rfl⟩ := List.mem_map.mp hf
      trivial
  · cases hf

theorem kindOfNamed_of_kindOf (h : w.kindOf (w.underlying (.named n xs)) = kind)
    (hkind : kind = .array ∨ kind = .collection ∨ kind = .nullable) :
    w.kindOfNamed n xs = kind := by
  have hplain : w.isEnumeration n xs = false := by
    unfold isEnumeration
    generalize w.underlying (.named n xs) = u at h
    cases u with
    | basic b =>
      obtain rfl : b.kind = kind := h
      exact absurd hkind b.kind_simple
    | _ => rfl
  unfold kindOfNamed
  rw [hplain, h]
  rcases hkind with rfl | rfl | rfl <;> rfl

theorem kindOf_underlying_param (b : Binder) (i : Nat) (l : String) :
    w.kindOf (w.underlying (.param b i l)) = .interface := by
  simp only [underlying]
  split
  · rfl
  · split <;> rfl

/-- The portrait of a type is that of the parts of its core, with additions, if the core is an array
or a collection. -/
theorem exists_portrait_of_core (interfaces : List Ty) (h : w.kindOf (w.core t) = kind)
    (hkind : kind = .array ∨ kind = .collection) :
    ∃ fs : List Feature, (∀ f ∈ fs, f.Aside) ∧
      w.portrait interfaces t = fs.foldl (Portrait.attach w interfaces)
        ((w.partFeatures (w.core t)).foldl (Portrait.attach w interfaces)
          { entry := w.entry t, id := (w.plan t).id, kind := kind }) := by
  have hres : kind ≠ .unknown := by rcases hkind with rfl | rfl <;> nofun
  have hshape : ∀ u, w.shapeFeatures u kind = w.partFeatures u ++ [.ancestors u kind] := by
    intro u
    rcases hkind with rfl | rfl <;> rfl
  generalize hu : w.unalias t = u
  unfold core at h ⊢
  rw [hu] at h ⊢
  cases u with
  | named n xs =>
    have hnamed := kindOfNamed_of_kindOf h (hkind.imp_right Or.inl)
    have hvalid : w.core t ≠ .invalid := by
      intro hinv
      rw [core, hu] at hinv
      rw [hinv] at h
      exact hres h.symm
    have hplan := plan_of_named hu hvalid
    rw [hnamed] at hplan
    have hunder : w.underlyingFeatures (w.underlying (.named n xs)) kind =
        w.partFeatures (w.underlying (.named n xs)) ++
          [.ancestors (w.underlying (.named n xs)) kind] := by
      rw [← hshape]
      rcases hkind with rfl | rfl <;> rfl
    refine ⟨.ancestors (w.underlying (.named n xs)) kind :: (w.instanceFeatures n xs ++
      w.capabilityFeatures (.named n xs) kind ++ [.ancestors (.named n xs) kind]), fun f hf => ?_,
      ?_⟩
    · rw [List.mem_cons, List.mem_append, List.mem_append, List.mem_singleton] at hf
      rcases hf with rfl | (hf | hf) | rfl
      · trivial
      · cases xs with
        | nil => cases hf
        | cons x xs =>
          obtain rfl := List.mem_singleton.mp hf
          trivial
      · exact aside_of_mem_capabilityFeatures hkind hf
      · trivial
    · unfold portrait Portrait.blank
      rw [hplan.2]
      simp only [hplan.1, entry, namedFeatures, hunder, List.append_assoc, List.foldl_append,
        List.cons_append, List.nil_append, List.foldl_cons]
  | param b i l =>
    rw [kindOf_underlying_param] at h
    rcases hkind with rfl | rfl <;> cases h
  | _ =>
    refine ⟨[.ancestors (w.unalias t) kind], by simp [Feature.Aside], ?_⟩
    obtain rfl := h
    rw [hu]
    exact (portrait_of_unnamed hu hres).trans
      ((congrArg (List.foldl _ _) (hshape _)).trans List.foldl_append)

/-- **Elements and keys are those of the core**, if it is an array or a collection. -/
theorem portrait_core (interfaces : List Ty) (h : w.kindOf (w.core t) = kind)
    (hkind : kind = .array ∨ kind = .collection) {P : Portrait Ty}
    (hP : (w.partFeatures (w.core t)).foldl (Portrait.attach w interfaces)
      { entry := w.entry t, id := (w.plan t).id, kind := kind } = P) :
    (w.portrait interfaces t).element = P.element ∧ (w.portrait interfaces t).key = P.key := by
  obtain ⟨fs, haside, hportrait⟩ := exists_portrait_of_core interfaces h hkind
  obtain ⟨helement, hkey, -⟩ := Portrait.foldl_of_aside (w := w) (I := interfaces) haside P
  rw [hportrait, hP, helement, hkey]
  exact ⟨rfl, rfl⟩

theorem portrait_of_yields (interfaces : List Ty) (h : w.yields? (w.core t) = some r) :
    (w.portrait interfaces t).element = w.known? r.element ∧
      (w.portrait interfaces t).key = r.key := by
  have hparts : (w.kindOf (w.core t) = .array ∨ w.kindOf (w.core t) = .collection) ∧
      w.partFeatures (w.core t) = r.key.toList.map .key ++ w.elementFeatures r.element := by
    generalize w.core t = u at h
    cases u with
    | slice e | array n e | chan d e =>
      cases h
      simp [kindOf, partFeatures]
    | func ps rs v =>
      replace h : w.rangeElements (.func ps rs v) = some r := h
      simp [kindOf, partFeatures, h]
    | _ => simp [yields?, Ty.item?, rangeElements] at h
  refine portrait_core interfaces rfl hparts.1 (P :=
    { entry := w.entry t, id := (w.plan t).id, kind := w.kindOf (w.core t), key := r.key
      element := w.known? r.element }) ?_
  rw [hparts.2, List.foldl_append]
  cases hkey : r.key <;> simp [foldl_elementFeatures, Portrait.attach]

theorem portrait_of_map (interfaces : List Ty) (h : w.core t = .map k e) :
    (w.portrait interfaces t).element = some e ∧ (w.portrait interfaces t).key = some k := by
  refine portrait_core interfaces rfl (Or.inr ?_) (P :=
    { entry := w.entry t, id := (w.plan t).id, kind := w.kindOf (w.core t), key := some k
      element := some e }) ?_
  · rw [h]
    rfl
  · rw [h]
    rfl

/-! ### Pointers and instances -/

theorem core_of_mem_features (h : Feature.underlying e ∈ (w.plan t).features) :
    w.core t = .pointer e := by
  have hshape : ∀ {u kind}, Feature.underlying e ∈ w.shapeFeatures u kind → u = .pointer e := by
    intro u kind h
    unfold shapeFeatures partFeatures elementFeatures baseFeatures at h
    grind
  unfold core
  unfold plan at h
  generalize w.unalias t = u at h ⊢
  have hunnamed : Feature.underlying e ∈ (w.unnamedPlan u).features → u = .pointer e := by
    intro h
    unfold unnamedPlan at h
    by_cases hunk : w.kindOf u = .unknown
    · simp only [hunk, if_true] at h
      cases h
    · simp only [hunk, if_false] at h
      exact hshape h
  cases u with
  | named n xs =>
    rcases mem_namedFeatures_cases (mem_features_namedPlan h) with h | h | ⟨e', h | h | h⟩ | h
    · unfold underlyingFeatures at h
      split at h
      · cases List.mem_singleton.mp h
      · cases List.mem_singleton.mp h
      · cases List.mem_singleton.mp h
      · unfold baseFeatures at h
        grind
      · unfold baseFeatures at h
        grind
      · exact hshape h
    all_goals cases h
  | pointer a => exact hunnamed h
  | _ => cases hunnamed h

theorem kind_of_pointee (h : w.pointee? t = some e) : (w.plan t).kind = .nullable := by
  have hcore := pointee_eq_some.mp h
  unfold core at hcore
  unfold plan
  generalize w.unalias t = u at hcore
  cases u with
  | named n xs =>
    have hkind : w.kindOf (w.underlying (.named n xs)) = .nullable := by
      rw [hcore]
      rfl
    simp [namedPlan, hcore, kindOfNamed_of_kindOf hkind (Or.inr (Or.inr rfl))]
  | param b i l =>
    have hkind := w.kindOf_underlying_param b i l
    rw [hcore] at hkind
    cases hkind
  | pointer a => rfl
  | _ => cases hcore

/-- **What a portrait says is wrapped** is what the type points to. -/
theorem underlying_portrait (interfaces : List Ty) (t : Ty) :
    (w.portrait interfaces t).underlying = w.pointee? t := by
  cases hunder : (w.portrait interfaces t).underlying with
  | some e =>
    exact (pointee_eq_some.mpr (core_of_mem_features (mem_features_of_underlying hunder))).symm
  | none =>
    have hkind : (w.plan t).kind ≠ .nullable := by
      intro hnull
      obtain ⟨e, he⟩ := exists_underlying interfaces hnull
      cases hunder.symm.trans he
    cases hpoint : w.pointee? t with
    | none => rfl
    | some e => exact absurd (kind_of_pointee hpoint) hkind

theorem generic_portrait (interfaces : List Ty) (ht : w.unalias t = .named n xs)
    (hvalid : w.core t ≠ .invalid) :
    ((w.portrait interfaces t).origin, (w.portrait interfaces t).typeArgs) =
      if xs = [] then ("", []) else (w.typeString (.named n []), xs) := by
  have hno : ∀ {fs : List Feature} (P : Portrait Ty), (∀ o ts, Feature.generic o ts ∉ fs) →
      ((fs.foldl (Portrait.attach w interfaces) P).origin,
        (fs.foldl (Portrait.attach w interfaces) P).typeArgs) = (P.origin, P.typeArgs) := by
    intro fs P hfs
    rcases Portrait.generic_foldl (w := w) (I := interfaces) fs P with ⟨horigin, hargs⟩ | hf
    · rw [horigin, hargs]
    · exact absurd hf (hfs _ _)
  unfold portrait
  rw [(plan_of_named ht hvalid).2, namedFeatures, List.append_assoc, List.foldl_append, hno,
    List.foldl_append]
  · cases xs with
    | nil =>
      exact hno _ fun _ _ => generic_not_mem_underlyingFeatures
    | cons x xs => rfl
  · intro o ts hf
    rcases List.mem_append.mp hf with hf | hf
    · obtain ⟨e, h | h | h⟩ := mem_capabilityFeatures_cases hf <;> cases h
    · cases List.mem_singleton.mp hf

theorem typeArgs_portrait (interfaces : List Ty) (ht : w.unalias t = .named n xs)
    (hvalid : w.core t ≠ .invalid) : (w.portrait interfaces t).typeArgs = xs := by
  have hgeneric := congrArg Prod.snd (generic_portrait interfaces ht hvalid)
  cases xs with
  | nil => exact hgeneric
  | cons x xs => exact hgeneric

/-- A declared name is not empty: that of a package is followed by a dot, and the predeclared names
are known. -/
theorem typeString_ne_empty {d : Declaration} (hd : w.declaration? n = some d) :
    w.typeString (.named n []) ≠ "" := by
  obtain ⟨path, name⟩ := n
  intro hempty
  replace hempty : qualified path name = "" := (String.append_eq_empty_iff.mp hempty).1
  unfold qualified at hempty
  split at hempty
  · next hpath =>
    subst hpath hempty
    have hnone : w.declaration? ⟨"", ""⟩ = none := rfl
    cases hnone.symm.trans hd
  · next hpath => simp [hpath] at hempty

end World

end EverEqual
