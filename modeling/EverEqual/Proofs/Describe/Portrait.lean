import EverEqual.Proofs.Comparison.Similar
import EverEqual.Proofs.Describe.Plan
import EverEqual.Proofs.Descriptor.Filling
import Mathlib.Data.Finset.Card

/-!
# Portraits of types

A portrait is a descriptor in terms of types: where a descriptor refers to another descriptor, the
portrait names a type. It is read off the plan of a type, without a draft. A descriptor depicts a
portrait if the two agree once every type is replaced by the descriptor that stands for it.

* `World.portrait`: the portrait of a type;
* `Portrait.Depicts`, `Portrait.Records`: a descriptor agrees with a portrait, and its ancestors are
  those of the portrait and of the descriptors of its bases;
* `World.fill_blank`: carrying out a plan gives a descriptor that depicts the portrait;
* `Portrait.Depicts.toMatch`: two descriptors of one portrait look the same to rules.
-/

namespace EverEqual

/-- A descriptor in terms of types, or of whatever stands for them. -/
structure Portrait (α : Type) where
  /-- The text it is remembered by. -/
  entry : Identity
  id : Identity
  kind : Kind
  element : Option α := none
  key : Option α := none
  underlying : Option α := none
  tuple : List α := []
  origin : Identity := ""
  typeArgs : List α := []
  /-- The identities toward which a conversion is declared. -/
  conversions : Finset Identity := ∅
  /-- The identities toward which a typed equality is declared. -/
  equatable : Finset Identity := ∅
  /-- The ancestors that are not inherited. -/
  own : Finset Identity := ∅
  bases : List α := []
deriving DecidableEq

namespace Portrait

variable {α β : Type}

/-- The portrait with every type replaced. -/
def map (f : α → β) (P : Portrait α) : Portrait β :=
  { P with
    element := P.element.map f
    key := P.key.map f
    underlying := P.underlying.map f
    tuple := P.tuple.map f
    typeArgs := P.typeArgs.map f
    bases := P.bases.map f }

/-- The types that a portrait names. -/
def parts (P : Portrait α) : List α :=
  P.element.toList ++ P.key.toList ++ P.underlying.toList ++ P.tuple ++ P.typeArgs ++ P.bases

/-- The portrait of a type of which nothing is said yet. -/
def blank (p : Plan) : Portrait Ty :=
  { entry := p.entry, id := p.id, kind := p.kind }

/-- The effect of one feature on a portrait. -/
def attach (w : World) (interfaces : List Ty) (P : Portrait Ty) : Feature → Portrait Ty
  | .element t => { P with element := some t }
  | .key t => { P with key := some t }
  | .underlying t => { P with underlying := some t }
  | .bases ts => { P with bases := P.bases ++ ts }
  | .ancestors t kind => { P with own := P.own ∪ (w.ancestorIds interfaces t kind).toFinset }
  | .conversion t => { P with conversions := insert (w.plan t).id P.conversions }
  | .equatable t => { P with equatable := insert (w.plan t).id P.equatable }
  | .tuple ts => { P with tuple := ts }
  | .generic origin args => { P with origin := origin, typeArgs := args }

end Portrait

namespace World

variable (w : World)

/-- The portrait of a type. -/
def portrait (interfaces : List Ty) (t : Ty) : Portrait Ty :=
  (w.plan t).features.foldl (Portrait.attach w interfaces) (.blank (w.plan t))

/-- The text by which the descriptor of a type is remembered. -/
def entry (t : Ty) : Identity := (w.plan t).entry

/-- The portrait of a type with the types of its parts given by the texts they are remembered by. -/
def outline (interfaces : List Ty) (t : Ty) : Portrait Identity :=
  (w.portrait interfaces t).map w.entry

end World

namespace Portrait

variable {α β : Type} {g : Graph} {R : α → Ref → Prop} {P : Portrait α} {n : Node}

/-- A descriptor agrees with a portrait, for a relation that says which descriptors stand for
which types. Ancestors are left out. -/
structure Depicts (R : α → Ref → Prop) (P : Portrait α) (n : Node) : Prop where
  id : n.id = P.id
  kind : n.kind = P.kind
  element : Option.Rel R P.element n.element
  key : Option.Rel R P.key n.key
  underlying : Option.Rel R P.underlying n.underlying
  tuple : List.Forall₂ R P.tuple n.tuple
  origin : n.origin = P.origin
  typeArgs : List.Forall₂ R P.typeArgs n.typeArgs
  convertsTo : ∀ a, n.convertsTo a = if a ∈ P.conversions then some .explicit else none
  equatableTo : ∀ a, n.equatableTo a = decide (a ∈ P.equatable)

/-- The ancestors of a descriptor are its own, its bases and what these have as ancestors at the
time; it is none itself. -/
def Records (g : Graph) (R : α → Ref → Prop) (P : Portrait α) (n : Node) : Prop :=
  ∀ a, a ∈ n.ancestors ↔ a ≠ P.id ∧
    (a ∈ P.own ∨ ∃ u ∈ P.bases, ∃ x, R u x ∧ (a = (g.node x).id ∨ a ∈ (g.node x).ancestors))

theorem Depicts.imp_of_parts {S : α → Ref → Prop} (h : P.Depicts R n)
    (hRS : ∀ u ∈ P.parts, ∀ x, R u x → S u x) : P.Depicts S n where
  id := h.id
  kind := h.kind
  element := rel_imp_of_mem h.element fun u hu x _ => hRS u (by simp [parts, hu]) x
  key := rel_imp_of_mem h.key fun u hu x _ => hRS u (by simp [parts, hu]) x
  underlying := rel_imp_of_mem h.underlying fun u hu x _ => hRS u (by simp [parts, hu]) x
  tuple := forall₂_imp_of_mem h.tuple fun u hu x _ => hRS u (by simp [parts, hu]) x
  origin := h.origin
  typeArgs := forall₂_imp_of_mem h.typeArgs fun u hu x _ => hRS u (by simp [parts, hu]) x
  convertsTo := h.convertsTo
  equatableTo := h.equatableTo

theorem Depicts.imp {S : α → Ref → Prop} (h : P.Depicts R n) (hRS : ∀ u x, R u x → S u x) :
    P.Depicts S n :=
  h.imp_of_parts fun u _ => hRS u

theorem Depicts.of_agreesBut {m : Node} (h : P.Depicts R n) (hm : m.AgreesBut n) :
    P.Depicts R m := by
  obtain ⟨as, rfl⟩ := hm
  exact ⟨h.id, h.kind, h.element, h.key, h.underlying, h.tuple, h.origin, h.typeArgs,
    h.convertsTo, h.equatableTo⟩

theorem rel_map_left {R : β → Ref → Prop} {f : α → β} {a : Option α} {b : Option Ref}
    (h : Option.Rel (fun u => R (f u)) a b) : Option.Rel R (a.map f) b := by
  cases h with
  | none => exact .none
  | some hxy => exact .some hxy

theorem Depicts.map {R : β → Ref → Prop} {f : α → β} (h : P.Depicts (fun u => R (f u)) n) :
    (P.map f).Depicts R n where
  id := h.id
  kind := h.kind
  element := rel_map_left h.element
  key := rel_map_left h.key
  underlying := rel_map_left h.underlying
  tuple := List.forall₂_map_left_iff.mpr h.tuple
  origin := h.origin
  typeArgs := List.forall₂_map_left_iff.mpr h.typeArgs
  convertsTo := h.convertsTo
  equatableTo := h.equatableTo

theorem rel_trans {S : α → Ref → Prop} {a : Option α} {x y : Option Ref} (hx : Option.Rel R a x)
    (hy : Option.Rel S a y) : Option.Rel (fun x y => ∃ u, R u x ∧ S u y) x y := by
  cases hx with
  | none => cases hy; exact .none
  | some hux => cases hy with
    | some huy => exact .some ⟨_, hux, huy⟩

theorem forall₂_trans {S : α → Ref → Prop} {us : List α} {xs ys : List Ref}
    (hx : List.Forall₂ R us xs) (hy : List.Forall₂ S us ys) :
    List.Forall₂ (fun x y => ∃ u, R u x ∧ S u y) xs ys := by
  induction hx generalizing ys with
  | nil => cases hy; exact .nil
  | cons hux _ ih => cases hy with
    | cons huy hys => exact .cons ⟨_, hux, huy⟩ (ih hys)

/-- **Two descriptors of one portrait look the same to rules** if their ancestors do. -/
theorem Depicts.toMatch {S : α → Ref → Prop} {m : Node} (hm : P.Depicts R m) (hn : P.Depicts S n)
    (hanc : ∀ a, a ∈ m.ancestors ↔ a ∈ n.ancestors) :
    m.Match (fun x y => ∃ u, R u x ∧ S u y) n where
  id := hm.id.trans hn.id.symm
  kind := hm.kind.trans hn.kind.symm
  element := rel_trans hm.element hn.element
  key := rel_trans hm.key hn.key
  underlying := rel_trans hm.underlying hn.underlying
  tuple := forall₂_trans hm.tuple hn.tuple
  origin := hm.origin.trans hn.origin.symm
  typeArgs := forall₂_trans hm.typeArgs hn.typeArgs
  convertsTo := fun a => (hm.convertsTo a).trans (hn.convertsTo a).symm
  equatableTo := fun a => (hm.equatableTo a).trans (hn.equatableTo a).symm
  hasAncestor := fun a => by simp [Node.hasAncestor, hanc]

theorem rel_of_map_left {R : β → Ref → Prop} {f : α → β} {a : Option α} {b : Option Ref}
    (h : Option.Rel R (a.map f) b) : Option.Rel (fun u => R (f u)) a b := by
  cases a with
  | none => cases h; exact .none
  | some u => cases h with
    | some hux => exact .some hux

theorem Depicts.of_map {R : β → Ref → Prop} {f : α → β} (h : (P.map f).Depicts R n) :
    P.Depicts (fun u => R (f u)) n where
  id := h.id
  kind := h.kind
  element := rel_of_map_left h.element
  key := rel_of_map_left h.key
  underlying := rel_of_map_left h.underlying
  tuple := List.forall₂_map_left_iff.mp h.tuple
  origin := h.origin
  typeArgs := List.forall₂_map_left_iff.mp h.typeArgs
  convertsTo := h.convertsTo
  equatableTo := h.equatableTo

theorem depicts_blank (R : Ty → Ref → Prop) (p : Plan) :
    (blank p).Depicts R { kind := p.kind, id := p.id } :=
  ⟨rfl, rfl, .none, .none, .none, .nil, rfl, .nil, fun _ => rfl, fun _ => rfl⟩

theorem records_blank (R : Ty → Ref → Prop) (p : Plan) :
    (blank p).Records g R { kind := p.kind, id := p.id } := by
  intro a
  simp [blank]

end Portrait

theorem exists_of_rel_left {α : Type} {R : α → Ref → Prop} {o : Option α} {o' : Option Ref}
    (h : Option.Rel R o o') {a : α} (ho : o = some a) : ∃ x, o' = some x ∧ R a x := by
  cases h with
  | none => cases ho
  | some hax =>
    cases ho
    exact ⟨_, rfl, hax⟩

theorem exists_of_rel_right {α : Type} {R : α → Ref → Prop} {o : Option α} {o' : Option Ref}
    (h : Option.Rel R o o') {x : Ref} (ho : o' = some x) : ∃ a, o = some a ∧ R a x := by
  cases h with
  | none => cases ho
  | some hax =>
    cases ho
    exact ⟨_, rfl, hax⟩

theorem exists_iff_of_forall₂ {α : Type} {R : α → Ref → Prop} {us : List α} {xs : List Ref}
    {Q : Ref → Prop} (h : List.Forall₂ R us xs) (huniq : ∀ u x y, R u x → R u y → x = y) :
    (∃ x ∈ xs, Q x) ↔ ∃ u ∈ us, ∃ x, R u x ∧ Q x := by
  constructor
  · rintro ⟨x, hx, hQ⟩
    obtain ⟨u, hu, hux⟩ := exists_mem_of_forall₂ h.flip hx
    exact ⟨u, hu, x, hux, hQ⟩
  · rintro ⟨u, hu, x, hux, hQ⟩
    obtain ⟨y, hy, huy⟩ := exists_mem_of_forall₂ h hu
    exact ⟨y, hy, huniq u x y hux huy ▸ hQ⟩

/-- The attribute stands for the feature, with descriptors that stand for its types. -/
def Feature.Becomes (w : World) (interfaces : List Ty) (R : Ty → Ref → Prop) (f : Feature)
    (a : Attribute) : Prop :=
  ∃ refs, List.Forall₂ R f.types refs ∧ a = f.toAttribute w interfaces refs

section Attach

variable {w : World} {I : List Ty} {g : Graph} {R : Ty → Ref → Prop} {P : Portrait Ty} {n : Node}

/-- **One feature**: its attribute takes a descriptor of a portrait to one of the portrait with the
feature. -/
theorem Portrait.Depicts.attach (hP : P.Depicts R n) (hrec : P.Records g R n)
    (hid : ∀ t x, R t x → (g.node x).id = (w.plan t).id) (huniq : ∀ t x y, R t x → R t y → x = y)
    {f : Feature} {a : Attribute} (ha : f.Becomes w I R a) :
    ∃ m, n.attach g a = (m, none) ∧ (P.attach w I f).Depicts R m ∧
      (P.attach w I f).Records g R m := by
  obtain ⟨refs, hrefs, rfl⟩ := ha
  cases f with
  | element t =>
    cases hrefs with
    | cons hx hnil =>
      cases hnil
      exact ⟨_, rfl, { hP with element := .some hx }, hrec⟩
  | key t =>
    cases hrefs with
    | cons hx hnil =>
      cases hnil
      exact ⟨_, rfl, { hP with key := .some hx }, hrec⟩
  | underlying t =>
    cases hrefs with
    | cons hx hnil =>
      cases hnil
      exact ⟨_, rfl, { hP with underlying := .some hx }, hrec⟩
  | bases ts =>
    refine ⟨refs.foldl (fun n r => n.addBase (g.node r)) n, ?_, ?_, fun b => ?_⟩
    · simp [Feature.toAttribute, Node.attach, leading_map_some, missingIn_map_some]
    · exact { hP.of_agreesBut (Node.agreesBut_foldl (fun n r => n.agreesBut_addBase (g.node r))
        refs n) with }
    · rw [Node.mem_ancestors_foldl_addBase, hrec b, hP.id, exists_iff_of_forall₂ hrefs huniq]
      simp only [Portrait.attach, Feature.types, List.mem_append]
      grind
  | ancestors t kind =>
    refine ⟨(w.ancestorIds I t kind).foldl Node.addAncestor n, rfl, ?_, fun b => ?_⟩
    · exact { hP.of_agreesBut (Node.agreesBut_foldl Node.agreesBut_addAncestor _ n) with }
    · rw [Node.mem_ancestors_foldl_addAncestor, hrec b, hP.id]
      simp only [Portrait.attach, Finset.mem_union, List.mem_toFinset]
      grind
  | conversion t =>
    cases hrefs with
    | cons hx hnil =>
      cases hnil
      refine ⟨_, rfl, { hP with convertsTo := fun b => ?_ }, hrec⟩
      have hb : n.conversions.find? b = _ := hP.convertsTo b
      simp only [Portrait.attach, Node.convertsTo, IdentityMap.find?_insert, hid _ _ hx, hb,
        Finset.mem_insert]
      grind
  | equatable t =>
    cases hrefs with
    | cons hx hnil =>
      cases hnil
      refine ⟨_, rfl, { hP with equatableTo := fun b => ?_ }, hrec⟩
      have hb : n.equatable.contains b = decide (b ∈ P.equatable) := hP.equatableTo b
      simp only [List.contains_eq_mem, decide_eq_decide] at hb
      simp [Portrait.attach, Node.equatableTo, hid _ _ hx, hb]
  | tuple ts =>
    refine ⟨{ n with tuple := refs }, ?_, { hP with tuple := hrefs }, hrec⟩
    simp [Feature.toAttribute, Node.attach, leading_map_some, missingIn_map_some]
  | generic origin args =>
    refine ⟨{ n with origin := origin, typeArgs := refs }, ?_,
      { hP with origin := rfl, typeArgs := hrefs }, hrec⟩
    simp [Feature.toAttribute, Node.attach, leading_map_some, missingIn_map_some]

/-- **All features** of a plan, one after the other. -/
theorem Portrait.Depicts.attachAll (hid : ∀ t x, R t x → (g.node x).id = (w.plan t).id)
    (huniq : ∀ t x y, R t x → R t y → x = y) {features : List Feature} {as : List Attribute}
    (has : List.Forall₂ (Feature.Becomes w I R) features as) (hP : P.Depicts R n)
    (hrec : P.Records g R n) :
    ∃ m, n.attachAll g as = (m, none) ∧
      (features.foldl (Portrait.attach w I) P).Depicts R m ∧
      (features.foldl (Portrait.attach w I) P).Records g R m := by
  induction has generalizing P n with
  | nil => exact ⟨n, rfl, hP, hrec⟩
  | cons ha _ ih =>
    obtain ⟨m, hm, hPm, hrecm⟩ := hP.attach hrec hid huniq ha
    obtain ⟨m', hm', h'⟩ := ih hPm hrecm
    refine ⟨m', ?_, h'⟩
    rw [Node.attachAll, hm]
    exact hm'

end Attach

namespace Portrait

variable {w : World} {I : List Ty}

theorem foldl_attach_head (fs : List Feature) (P : Portrait Ty) :
    (fs.foldl (attach w I) P).entry = P.entry ∧ (fs.foldl (attach w I) P).id = P.id ∧
      (fs.foldl (attach w I) P).kind = P.kind := by
  induction fs generalizing P with
  | nil => exact ⟨rfl, rfl, rfl⟩
  | cons f fs ih =>
    obtain ⟨hentry, hid, hkind⟩ := ih (P.attach w I f)
    rw [List.foldl_cons, hentry, hid, hkind]
    cases f <;> exact ⟨rfl, rfl, rfl⟩

theorem isSome_underlying_foldl {fs : List Feature} {P : Portrait Ty}
    (h : P.underlying.isSome = true ∨ ∃ e, Feature.underlying e ∈ fs) :
    (fs.foldl (attach w I) P).underlying.isSome = true := by
  induction fs generalizing P with
  | nil => simpa using h
  | cons f fs ih =>
    rw [List.foldl_cons]
    apply ih
    rcases h with h | ⟨e, he⟩
    · left
      cases f with
      | underlying t => rfl
      | _ => exact h
    · rcases List.mem_cons.mp he with rfl | he
      · exact Or.inl rfl
      · exact Or.inr ⟨e, he⟩

end Portrait

namespace World

variable {w : World} {I : List Ty} {g : Graph} {R : Ty → Ref → Prop} {t : Ty}

@[simp] theorem entry_portrait (t : Ty) : (w.portrait I t).entry = w.entry t :=
  (Portrait.foldl_attach_head _ _).1

@[simp] theorem id_portrait (t : Ty) : (w.portrait I t).id = (w.plan t).id :=
  (Portrait.foldl_attach_head _ _).2.1

@[simp] theorem kind_portrait (t : Ty) : (w.portrait I t).kind = (w.plan t).kind :=
  (Portrait.foldl_attach_head _ _).2.2

theorem eq_pointer_of_kindOf (h : w.kindOf t = .nullable) : ∃ e, t = .pointer e := by
  cases t with
  | pointer e => exact ⟨e, rfl⟩
  | basic b => cases b <;> simp [kindOf, Basic.kind, Basic.isBoolean, Basic.isString,
      Basic.isNumeric, Basic.isInteger] at h
  | func ps rs v =>
    simp only [kindOf] at h
    split at h <;> cases h
  | _ => cases h

theorem kindOf_of_kindOfNamed {n : TypeName} {args : List Ty}
    (h : w.kindOfNamed n args = .nullable) :
    w.kindOf (w.underlying (.named n args)) = .nullable := by
  unfold kindOfNamed at h
  split at h
  · cases h
  · generalize w.kindOf (w.underlying (.named n args)) = k at h
    cases k with
    | nullable => rfl
    | _ => cases h

theorem exists_underlying_of_namedPlan {n : TypeName} {args : List Ty}
    (h : (w.namedPlan n args).kind = .nullable) :
    ∃ e, Feature.underlying e ∈ (w.namedPlan n args).features := by
  unfold namedPlan at h ⊢
  by_cases hinv : w.underlying (.named n args) = .invalid
  · simp [hinv, Plan.unresolved] at h
  · simp only [hinv, if_false] at h ⊢
    obtain ⟨e, he⟩ := eq_pointer_of_kindOf (kindOf_of_kindOfNamed h)
    refine ⟨e, ?_⟩
    simp [namedFeatures, underlyingFeatures, shapeFeatures, partFeatures, h, he]

theorem exists_underlying_of_unnamedPlan (h : (w.unnamedPlan t).kind = .nullable) :
    ∃ e, Feature.underlying e ∈ (w.unnamedPlan t).features := by
  unfold unnamedPlan at h ⊢
  by_cases hunk : w.kindOf t = .unknown
  · simp [hunk, Plan.unresolved] at h
  · simp only [hunk, if_false] at h ⊢
    obtain ⟨e, rfl⟩ := eq_pointer_of_kindOf h
    exact ⟨e, by simp [shapeFeatures, partFeatures]⟩

theorem exists_underlying_of_nullable (h : (w.plan t).kind = .nullable) :
    ∃ e, Feature.underlying e ∈ (w.plan t).features := by
  unfold plan at h ⊢
  generalize w.unalias t = u at h ⊢
  cases u with
  | named n args => exact exists_underlying_of_namedPlan h
  | _ => exact exists_underlying_of_unnamedPlan h

theorem exists_underlying (I : List Ty) (ht : (w.plan t).kind = .nullable) :
    ∃ a, (w.portrait I t).underlying = some a :=
  Option.isSome_iff_exists.mp
    (Portrait.isSome_underlying_foldl (Or.inr (exists_underlying_of_nullable ht)))

/-- **Carrying out a plan gives a descriptor of the portrait**, and there is no defect. -/
theorem fill_blank (hid : ∀ t x, R t x → (g.node x).id = (w.plan t).id)
    (huniq : ∀ t x y, R t x → R t y → x = y) {as : List Attribute}
    (has : List.Forall₂ (Feature.Becomes w I R) (w.plan t).features as) :
    ∃ m, Node.fill g { kind := (w.plan t).kind, id := (w.plan t).id } as = (m, none) ∧
      m.Finished ∧ (w.portrait I t).Depicts R m ∧ (w.portrait I t).Records g R m := by
  obtain ⟨m, hm, hP, hrec⟩ := Portrait.Depicts.attachAll hid huniq has
    (Portrait.depicts_blank R (w.plan t)) (Portrait.records_blank R (w.plan t))
  replace hP : (w.portrait I t).Depicts R m := hP
  have hsound : m.unsound = none := by
    refine Node.unsound_eq_none_iff.mpr fun hk => ?_
    have hkind : (w.plan t).kind = .nullable := by
      rw [← kind_portrait (I := I) t, ← hP.kind, hk]
    obtain ⟨u, hu⟩ := exists_underlying I hkind
    rcases none_or_some_of_rel hP.underlying with ⟨hnone, -⟩ | ⟨u, x, -, hx, -⟩
    · cases hnone.symm.trans hu
    · rw [hx]
      rfl
  refine ⟨{ m with completed := true }, ?_, ⟨rfl, ?_⟩, ⟨hP.id, hP.kind, hP.element, hP.key,
    hP.underlying, hP.tuple, hP.origin, hP.typeArgs, hP.convertsTo, hP.equatableTo⟩, hrec⟩
  · simp [Node.fill, hm, hsound]
  · exact hsound

end World

end EverEqual
