import EverEqual.Types.Implements
import EverEqual.Proofs.Types.Shape

/-!
# Methods at first hand

The methods that a type lists come from its declaration, from the interface below it, and from what
is embedded there, level by level. The search ends on the first level if the type declares a method
of the name, and there is no other level if nothing is embedded. So what the instances of a
declaration list by such a name is written in one place, and differs by their arguments only.

* `World.Firsthand`: types that have a method of their own or embed nothing;
* `World.firsthand_of_listed`: what such a type lists is its own, or the interface asks for it;
* `World.Checked.oneType_of_listed`: what instances list is one type, if their arguments are.
-/

namespace EverEqual

namespace World

variable {w : World} {rank : String → Nat} {t u s s' : Ty} {n : TypeName} {xs ys : List Ty}
  {name : String} {indirect indirect' : Bool}

/-- The method of a name that a type declares. -/
def declaredMethod? (w : World) (name : String) (t : Ty) : Option Ty :=
  ((w.methods t).find? (·.1.isNamed "" name)).map (·.1.type)

/-- The method of a name that an interface asks for. -/
def demandedMethod? (w : World) (name : String) (t : Ty) : Option Ty :=
  match w.underlying t with
  | .interface f ms es => ((w.typeSet (.interface f ms es)).method? "" name).map (·.type)
  | _ => none

/-- Whether something is embedded in a type. -/
def embedsAny (w : World) (t : Ty) : Bool :=
  match w.underlying t with
  | .struct fs => fs.any (·.embedded)
  | .interface _ _ es => !es.isEmpty
  | _ => false

/-- A type does not need what is embedded in it to list a method by a name. -/
def Firsthand (w : World) (name : String) (t : Ty) : Prop :=
  (w.declaredMethod? name t).isSome = true ∨ w.embedsAny t = false

instance (w : World) (name : String) (t : Ty) : Decidable (w.Firsthand name t) :=
  inferInstanceAs (Decidable (_ ∨ _))

/-! ### The first level -/

theorem record_eq (l : Level) (c : Candidate) (path : List Nat) (m : Member Ty)
    (selection : Selection) (needsPointer : Bool) :
    ∃ hits, l.record c path m selection needsPointer = { l with hits := l.hits ++ hits } ∧
      ∀ hit ∈ hits, hit.selection = selection := by
  refine ⟨_, rfl, fun hit hmem => ?_⟩
  split at hmem
  · rcases List.mem_pair.mp hmem with rfl | rfl <;> rfl
  · rw [List.mem_singleton.mp hmem]

theorem foldl_searchField (isSought : Member Ty → Bool) (c : Candidate)
    (fs : List (Member Ty × Nat)) (l : Level) :
    ∃ hits next, fs.foldl (w.searchField isSought c) l =
        { l with hits := l.hits ++ hits, next := l.next ++ next } ∧
      (∀ hit ∈ hits, ∀ s, hit.selection ≠ .method s) ∧
      (fs.any (·.1.embedded) = false → next = []) := by
  induction fs generalizing l with
  | nil => exact ⟨[], [], by simp, by simp, fun _ => rfl⟩
  | cons f fs ih =>
    obtain ⟨hits, next, hfold, hfields, hnext⟩ := ih (w.searchField isSought c l f)
    obtain ⟨f, i⟩ := f
    rw [List.foldl_cons, hfold, List.any_cons, Bool.or_eq_false_iff]
    by_cases hf : isSought f = true
    · obtain ⟨found, hrecord, hfield⟩ := record_eq l c (c.path ++ [i]) f (.field f.type) false
      have hstep : w.searchField isSought c l (f, i) = { l with hits := l.hits ++ found } := by
        simp only [searchField, hf, if_true, hrecord]
      refine ⟨found ++ hits, next, by rw [hstep, List.append_assoc], fun h hmem s hs => ?_,
        fun hplain => hnext hplain.2⟩
      rcases List.mem_append.mp hmem with hmem | hmem
      · cases (hfield h hmem).symm.trans hs
      · exact hfields h hmem s hs
    · by_cases hembedded : f.embedded = true
      · obtain ⟨d, hstep⟩ :
            ∃ d, w.searchField isSought c l (f, i) = { l with next := l.next ++ [d] } := by
          simp [searchField, hf, hembedded]
        refine ⟨hits, d :: next, by rw [hstep, List.append_assoc]; rfl, hfields, fun hplain => ?_⟩
        cases hembedded.symm.trans hplain.1
      · have hstep : w.searchField isSought c l (f, i) = l := by
          simp [searchField, hf, hembedded]
        exact ⟨hits, next, by rw [hstep], hfields, fun hplain => hnext hplain.2⟩

/-- The fields of a struct are no methods, and an interface has those that it asks for. -/
theorem searchParts_eq (name : String) (c : Candidate) (l : Level) :
    ∃ hits next, w.searchParts (·.isNamed "" name) c l =
        { l with hits := l.hits ++ hits, next := l.next ++ next } ∧
      (∀ hit ∈ hits, ∀ s, hit.selection = .method s → w.demandedMethod? name c.type = some s) ∧
      (w.embedsAny c.type = false → next = []) := by
  unfold searchParts demandedMethod? embedsAny
  cases w.underlying c.type with
  | struct fs =>
    obtain ⟨hits, next, hfold, hfields, hnext⟩ :=
      foldl_searchField (w := w) (·.isNamed "" name) c fs.zipIdx l
    have hany : fs.zipIdx.any (·.1.embedded) = fs.any (·.embedded) := by
      conv_rhs => rw [← List.zipIdx_map_fst 0 fs, List.any_map]
      rfl
    exact ⟨hits, next, hfold, fun hit hmem s hs => absurd hs (hfields hit hmem s),
      fun hplain => hnext (hany.trans hplain)⟩
  | interface f ms es =>
    simp only [TypeSet.method?]
    cases (w.typeSet (.interface f ms es)).methods.find? (·.isNamed "" name) with
    | none => exact ⟨[], [], by simp, by simp, fun _ => rfl⟩
    | some m =>
      obtain ⟨hits, hrecord, hmethods⟩ := record_eq l c c.path m (.method m.type) false
      refine ⟨hits, [], hrecord.trans (by rw [List.append_nil]), fun hit hmem s hs => ?_,
        fun _ => rfl⟩
      cases (hmethods hit hmem).symm.trans hs
      rfl
  | _ => exact ⟨[], [], by simp, by simp, fun _ => rfl⟩

/-- On the first level there is the method that is declared, and what the parts of the type have. -/
theorem searchType_eq (name : String) (hname : t = .named n xs) (ht : w.unalias t = t)
    (indirect : Bool) :
    ∃ hits next, w.searchType true (·.isNamed "" name) { seen := [] } ⟨t, indirect, false, []⟩ =
        ⟨[t], (((w.methods t).find? (·.1.isNamed "" name)).map fun m =>
          (⟨m.1.name, m.1.home, .method m.1.type, m.2, indirect, []⟩ : Hit)).toList ++ hits,
          next⟩ ∧
      (∀ hit ∈ hits, ∀ s, hit.selection = .method s → w.demandedMethod? name t = some s) ∧
      (w.embedsAny t = false → next = []) := by
  subst hname
  cases hm : (w.methods (.named n xs)).find? (·.1.isNamed "" name) with
  | none =>
    obtain ⟨hits, next, hparts, hrest⟩ := searchParts_eq (w := w) name
      ⟨.named n xs, indirect, false, []⟩ ⟨[.named n xs], [], []⟩
    exact ⟨hits, next, by simpa [searchType, ht, hm] using hparts, hrest⟩
  | some m =>
    obtain ⟨hits, next, hparts, hrest⟩ := searchParts_eq (w := w) name
      ⟨.named n xs, indirect, false, []⟩
      ⟨[.named n xs], [⟨m.1.name, m.1.home, .method m.1.type, m.2, indirect, []⟩], []⟩
    exact ⟨hits, next, by simpa [searchType, ht, hm, Level.record] using hparts, hrest⟩

theorem searchLevels_nil (fieldsClash : Bool) (isSought : Member Ty → Bool) (k : Nat)
    (seen : List Ty) : w.searchLevels fieldsClash isSought k seen [] = .missing := by
  cases k <;> rfl

/-! ### What is listed -/

theorem exists_of_method? {r : Search} (h : r.method? = some s) :
    ∃ hit, r = .found hit ∧ hit.selection = .method s := by
  cases r with
  | found hit =>
    refine ⟨hit, rfl, ?_⟩
    unfold Search.method? at h
    dsimp only at h
    split at h
    · next hselection => rw [hselection, Option.some.inj h]
    · cases h
  | _ => cases h

theorem exists_of_listed (hderef : w.deref u = (t, indirect))
    (hs : w.listedMethod? u name = some s) :
    ∃ hit, hit.selection = .method s ∧
      w.searchLevels true (·.isNamed "" name) w.horizon [] [⟨t, indirect, false, []⟩] =
        .found hit := by
  obtain ⟨hit, hfound, hselection⟩ := exists_of_method? hs
  refine ⟨hit, hselection, ?_⟩
  unfold searchWith at hfound
  rw [hderef] at hfound
  dsimp only at hfound
  split at hfound
  · cases hfound
  · split at hfound
    · next hit' hsearch =>
      split at hfound
      · cases hfound
      · rw [hsearch, hfound]
    · exact hfound

/-- **What a type lists at first hand** it declares, or else the interface asks for it. -/
theorem firsthand_of_listed (hname : t = .named n xs) (ht : w.unalias t = t)
    (h : w.Firsthand name t) (hderef : w.deref u = (t, indirect))
    (hs : w.listedMethod? u name = some s) :
    (w.declaredMethod? name t).or (w.demandedMethod? name t) = some s := by
  obtain ⟨hit, hselection, hsearch⟩ := exists_of_listed hderef hs
  obtain ⟨hits, next, hlevel, hparts, hnext⟩ := searchType_eq name hname ht indirect
  unfold Firsthand at h
  unfold declaredMethod? at h ⊢
  cases hk : w.horizon with
  | zero =>
    rw [hk] at hsearch
    cases hsearch
  | succ k =>
    rw [hk] at hsearch
    simp only [searchLevels, List.foldl_cons, List.foldl_nil, hlevel] at hsearch
    cases hm : (w.methods t).find? (·.1.isNamed "" name) with
    | none =>
      rw [hm] at hsearch h
      cases hits with
      | nil =>
        rw [hnext (h.resolve_left Bool.false_ne_true)] at hsearch
        cases (searchLevels_nil true _ k [t]).symm.trans hsearch
      | cons hit' hits =>
        cases hits with
        | nil =>
          cases hsearch
          exact hparts hit List.mem_cons_self s hselection
        | cons => cases hsearch
    | some m =>
      rw [hm] at hsearch
      cases hits with
      | nil =>
        cases hsearch
        cases hselection
        rfl
      | cons => cases hsearch

/-! ### Instances -/

theorem methods_addMethods_map (g : Ty → Ty) (ms acc : List (Member Ty)) :
    (Elements.addMethods { methods := acc.map fun m => { m with type := g m.type } }
        (ms.map fun m => { m with type := g m.type })).methods =
      (Elements.addMethods { methods := acc } ms).methods.map
        fun m => { m with type := g m.type } := by
  unfold Elements.addMethods
  dsimp only
  induction ms generalizing acc with
  | nil => rfl
  | cons m ms ih =>
    have hany : (acc.map fun m => { m with type := g m.type }).any (·.isNamed m.home m.name) =
        acc.any (·.isNamed m.home m.name) := by
      rw [List.any_map]
      rfl
    rw [List.map_cons, List.foldl_cons, List.foldl_cons, hany]
    split
    · exact ih acc
    · have hrest := ih (acc ++ [m])
      rwa [List.map_append] at hrest

theorem methods_typeSet_map (g : Ty → Ty) (f : InterfaceForm) (ms : List (Member Ty)) :
    (w.typeSet (.interface f (ms.map fun m => { m with type := g m.type }) [])).methods =
      (w.typeSet (.interface f ms [])).methods.map fun m => { m with type := g m.type } := by
  have hmethods : ∀ ms : List (Member Ty), (w.typeSet (.interface f ms [])).methods =
      if w.horizon = 0 then [] else (Elements.addMethods {} ms).methods := by
    intro ms
    unfold typeSet
    cases hk : w.horizon with
    | zero => rfl
    | succ k =>
      simp only [typeSetIn, Elements.typeSet, elements, hk, gather, List.foldl_nil]
      split <;> rfl
  rw [hmethods, hmethods]
  split
  · rfl
  · exact methods_addMethods_map g ms []

theorem filled_map {α : Type} (hargs : List.Forall₂ w.OneType xs ys) (o : Option α) (g : α → Ty)
    (n : TypeName) : Option.Rel w.OneType (o.map fun a => (g a).subst n xs)
      (o.map fun a => (g a).subst n ys) := by
  cases o with
  | none => exact .none
  | some a => exact .some (.filled hargs (g a) n)

theorem declaredMethod?_rel (name : String) (hargs : List.Forall₂ w.OneType xs ys) :
    Option.Rel w.OneType (w.declaredMethod? name (.named n xs))
      (w.declaredMethod? name (.named n ys)) := by
  cases hd : w.declaration? n with
  | none =>
    simp only [declaredMethod?, methods, hd, List.find?_nil, Option.map_none]
    exact .none
  | some d =>
    simp only [declaredMethod?, methods, hd, List.find?_map, Option.map_map]
    -- The name of a method does not depend on the arguments, so one method is found for both.
    let isFound (m : Method) : Bool :=
      (⟨m.name, m.signature, n.path, false, []⟩ : Member Ty).isNamed "" name
    exact filled_map hargs (d.methods.find? isFound) (·.signature) n

namespace Checked

variable (hw : w.Checked rank)

include hw

theorem demandedMethod?_rel (name : String) (hargs : List.Forall₂ w.OneType xs ys)
    (h : w.embedsAny (.named n xs) = false) :
    Option.Rel w.OneType (w.demandedMethod? name (.named n xs))
      (w.demandedMethod? name (.named n ys)) := by
  unfold demandedMethod?
  unfold embedsAny at h
  cases hd : w.declaration? n with
  | none =>
    rw [underlying_of_undeclared hd, underlying_of_undeclared hd]
    exact .none
  | some d =>
    rw [hw.underlying_named hd, Ty.subst_eq_mapChildren (hw.body_ne_param hd)] at h ⊢
    rw [hw.underlying_named hd, Ty.subst_eq_mapChildren (hw.body_ne_param hd)]
    cases hbody : w.body d with
    | interface f ms es =>
      rw [hbody] at h
      obtain rfl : es = [] := by simpa [Ty.mapChildren] using h
      simp only [Ty.mapChildren, List.map_nil, methods_typeSet_map, TypeSet.method?,
        List.find?_map, Option.map_map]
      exact filled_map hargs
        ((w.typeSet (.interface f ms [])).methods.find? (·.isNamed "" name)) (·.type) n
    | _ => exact .none

/-- **What instances list at first hand is one type**, if their arguments are. -/
theorem oneType_of_listed (hargs : List.Forall₂ w.OneType xs ys)
    (hx : w.unalias (.named n xs) = .named n xs) (hy : w.unalias (.named n ys) = .named n ys)
    (h : w.Firsthand name (.named n xs)) (h' : w.Firsthand name (.named n ys))
    (hderef : w.deref t = (.named n xs, indirect)) (hderef' : w.deref u = (.named n ys, indirect'))
    (hs : w.listedMethod? t name = some s) (hs' : w.listedMethod? u name = some s') :
    w.OneType s s' := by
  have hlisted := firsthand_of_listed rfl hx h hderef hs
  have hlisted' := firsthand_of_listed rfl hy h' hderef' hs'
  have hdeclared := declaredMethod?_rel (w := w) (n := n) name hargs
  unfold Firsthand at h
  generalize w.declaredMethod? name (.named n xs) = o at h hlisted hdeclared
  generalize w.declaredMethod? name (.named n ys) = o' at hlisted' hdeclared
  cases hdeclared with
  | some hone =>
    cases hlisted
    cases hlisted'
    exact hone
  | none =>
    have hdemanded := hw.demandedMethod?_rel name hargs (h.resolve_left Bool.false_ne_true)
    rw [Option.none_or] at hlisted hlisted'
    rw [hlisted, hlisted'] at hdemanded
    cases hdemanded with
    | some hone => exact hone

end Checked

end World

end EverEqual
