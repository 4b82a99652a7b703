import EverEqual.Proofs.Check.Mirrored
import EverEqual.Proofs.Check.Registered
import EverEqual.Proofs.Comparison.Anything
import EverEqual.Proofs.Describe.Owned

/-!
# Operands against anything

A variable of the interface without methods can hold every value, so an operand can always equal
one, unless its type is a pointer that points to itself in the end. What decides is where the
pointers of the type lead, through declared pointer types and aliases, whatever else the type is.

A description follows pointers by texts. Types that are written alike share a descriptor, so where a
pointer type and something that is no pointer are written alike, pointers can seem to go round.

* `World.Traceable`, `World.SetsAnyApart`: what is asked of texts;
* `World.any_mem_own`: which types have the interface without methods as an ancestor;
* `Draft.Owned.unwraps_iff_behind`: the layers of a descriptor are the pointers of its type;
* `check_any`: the finding on any operand against anything;
* `check_knot`: a pointer that seems to go round.
-/

namespace EverEqual

/-! ### Texts and pointers -/

/-- The predeclared name of the interface without methods. -/
def Ty.any : Ty := .named ⟨"", "any"⟩ []

/-- The plan of an interface without methods and without a name. -/
def Plan.any : Plan := ⟨"any", "any", .interface, []⟩

namespace World

variable {w : World} {roots : Set Ty} {t u v o : Ty}

/-- Pointers can be followed by texts: whatever is written like a type on the way points to what is
written alike. -/
def Traceable (w : World) (roots : Set Ty) (t : Ty) : Prop :=
  ∀ u, w.Passes t u → ∀ v, w.Met roots v → w.text v = w.text u →
    (w.pointee? v).map w.text = (w.pointee? u).map w.text

/-- Only interfaces without methods and without a name are written like them. -/
def SetsAnyApart (w : World) (roots : Set Ty) : Prop :=
  ∀ t, w.Met roots t → w.text t = w.text .any ∨ w.text t = "any" → w.plan t = .any

theorem entry_cases (t : Ty) : w.entry t = w.text t ∨ w.plan t = .any := by
  unfold entry text plan
  generalize w.unalias t = u
  have hunnamed : (w.unnamedPlan u).entry = w.typeString u ∨ w.unnamedPlan u = .any := by
    unfold unnamedPlan
    by_cases hunknown : w.kindOf u = .unknown
    · simp [hunknown, Plan.unresolved]
    · by_cases hempty : w.kindOf u = .interface ∧ w.isEmptyInterface u = true
      · right
        cases u with
        | interface f ms es => simp [hempty, Plan.any, shapeFeatures, partFeatures]
        | basic b => cases b <;> cases hempty.1
        | func ps rs v =>
          have hkind := hempty.1
          simp only [kindOf] at hkind
          split at hkind <;> cases hkind
        | _ => cases hempty.1
      · simp [hunknown, hempty]
  cases u with
  | named n args => exact Or.inl (w.entry_namedPlan n args)
  | _ => exact hunnamed

theorem pointee_of_plan_any (h : w.plan t = .any) : w.pointee? t = none := by
  refine pointee_eq_none_of_kind ?_
  rw [h]
  decide

theorem SetsAnyApart.plan_of_entry (h : w.SetsAnyApart roots) (ho : w.Met roots o)
    (hany : w.entry o = w.text .any ∨ w.entry o = "any") : w.plan o = .any := by
  rcases entry_cases o with hentry | hplan
  · exact h o ho (hentry ▸ hany)
  · exact hplan

theorem entry_of_plan_any (h : w.plan t = .any) : w.entry t = "any" := by
  rw [entry, h]
  rfl

/-- What is remembered for a type that is written like one on the way points to what is written
alike. -/
theorem Traceable.pointees_of_entry (hw : w.Traceable roots t) (hany : w.SetsAnyApart roots)
    (hu : w.Passes t u) (hv : w.Met roots v) (ho : w.Met roots o) (htext : w.text v = w.text u)
    (h : w.entry o = w.text v ∨ w.entry o = w.entry v) :
    (w.pointee? o).map w.text = (w.pointee? u).map w.text := by
  have hnone : w.plan o = .any → w.plan v = .any →
      (w.pointee? o).map w.text = (w.pointee? u).map w.text := fun ho hplan => by
    rw [← hw u hu v hv htext, pointee_of_plan_any ho, pointee_of_plan_any hplan]
  rcases entry_cases v with hev | hplan
  · have heo : w.entry o = w.text v := h.elim id fun h => h.trans hev
    rcases entry_cases o with hentry | hplan
    · exact hw u hu o ho (hentry.symm.trans (heo.trans htext))
    · refine hnone hplan (hany v hv (Or.inr ?_))
      rw [← heo, entry_of_plan_any hplan]
  · rcases h with h | h
    · rcases entry_cases o with hentry | hplan'
      · exact hw u hu o ho (hentry.symm.trans (h.trans htext))
      · exact hnone hplan' hplan
    · refine hnone (hany.plan_of_entry ho (Or.inr ?_)) hplan
      rw [h, entry_of_plan_any hplan]

theorem any_mem_own (I : List Ty) (hunknown : (w.plan t).kind ≠ .unknown)
    (hinterface : (w.plan t).kind ≠ .interface) (hnullable : (w.plan t).kind ≠ .nullable) :
    "any" ∈ (w.portrait I t).own := by
  have htop : ∀ u kind, kind ≠ .interface → "any" ∈ w.ancestorIds I u kind := by
    intro u kind hkind
    unfold ancestorIds
    cases u <;> simp [hkind]
  suffices ∃ u kind, kind ≠ .interface ∧ Feature.ancestors u kind ∈ (w.plan t).features by
    obtain ⟨u, kind, hkind, hf⟩ := this
    exact Portrait.mem_own_foldl.mpr (Or.inr ⟨u, kind, hf, htop u kind hkind⟩)
  unfold plan at hunknown hinterface hnullable ⊢
  generalize w.unalias t = u at hunknown hinterface hnullable ⊢
  have hunnamed : (w.unnamedPlan u).kind ≠ .unknown → (w.unnamedPlan u).kind ≠ .interface →
      (w.unnamedPlan u).kind ≠ .nullable →
      ∃ v kind, kind ≠ .interface ∧ Feature.ancestors v kind ∈ (w.unnamedPlan u).features := by
    unfold unnamedPlan
    by_cases hkind : w.kindOf u = .unknown
    · simp [hkind, Plan.unresolved]
    · simp only [hkind, if_false]
      intro _ hinterface hnullable
      exact ⟨u, w.kindOf u, hinterface, by simp [shapeFeatures, hinterface, hnullable]⟩
  cases u with
  | named n args =>
    simp only [namedPlan] at hunknown hinterface ⊢
    by_cases hinvalid : w.underlying (.named n args) = .invalid
    · simp [hinvalid, Plan.unresolved] at hunknown
    · simp only [hinvalid, if_false] at hinterface ⊢
      exact ⟨.named n args, _, hinterface, by simp [namedFeatures]⟩
  | _ => exact hunnamed hunknown hinterface hnullable

end World

/-! ### Descriptors and their layers -/

namespace Draft

variable {w : World} {interfaces : List Ty} {roots : Set Ty} {s : Draft} {t u v o : Ty} {x z : Ref}
variable {k : Nat}

theorem sustains_owned (w : World) (roots : Set Ty) : Sustains w roots (Owned w roots) where
  upholds := upholds_owned w roots
  register := by
    intro s ts h r hr
    have hold : s.Remembered r := by
      unfold Remembered Remembers at hr ⊢
      rwa [(Describer.register_frame (w := w) s.describer ts).1] at hr
    obtain ⟨t, ht, howns⟩ := h r hold
    exact ⟨t, ht, howns.of_extends (s.extends_register ts) rfl⟩
  add := by
    intro s interfaces hs h r hr
    obtain ⟨t, ht, howns⟩ := h r hr
    refine ⟨t, ht, howns.of_extends (s.extends_add .missing) ?_⟩
    rw [Graph.node_add, if_neg (Nat.ne_of_lt (hs.inside r hr))]

theorem owned_start (w : World) (roots : Set Ty) : Owned w roots {} := by
  rintro r ⟨e, he⟩
  cases he

/-- The owner of a descriptor is remembered by the text or the entry of any type that the descriptor
is found for. -/
theorem Owned.exists_owner (h : s.Owned w roots) (hs : s.Singular) (hx : s.Found w t x) :
    ∃ o, w.Met roots o ∧ s.Owns w o x ∧ (w.entry o = w.text t ∨ w.entry o = w.entry t) := by
  obtain ⟨o, ho, howns⟩ := h x hx.remembered
  exact ⟨o, ho, howns, hx.imp (hs.injective _ _ x howns.remembers)
    (hs.injective _ _ x howns.remembers)⟩

section Finished

variable (h : s.Owned w roots) (hs : s.Singular) (htidy : s.Tidy interfaces [])
include h hs htidy

theorem Owned.exists_owner_of_underlying (hx : s.Owns w o x) {y : Ref}
    (hof : (s.graph.node x).underlying = some y) :
    ∃ e o', w.pointee? o = some e ∧ w.Met roots o' ∧ s.Owns w o' y ∧
      (w.entry o' = w.text e ∨ w.entry o' = w.entry e) := by
  obtain ⟨I, hI⟩ := hx.glimpsed (htidy.finished x ⟨_, hx.remembers⟩ List.not_mem_nil).completed
  obtain ⟨e, he, hey⟩ := exists_of_rel_right hI.underlying hof
  rw [World.underlying_portrait] at he
  exact ⟨e, (h.exists_owner hs hey).imp fun _ ho' => ⟨he, ho'⟩⟩

variable (hany : w.SetsAnyApart roots)
include hany

section Traced

variable (hw : w.Traceable roots t)
include hw

/-- Where the pointers of a type end, so do the layers of any descriptor that belongs to a type with
a pointee of the same text. -/
theorem Owned.exists_unwraps (hbehind : w.Behind k u v) (hu : w.Passes t u) (ho : w.Met roots o)
    (hx : s.Owns w o x) (hsame : (w.pointee? o).map w.text = (w.pointee? u).map w.text) :
    ∃ z, s.graph.Unwraps x z := by
  induction hbehind generalizing o x with
  | bare hnone =>
    refine ⟨x, .bare ?_⟩
    rw [hx.kind]
    refine World.kind_of_pointee_eq_none ?_
    rw [hnone] at hsame
    exact Option.map_eq_none_iff.mp hsame
  | @pointer _ _ e _ hsome _ ih =>
    obtain ⟨e', he', htext⟩ : ∃ e', w.pointee? o = some e' ∧ w.text e' = w.text e := by
      rw [hsome] at hsame
      exact Option.map_eq_some_iff.mp hsame
    have hkind : (s.graph.node x).kind = .nullable := hx.kind.trans (World.kind_of_pointee he')
    obtain ⟨y, hof⟩ := (htidy.finished x ⟨_, hx.remembers⟩ List.not_mem_nil).exists_underlying hkind
    obtain ⟨e'', o', he'', ho', howns, hentry⟩ := h.exists_owner_of_underlying hs htidy hx hof
    obtain rfl : e' = e'' := Option.some.inj (he'.symm.trans he'')
    have hpasses : w.Passes t e := .pointee hu hsome
    obtain ⟨z, hz⟩ := ih hpasses ho' howns
      (hw.pointees_of_entry hany hpasses (ho.pointee he') ho' htext hentry)
    exact ⟨z, .wrapped hkind hof hz⟩

theorem Owned.exists_behind (hunwraps : s.graph.Unwraps x z) (hu : w.Passes t u)
    (ho : w.Met roots o) (hx : s.Owns w o x)
    (hsame : (w.pointee? o).map w.text = (w.pointee? u).map w.text) :
    ∃ k v, w.Behind k u v := by
  induction hunwraps generalizing o u with
  | bare hkind =>
    rw [hx.kind] at hkind
    rw [World.pointee_eq_none_of_kind hkind] at hsame
    exact ⟨0, u, .bare (Option.map_eq_none_iff.mp hsame.symm)⟩
  | wrapped _ hof _ ih =>
    obtain ⟨e', o', he', ho', howns, hentry⟩ := h.exists_owner_of_underlying hs htidy hx hof
    obtain ⟨e, he, htext⟩ : ∃ e, w.pointee? u = some e ∧ w.text e = w.text e' := by
      rw [he'] at hsame
      exact Option.map_eq_some_iff.mp hsame.symm
    have hpasses : w.Passes t e := .pointee hu he
    obtain ⟨k, v, hkv⟩ := ih hpasses ho' howns
      (hw.pointees_of_entry hany hpasses (ho.pointee he') ho' htext.symm hentry)
    exact ⟨k + 1, v, .pointer he hkv⟩

/-- **The layers of the descriptor of a type end exactly if the pointers of the type do.** -/
theorem Owned.unwraps_iff_behind (ht : w.Met roots t) (hx : s.Found w t x) :
    (∃ z, s.graph.Unwraps x z) ↔ ∃ k u, w.Behind k t u := by
  obtain ⟨o, ho, howns, hentry⟩ := h.exists_owner hs hx
  have hsame := hw.pointees_of_entry hany .start ht ho rfl hentry
  exact ⟨fun ⟨_, hz⟩ => h.exists_behind hs htidy hany hw hz .start ho howns hsame,
    fun ⟨_, _, hku⟩ => h.exists_unwraps hs htidy hany hw hku .start ho howns hsame⟩

end Traced

theorem Owned.holdsAnything (hmet : w.Met roots .any) (hx : s.Found w .any x) :
    (s.graph.node x).HoldsAnything := by
  obtain ⟨o, ho, howns, hentry⟩ := h.exists_owner hs hx
  have hplan : w.plan o = .any := hany.plan_of_entry ho <| hentry.imp_right fun hentry =>
    hentry.trans (World.entry_of_plan_any (hany .any hmet (Or.inl rfl)))
  obtain ⟨I, hI⟩ := howns.glimpsed
    (htidy.finished x ⟨_, howns.remembers⟩ List.not_mem_nil).completed
  have hportrait : w.portrait I o = .blank .any := by
    rw [World.portrait, hplan]
    rfl
  rw [hportrait] at hI
  refine ⟨hI.kind, hI.id, ?_, hI.origin⟩
  rcases none_or_some_of_rel hI.element with ⟨-, hnone⟩ | ⟨e, y, he, -, -⟩
  · exact hnone
  · cases he

end Finished

theorem Owned.held (h : s.Owned w roots) (htidy : s.Tidy interfaces []) (hx : s.Remembered x)
    (hkind : (s.graph.node x).kind ≠ .nullable) : (s.graph.node x).Held := by
  obtain ⟨o, -, howns⟩ := h x hx
  obtain ⟨I, hI⟩ := howns.glimpsed (htidy.finished x hx List.not_mem_nil).completed
  by_cases hunknown : (s.graph.node x).kind = .unknown
  · exact Or.inl hunknown
  by_cases hinterface : (s.graph.node x).kind = .interface
  · exact Or.inr (Or.inl hinterface)
  by_cases hid : (s.graph.node x).id = "any"
  · exact Or.inr (Or.inr (Or.inl hid))
  refine Or.inr (Or.inr (Or.inr (hI.own "any" ?_ ?_)))
  · rw [howns.kind] at hunknown hinterface hkind
    exact World.any_mem_own I hunknown hinterface hkind
  · rw [← hI.id]
    exact Ne.symm hid

theorem Owned.held_of_unwraps (h : s.Owned w roots) (htidy : s.Tidy interfaces [])
    (hx : s.Returned w x) (hz : s.graph.Unwraps x z) : (s.graph.node z).Held := by
  rcases hx with hx | ⟨-, hmissing, -⟩
  · exact h.held htidy (htidy.remembered_of_reach hx hz.reach) hz.kind_ne
  · rw [eq_of_reach_missing hmissing hz.reach, hmissing]
    exact Or.inl rfl

end Draft

/-! ### The finding -/

namespace Operands

variable {w : World} {p : Operands}

/-- What a describer is asked for in a check. -/
def requests (w : World) (p : Operands) : List Request :=
  [.register p.interfaces, .register (w.interfacesIn p.left), .register (w.interfacesIn p.right),
    .describe p.left, .describe p.right]

theorem asked_requests (w : World) (p : Operands) : Draft.asked (p.requests w) = p.roots := by
  ext t
  simp [Draft.asked, requests, roots, eq_comm]

theorem describe_of_serve {rs : List Ref} {s : Draft}
    (h : Draft.serve w w.horizon {} (p.requests w) = .ok (rs, s)) :
    ∃ l r, rs = [l, r] ∧ p.describe w = .ok (l, r, s.graph) := by
  change Draft.serve w w.horizon ⟨{}, p.describer w⟩ [.describe p.left, .describe p.right] = _ at h
  rw [Draft.serve] at h
  unfold describe
  rw [Draft.describe_eq]
  cases hl : Draft.describeTo w w.horizon ⟨{}, p.describer w⟩ p.left with
  | error e =>
    rw [hl] at h
    cases h
  | ok y =>
    rw [hl] at h
    simp only [bind, Except.bind, Draft.serve, Draft.describe_eq] at h ⊢
    cases hr : Draft.describeTo w w.horizon y.2 p.right with
    | error e =>
      rw [hr] at h
      cases h
    | ok z =>
      rw [hr] at h
      cases h
      exact ⟨y.1, z.1, rfl, rfl⟩

end Operands

/-- **What can equal anything.** Whatever the left operand is, missing, unresolved or of any type, a
check against the interface without methods has a finding, whatever interfaces are given with it. It
says in both directions that the operands may be equal if the pointers of the left one lead to a
type that is no pointer, and in neither direction if they have no end. The types have to unfold to
fewer texts than the world is followed deep, no name begins with an angle bracket, only interfaces
without methods are written like them, and the pointers on the way can be followed by texts. -/
theorem check_any (w : World) (options : CheckOptions) (p : Operands) (hright : p.right = some .any)
    (hfollowed : w.Followed p.roots) (hlegible : w.Legible p.roots)
    (hany : w.SetsAnyApart p.roots) (hw : ∀ t, p.left = some t → w.Traceable p.roots t) :
    ∃ f, check w options none p = .ok (f, none) ∧
      (f.forward = true ↔ ∀ t, p.left = some t → ∃ k u, w.Behind k t u) ∧
      (f.reverse = true ↔ ∀ t, p.left = some t → ∃ k u, w.Behind k t u) := by
  obtain ⟨E, hcard, hE⟩ := hfollowed
  obtain ⟨rs, s, interfaces, hserve, htidy, -, howned, hrs⟩ := Draft.exists_serve_upheld
    (Draft.sustains_owned w p.roots) hE hcard (p.asked_requests w).subset Draft.tidy_start
    (Draft.owned_start w p.roots)
  have hs : s.Singular :=
    Draft.singular_start.serve hlegible (p.asked_requests w).subset hserve
  obtain ⟨l, r, rfl, hdesc⟩ := Operands.describe_of_serve hserve
  have hanswers : s.Answered w p.left l ∧ s.Answered w p.right r := by
    cases hrs with
    | cons hl hrest =>
      cases hrest with
      | cons hr _ => exact ⟨hl, hr⟩
  obtain ⟨hl, hr⟩ := hanswers
  have hc : s.graph.Consistent l r := hs.consistent htidy hl.returned hr.returned
  obtain ⟨f, hf, hforward, hreverse⟩ := exists_check_of_describe options hdesc
    (htidy.finishedFrom_of_returned hl.returned) (htidy.finishedFrom_of_returned hr.returned) hc
  have hholds : (s.graph.node r).HoldsAnything := by
    rw [hright] at hr
    cases hr with
    | found hr => exact howned.holdsAnything hs htidy hany (.root (Or.inr hright)) hr
  have hallowed := Graph.mem_allowed_iff_unwraps hc hholds fun z =>
    howned.held_of_unwraps htidy hl.returned
  have hends : (∃ z, s.graph.Unwraps l z) ↔ ∀ t, p.left = some t → ∃ k u, w.Behind k t u := by
    generalize hleft : p.left = o at hl
    cases hl with
    | @found t _ hl =>
      rw [howned.unwraps_iff_behind hs htidy hany (hw t hleft) (.root (Or.inl hleft)) hl]
      simp
    | missing hl =>
      refine iff_of_true ⟨l, .bare ?_⟩ nofun
      rw [hl.2.1]
      nofun
  exact ⟨f, hf, hforward.trans (hallowed.1.trans hends), hreverse.trans (hallowed.2.trans hends)⟩

/-! ### Pointers that end and pointers that do not -/

/-- The operands of a check against anything. -/
def Operands.againstAnything (t : Option Ty) : Operands := ⟨"x", "any", t, some .any, []⟩

/-- What recursive types are made of, and anything. -/
def recursive.partsAndAny : List Ty := .any :: recursive.parts

theorem mem_partsAndAny {o : Option Ty} (ho : ∀ t, o = some t → t ∈ recursive.parts) {u : Ty}
    (hu : recursive.Met (Operands.againstAnything o).roots u) : u ∈ recursive.partsAndAny := by
  refine World.mem_of_met (fun t ht => ?_) (by decide) hu
  rcases ht with ht | ht
  · exact List.mem_cons_of_mem _ (ho t ht)
  · cases ht
    exact List.mem_cons_self

theorem legible_againstAnything {o : Option Ty} (ho : ∀ t, o = some t → t ∈ recursive.parts) :
    recursive.Legible (Operands.againstAnything o).roots := by
  intro t ht name hname
  have hmem := mem_partsAndAny ho ht
  simp only [recursive.partsAndAny, recursive.parts, List.mem_cons, List.not_mem_nil,
    or_false] at hmem
  have hany : recursive.unalias .any = .emptyInterface := World.unalias_any
  have hloop : recursive.unalias .loop = .loop := by decide
  have hints : recursive.unalias .ints = .ints := by decide
  rcases hmem with rfl | rfl | rfl | rfl | rfl | rfl | rfl | rfl
  · rw [hany] at hname
    cases hname
  · cases hname
  · cases hname
  · rw [hloop] at hname
    cases hname
    decide
  · rw [hints] at hname
    cases hname
    decide
  · cases hname
  · cases hname
  · cases hname

theorem setsAnyApart_recursive {o : Option Ty} (ho : ∀ t, o = some t → t ∈ recursive.parts) :
    recursive.SetsAnyApart (Operands.againstAnything o).roots := by
  have hall : ∀ t ∈ recursive.partsAndAny,
      recursive.text t = recursive.text .any ∨ recursive.text t = "any" →
        recursive.plan t = .any := by
    decide
  exact fun t ht => hall t (mem_partsAndAny ho ht)

theorem traceable_recursive {o : Option Ty} (ho : ∀ t, o = some t → t ∈ recursive.parts) {t : Ty}
    (ht : o = some t) : recursive.Traceable (Operands.againstAnything o).roots t := by
  have hall : ∀ u ∈ recursive.partsAndAny, ∀ v ∈ recursive.partsAndAny,
      recursive.text v = recursive.text u →
        (recursive.pointee? v).map recursive.text = (recursive.pointee? u).map recursive.text := by
    decide
  intro u hu v hv
  exact hall u (mem_partsAndAny ho (hu.met (.root (Or.inl ht)))) v (mem_partsAndAny ho hv)

theorem followed_recursive {o : Option Ty} (ho : ∀ t, o = some t → t ∈ recursive.parts) :
    recursive.Followed (Operands.againstAnything o).roots :=
  ⟨(recursive.partsAndAny.map recursive.entry).toFinset,
    (List.toFinset_card_le _).trans_lt (by decide), fun _ hu =>
      List.mem_toFinset.mpr (List.mem_map_of_mem (mem_partsAndAny ho hu))⟩

theorem not_behind_loop {k : Nat} {t u : Ty} (h : recursive.Behind k t u) : t ≠ .loop := by
  have hloop : recursive.pointee? .loop = some .loop := by decide
  induction h with
  | bare hnone =>
    rintro rfl
    cases hloop.symm.trans hnone
  | pointer hsome _ ih =>
    rintro rfl
    exact ih (Option.some.inj (hsome.symm.trans hloop))

/-- A pointer to a list of integers can equal anything, and so can what is missing; a pointer to
`Loop` equals nothing. -/
theorem check_any_recursive :
    (∃ f, check recursive {} none (.againstAnything (some (.pointer .ints))) = .ok (f, none) ∧
      f.forward = true ∧ f.reverse = true) ∧
    (∃ f, check recursive {} none (.againstAnything none) = .ok (f, none) ∧
      f.forward = true ∧ f.reverse = true) ∧
    ∃ f, check recursive {} none (.againstAnything (some (.pointer .loop))) = .ok (f, none) ∧
      f.forward = false ∧ f.reverse = false := by
  have hints : ∀ t, some (Ty.pointer .ints) = some t → t ∈ recursive.parts := by
    rintro t ⟨⟩
    decide
  have hloop : ∀ t, some (Ty.pointer .loop) = some t → t ∈ recursive.parts := by
    rintro t ⟨⟩
    decide
  have hnone : ∀ t, (none : Option Ty) = some t → t ∈ recursive.parts := nofun
  have hends : recursive.Behind 1 (.pointer .ints) .ints := .pointer (by decide) (.bare (by decide))
  have hendless : ¬ ∃ k u, recursive.Behind k (.pointer .loop) u := by
    rintro ⟨k, u, h⟩
    cases h with
    | bare h => cases h
    | pointer hsome h => exact not_behind_loop h (by cases hsome; rfl)
  obtain ⟨f₁, hf₁, hforward₁, hreverse₁⟩ := check_any recursive {} (.againstAnything _) rfl
    (followed_recursive hints) (legible_againstAnything hints) (setsAnyApart_recursive hints)
    fun _ => traceable_recursive hints
  obtain ⟨f₂, hf₂, hforward₂, hreverse₂⟩ := check_any recursive {} (.againstAnything _) rfl
    (followed_recursive hnone) (legible_againstAnything hnone) (setsAnyApart_recursive hnone)
    fun _ => traceable_recursive hnone
  obtain ⟨f₃, hf₃, hforward₃, hreverse₃⟩ := check_any recursive {} (.againstAnything _) rfl
    (followed_recursive hloop) (legible_againstAnything hloop) (setsAnyApart_recursive hloop)
    fun _ => traceable_recursive hloop
  have hall : ∀ t, some (Ty.pointer .ints) = some t → ∃ k u, recursive.Behind k t u := by
    rintro t ⟨⟩
    exact ⟨_, _, hends⟩
  refine ⟨⟨f₁, hf₁, hforward₁.mpr hall, hreverse₁.mpr hall⟩,
    ⟨f₂, hf₂, hforward₂.mpr nofun, hreverse₂.mpr nofun⟩, f₃, hf₃, ?_, ?_⟩
  · exact Bool.eq_false_iff.mpr fun h => hendless (hforward₃.mp h _ rfl)
  · exact Bool.eq_false_iff.mpr fun h => hendless (hreverse₃.mp h _ rfl)

/-- A declared pointer to the constraint that consists of the pointer type itself. -/
def knotted : World where
  packages := [{
    path := "p"
    name := "p"
    declarations :=
      [{ name := "Knot", type := .pointer (.interface .implicit [] [.named ⟨"p", "Knot"⟩ []]) }] }]
  horizon := 12

/-- The declared pointer type `Knot`. -/
def Ty.knot : Ty := .named ⟨"p", "Knot"⟩ []

/-- What `Knot` points to is no pointer, but it is written like `Knot`. So `Knot` seems to point to
itself and equals nothing. -/
theorem check_knot :
    knotted.Behind 1 .knot (.interface .implicit [] [.knot]) ∧
      ∃ f, check knotted {} none (.againstAnything (some .knot)) = .ok (f, none) ∧
        f.forward = false ∧ f.reverse = false := by
  refine ⟨.pointer (by decide) (.bare (by decide)), ?_⟩
  have hrun : (check knotted {} none (.againstAnything (some .knot))).toOption.map
      (fun z => (z.2.isNone, z.1.forward, z.1.reverse)) = some (true, false, false) := by
    decide +kernel
  obtain ⟨⟨f, cache⟩, hf, heq⟩ := exists_ok_of_toOption hrun
  simp only [Prod.mk.injEq, Option.isNone_iff_eq_none] at heq
  obtain ⟨rfl, hforward, hreverse⟩ := heq
  exact ⟨f, hf, hforward, hreverse⟩

end EverEqual
