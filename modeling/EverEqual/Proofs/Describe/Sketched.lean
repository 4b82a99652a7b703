import EverEqual.Proofs.Describe.Complete

/-!
# Sketches of types

A sketch is a portrait without its ancestors. Which ancestors a type has depends on the interfaces
that are registered by the time it is described; its sketch does not. So the sketches are right
after any requests, if texts tell types apart, whatever was registered in between and whichever type
was described first.

* `World.sketch`: the sketch of a type;
* `World.Discerning`: texts tell types apart;
* `Draft.Sketched`, `Draft.upholds_sketched`: the invariant, kept up by both steps of a description;
* `Draft.Sketched.shows_of_found`, `Draft.Sketched.depicts_portrait`: what is found for a type shows
  its portrait.
-/

namespace EverEqual

namespace Portrait

variable {α : Type} {w : World} {I : List Ty}

/-- The portrait without ancestors. -/
def unrelated (P : Portrait α) : Portrait α := { P with own := ∅, bases := [] }

theorem unrelated_attach (P : Portrait Ty) (f : Feature) :
    (P.attach w I f).unrelated = (P.unrelated.attach w [] f).unrelated := by
  cases f <;> rfl

theorem unrelated_foldl (fs : List Feature) (P : Portrait Ty) :
    (fs.foldl (attach w I) P).unrelated = (fs.foldl (attach w []) P).unrelated := by
  have key : ∀ (fs : List Feature) (P Q : Portrait Ty), P.unrelated = Q.unrelated →
      (fs.foldl (attach w I) P).unrelated = (fs.foldl (attach w []) Q).unrelated := by
    intro fs
    induction fs with
    | nil => exact fun _ _ h => h
    | cons f fs ih =>
      intro P Q h
      refine ih _ _ ?_
      rw [unrelated_attach, h, ← unrelated_attach]
  exact key fs P P rfl

theorem depicts_unrelated {R : α → Ref → Prop} {P : Portrait α} {n : Node} :
    P.unrelated.Depicts R n ↔ P.Depicts R n := by
  constructor <;> intro h <;>
    exact ⟨h.id, h.kind, h.element, h.key, h.underlying, h.tuple, h.origin, h.typeArgs,
      h.convertsTo, h.equatableTo⟩

end Portrait

namespace World

variable (w : World) {roots : Set Ty}

/-- The portrait of a type without ancestors, with the types of its parts given by the texts they
are remembered by. -/
def sketch (t : Ty) : Portrait Identity := (w.outline [] t).unrelated

/-- Types that share a name have one sketch. -/
def Discerning (roots : Set Ty) : Prop :=
  ∀ t u, w.Met roots t → w.Met roots u → ∀ a ∈ w.names t, a ∈ w.names u → w.sketch t = w.sketch u

variable {w} {I : List Ty} {t u : Ty}

@[simp] theorem entry_sketch (t : Ty) : (w.sketch t).entry = w.entry t := w.entry_outline t

@[simp] theorem id_sketch (t : Ty) : (w.sketch t).id = (w.plan t).id := w.id_outline t

@[simp] theorem kind_sketch (t : Ty) : (w.sketch t).kind = (w.plan t).kind := w.kind_outline t

theorem sketch_eq (I : List Ty) (t : Ty) : w.sketch t = (w.outline I t).unrelated := by
  have hportrait : (w.portrait [] t).unrelated = (w.portrait I t).unrelated :=
    (Portrait.unrelated_foldl _ _).symm
  have hmap : ∀ P : Portrait Ty, (P.map w.entry).unrelated = (P.unrelated.map w.entry).unrelated :=
    fun _ => rfl
  unfold sketch outline
  rw [hmap, hportrait, ← hmap]

theorem depicts_sketch {R : Identity → Ref → Prop} {n : Node} :
    (w.sketch t).Depicts R n ↔ (w.outline I t).Depicts R n := by
  rw [sketch_eq I, Portrait.depicts_unrelated]

theorem Orderly.discerning (h : w.Orderly I roots) : w.Discerning roots := by
  intro t u ht hu a hta hua
  rw [sketch_eq I, sketch_eq I, h.coherent t u ht hu a hta hua]

theorem Discerning.sketch_eq_of_entry (h : w.Discerning roots) (ht : w.Met roots t)
    (hu : w.Met roots u) (he : w.entry t = w.entry u) : w.sketch t = w.sketch u :=
  h t u ht hu _ (entry_mem_names t) (he ▸ entry_mem_names u)

end World

namespace Draft

variable {w : World} {interfaces : List Ty} {roots : Set Ty} {s s' : Draft} {t u : Ty} {x y : Ref}

/-- Every descriptor that is remembered has the identity and the kind of its type, and once it is
completed it shows the sketch of it. -/
structure Sketched (w : World) (roots : Set Ty) (s : Draft) : Prop where
  known : ∀ e r, s.Remembers e r → ∃ t, w.Met roots t ∧ w.entry t = e
  injective : ∀ e f r, s.Remembers e r → s.Remembers f r → e = f
  head : ∀ t r, w.Shows roots s t r →
    (s.graph.node r).id = (w.plan t).id ∧ (s.graph.node r).kind = (w.plan t).kind
  depicts : ∀ t r, w.Shows roots s t r → (s.graph.node r).completed = true →
    (w.sketch t).Depicts s.Remembers (s.graph.node r)

theorem Sketched.shows_of_found (h : s.Sketched w roots) (hw : w.Discerning roots)
    (ht : w.Met roots t) (hx : s.Found w t x) : w.Shows roots s t x := by
  refine ⟨ht, ?_⟩
  rcases hx with htext | hentry
  · obtain ⟨u, hu, hut⟩ := h.known _ x htext
    have hsketch := hw t u ht hu _ (World.text_mem_names t) (hut ▸ World.entry_mem_names u)
    have hsame : w.entry t = w.text t := by
      rw [← hut, ← w.entry_sketch t, hsketch, w.entry_sketch]
    rwa [hsame]
  · exact hentry

theorem Sketched.begin (h : s.Sketched w roots) (hw : w.Discerning roots) (ht : w.Met roots t)
    (hinside : ∀ r, s.Remembered r → r < s.graph.size)
    (hfresh : s.describer.memo.lookup (w.entry t) = none) :
    (s.begin (w.plan t)).Sketched w roots where
  known := by
    intro e r hr
    rcases remembers_begin.mp hr with ⟨rfl, -⟩ | ⟨-, hr⟩
    · exact ⟨t, ht, rfl⟩
    · exact h.known e r hr
  injective := injective_begin (fun e r hr => hinside r ⟨e, hr⟩) h.injective
  head := by
    rintro u r ⟨hu, hr⟩
    rw [s.node_begin]
    rcases remembers_begin.mp hr with ⟨he, rfl⟩ | ⟨-, hr⟩
    · have hsketch := hw.sketch_eq_of_entry hu ht he
      rw [if_pos rfl, ← w.id_sketch u, ← w.kind_sketch u, hsketch, w.id_sketch, w.kind_sketch]
      exact ⟨rfl, rfl⟩
    · rw [if_neg (Nat.ne_of_lt (hinside r ⟨_, hr⟩))]
      exact h.head u r ⟨hu, hr⟩
  depicts := by
    rintro u r ⟨hu, hr⟩ hdone
    rw [s.node_begin] at hdone ⊢
    rcases remembers_begin.mp hr with ⟨-, rfl⟩ | ⟨-, hr⟩
    · rw [if_pos rfl] at hdone
      cases hdone
    · rw [if_neg (Nat.ne_of_lt (hinside r ⟨_, hr⟩))] at hdone ⊢
      exact (h.depicts u r ⟨hu, hr⟩ hdone).imp (extends_begin hfresh).remembers

theorem Sketched.depicts_of_fill (h : s.Sketched w roots) (hw : w.Discerning roots)
    (ht : w.Met roots t) {as : List Attribute} {m : Node}
    (has : List.Forall₂ (Feature.Becomes w interfaces (s.Found w)) (w.plan t).features as)
    (hfill : Node.fill s.graph { kind := (w.plan t).kind, id := (w.plan t).id } as = (m, none)) :
    (w.sketch t).Depicts s.Remembers m := by
  have hshown : List.Forall₂ (Feature.Becomes w interfaces (w.Shows roots s))
      (w.plan t).features as := by
    refine forall₂_imp_of_mem has ?_
    rintro f hf a - ⟨refs, hrefs, rfl⟩
    refine ⟨refs, forall₂_imp_of_mem hrefs fun u hu x _ hx => ?_, rfl⟩
    exact h.shows_of_found hw (.part ht (List.mem_flatMap.mpr ⟨f, hf, hu⟩)) hx
  obtain ⟨m', hfill', -, hdep, -⟩ := World.fill_blank (g := s.graph)
    (fun u x hu => (h.head u x hu).1) (fun u x y hx hy => hx.2.unique hy.2) hshown
  cases hfill.symm.trans hfill'
  exact World.depicts_sketch.mpr (hdep.imp fun _ _ hu => hu.2).map

theorem Sketched.finish (h : s.Sketched w roots) (hw : w.Discerning roots) (ht : w.Met roots t)
    (hx : s.Remembers (w.entry t) x) (hlt : x < s.graph.size) {m : Node}
    (hid : m.id = (w.plan t).id) (hkind : m.kind = (w.plan t).kind)
    (hdep : (w.sketch t).Depicts s.Remembers m) : (s.finish x m).Sketched w roots where
  known := h.known
  injective := h.injective
  head := by
    rintro u r ⟨hu, hr⟩
    rw [s.node_finish m hlt]
    by_cases hrx : r = x
    · subst hrx
      have hsketch := hw.sketch_eq_of_entry hu ht (h.injective _ _ _ hr hx)
      rw [if_pos rfl, ← w.id_sketch u, ← w.kind_sketch u, hsketch, w.id_sketch, w.kind_sketch]
      exact ⟨hid, hkind⟩
    · rw [if_neg hrx]
      exact h.head u r ⟨hu, hr⟩
  depicts := by
    rintro u r ⟨hu, hr⟩ hdone
    rw [s.node_finish m hlt] at hdone ⊢
    by_cases hrx : r = x
    · subst hrx
      rw [if_pos rfl, hw.sketch_eq_of_entry hu ht (h.injective _ _ _ hr hx)]
      exact hdep
    · rw [if_neg hrx] at hdone ⊢
      exact h.depicts u r ⟨hu, hr⟩ hdone

/-- **Both steps of a description keep a draft sketched**, if texts tell types apart. -/
theorem upholds_sketched (hw : w.Discerning roots) (interfaces : List Ty) :
    w.Upholds interfaces roots (Sketched w roots) where
  begin := fun ht hs h hfresh => h.begin hw ht hs.inside hfresh
  finish := by
    intro t s opened r as m ht hs h hr hblank has hfill
    rw [hblank] at hfill
    have hdep := h.depicts_of_fill hw ht has hfill
    exact h.finish hw ht hr (hs.inside r ⟨_, hr⟩) (hdep.id.trans (w.id_sketch t))
      (hdep.kind.trans (w.kind_sketch t)) hdep

/-- What is shown has its portrait depicted, whatever is registered, once nothing is open. -/
theorem Sketched.depicts_portrait (h : s.Sketched w roots) (hs : s.Tidy interfaces [])
    (I : List Ty) (hx : w.Shows roots s t x) :
    (w.portrait I t).Depicts (w.Shows roots s) (s.graph.node x) := by
  have hdone := (hs.finished x ⟨_, hx.2⟩ List.not_mem_nil).completed
  have hdep := World.depicts_sketch (I := I) |>.mp (h.depicts t x hx hdone)
  exact hdep.of_map.imp_of_parts fun _ hu _ hy => ⟨.part hx.1 (World.mem_types_of_mem_parts hu), hy⟩

end Draft

end EverEqual
