import EverEqual.Proofs.Describe.Faithful

/-!
# Descriptions are complete

A describer hands out descriptors before they are filled in, so that recursive types end. When it
has answered, none of them is left blank: while a type is described, exactly the descriptors of the
types around it are open, every other one that is remembered is finished, and finished ones refer
only to remembered ones. This does not need texts that tell types apart; all that is needed is that
there are few of them.

* `World.fill_of_becomes`: filling in a blank descriptor by the plan of a type has no defect;
* `Draft.Tidy`, `Draft.Tidy.begin`, `Draft.Tidy.finish`: the invariant, and the two steps;
* `World.Upholds`: what the two steps keep up besides;
* `World.run_describeIn_upheld`: a description ends, keeps a draft tidy and keeps up the rest;
* `DraftM.Refines`, `World.describeIn_refines`: a description to a greater depth gives the same.
-/

namespace EverEqual

/-! ### Filling in has no defect -/

section Fill

variable {w : World} {interfaces : List Ty} {g : Graph} {K : Ref → Prop} {n : Node}

/-- A descriptor that is being filled in: its kind is settled, it refers to what is known, and it
wraps something if that has been said. -/
structure Node.Filling (K : Ref → Prop) (kind : Kind) (wraps : Prop) (n : Node) : Prop where
  kind_eq : n.kind = kind
  known : ∀ x ∈ n.children, K x
  wrapped : wraps → n.underlying.isSome = true

theorem Feature.Becomes.exists_attach {f : Feature} {a : Attribute} {kind : Kind} {wraps : Prop}
    (ha : f.Becomes w interfaces (fun _ => K) a) (hn : n.Filling K kind wraps) :
    ∃ m, n.attach g a = (m, none) ∧ m.Filling K kind (wraps ∨ ∃ e, f = .underlying e) := by
  obtain ⟨refs, hrefs, rfl⟩ := ha
  obtain ⟨hkind, hknown, hwrapped⟩ := hn
  have hall : ∀ x ∈ refs, K x := fun x hx => by
    obtain ⟨-, -, hK⟩ := exists_mem_of_forall₂ hrefs.flip hx
    exact hK
  simp only [Node.children, List.mem_append, Option.mem_toList] at hknown
  cases f with
  | element t | key t =>
    cases hrefs with
    | cons hx hnil =>
      cases hnil
      refine ⟨_, rfl, hkind, ?_, by simpa using hwrapped⟩
      simp only [Node.children, List.mem_append, Option.mem_toList]
      grind
  | underlying t =>
    cases hrefs with
    | cons hx hnil =>
      cases hnil
      refine ⟨_, rfl, hkind, ?_, by simp⟩
      simp only [Node.children, List.mem_append, Option.mem_toList]
      grind
  | conversion t | equatable t =>
    cases hrefs with
    | cons hx hnil =>
      cases hnil
      refine ⟨_, rfl, hkind, ?_, by simpa using hwrapped⟩
      simp only [Node.children, List.mem_append, Option.mem_toList]
      exact hknown
  | bases ts =>
    obtain ⟨as, has⟩ := Node.agreesBut_foldl (fun n r => n.agreesBut_addBase (g.node r)) refs n
    refine ⟨{ n with ancestors := as }, ?_, hkind, ?_, by simpa using hwrapped⟩
    · simp [Feature.toAttribute, Node.attach, leading_map_some, missingIn_map_some, has]
    · simp only [Node.children, List.mem_append, Option.mem_toList]
      exact hknown
  | ancestors t kind =>
    obtain ⟨as, has⟩ := Node.agreesBut_foldl Node.agreesBut_addAncestor
      (w.ancestorIds interfaces t kind) n
    refine ⟨{ n with ancestors := as }, ?_, hkind, ?_, by simpa using hwrapped⟩
    · simp [Feature.toAttribute, Node.attach, has]
    · simp only [Node.children, List.mem_append, Option.mem_toList]
      exact hknown
  | tuple ts =>
    refine ⟨{ n with tuple := refs }, ?_, hkind, ?_, by simpa using hwrapped⟩
    · simp [Feature.toAttribute, Node.attach, leading_map_some, missingIn_map_some]
    · simp only [Node.children, List.mem_append, Option.mem_toList]
      grind
  | generic origin args =>
    refine ⟨{ n with origin := origin, typeArgs := refs }, ?_, hkind, ?_, by simpa using hwrapped⟩
    · simp [Feature.toAttribute, Node.attach, leading_map_some, missingIn_map_some]
    · simp only [Node.children, List.mem_append, Option.mem_toList]
      grind

theorem Node.Filling.exists_attachAll {kind : Kind} {wraps : Prop} {fs : List Feature}
    {as : List Attribute} (has : List.Forall₂ (Feature.Becomes w interfaces (fun _ => K)) fs as)
    (hn : n.Filling K kind wraps) :
    ∃ m, n.attachAll g as = (m, none) ∧
      m.Filling K kind (wraps ∨ ∃ e, Feature.underlying e ∈ fs) := by
  induction has generalizing n wraps with
  | nil => exact ⟨n, rfl, hn.kind_eq, hn.known, by simpa using hn.wrapped⟩
  | cons ha _ ih =>
    obtain ⟨m, hm, hfill⟩ := ha.exists_attach (g := g) hn
    obtain ⟨m', hm', hkind, hknown, hwrapped⟩ := ih hfill
    refine ⟨m', ?_, hkind, hknown, fun h => hwrapped ?_⟩
    · rw [Node.attachAll, hm]
      exact hm'
    · rcases h with h | ⟨e, he⟩
      · exact Or.inl (Or.inl h)
      · rcases List.mem_cons.mp he with he | he
        · exact Or.inl (Or.inr ⟨e, he.symm⟩)
        · exact Or.inr ⟨e, he⟩

/-- **Filling in a blank descriptor by the plan of a type has no defect**: the descriptor is
finished and refers to what is known. -/
theorem World.fill_of_becomes {t : Ty} {as : List Attribute}
    (has : List.Forall₂ (Feature.Becomes w interfaces (fun _ => K)) (w.plan t).features as) :
    ∃ m, Node.fill g { kind := (w.plan t).kind, id := (w.plan t).id } as = (m, none) ∧
      m.Finished ∧ ∀ x ∈ m.children, K x := by
  have hblank : Node.Filling K (w.plan t).kind False
      { kind := (w.plan t).kind, id := (w.plan t).id } :=
    ⟨rfl, by simp [Node.children], by simp⟩
  obtain ⟨m, hm, hkind, hknown, hwrapped⟩ := hblank.exists_attachAll (g := g) has
  have hsound : m.unsound = none := Node.unsound_eq_none_iff.mpr fun hk =>
    hwrapped (Or.inr (World.exists_underlying_of_nullable (hkind.symm.trans hk)))
  have hfill : Node.fill g { kind := (w.plan t).kind, id := (w.plan t).id } as =
      ({ m with completed := true }, none) := by
    simp [Node.fill, hm, hsound]
  exact ⟨_, hfill, Node.finished_of_fill hfill, hknown⟩

end Fill

/-! ### Drafts without loose ends -/

namespace Draft

variable {w : World} {interfaces : List Ty} {opened : List Ref} {s s' : Draft} {p : Plan}
variable {e : Identity} {r x y : Ref}

/-- Something is remembered as the descriptor. -/
def Remembered (s : Draft) (r : Ref) : Prop := ∃ e, s.Remembers e r

theorem Remembered.of_extends (h : s.Remembered r) (hext : s.Extends s') : s'.Remembered r := by
  obtain ⟨e, he⟩ := h
  exact ⟨e, hext.remembers e r he⟩

/-- The descriptor of a type: its own text is remembered, or the text that its descriptor goes by. -/
def Found (w : World) (s : Draft) (t : Ty) (r : Ref) : Prop :=
  s.Remembers (w.text t) r ∨ s.Remembers (w.entry t) r

theorem Found.of_extends {t : Ty} (h : s.Found w t r) (hext : s.Extends s') : s'.Found w t r :=
  h.imp (hext.remembers _ _) (hext.remembers _ _)

theorem Found.remembered {t : Ty} (h : s.Found w t r) : s.Remembered r :=
  h.elim (fun h => ⟨_, h⟩) fun h => ⟨_, h⟩

/-- Exactly the open descriptors wait for completion, and every other one that is remembered is
finished and refers to what is remembered. -/
structure Tidy (interfaces : List Ty) (opened : List Ref) (s : Draft) : Prop where
  registered : s.describer.interfaces = interfaces
  pending : s.describer.builder.pending = opened
  inside : ∀ r, s.Remembered r → r < s.graph.size
  reserved : ∀ r ∈ opened, r < s.graph.size
  finished : ∀ r, s.Remembered r → r ∉ opened → (s.graph.node r).Finished
  closed : ∀ r, s.Remembered r → r ∉ opened → ∀ x ∈ (s.graph.node r).children, s.Remembered x

/-- A later draft in which the open descriptors are as they were. -/
structure Keeps (opened : List Ref) (s s' : Draft) : Prop where
  extended : s.Extends s'
  same : ∀ r ∈ opened, s'.graph.node r = s.graph.node r

theorem Keeps.refl (s : Draft) : Keeps opened s s := ⟨.refl s, fun _ _ => rfl⟩

theorem Keeps.trans {s'' : Draft} (h : Keeps opened s s') (h' : Keeps opened s' s'') :
    Keeps opened s s'' where
  extended := h.extended.trans h'.extended
  same r hr := (h'.same r hr).trans (h.same r hr)

theorem remembered_of_begin (h : (s.begin p).Remembered r) : r = s.graph.size ∨ s.Remembered r := by
  obtain ⟨e, he⟩ := h
  rcases remembers_begin.mp he with ⟨-, hr⟩ | ⟨-, he⟩
  · exact Or.inl hr
  · exact Or.inr ⟨e, he⟩

/-- **Opening a descriptor** keeps a draft tidy, with one more open descriptor. -/
theorem Tidy.begin (h : s.Tidy interfaces opened)
    (hfresh : s.describer.memo.lookup p.entry = none) :
    (s.begin p).Tidy interfaces (s.graph.size :: opened) := by
  have hold : ∀ {r}, (s.begin p).Remembered r → r ∉ s.graph.size :: opened →
      s.Remembered r ∧ r ∉ opened ∧ (s.begin p).graph.node r = s.graph.node r := by
    intro r hr hno
    obtain ⟨hne, hno⟩ := not_or.mp (mt List.mem_cons.mpr hno)
    refine ⟨(remembered_of_begin hr).resolve_left hne, hno, ?_⟩
    rw [s.node_begin, if_neg hne]
  refine ⟨h.registered, ?_, fun r hr => ?_, fun r hr => ?_, fun r hr hno => ?_,
    fun r hr hno x hx => ?_⟩
  · change s.graph.size :: s.describer.builder.pending = _
    rw [h.pending]
  · rw [size_begin]
    rcases remembered_of_begin hr with rfl | hr
    · exact Nat.lt_succ_self _
    · exact Nat.lt_succ_of_lt (h.inside r hr)
  · rw [size_begin]
    rcases List.mem_cons.mp hr with rfl | hr
    · exact Nat.lt_succ_self _
    · exact Nat.lt_succ_of_lt (h.reserved r hr)
  · obtain ⟨hr, hno, hnode⟩ := hold hr hno
    exact hnode ▸ h.finished r hr hno
  · obtain ⟨hr, hno, hnode⟩ := hold hr hno
    exact (h.closed r hr hno x (hnode ▸ hx)).of_extends (extends_begin hfresh)

theorem keeps_begin (h : s.Tidy interfaces opened)
    (hfresh : s.describer.memo.lookup p.entry = none) : Keeps opened s (s.begin p) where
  extended := extends_begin hfresh
  same r hr := by rw [s.node_begin, if_neg (Nat.ne_of_lt (h.reserved r hr))]

/-- **Closing the descriptor that was opened last** keeps a draft tidy, if it is finished and refers
to what is remembered. -/
theorem Tidy.finish (h : s.Tidy interfaces (r :: opened)) {m : Node} (hm : m.Finished)
    (hchildren : ∀ x ∈ m.children, s.Remembered x) :
    (s.finish r m).Tidy interfaces opened := by
  have hlt : r < s.graph.size := h.reserved r List.mem_cons_self
  refine ⟨h.registered, ?_, fun x hx => ?_, fun x hx => ?_, fun x hx hno => ?_,
    fun x hx hno y hy => ?_⟩
  · change s.describer.builder.pending.erase r = opened
    rw [h.pending, List.erase_cons_head]
  · exact s.size_finish r m ▸ h.inside x hx
  · exact s.size_finish r m ▸ h.reserved x (List.mem_cons_of_mem _ hx)
  · rw [s.node_finish m hlt]
    by_cases hxr : x = r
    · rwa [if_pos hxr]
    · rw [if_neg hxr]
      exact h.finished x hx (mt List.mem_cons.mp (not_or.mpr ⟨hxr, hno⟩))
  · rw [s.node_finish m hlt] at hy
    by_cases hxr : x = r
    · rw [if_pos hxr] at hy
      exact hchildren y hy
    · rw [if_neg hxr] at hy
      exact h.closed x hx (mt List.mem_cons.mp (not_or.mpr ⟨hxr, hno⟩)) y hy

theorem Tidy.remembered_of_reach (h : s.Tidy interfaces []) (hx : s.Remembered x)
    (hxy : s.graph.Reach x y) : s.Remembered y := by
  induction hxy with
  | refl => exact hx
  | tail _ hchild ih => exact h.closed _ ih List.not_mem_nil _ hchild

theorem Tidy.finishedFrom (h : s.Tidy interfaces []) (hx : s.Remembered x) :
    s.graph.FinishedFrom x :=
  fun y hy => h.finished y (h.remembered_of_reach hx hy) List.not_mem_nil

end Draft

/-! ### Descriptions -/

namespace World

variable {w : World} {interfaces : List Ty} {roots : Set Ty} {E : Finset Identity}

/-- A property of drafts that is kept up by both steps of a description: a blank descriptor is
reserved, and it is filled in with the descriptors found for the types that the plan names. -/
structure Upholds (w : World) (interfaces : List Ty) (roots : Set Ty) (Inv : Draft → Prop) :
    Prop where
  begin : ∀ {t : Ty} {s : Draft} {opened : List Ref}, w.Met roots t → s.Tidy interfaces opened →
    Inv s → s.describer.memo.lookup (w.entry t) = none → Inv (s.begin (w.plan t))
  finish : ∀ {t : Ty} {s : Draft} {opened : List Ref} {r : Ref} {as : List Attribute} {m : Node},
    w.Met roots t → s.Tidy interfaces (r :: opened) → Inv s → s.Remembers (w.entry t) r →
    s.graph.node r = { kind := (w.plan t).kind, id := (w.plan t).id } →
    List.Forall₂ (Feature.Becomes w interfaces (s.Found w)) (w.plan t).features as →
    (s.graph.node r).fill s.graph as = (m, none) → Inv (s.finish r m)

variable {Inv : Draft → Prop}

/-- Descriptions to a depth find descriptors and keep drafts tidy, as long as there is a step left
for every text that is not used; and they keep up a property. -/
def Completes (w : World) (interfaces : List Ty) (roots : Set Ty) (E : Finset Identity)
    (Inv : Draft → Prop) (k : Nat) : Prop :=
  ∀ {t : Ty} {s : Draft} {opened : List Ref}, w.Met roots t → s.Tidy interfaces opened → Inv s →
    (unused E s).card < k →
    ∃ r s', (w.describeIn k t).run s = .ok (r, s') ∧ s'.Tidy interfaces opened ∧
      Draft.Keeps opened s s' ∧ Inv s' ∧ s'.Found w t r

/-- **A type that is not remembered** is opened, its plan is carried out, and it is closed. -/
theorem Completes.fresh {k : Nat} (hk : w.Completes interfaces roots E Inv k)
    (hInv : w.Upholds interfaces roots Inv) {t : Ty} {s : Draft} {opened : List Ref}
    (hE : w.entry t ∈ E) (ht : w.Met roots t) (hs : s.Tidy interfaces opened) (his : Inv s)
    (hcard : (unused E s).card < k + 1) (htext : s.describer.memo.lookup (w.text t) = none)
    (hentry : s.describer.memo.lookup (w.entry t) = none) :
    ∃ r s', (w.describeIn (k + 1) t).run s = .ok (r, s') ∧ s'.Tidy interfaces opened ∧
      Draft.Keeps opened s s' ∧ Inv s' ∧ s'.Found w t r := by
  have hless := card_unused_begin hE hentry
  -- while the parts are described, the descriptor stays blank
  let P : Draft → Prop := fun s' => s'.Tidy interfaces (s.graph.size :: opened) ∧
    Draft.Keeps (s.graph.size :: opened) (s.begin (w.plan t)) s' ∧ Inv s' ∧ (unused E s').card < k
  have hstart : P (s.begin (w.plan t)) :=
    ⟨hs.begin hentry, .refl _, hInv.begin ht hs his hentry, by omega⟩
  have hpart : ∀ f ∈ (w.plan t).features, ∀ u ∈ f.types, ∀ s', P s' →
      ∃ x s'', (w.describeIn k u).run s' = .ok (x, s'') ∧ P s'' ∧ s'.Extends s'' ∧
        s''.Found w u x := by
    rintro f hf u hu s' ⟨htidy, hkeeps, hi, hleft⟩
    obtain ⟨x, s'', hrun, htidy', hkeeps', hi', hx⟩ :=
      hk (.part ht (List.mem_flatMap.mpr ⟨f, hf, hu⟩)) htidy hi hleft
    have hcard' := Finset.card_le_card (unused_subset (E := E) hkeeps'.extended)
    exact ⟨x, s'', hrun, ⟨htidy', hkeeps.trans hkeeps', hi', by omega⟩, hkeeps'.extended, hx⟩
  obtain ⟨as, s₁, hrun, ⟨hs₁, hkeeps, hi₁, -⟩, -, has⟩ := run_mapM_draw
    (R := fun s => s.Found w) (fun _ _ _ _ hx hext => hx.of_extends hext)
    (fun _ h => h.1.registered) hpart hstart
  have hblank : s₁.graph.node s.graph.size = { kind := (w.plan t).kind, id := (w.plan t).id } := by
    rw [hkeeps.same _ List.mem_cons_self, s.node_begin, if_pos rfl]
  have hknown : List.Forall₂ (Feature.Becomes w interfaces fun _ x => s₁.Remembered x)
      (w.plan t).features as := by
    refine has.imp ?_
    rintro f a ⟨refs, hrefs, rfl⟩
    exact ⟨refs, hrefs.imp fun _ _ hx => hx.remembered, rfl⟩
  obtain ⟨m, hfill, hm, hchildren⟩ := fill_of_becomes (g := s₁.graph) hknown
  have hpending : s.graph.size ∈ s₁.describer.builder.pending := by
    rw [hs₁.pending]
    exact List.mem_cons_self
  rw [← hblank] at hfill
  have hcomplete := Draft.run_complete hpending hfill
  have he : s₁.Remembers (w.entry t) s.graph.size :=
    hkeeps.extended.remembers _ _ (Draft.remembers_begin.mpr (Or.inl ⟨rfl, rfl⟩))
  have hclose := Draft.extends_finish m he (hs₁.inside _ ⟨_, he⟩)
  refine ⟨s.graph.size, s₁.finish s.graph.size m, ?_, hs₁.finish hm hchildren,
    ⟨((Draft.extends_begin hentry).trans hkeeps.extended).trans hclose, fun r hr => ?_⟩,
    hInv.finish ht hs₁ hi₁ he hblank has hfill, Or.inr he⟩
  · rw [run_describeIn_of_fresh k htext hentry, run_draw, Draft.run_bind_of_run hrun,
      Draft.run_bind_of_run hcomplete]
    rfl
  · have hne : r ≠ s.graph.size := Nat.ne_of_lt (hs.reserved r hr)
    rw [s₁.node_finish m (hs₁.inside _ ⟨_, he⟩), if_neg hne,
      hkeeps.same r (List.mem_cons_of_mem _ hr), (Draft.keeps_begin hs hentry).same r hr]

/-- **A description ends and keeps a draft tidy**, and what its steps keep up, it keeps up. Every
descriptor that is opened on the way takes one of finitely many texts. -/
theorem run_describeIn_upheld (hInv : w.Upholds interfaces roots Inv)
    (hE : ∀ t, w.Met roots t → w.entry t ∈ E) (k : Nat) :
    w.Completes interfaces roots E Inv k := by
  induction k with
  | zero => exact fun _ _ _ hcard => absurd hcard (Nat.not_lt_zero _)
  | succ k ih =>
    intro t s opened ht hs his hcard
    cases htext : s.describer.memo.lookup (w.text t) with
    | some r => exact ⟨r, s, run_describeIn_of_text k htext, hs, .refl s, his, Or.inl htext⟩
    | none =>
      cases hentry : s.describer.memo.lookup (w.entry t) with
      | some r =>
        exact ⟨r, s, run_describeIn_of_entry k htext hentry, hs, .refl s, his, Or.inr hentry⟩
      | none => exact ih.fresh hInv (hE t ht) ht hs his hcard htext hentry

end World

/-! ### How deep a description may go -/

namespace DraftM

variable {α β : Type} {f f' : DraftM α} {h h' : α → DraftM β} {s : Draft}

/-- Wherever the one step has a result, the other one has the same. -/
def Refines (f f' : DraftM α) : Prop := ∀ s z, f.run s = .ok z → f'.run s = .ok z

theorem Refines.refl (f : DraftM α) : Refines f f := fun _ _ hrun => hrun

theorem of_run_bind {z : β × Draft} (hrun : (f >>= h).run s = .ok z) :
    ∃ a s', f.run s = .ok (a, s') ∧ (h a).run s' = .ok z := by
  rw [StateT.run_bind] at hrun
  cases hf : f.run s with
  | error e =>
    rw [hf] at hrun
    cases hrun
  | ok y =>
    rw [hf] at hrun
    exact ⟨y.1, y.2, rfl, hrun⟩

theorem Refines.bind (hf : Refines f f') (hh : ∀ a, Refines (h a) (h' a)) :
    Refines (f >>= h) (f' >>= h') := by
  intro s z hrun
  obtain ⟨a, s', ha, hrest⟩ := of_run_bind hrun
  rw [Draft.run_bind_of_run (hf s _ ha)]
  exact hh a s' z hrest

theorem Refines.mapM {f f' : α → DraftM β} (hf : ∀ a, Refines (f a) (f' a)) (xs : List α) :
    Refines (xs.mapM f) (xs.mapM f') := by
  induction xs with
  | nil => exact .refl _
  | cons x xs ih =>
    rw [List.mapM_cons, List.mapM_cons]
    exact (hf x).bind fun _ => ih.bind fun _ => .refl _

end DraftM

namespace World

variable {w : World} {describe describe' : Ty → DraftM Ref}

theorem draw_refines (h : ∀ t, DraftM.Refines (describe t) (describe' t)) (p : Plan) :
    DraftM.Refines (p.draw w describe) (p.draw w describe') := by
  have hfeature : ∀ f : Feature, DraftM.Refines (f.draw w describe) (f.draw w describe') :=
    fun f => (DraftM.Refines.mapM h f.types).bind fun _ => .refl _
  intro s z hrun
  rw [run_draw] at hrun ⊢
  exact ((DraftM.Refines.mapM hfeature p.features).bind fun _ => .refl _) _ z hrun

/-- **A description to a greater depth** gives the same. -/
theorem describeIn_refines (k j : Nat) (t : Ty) :
    DraftM.Refines (w.describeIn k t) (w.describeIn (k + j) t) := by
  induction k generalizing t with
  | zero =>
    intro s z hrun
    cases hrun
  | succ k ih =>
    intro s z hrun
    rw [Nat.succ_add]
    cases htext : s.describer.memo.lookup (w.text t) with
    | some r => rwa [run_describeIn_of_text _ htext] at hrun ⊢
    | none =>
      cases hentry : s.describer.memo.lookup (w.entry t) with
      | some r => rwa [run_describeIn_of_entry _ htext hentry] at hrun ⊢
      | none =>
        rw [run_describeIn_of_fresh _ htext hentry] at hrun ⊢
        exact draw_refines ih _ s z hrun

end World

end EverEqual
