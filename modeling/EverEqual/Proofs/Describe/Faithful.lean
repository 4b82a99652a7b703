import EverEqual.Proofs.Describe.Web

/-!
# Descriptions are faithful

While a type is described, its descriptor is open: reserved, remembered and blank. Every other
descriptor that is remembered is drawn: it is finished and depicts the portrait of its type. A step
that opens a descriptor and a step that closes it keep this up, and so a whole description does. It
ends because every open descriptor takes one of the finitely many texts.

* `Draft.Drawn`: a descriptor shows its type, and its ancestors lie between those that are certain
  and all of them;
* `Draft.Faithful`: the invariant, with the texts of the open descriptors;
* `Draft.Faithful.begin`, `Draft.Faithful.finish`: the two steps;
* `World.Describes`, `World.run_describeIn`: a description gives a descriptor and keeps the
  invariant.
-/

namespace EverEqual

namespace Draft

/-- The descriptor that is remembered by a text. -/
def Remembers (s : Draft) (e : Identity) (r : Ref) : Prop :=
  s.describer.memo.lookup e = some r

/-- A later state of a draft. What is remembered stays so, what is remembered since then is new,
and a descriptor that nothing remembers is left alone. -/
structure Extends (s s' : Draft) : Prop where
  size : s.graph.size ≤ s'.graph.size
  remembers : ∀ e r, s.Remembers e r → s'.Remembers e r
  new : ∀ e r, s'.Remembers e r → r < s.graph.size → s.Remembers e r
  loose : ∀ r < s.graph.size, (∀ e, ¬ s.Remembers e r) → s'.graph.node r = s.graph.node r

theorem Extends.refl (s : Draft) : s.Extends s :=
  ⟨le_rfl, fun _ _ h => h, fun _ _ h _ => h, fun _ _ _ => rfl⟩

theorem Extends.trans {s s' s'' : Draft} (h : s.Extends s') (h' : s'.Extends s'') :
    s.Extends s'' where
  size := h.size.trans h'.size
  remembers := fun e r hr => h'.remembers e r (h.remembers e r hr)
  new := fun e r hr hlt => h.new e r (h'.new e r hr (hlt.trans_le h.size)) hlt
  loose := fun r hlt hr => by
    rw [h'.loose r (hlt.trans_le h.size) fun e he => hr e (h.new e r he hlt), h.loose r hlt hr]

theorem Remembers.unique {s : Draft} {e : Identity} {x y : Ref} (hx : s.Remembers e x)
    (hy : s.Remembers e y) : x = y :=
  Option.some.inj (hx.symm.trans hy)

variable {w : World} {interfaces : List Ty} {roots : Set Ty} {s s' : Draft}
variable {opened : List Identity} {t u : Ty} {r x : Ref}

/-- The descriptor shows the type. -/
structure Drawn (w : World) (interfaces : List Ty) (roots : Set Ty) (s : Draft) (t : Ty) (r : Ref) :
    Prop where
  finished : (s.graph.node r).Finished
  depicts : (w.outline interfaces t).Depicts s.Remembers (s.graph.node r)
  ancestor : ∀ a ∈ (s.graph.node r).ancestors,
    a ≠ (w.plan t).id ∧ w.Ancestor interfaces roots (w.entry t) a
  certain : ∀ a, w.Certain interfaces roots (w.entry t) a → a ≠ (w.plan t).id →
    a ∈ (s.graph.node r).ancestors

/-- The descriptor of the type is reserved and blank. -/
structure Open (w : World) (s : Draft) (t : Ty) (r : Ref) : Prop where
  pending : r ∈ s.describer.builder.pending
  blank : s.graph.node r = { kind := (w.plan t).kind, id := (w.plan t).id }

/-- Every descriptor that is remembered is drawn, except for the open ones. -/
structure Faithful (w : World) (interfaces : List Ty) (roots : Set Ty) (opened : List Identity)
    (s : Draft) : Prop where
  registered : s.describer.interfaces = interfaces
  known : ∀ e r, s.Remembers e r → r < s.graph.size ∧ ∃ t, w.Met roots t ∧ w.entry t = e
  injective : ∀ e f r, s.Remembers e r → s.Remembers f r → e = f
  reserved : ∀ e ∈ opened, ∃ r, s.Remembers e r
  isOpen : ∀ t r, w.Met roots t → s.Remembers (w.entry t) r → w.entry t ∈ opened → s.Open w t r
  drawn : ∀ t r, w.Met roots t → s.Remembers (w.entry t) r → w.entry t ∉ opened →
    s.Drawn w interfaces roots t r

theorem Drawn.of_remembers (h : s.Drawn w interfaces roots t r)
    (hrem : ∀ e r, s.Remembers e r → s'.Remembers e r)
    (hnode : s'.graph.node r = s.graph.node r) : s'.Drawn w interfaces roots t r where
  finished := hnode ▸ h.finished
  depicts := hnode ▸ h.depicts.imp hrem
  ancestor := hnode ▸ h.ancestor
  certain := hnode ▸ h.certain

theorem Faithful.id_node (h : s.Faithful w interfaces roots opened) (ht : w.Met roots t)
    (hr : s.Remembers (w.entry t) r) : (s.graph.node r).id = (w.plan t).id := by
  by_cases ho : w.entry t ∈ opened
  · rw [(h.isOpen t r ht hr ho).blank]
  · rw [(h.drawn t r ht hr ho).depicts.id, w.id_outline]

/-! ### Opening a descriptor -/

theorem remembers_begin {p : Plan} {e : Identity} :
    (s.begin p).Remembers e r ↔
      (e = p.entry ∧ r = s.graph.size) ∨ (e ≠ p.entry ∧ s.Remembers e r) := by
  unfold Remembers begin
  rw [List.lookup_cons]
  by_cases he : e = p.entry
  · simp [he, eq_comm]
  · simp [he, beq_eq_false_iff_ne.mpr he]

/-- A descriptor is remembered for one text only, and so is the one that is opened. -/
theorem injective_begin {p : Plan} (hinside : ∀ e r, s.Remembers e r → r < s.graph.size)
    (h : ∀ e f r, s.Remembers e r → s.Remembers f r → e = f) :
    ∀ e f r, (s.begin p).Remembers e r → (s.begin p).Remembers f r → e = f := by
  intro e f r he hf
  rcases remembers_begin.mp he with ⟨rfl, rfl⟩ | ⟨-, he⟩ <;>
    rcases remembers_begin.mp hf with ⟨rfl, hr⟩ | ⟨-, hf⟩
  · rfl
  · exact absurd (hinside f _ hf) (Nat.lt_irrefl _)
  · exact absurd (hr ▸ hinside e _ he) (Nat.lt_irrefl _)
  · exact h e f r he hf

theorem extends_begin {p : Plan} (hfresh : s.describer.memo.lookup p.entry = none) :
    s.Extends (s.begin p) where
  size := by
    rw [size_begin]
    exact Nat.le_succ _
  remembers := by
    intro e r hr
    refine remembers_begin.mpr (Or.inr ⟨?_, hr⟩)
    rintro rfl
    cases hfresh.symm.trans hr
  new := by
    intro e r hr hlt
    rcases remembers_begin.mp hr with ⟨-, rfl⟩ | ⟨-, hr⟩
    · exact absurd hlt (Nat.lt_irrefl _)
    · exact hr
  loose := by
    intro r hlt _
    rw [s.node_begin, if_neg (Nat.ne_of_lt hlt)]

/-- **Opening a descriptor keeps a draft faithful.** -/
theorem Faithful.begin (ho : w.Orderly interfaces roots) (h : s.Faithful w interfaces roots opened)
    (ht : w.Met roots t) (hfresh : s.describer.memo.lookup (w.entry t) = none) :
    (s.begin (w.plan t)).Faithful w interfaces roots (w.entry t :: opened) where
  registered := h.registered
  known := by
    intro e r hr
    rw [size_begin]
    rcases remembers_begin.mp hr with ⟨rfl, rfl⟩ | ⟨-, hr⟩
    · exact ⟨Nat.lt_succ_self _, t, ht, rfl⟩
    · obtain ⟨hlt, hmet⟩ := h.known e r hr
      exact ⟨Nat.lt_succ_of_lt hlt, hmet⟩
  injective := injective_begin (fun e r hr => (h.known e r hr).1) h.injective
  reserved := by
    intro e he
    rcases List.mem_cons.mp he with rfl | he
    · exact ⟨s.graph.size, remembers_begin.mpr (Or.inl ⟨rfl, rfl⟩)⟩
    · obtain ⟨r, hr⟩ := h.reserved e he
      exact ⟨r, (extends_begin hfresh).remembers e r hr⟩
  isOpen := by
    intro u r hu hr hopen
    rcases remembers_begin.mp hr with ⟨he, rfl⟩ | ⟨hne, hr⟩
    · refine ⟨s.mem_pending_begin _, ?_⟩
      rw [s.node_begin, if_pos rfl, ho.id_eq_of_entry hu ht he, ho.kind_eq_of_entry hu ht he]
    · have hopen := (List.mem_cons.mp hopen).resolve_left hne
      obtain ⟨hpending, hblank⟩ := h.isOpen u r hu hr hopen
      refine ⟨List.mem_cons_of_mem _ hpending, ?_⟩
      rw [s.node_begin, if_neg (Nat.ne_of_lt (h.known _ r hr).1), hblank]
  drawn := by
    intro u r hu hr hopen
    obtain ⟨hne, hopen⟩ := not_or.mp (mt List.mem_cons.mpr hopen)
    rcases remembers_begin.mp hr with ⟨he, -⟩ | ⟨-, hr⟩
    · exact absurd he hne
    · refine (h.drawn u r hu hr hopen).of_remembers (extends_begin hfresh).remembers ?_
      rw [s.node_begin, if_neg (Nat.ne_of_lt (h.known _ r hr).1)]

/-! ### Closing a descriptor -/

theorem node_finish (s : Draft) (m : Node) (hr : r < s.graph.size) :
    (s.finish r m).graph.node x = if x = r then m else s.graph.node x := by
  unfold finish
  rw [Graph.node_put]
  simp [hr]

theorem extends_finish (m : Node) {e : Identity} (hr : s.Remembers e r)
    (hlt : r < s.graph.size) : s.Extends (s.finish r m) where
  size := (s.size_finish r m).ge
  remembers := fun _ _ h => h
  new := fun _ _ h _ => h
  loose := by
    intro x _ hx
    rw [s.node_finish m hlt, if_neg]
    rintro rfl
    exact hx e hr

theorem Faithful.ancestor_of_records (h : s.Faithful w interfaces roots opened)
    (ht : w.Met roots t) {m : Node}
    (hrec : (w.outline interfaces t).Records s.graph s.Remembers m) {a : Identity}
    (ha : a ∈ m.ancestors) :
    a ≠ (w.plan t).id ∧ w.Ancestor interfaces roots (w.entry t) a := by
  obtain ⟨hne, hrest⟩ := (hrec a).mp ha
  rw [w.id_outline] at hne
  refine ⟨hne, ?_⟩
  rcases hrest with hown | ⟨f, hbase, x, hx, ha⟩
  · exact .own ht hown
  · obtain ⟨-, u, hu, rfl⟩ := h.known f x hx
    rcases ha with rfl | ha
    · rw [h.id_node hu hx]
      exact .base ht hu hbase
    · by_cases hopen : w.entry u ∈ opened
      · rw [(h.isOpen u x hu hx hopen).blank] at ha
        cases ha
      · exact .inherited ht hbase trivial ((h.drawn u x hu hx hopen).ancestor a ha).2

/-- What is certain is recorded when a descriptor is closed: a base that is open by then leads to
the type, so it is circular. -/
theorem Faithful.mem_of_certain (ho : w.Orderly interfaces roots)
    (h : s.Faithful w interfaces roots opened) (ht : w.Met roots t)
    (hchain : ∀ e ∈ opened, Relation.ReflTransGen (w.Leads roots) e (w.entry t)) {m : Node}
    (hrec : (w.outline interfaces t).Records s.graph s.Remembers m)
    (hparts : ∀ f ∈ (w.outline interfaces t).bases, ∃ x, s.Remembers f x) {a : Identity}
    (ha : w.Certain interfaces roots (w.entry t) a) (hne : a ≠ (w.plan t).id) :
    a ∈ m.ancestors := by
  refine (hrec a).mpr ⟨by rwa [w.id_outline], ?_⟩
  generalize he : w.entry t = e at ha
  cases ha with
  | own hu hown =>
    rw [ho.outline_eq_of_entry ht hu he]
    exact Or.inl hown
  | base hu hv hbase =>
    rw [← ho.outline_eq_of_entry ht hu he] at hbase
    obtain ⟨x, hx⟩ := hparts _ hbase
    exact Or.inr ⟨_, hbase, x, hx, Or.inl (h.id_node hv hx).symm⟩
  | inherited hu hbase hvia ha =>
    rw [← ho.outline_eq_of_entry ht hu he] at hbase
    obtain ⟨x, hx⟩ := hparts _ hbase
    obtain ⟨-, v, hv, rfl⟩ := h.known _ x hx
    have hopen : w.entry v ∉ opened := fun hopen => hvia (he ▸ hchain _ hopen)
    refine Or.inr ⟨_, hbase, x, hx, ?_⟩
    by_cases hid : a = (w.plan v).id
    · exact Or.inl (hid.trans (h.id_node hv hx).symm)
    · exact Or.inr ((h.drawn v x hv hx hopen).certain a ha hid)

/-- **Closing a descriptor keeps a draft faithful.** -/
theorem Faithful.finish (ho : w.Orderly interfaces roots)
    (h : s.Faithful w interfaces roots (w.entry t :: opened)) (ht : w.Met roots t)
    (hr : s.Remembers (w.entry t) r) (hnew : w.entry t ∉ opened)
    (hchain : ∀ e ∈ opened, Relation.ReflTransGen (w.Leads roots) e (w.entry t)) {m : Node}
    (hfin : m.Finished) (hdep : (w.outline interfaces t).Depicts s.Remembers m)
    (hrec : (w.outline interfaces t).Records s.graph s.Remembers m)
    (hparts : ∀ f ∈ (w.outline interfaces t).bases, ∃ x, s.Remembers f x) :
    (s.finish r m).Faithful w interfaces roots opened := by
  have hlt := (h.known _ r hr).1
  have hother : ∀ u x, s.Remembers (w.entry u) x → w.entry u ≠ w.entry t → x ≠ r := by
    rintro u x hx hne rfl
    exact hne (h.injective _ _ x hx hr)
  have hchain' : ∀ e ∈ w.entry t :: opened,
      Relation.ReflTransGen (w.Leads roots) e (w.entry t) := by
    intro e he
    rcases List.mem_cons.mp he with rfl | he
    · exact .refl
    · exact hchain e he
  refine ⟨h.registered, fun e x hx => ?_, h.injective,
    fun e he => h.reserved e (List.mem_cons_of_mem _ he), fun u x hu hx hopen => ?_,
    fun u x hu hx hopen => ?_⟩
  · rw [size_finish]
    exact h.known e x hx
  · have hne : w.entry u ≠ w.entry t := fun he => hnew (he ▸ hopen)
    obtain ⟨hpending, hblank⟩ := h.isOpen u x hu hx (List.mem_cons_of_mem _ hopen)
    refine ⟨(List.mem_erase_of_ne (hother u x hx hne)).mpr hpending, ?_⟩
    rw [s.node_finish m hlt, if_neg (hother u x hx hne), hblank]
  · by_cases he : w.entry u = w.entry t
    · obtain rfl : x = r := Remembers.unique (s := s) (he ▸ hx) hr
      have hnode : (s.finish x m).graph.node x = m := by rw [s.node_finish m hlt, if_pos rfl]
      refine ⟨?_, ?_, ?_, ?_⟩ <;> rw [hnode]
      · exact hfin
      · rw [ho.outline_eq_of_entry hu ht he]
        exact hdep
      · intro a ha
        rw [he, ho.id_eq_of_entry hu ht he]
        exact h.ancestor_of_records ht hrec ha
      · intro a ha hne
        rw [he] at ha
        rw [ho.id_eq_of_entry hu ht he] at hne
        exact h.mem_of_certain ho ht hchain' hrec hparts ha hne
    · refine (h.drawn u x hu hx ?_).of_remembers (fun _ _ hf => hf) ?_
      · exact mt List.mem_cons.mp (not_or.mpr ⟨he, hopen⟩)
      · rw [s.node_finish m hlt, if_neg (hother u x hx he)]

/-! ### Steps in a row -/

theorem run_bind_of_run {α β : Type} {f : DraftM α} {h : α → DraftM β} {a : α}
    (hf : f.run s = .ok (a, s')) : (f >>= h).run s = (h a).run s' := by
  rw [StateT.run_bind, hf]
  rfl

theorem run_mapM {α β : Type} {f : α → DraftM β} {Inv : Draft → Prop} {Q : α → β → Draft → Prop}
    (hmono : ∀ a b s s', Q a b s → s.Extends s' → Q a b s') {xs : List α}
    (hf : ∀ a ∈ xs, ∀ s, Inv s →
      ∃ b s', (f a).run s = .ok (b, s') ∧ Inv s' ∧ s.Extends s' ∧ Q a b s')
    (hs : Inv s) :
    ∃ bs s', (xs.mapM f).run s = .ok (bs, s') ∧ Inv s' ∧ s.Extends s' ∧
      List.Forall₂ (fun a b => Q a b s') xs bs := by
  induction xs generalizing s with
  | nil => exact ⟨[], s, rfl, hs, .refl s, .nil⟩
  | cons a xs ih =>
    obtain ⟨b, s₁, hrun, hs₁, hext, hQ⟩ := hf a List.mem_cons_self s hs
    obtain ⟨bs, s₂, hruns, hs₂, hexts, hQs⟩ :=
      ih (fun a ha => hf a (List.mem_cons_of_mem _ ha)) hs₁
    refine ⟨b :: bs, s₂, ?_, hs₂, hext.trans hexts, .cons (hmono _ _ _ _ hQ hexts) hQs⟩
    rw [List.mapM_cons, run_bind_of_run hrun, run_bind_of_run hruns]
    rfl

end Draft

namespace World

variable {w : World} {interfaces : List Ty} {roots : Set Ty} {E : Finset Identity}
variable {s s' : Draft} {opened : List Identity} {t : Ty} {k : Nat}

/-- The texts by which nothing is remembered yet. -/
def unused (E : Finset Identity) (s : Draft) : Finset Identity :=
  E.filter fun e => s.describer.memo.lookup e = none

theorem unused_subset (hext : s.Extends s') : unused E s' ⊆ unused E s := by
  intro e he
  obtain ⟨hE, hnone⟩ := Finset.mem_filter.mp he
  refine Finset.mem_filter.mpr ⟨hE, ?_⟩
  cases hs : s.describer.memo.lookup e with
  | none => rfl
  | some r =>
    cases hnone.symm.trans (hext.remembers e r hs)

theorem card_unused_begin (hE : w.entry t ∈ E)
    (hfresh : s.describer.memo.lookup (w.entry t) = none) :
    (unused E (s.begin (w.plan t))).card < (unused E s).card := by
  refine Finset.card_lt_card (Finset.ssubset_iff_subset_ne.mpr
    ⟨unused_subset (Draft.extends_begin hfresh), fun heq => ?_⟩)
  have hmem : w.entry t ∈ unused E s := Finset.mem_filter.mpr ⟨hE, hfresh⟩
  rw [← heq] at hmem
  have hnone := (Finset.mem_filter.mp hmem).2
  have hsome : (s.begin (w.plan t)).Remembers (w.entry t) s.graph.size :=
    Draft.remembers_begin.mpr (Or.inl ⟨rfl, rfl⟩)
  cases hnone.symm.trans hsome

theorem records_outline (ht : w.Met roots t) {g : Graph} {m : Node}
    (h : (w.portrait interfaces t).Records g
      (fun u x => w.Met roots u ∧ s.Remembers (w.entry u) x) m) :
    (w.outline interfaces t).Records g s.Remembers m := by
  intro a
  rw [h a]
  refine and_congr_right fun _ => or_congr_right ⟨?_, ?_⟩
  · rintro ⟨u, hu, x, ⟨-, hx⟩, ha⟩
    exact ⟨w.entry u, List.mem_map_of_mem hu, x, hx, ha⟩
  · rintro ⟨f, hf, x, hx, ha⟩
    obtain ⟨u, hu, rfl⟩ := List.mem_map.mp hf
    exact ⟨u, hu, x, ⟨.part ht (mem_types_of_mem_bases hu), hx⟩, ha⟩

/-- The descriptor of a type that was come across. -/
def Shows (w : World) (roots : Set Ty) (s : Draft) (u : Ty) (x : Ref) : Prop :=
  w.Met roots u ∧ s.Remembers (w.entry u) x

/-- **The features of a plan become attributes** if the types that they name can be described, by
whatever shows that a descriptor is one of the type. -/
theorem run_mapM_draw {describe : Ty → DraftM Ref} {P : Draft → Prop}
    {R : Draft → Ty → Ref → Prop} (hR : ∀ u x s s', R s u x → s.Extends s' → R s' u x)
    (hP : ∀ s, P s → s.describer.interfaces = interfaces) {fs : List Feature}
    (hdescribe : ∀ f ∈ fs, ∀ u ∈ f.types, ∀ s, P s →
      ∃ x s', (describe u).run s = .ok (x, s') ∧ P s' ∧ s.Extends s' ∧ R s' u x)
    (hs : P s) :
    ∃ as s', (fs.mapM (Feature.draw w describe)).run s = .ok (as, s') ∧ P s' ∧ s.Extends s' ∧
      List.Forall₂ (Feature.Becomes w interfaces (R s')) fs as := by
  refine Draft.run_mapM (Q := fun (f : Feature) a s => f.Becomes w interfaces (R s) a)
    ?_ (fun f hf s hs => ?_) hs
  · rintro f a s s' ⟨refs, hrefs, rfl⟩ hext
    exact ⟨refs, hrefs.imp fun u x hu => hR u x s s' hu hext, rfl⟩
  · obtain ⟨refs, s', hrun, hs', hext, hrefs⟩ :=
      Draft.run_mapM (Q := fun u x s => R s u x) hR (hdescribe f hf) hs
    refine ⟨f.toAttribute w interfaces refs, s', ?_, hs', hext, refs, hrefs, rfl⟩
    rw [Feature.draw, Draft.run_bind_of_run hrun, ← hP s' hs']
    rfl

theorem run_complete_of_becomes (ho : w.Orderly interfaces roots) (ht : w.Met roots t)
    (hs : s.Faithful w interfaces roots (w.entry t :: opened)) (hnew : w.entry t ∉ opened)
    (hchain : ∀ e ∈ opened, Relation.ReflTransGen (w.Leads roots) e (w.entry t)) {r : Ref}
    (hr : s.Remembers (w.entry t) r) {as : List Attribute}
    (has : List.Forall₂ (Feature.Becomes w interfaces (w.Shows roots s)) (w.plan t).features as) :
    ∃ m, (Draft.complete r as).run s = .ok ((), s.finish r m) ∧
      (s.finish r m).Faithful w interfaces roots opened := by
  obtain ⟨hpending, hblank⟩ := hs.isOpen t r ht hr List.mem_cons_self
  obtain ⟨m, hfill, hfin, hdep, hrec⟩ := fill_blank (g := s.graph)
    (fun u x hu => hs.id_node hu.1 hu.2) (fun u x y hx hy => hx.2.unique hy.2) has
  refine ⟨m, Draft.run_complete hpending (hblank ▸ hfill), ?_⟩
  refine hs.finish ho ht hr hnew hchain hfin (hdep.imp fun _ _ hu => hu.2).map
    (records_outline ht hrec) fun f hf => ?_
  obtain ⟨u, hu, rfl⟩ := List.mem_map.mp hf
  obtain ⟨f, hf, huf⟩ := List.mem_flatMap.mp (mem_types_of_mem_bases hu)
  obtain ⟨a, -, refs, hrefs, -⟩ := exists_mem_of_forall₂ has hf
  obtain ⟨x, -, hx⟩ := exists_mem_of_forall₂ hrefs huf
  exact ⟨x, hx.2⟩

/-- Descriptions to a depth give descriptors and keep drafts faithful. The descriptors that are open
lead to the type, and there is a step left for every text that is not used. -/
def Describes (w : World) (interfaces : List Ty) (roots : Set Ty) (E : Finset Identity) (k : Nat) :
    Prop :=
  ∀ {t : Ty} {s : Draft} {opened : List Identity}, w.Met roots t →
    s.Faithful w interfaces roots opened →
    (∀ e ∈ opened, Relation.ReflTransGen (w.Leads roots) e (w.entry t)) →
    (unused E s).card < k →
    ∃ r s', (w.describeIn k t).run s = .ok (r, s') ∧ s'.Faithful w interfaces roots opened ∧
      s.Extends s' ∧ s'.Remembers (w.entry t) r

theorem Describes.part {k : Nat} (hk : w.Describes interfaces roots E k) (ht : w.Met roots t)
    (hu : u ∈ (w.plan t).types)
    (hchain : ∀ e ∈ opened, Relation.ReflTransGen (w.Leads roots) e (w.entry t))
    (hs : s.Faithful w interfaces roots (w.entry t :: opened) ∧ (unused E s).card < k) :
    ∃ x s', (w.describeIn k u).run s = .ok (x, s') ∧
      (s'.Faithful w interfaces roots (w.entry t :: opened) ∧ (unused E s').card < k) ∧
      s.Extends s' ∧ w.Shows roots s' u x := by
  have hlead := leads_of_mem ht hu
  have hmet : w.Met roots u := .part ht hu
  have hopen : ∀ e ∈ w.entry t :: opened,
      Relation.ReflTransGen (w.Leads roots) e (w.entry u) := by
    intro e he
    rcases List.mem_cons.mp he with rfl | he
    · exact .single hlead
    · exact (hchain e he).tail hlead
  obtain ⟨x, s', hrun, hs', hext, hx⟩ := hk hmet hs.1 hopen hs.2
  have hcard := Finset.card_le_card (unused_subset (E := E) hext)
  exact ⟨x, s', hrun, ⟨hs', hcard.trans_lt hs.2⟩, hext, hmet, hx⟩

/-- **A type that is not remembered** is opened, its plan is carried out, and it is closed. -/
theorem Describes.fresh {k : Nat} (hk : w.Describes interfaces roots E k)
    (ho : w.Orderly interfaces roots) (hE : w.entry t ∈ E) (ht : w.Met roots t)
    (hs : s.Faithful w interfaces roots opened)
    (hchain : ∀ e ∈ opened, Relation.ReflTransGen (w.Leads roots) e (w.entry t))
    (hcard : (unused E s).card < k + 1) (htext : s.describer.memo.lookup (w.text t) = none)
    (hentry : s.describer.memo.lookup (w.entry t) = none) :
    ∃ r s', (w.describeIn (k + 1) t).run s = .ok (r, s') ∧ s'.Faithful w interfaces roots opened ∧
      s.Extends s' ∧ s'.Remembers (w.entry t) r := by
  have hless := card_unused_begin hE hentry
  have hnew : w.entry t ∉ opened := by
    intro hopen
    obtain ⟨x, hx⟩ := hs.reserved _ hopen
    cases hentry.symm.trans hx
  rw [run_describeIn_of_fresh k htext hentry, run_draw]
  obtain ⟨as, s₁, hrun, ⟨hs₁, -⟩, hext, has⟩ := run_mapM_draw (R := w.Shows roots)
    (fun _ _ _ _ hu hext => ⟨hu.1, hext.remembers _ _ hu.2⟩) (fun s hs => hs.1.registered)
    (fun f hf u hu s hs => hk.part ht (List.mem_flatMap.mpr ⟨f, hf, hu⟩) hchain hs)
    ⟨hs.begin ho ht hentry, by omega⟩
  have hr : s₁.Remembers (w.entry t) s.graph.size :=
    hext.remembers _ _ (Draft.remembers_begin.mpr (Or.inl ⟨rfl, rfl⟩))
  obtain ⟨m, hcomplete, hs₂⟩ := run_complete_of_becomes ho ht hs₁ hnew hchain hr has
  have hclose := Draft.extends_finish m hr (hs₁.known _ _ hr).1
  refine ⟨s.graph.size, s₁.finish s.graph.size m, ?_, hs₂,
    ((Draft.extends_begin hentry).trans hext).trans hclose, hr⟩
  rw [Draft.run_bind_of_run hrun, Draft.run_bind_of_run hcomplete]
  rfl

/-- **A description gives a descriptor and keeps the draft faithful.** -/
theorem run_describeIn (ho : w.Orderly interfaces roots) (hE : ∀ t, w.Met roots t → w.entry t ∈ E)
    (k : Nat) : w.Describes interfaces roots E k := by
  induction k with
  | zero => exact fun _ _ _ hcard => absurd hcard (Nat.not_lt_zero _)
  | succ k ih =>
    intro t s opened ht hs hchain hcard
    cases htext : s.describer.memo.lookup (w.text t) with
    | some r =>
      -- whatever is remembered by the text of the type looks like the type
      obtain ⟨-, u, hu, hut⟩ := hs.known _ r htext
      have hout := ho.coherent t u ht hu _ (text_mem_names t) (hut ▸ entry_mem_names u)
      have hentry : w.entry t = w.text t := by
        have := congrArg Portrait.entry hout
        simpa [hut] using this
      exact ⟨r, s, run_describeIn_of_text k htext, hs, .refl s, by rw [hentry]; exact htext⟩
    | none =>
      cases hentry : s.describer.memo.lookup (w.entry t) with
      | some r => exact ⟨r, s, run_describeIn_of_entry k htext hentry, hs, .refl s, hentry⟩
      | none => exact ih.fresh ho (hE t ht) ht hs hchain hcard htext hentry

end World

end EverEqual
