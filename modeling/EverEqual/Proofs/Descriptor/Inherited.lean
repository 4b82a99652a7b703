import EverEqual.Proofs.Descriptor.Lifecycle

/-!
# Inherited ancestors

A base gives its identity and the ancestors that it has at that moment, once and for all: what the
base gets later is not passed on. If it was completed by then, it gets nothing later. So ancestors
are inherited over any number of bases, each of which was completed when it was given. On the way
nothing is lost but the identity of the descriptor itself, which is never among its ancestors.

* `Node.mem_ancestors_attachAll`: the ancestors that a list of attributes adds;
* `Workshop.Derives`, `Workshop.Inherits`: a step gives a descriptor a completed base;
* `Workshop.Retains`: descriptors keep their identity and their ancestors, whatever steps follow;
* `Workshop.ancestors_inherited`: the ancestors of bases, and of bases of bases.
-/

namespace EverEqual

open Relation

/-- The descriptors that an attribute refers to. -/
def Attribute.references : Attribute → List (Option Ref)
  | .element d | .key d | .underlying d | .conversion d _ | .equatable d => [d]
  | .bases ds | .tuple ds | .generic _ ds => ds
  | .ancestors _ => []

/-- The ancestors that an attribute adds, to a descriptor that has another identity. -/
def Attribute.Adds (g : Graph) (a : Identity) : Attribute → Prop
  | .bases ds => ∃ r ∈ leading ds, a = (g.node r).id ∨ a ∈ (g.node r).ancestors
  | .ancestors ids => a ∈ ids
  | _ => False

/-! ### What attributes add -/

/-- The attribute `b` of a list is taken: none before it refers to a missing descriptor. -/
def Takes (as : List Attribute) (b : Attribute) : Prop :=
  ∃ before after, as = before ++ b :: after ∧ ∀ a ∈ before, none ∉ a.references

/-- A list of attributes gives the base `b`. Of a list of bases, those before a missing one are
given. -/
def TakesBase (as : List Attribute) (b : Ref) : Prop :=
  ∃ ds, Takes as (.bases ds) ∧ b ∈ leading ds

theorem not_takes_nil {b : Attribute} : ¬ Takes [] b := by
  rintro ⟨before, after, h, -⟩
  simp at h

theorem takes_cons {a b : Attribute} {as : List Attribute} :
    Takes (a :: as) b ↔ b = a ∨ (none ∉ a.references ∧ Takes as b) := by
  constructor
  · rintro ⟨before, after, h, hbefore⟩
    cases before with
    | nil => exact Or.inl (List.cons.inj h).1.symm
    | cons first before =>
      obtain ⟨rfl, rfl⟩ := List.cons.inj h
      refine Or.inr ⟨hbefore _ List.mem_cons_self, before, after, rfl, fun c hc => ?_⟩
      exact hbefore c (List.mem_cons_of_mem _ hc)
  · rintro (rfl | ⟨ha, before, after, rfl, hbefore⟩)
    · exact ⟨[], as, rfl, fun _ h => by cases h⟩
    · exact ⟨a :: before, after, rfl, List.forall_mem_cons.mpr ⟨ha, hbefore⟩⟩

namespace Node

variable {g : Graph} {m n : Node} {a : Identity}

theorem snd_attach_eq_none_iff (n : Node) (b : Attribute) :
    (n.attach g b).2 = none ↔ none ∉ b.references := by
  have hmissing : ∀ role ds, missingIn role ds = none ↔ none ∉ ds := by
    intro role ds
    simp [missingIn]
  cases b with
  | element d | key d | underlying d | equatable d =>
    cases d <;> simp [attach, Attribute.references]
  | conversion d kind => cases d <;> simp [attach, Attribute.references]
  | bases ds | tuple ds | generic origin ds => exact hmissing _ ds
  | ancestors ids => simp [attach, Attribute.references]

theorem mem_ancestors_attach (n : Node) (b : Attribute) :
    a ∈ (n.attach g b).1.ancestors ↔ a ∈ n.ancestors ∨ (a ≠ n.id ∧ b.Adds g a) := by
  cases b with
  | element d | key d | underlying d | equatable d =>
    cases d <;> simp [attach, Attribute.Adds]
  | conversion d kind => cases d <;> simp [attach, Attribute.Adds]
  | tuple ds | generic origin ds => simp [attach, Attribute.Adds]
  | bases ds => exact mem_ancestors_foldl_addBase _ n
  | ancestors ids =>
    simp only [attach, mem_ancestors_foldl_addAncestor, Attribute.Adds]
    tauto

/-- **The ancestors that attributes add** are those of the attributes that are taken, except for the
identity of the descriptor itself. -/
theorem mem_ancestors_attachAll (as : List Attribute) (n : Node) :
    a ∈ (n.attachAll g as).1.ancestors ↔
      a ∈ n.ancestors ∨ (a ≠ n.id ∧ ∃ b, Takes as b ∧ b.Adds g a) := by
  induction as generalizing n with
  | nil => simp [attachAll, not_takes_nil]
  | cons b as ih =>
    have hid := (n.id_completed_attach (g := g) b).1
    have hdefect := n.snd_attach_eq_none_iff (g := g) b
    have hadds := n.mem_ancestors_attach (g := g) (a := a) b
    simp only [takes_cons, attachAll]
    split
    · next n' hattach =>
      rw [hattach] at hid hdefect hadds
      rw [ih, hid, hadds]
      have hb : none ∉ b.references := hdefect.mp rfl
      constructor
      · rintro ((h | ⟨hne, h⟩) | ⟨hne, c, hc, h⟩)
        · exact Or.inl h
        · exact Or.inr ⟨hne, b, Or.inl rfl, h⟩
        · exact Or.inr ⟨hne, c, Or.inr ⟨hb, hc⟩, h⟩
      · rintro (h | ⟨hne, c, rfl | ⟨-, hc⟩, h⟩)
        · exact Or.inl (Or.inl h)
        · exact Or.inl (Or.inr ⟨hne, h⟩)
        · exact Or.inr ⟨hne, c, hc, h⟩
    · next n' d hattach =>
      rw [hattach] at hdefect hadds
      rw [hadds]
      have hb : ¬ none ∉ b.references := fun h => Option.some_ne_none d (hdefect.mpr h)
      constructor
      · rintro (h | ⟨hne, h⟩)
        · exact Or.inl h
        · exact Or.inr ⟨hne, b, Or.inl rfl, h⟩
      · rintro (h | ⟨hne, c, rfl | ⟨hb', -⟩, h⟩)
        · exact Or.inl h
        · exact Or.inr ⟨hne, h⟩
        · exact absurd hb' hb

/-- A descriptor is not among its own ancestors. -/
def Apart (n : Node) : Prop := n.id ∉ n.ancestors

theorem apart_blank (kind : Kind) (id : Identity) : ({ kind, id } : Node).Apart :=
  List.not_mem_nil

theorem Apart.fill {as : List Attribute} {defect : Option Defect} (h : n.Apart)
    (hfill : n.fill g as = (m, defect)) : m.Apart := by
  unfold Apart
  rw [id_fill hfill, ancestors_fill hfill, mem_ancestors_attachAll]
  rintro (hself | ⟨hne, -⟩)
  · exact h hself
  · exact hne rfl

theorem ancestors_subset_fill {as : List Attribute} {defect : Option Defect}
    (hfill : n.fill g as = (m, defect)) : n.ancestors ⊆ m.ancestors := by
  intro a ha
  rw [ancestors_fill hfill, mem_ancestors_attachAll]
  exact Or.inl ha

theorem inherits_fill {as : List Attribute} {defect : Option Defect} {b : Ref}
    (hfill : n.fill g as = (m, defect)) (hb : TakesBase as b)
    (ha : a = (g.node b).id ∨ a ∈ (g.node b).ancestors) : a ∈ m.ancestors ∨ a = m.id := by
  obtain ⟨ds, htaken, hmem⟩ := hb
  rw [id_fill hfill, ancestors_fill hfill, mem_ancestors_attachAll]
  by_cases hid : a = n.id
  · exact Or.inr hid
  · exact Or.inl (Or.inr ⟨hid, .bases ds, htaken, b, hmem, ha⟩)

end Node

/-! ### What steps fill in -/

/-- The attributes that a step gives. -/
def Making.attributes : Making → List Attribute
  | .construct blueprint => blueprint.attributes
  | .complete _ _ as | .resolve _ as => as
  | .declare _ _ _ | .recursive _ _ => []

/-- The descriptor that a step has filled in, up to a defect if there was one. -/
def Deed.filled? : Deed → Option Ref
  | .made r => some r
  | .attempted _ _ (some (.notPending _)) => none
  | .attempted _ d _ => d
  | .spoiled _ | .declared _ _ => none

theorem Deed.eq_of_filled? {builder : Builder.Name} {r d : Ref} {defect : Option Defect}
    (h : (Deed.attempted builder (some r) defect).filled? = some d) : r = d := by
  cases defect with
  | none => exact Option.some.inj h
  | some e =>
    cases e with
    | notPending shown => cases h
    | missing role | noUnderlying id => exact Option.some.inj h

namespace Workshop

variable {s s' t : Workshop} {deed : Deed} {m : Making} {d b r : Ref}

/-! ### A descriptor is not its own ancestor -/

theorem apart_add {n : Node} (h : ∀ r, (s.graph.node r).Apart) (hn : n.Apart) (r : Ref) :
    ((s.graph.add n).1.node r).Apart := by
  rw [Graph.node_add]
  split
  · exact hn
  · exact h r

theorem apart_complete (h : ∀ r, (s.graph.node r).Apart) (b : Builder.Name) (d : Option Ref)
    (as : List Attribute) (r : Ref) : ((s.complete b d as).1.graph.node r).Apart := by
  by_cases hd : ∀ r, d = some r → r ∉ (s.builders b).pending
  · rw [complete_of_not_pending hd]
    exact h r
  · push Not at hd
    obtain ⟨x, rfl, hx⟩ := hd
    rw [complete_of_pending hx, Graph.node_put]
    split
    · exact (h x).fill rfl
    · exact h r

theorem apart_construct (h : ∀ r, (s.graph.node r).Apart) (blueprint : Blueprint) (r : Ref) :
    ((s.construct blueprint).1.graph.node r).Apart := by
  rcases s.construct_cases blueprint with ⟨defect, hstep⟩ | ⟨kind, id, n, hfill, hstep⟩
  · rw [hstep]
    exact h r
  · rw [hstep]
    exact apart_add h ((Node.apart_blank kind id).fill hfill) r

theorem apart_step (h : ∀ r, (s.graph.node r).Apart) (m : Making) (r : Ref) :
    ((s.step m).1.graph.node r).Apart := by
  cases m with
  | construct blueprint => exact apart_construct h blueprint r
  | declare n id kind | recursive id kind => exact apart_add h (Node.apart_blank kind id) r
  | complete n d as | resolve x as => exact apart_complete h _ _ as r

theorem apart_run (ms : List Making) (r : Ref) : ((run ms).1.graph.node r).Apart := by
  induction ms using List.reverseRecOn generalizing r with
  | nil => exact List.not_mem_nil
  | append_singleton ms m ih =>
    rw [run_concat]
    exact apart_step ih m r

/-! ### What descriptors keep -/

/-- The descriptors of a workshop are in another one, with their identities and their ancestors. -/
structure Retains (s t : Workshop) : Prop where
  size : s.graph.size ≤ t.graph.size
  id : ∀ r < s.graph.size, (t.graph.node r).id = (s.graph.node r).id
  ancestors : ∀ r < s.graph.size, (s.graph.node r).ancestors ⊆ (t.graph.node r).ancestors

theorem Retains.refl (s : Workshop) : s.Retains s := ⟨le_rfl, fun _ _ => rfl, fun _ _ _ h => h⟩

theorem Retains.trans (hss : s.Retains s') (hst : s'.Retains t) : s.Retains t where
  size := hss.size.trans hst.size
  id r hr := (hst.id r (hr.trans_le hss.size)).trans (hss.id r hr)
  ancestors r hr _ ha := hst.ancestors r (hr.trans_le hss.size) (hss.ancestors r hr ha)

theorem retains_add {n : Node} {builders : Builder.Name → Builder} :
    s.Retains ⟨(s.graph.add n).1, builders⟩ := by
  have hnode : ∀ r < s.graph.size, (s.graph.add n).1.node r = s.graph.node r := fun r hr => by
    rw [Graph.node_add, if_neg (Nat.ne_of_lt hr)]
  refine ⟨?_, fun r hr => congrArg Node.id (hnode r hr), fun r hr a ha => ?_⟩
  · rw [Graph.size_add]
    exact Nat.le_succ _
  · rw [hnode r hr]
    exact ha

/-- **A step leaves identities and takes no ancestor away.** -/
theorem Change.retains (h : s.Change s' deed) : s.Retains s' := by
  cases h with
  | spoiled defect | refused b d hd => exact .refl s
  | made hn | declared b id kind hown => exact retains_add
  | @filled b x as n defect hx hfill =>
    refine ⟨(s.graph.size_put x n).ge, fun r hr => ?_, fun r hr a ha => ?_⟩
    · rw [Graph.node_put]
      split
      · next hrx => rw [Node.id_fill hfill, hrx.1]
      · rfl
    · rw [Graph.node_put]
      split
      · next hrx =>
        rw [hrx.1] at ha
        exact Node.ancestors_subset_fill hfill ha
      · exact ha

theorem retains_run_append (ms more : List Making) : (run ms).1.Retains (run (ms ++ more)).1 := by
  induction more using List.reverseRecOn with
  | nil =>
    rw [List.append_nil]
    exact .refl _
  | append_singleton more m ih =>
    obtain ⟨deed, hchange, -⟩ := change_advance (run (ms ++ more)) m
    rw [← List.append_assoc, run_concat]
    exact ih.trans hchange.retains

/-! ### Bases -/

/-- A step gives the descriptor `d` the base `b`, which has been completed before: it fills in `d`,
and its attributes come as far as the base. -/
structure Derives (s : Workshop) (m : Making) (d b : Ref) : Prop where
  filled : (s.step m).2.filled? = some d
  taken : TakesBase m.attributes b
  completed : (s.graph.node b).completed = true

/-- One of the steps gives the descriptor `d` the completed base `b`. -/
def Inherits (ms : List Making) (d b : Ref) : Prop :=
  ∃ before m after, ms = before ++ m :: after ∧ (run before).1.Derives m d b

theorem exists_fill_of_complete {builder : Builder.Name} {x : Option Ref} {as : List Attribute}
    (ht : s.Tidy) (h : (s.complete builder x as).2.filled? = some d) :
    d < (s.complete builder x as).1.graph.size ∧
      ∃ n defect, Node.fill s.graph n as =
        ((s.complete builder x as).1.graph.node d, defect) := by
  by_cases hx : ∀ r, x = some r → r ∉ (s.builders builder).pending
  · rw [complete_of_not_pending hx] at h
    cases h
  · push Not at hx
    obtain ⟨r, rfl, hr⟩ := hx
    rw [complete_of_pending hr] at h ⊢
    have hd : r = d := Deed.eq_of_filled? h
    subst hd
    have hinside := ht.inside builder r hr
    refine ⟨?_, s.graph.node r, ((s.graph.node r).fill s.graph as).2, ?_⟩
    · rwa [Graph.size_put]
    · rw [Graph.node_put, if_pos ⟨rfl, hinside⟩]

theorem exists_fill_of_step (ht : s.Tidy) (h : (s.step m).2.filled? = some d) :
    d < (s.step m).1.graph.size ∧
      ∃ n defect, Node.fill s.graph n m.attributes = ((s.step m).1.graph.node d, defect) := by
  cases m with
  | construct blueprint =>
    rw [step] at h ⊢
    rcases s.construct_cases blueprint with ⟨defect, hstep⟩ | ⟨kind, id, n, hfill, hstep⟩
    · rw [hstep] at h
      cases h
    · rw [hstep] at h ⊢
      obtain rfl : s.graph.size = d := Option.some.inj h
      refine ⟨?_, { kind, id }, none, ?_⟩
      · rw [Graph.size_add]
        exact Nat.lt_succ_self _
      · rw [Graph.node_add, if_pos rfl]
        exact hfill
  | declare n id kind | recursive id kind => cases h
  | complete n x as | resolve x as => exact exists_fill_of_complete ht h

/-- **A completed base passes on its identity and its ancestors.** -/
theorem Inherits.passes {ms : List Making} {a : Identity} (h : Inherits ms d b)
    (ha : a = ((run ms).1.graph.node b).id ∨ a ∈ ((run ms).1.graph.node b).ancestors) :
    a ∈ ((run ms).1.graph.node d).ancestors ∨ a = ((run ms).1.graph.node d).id := by
  obtain ⟨before, m, after, rfl, hstep⟩ := h
  have ht := (tidy_recorded_run before).1
  obtain ⟨hd, n, defect, hfill⟩ := exists_fill_of_step ht hstep.filled
  -- The base stays as it was, and the descriptor keeps what it got.
  rw [node_run_append before (m :: after) hstep.completed] at ha
  have hgiven := Node.inherits_fill hfill hstep.taken ha
  have hrun : (run (before ++ [m])).1 = ((run before).1.step m).1 := by
    rw [run_concat]
    rfl
  have hlater := retains_run_append (before ++ [m]) after
  rw [List.append_assoc, List.singleton_append, hrun] at hlater
  rw [hlater.id d hd]
  exact hgiven.imp_left fun h => hlater.ancestors d hd h

/-- Along a chain of bases, the identity of the last one is passed on from link to link. -/
theorem passes_of_transGen {ms : List Making} (h : TransGen (Inherits ms) d b) :
    ((run ms).1.graph.node b).id ∈ ((run ms).1.graph.node d).ancestors ∨
      ((run ms).1.graph.node b).id = ((run ms).1.graph.node d).id := by
  induction h using TransGen.head_induction_on with
  | single h => exact h.passes (Or.inl rfl)
  | head h _ ih => exact h.passes ih.symm

/-- **Ancestors are inherited.** Whatever steps have been taken, with whatever failures: no
descriptor is among its own ancestors; if a descriptor was given a base that was completed by then,
the identity of the base and all its ancestors are among the ancestors of the descriptor, except for
its own identity; and over any number of such bases, the last one is an ancestor of the first
descriptor exactly if it has another identity, whatever identities stand between them. -/
theorem ancestors_inherited (ms : List Making) :
    let g := (run ms).1.graph
    (∀ r, (g.node r).hasAncestor (g.node r).id = false) ∧
    (∀ d b, Inherits ms d b → ∀ a,
      (a = (g.node b).id ∨ (g.node b).hasAncestor a = true) →
        (g.node d).hasAncestor a = true ∨ a = (g.node d).id) ∧
    ∀ d b, TransGen (Inherits ms) d b →
      ((g.node d).hasAncestor (g.node b).id = true ↔ (g.node b).id ≠ (g.node d).id) := by
  intro g
  have hasAncestor_iff : ∀ r a, (g.node r).hasAncestor a = true ↔ a ∈ (g.node r).ancestors :=
    fun r a => by simp [Node.hasAncestor]
  refine ⟨fun r => ?_, fun d b h a ha => ?_, fun d b h => ⟨fun hmem heq => ?_, fun hne => ?_⟩⟩
  · rw [Bool.eq_false_iff, Ne, hasAncestor_iff]
    exact apart_run ms r
  · rw [hasAncestor_iff] at ha ⊢
    exact h.passes ha
  · rw [heq, hasAncestor_iff] at hmem
    exact apart_run ms d hmem
  · rw [hasAncestor_iff]
    exact (passes_of_transGen h).resolve_right hne

/-- An interface, a type that implements it, a file of that type, whose completion fails after its
base was given, and a type with the same identity as the interface. -/
def readers : List Making :=
  [.construct (.plain .interface "io.Reader" []),
    .construct (.plain .userDefined "p.Base" [.ancestors ["any"], .bases [some 0]]),
    .declare 0 "p.File" .userDefined,
    .complete 0 (some 2) [.bases [some 1, none]],
    .construct (.plain .userDefined "io.Reader" [.bases [some 1]])]

/-- The file has the interface as an ancestor, and so would the other type, if the interface had
another identity; it has what else its base has. -/
theorem ancestors_inherited_readers :
    (TransGen (Inherits readers) 2 0 ∧ TransGen (Inherits readers) 3 0) ∧
      ((run readers).1.graph.node 2).hasAncestor "io.Reader" = true ∧
      ((run readers).1.graph.node 3).hasAncestor "io.Reader" = false ∧
      ((run readers).1.graph.node 3).hasAncestor "p.Base" = true := by
  have htaken : ∀ {before after : List Attribute} {ds : List (Option Ref)} {b : Ref},
      (∀ a ∈ before, none ∉ a.references) → b ∈ leading ds →
        TakesBase (before ++ .bases ds :: after) b :=
    fun hbefore hb => ⟨_, ⟨_, _, rfl, hbefore⟩, hb⟩
  have hfirst : ∀ {ds : List (Option Ref)} {b : Ref}, b ∈ leading ds → TakesBase [.bases ds] b :=
    fun hb => htaken (List.forall_mem_nil _) hb
  have hsecond : TakesBase [.ancestors ["any"], .bases [some 0]] 0 :=
    htaken (List.forall_mem_singleton.mpr (by decide)) (by decide)
  have hbase : Inherits readers 1 0 := ⟨[_], _, _, rfl, by decide, hsecond, by decide⟩
  have hfile : Inherits readers 2 1 :=
    ⟨[_, _, _], _, _, rfl, by decide, hfirst (by decide), by decide⟩
  have hother : Inherits readers 3 1 :=
    ⟨[_, _, _, _], _, _, rfl, by decide, hfirst (by decide), by decide⟩
  obtain ⟨hself, hlink, hchain⟩ := ancestors_inherited readers
  have hreader : ((run readers).1.graph.node 0).id = "io.Reader" := by decide
  have htwo := (TransGen.single hfile).tail hbase
  have hthree := (TransGen.single hother).tail hbase
  refine ⟨⟨htwo, hthree⟩, ?_, hself 3, ?_⟩
  · rw [← hreader]
    exact (hchain 2 0 htwo).mpr (by decide)
  · exact (hlink 3 1 hother "p.Base" (Or.inl (by decide))).resolve_right (by decide)

end Workshop

end EverEqual
