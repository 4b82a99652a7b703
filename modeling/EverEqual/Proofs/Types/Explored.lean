import EverEqual.Proofs.Types.Visits

/-!
# The search as a whole

The search is a sequence of visits: what a visit leads to is visited before anything else. It keeps
that whatever a visited type refers to has been visited or is going to be, and it ends, because a
visit adds the mark of a name, of which there are few, or leads to smaller types.

* `World.Explored`: the visits of a search, one after another;
* `World.Searching`: what a search keeps;
* `World.Searching.explored`: the step and the run;
* `World.Territory.explored`: enough steps complete the search.
-/

namespace EverEqual

namespace World

open Discovery

/-- All occurrences of a list have been visited, in order, each with what it leads to. -/
inductive Explored (w : World) : Discovery → List Occurrence → Discovery → Prop
  | nil (d : Discovery) : Explored w d [] d
  | visit {d d' : Discovery} {o : Occurrence} {os : List Occurrence}
    (h : Explored w (w.visit d o).1 ((w.visit d o).2 ++ os) d') : Explored w d (o :: os) d'

/-- What a search keeps, with the occurrences that are still to be visited. -/
structure Searching (w : World) (rank : String → Nat) (F G : Set Ty) (root : Ty) (d : Discovery)
    (os : List Occurrence) : Prop where
  regular : w.Regular rank F G d
  placed : ∀ o ∈ os, d.Placed rank o
  mem : ∀ o ∈ os, d.typeOf o ∈ F
  root : w.Covered d root ∨ w.Awaited d os root
  followed : ∀ m ∈ d.seen, ∀ t ∈ w.followers (w.unalias m.type), w.Covered d t ∨ w.Awaited d os t
  kept : ∀ m ∈ d.seen, isName (w.unalias m.type) = true → w.isInterface (w.unalias m.type) = true →
    ∃ t ∈ d.found, w.Twin t (w.unalias m.type)
  found : ∀ t ∈ d.found, t ∈ F ∧ isName t = true ∧ w.isInterface t = true ∧ w.aliasTarget? t = none

variable {w : World} {rank : String → Nat} {F G : Set Ty} {root t : Ty} {d d' : Discovery}
  {o : Occurrence} {os os' next : List Occurrence}

theorem Explored.unique {d'' : Discovery} (h : w.Explored d os d') (h' : w.Explored d os d'') :
    d' = d'' := by
  induction h with
  | nil d => cases h'; rfl
  | visit _ ih =>
    cases h' with
    | visit h' => exact ih h'

theorem Explored.append {d'' : Discovery} (h : w.Explored d os d') (h' : w.Explored d' os' d'') :
    w.Explored d (os ++ os') d'' := by
  induction h with
  | nil d => exact h'
  | visit _ ih =>
    rw [List.cons_append]
    refine .visit ?_
    rw [← List.append_assoc]
    exact ih h'

/-! ### What a search keeps -/

theorem Territory.reached_step (h : w.Territory rank F G)
    (hs : w.Searching rank F G root d (o :: os)) (hv : w.Visited rank F G d o d' next)
    (ht : w.Covered d t ∨ w.Awaited d (o :: os) t) :
    w.Covered d' t ∨ w.Awaited d' (next ++ os) t := by
  rcases ht with ⟨m, hm, htwin⟩ | ⟨x, hx, htwin⟩
  · exact .inl ⟨m, hv.later.seen hm, htwin⟩
  · rcases List.mem_cons.mp hx with rfl | hx
    · have hmark := (h.mark_type hs.regular (hs.mem x List.mem_cons_self)).2.1
      exact .inl ⟨_, hv.mark_mem, (unalias_twin hmark).symm.trans htwin⟩
    · refine .inr ⟨x, List.mem_append_right _ hx, ?_⟩
      rwa [hv.later.typeOf_eq (hs.placed x (List.mem_cons_of_mem _ hx))]

/-- **A visit keeps what a search keeps.** -/
theorem Territory.searching_step (h : w.Territory rank F G)
    (hs : w.Searching rank F G root d (o :: os)) (hv : w.Visited rank F G d o d' next) :
    w.Searching rank F G root d' (next ++ os) := by
  have hstep := fun t => h.reached_step hs hv (t := t)
  have hmark := (h.mark_type hs.regular (hs.mem o List.mem_cons_self)).2.1
  have htwin := unalias_twin hmark
  refine ⟨hv.regular, fun x hx => ?_, fun x hx => ?_, hstep root hs.root, fun m hm t ht => ?_,
    fun m hm hname hi => ?_, fun t ht => ?_⟩
  · rcases List.mem_append.mp hx with hx | hx
    · exact hv.placed x hx
    · exact hv.later.placed (hs.placed x (List.mem_cons_of_mem _ hx))
  · rcases List.mem_append.mp hx with hx | hx
    · exact hv.mem x hx
    · rw [hv.later.typeOf_eq (hs.placed x (List.mem_cons_of_mem _ hx))]
      exact hs.mem x (List.mem_cons_of_mem _ hx)
  · by_cases hold : m ∈ d.seen
    · exact hstep t (hs.followed m hold t ht)
    · obtain rfl := (hv.seen m hm).resolve_right hold
      obtain ⟨u, hu, htu⟩ := exists_mem_of_forall₂ (h.checked.followers_twin htwin.symm) ht
      obtain ⟨x, hx, hxu⟩ := hv.followed hold u hu
      exact .inr ⟨x, List.mem_append_left _ hx, hxu.trans (unalias_twin htu).symm⟩
  · by_cases hold : m ∈ d.seen
    · obtain ⟨t, ht, htm⟩ := hs.kept m hold hname hi
      exact ⟨t, hv.later.found ht, htm⟩
    · obtain rfl := (hv.seen m hm).resolve_right hold
      obtain ⟨n, xs, hn⟩ := isName_eq_true.mp hname
      rw [hn] at htwin hi ⊢
      obtain ⟨ys, hn', -⟩ := htwin.symm.exists_named
      refine ⟨_, hv.kept hold ?_ ?_, htwin⟩
      · exact isName_eq_true.mpr ⟨n, ys, hn'⟩
      · rw [hn', h.checked.isInterface_named]
        exact hi
  · rcases hv.found t ht with ht | ht
    · exact hs.found t ht
    · exact ht

/-- **A search keeps it through all its visits.** -/
theorem Territory.searching_run (h : w.Territory rank F G) (he : w.Explored d os d')
    (hs : w.Searching rank F G root d (os ++ os')) :
    w.Searching rank F G root d' os' ∧ d.Later d' := by
  induction he with
  | nil d => exact ⟨hs, .refl d⟩
  | @visit d d' o os _ ih =>
    rw [List.cons_append] at hs
    have ho : o ∈ o :: (os ++ os') := List.mem_cons_self
    have hv := h.visited hs.regular (hs.placed o ho) (hs.mem o ho)
    have hstep := h.searching_step hs hv
    rw [← List.append_assoc] at hstep
    obtain ⟨hs', hlater⟩ := ih hstep
    exact ⟨hs', hv.later.trans hlater⟩

/-! ### How long a search takes -/

theorem names_le_of_subset {d d' : Discovery} (hd : d.seen.Nodup) (h : d.seen ⊆ d'.seen) :
    d.names ≤ d'.names :=
  ((hd.filter _).subperm fun _ hm =>
    List.mem_filter.mpr ⟨h (List.mem_filter.mp hm).1, (List.mem_filter.mp hm).2⟩).length_le

/-- The names that may still be visited come before the size of the type. -/
noncomputable def fuel (names size : Nat) (d : Discovery) (o : Occurrence) : Nat :=
  (names - d.names) * (size + 1) + sizeOf (d.typeOf o)

variable {B M : Nat}

/-- A visit leads to occurrences from which the search takes less, also after further visits. -/
theorem Visited.fuel_lt (hv : w.Visited rank F G d o d' next) {d'' : Discovery}
    (hd : w.Regular rank F G d) (hlater : d'.Later d'') {x : Occurrence} (hx : x ∈ next)
    (hB : d''.names ≤ B) (hM : sizeOf (d''.typeOf x) ≤ M) : fuel B M d'' x < fuel B M d o := by
  obtain ⟨hfresh, hless⟩ := hv.smaller x hx
  have hsubset : w.mark d o :: d.seen ⊆ d''.seen :=
    List.cons_subset.mpr ⟨hlater.seen hv.mark_mem, fun _ hm => hlater.seen (hv.later.seen hm)⟩
  rcases hless with hname | hless
  · have hmore : d.names + 1 ≤ d''.names := by
      have hle : Discovery.names { d with seen := w.mark d o :: d.seen } ≤ d''.names :=
        names_le_of_subset (hd.seen_nodup.cons hfresh) hsubset
      rwa [names, List.filter_cons_of_pos hname, List.length_cons] at hle
    obtain ⟨k, hk⟩ := Nat.exists_eq_add_of_lt (Nat.lt_of_lt_of_le hmore hB)
    have hrest : B - d''.names ≤ k := by omega
    calc fuel B M d'' x ≤ k * (M + 1) + M :=
          Nat.add_le_add (Nat.mul_le_mul_right _ hrest) hM
      _ < (k + 1) * (M + 1) := by rw [Nat.add_one_mul]; omega
      _ = (B - d.names) * (M + 1) := by rw [show B - d.names = k + 1 by omega]
      _ ≤ fuel B M d o := Nat.le_add_right _ _
  · have hmore : d.names ≤ d''.names :=
      names_le_of_subset hd.seen_nodup fun m hm => hsubset (List.mem_cons_of_mem _ hm)
    have htype : d''.typeOf x = d'.typeOf x := hlater.typeOf_eq (hv.placed x hx)
    rw [fuel, fuel, htype]
    exact Nat.add_lt_add_of_le_of_lt
      (Nat.mul_le_mul_right _ (Nat.sub_le_sub_left hmore B)) hless

/-- **Enough steps complete the search from an occurrence.** -/
theorem Territory.explored (h : w.Territory rank F G)
    (hB : ∀ d, w.Regular rank F G d → d.names ≤ B) (hM : ∀ t ∈ G, sizeOf t ≤ M) {k : Nat}
    (hs : w.Searching rank F G root d (o :: os)) (hk : fuel B M d o < k) :
    w.Explored d [o] (w.discover k d o) := by
  induction k generalizing d o os with
  | zero => cases hk
  | succ k ih =>
    have ho : o ∈ o :: os := List.mem_cons_self
    have hv := h.visited hs.regular (hs.placed o ho) (hs.mem o ho)
    -- What is next is searched one after the other, in discoveries that have grown.
    have hall : ∀ (xs : List Occurrence) (d₁ : Discovery), (∀ x ∈ xs, x ∈ (w.visit d o).2) →
        (w.visit d o).1.Later d₁ → w.Searching rank F G root d₁ (xs ++ os) →
        w.Explored d₁ xs (xs.foldl (w.discover k) d₁) := by
      intro xs
      induction xs with
      | nil => exact fun d₁ _ _ _ => .nil d₁
      | cons x xs ihxs =>
        intro d₁ hxs hlater hs₁
        have hx := hs₁.mem x List.mem_cons_self
        have hless := hv.fuel_lt hs.regular hlater (hxs x List.mem_cons_self)
          (hB d₁ hs₁.regular) (hM _ (h.subset hx))
        have hone := ih hs₁ (Nat.lt_of_lt_of_le hless (Nat.le_of_lt_succ hk))
        obtain ⟨hs₂, hlater'⟩ := h.searching_run hone (List.singleton_append ▸ hs₁)
        exact hone.append (ihxs _ (fun y hy => hxs y (List.mem_cons_of_mem _ hy))
          (hlater.trans hlater') hs₂)
    rw [discover_succ]
    refine .visit ?_
    rw [List.append_nil]
    exact hall _ _ (fun _ hx => hx) (.refl _) (h.searching_step hs hv)

end World

end EverEqual
