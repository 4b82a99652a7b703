import EverEqual.Proofs.Comparison.Similar
import EverEqual.Proofs.Types.Marks

/-!
# One visit

The search visits one occurrence after another. A visit either meets a mark that has been seen, or
it adds the mark; then it finds an interface, or it has all that the type refers to visited next.

* `World.visit`: one visit, and the occurrences to be visited after it;
* `World.Visited`: what a visit comes to;
* `World.Territory.visited`: every visit comes to that.
-/

namespace EverEqual

namespace World

open Discovery

/-- Whether a type is a name. -/
def isName : Ty → Bool
  | .named _ _ => true
  | _ => false

/-- One visit: the discovery after it, and what is to be visited next. -/
def visit (w : World) (d : Discovery) (o : Occurrence) : Discovery × List Occurrence :=
  let t := w.unalias (d.typeOf o)
  let seen := { d with seen := w.mark d o :: d.seen }
  if d.seen.contains (w.mark d o) then (d, [])
  else if isName t && w.isInterface t then ({ seen with found := t :: d.found }, [])
  else w.following seen o

theorem discover_succ (w : World) (k : Nat) (d : Discovery) (o : Occurrence) :
    w.discover (k + 1) d o = (w.visit d o).2.foldl (w.discover k) (w.visit d o).1 := by
  have hdiscover : w.discover (k + 1) d o =
      let t := w.unalias (d.typeOf o)
      let seen := { d with seen := w.mark d o :: d.seen }
      if d.seen.contains (w.mark d o) then d
      else if isName t && w.isInterface t then { seen with found := t :: d.found }
      else (w.following seen o).2.foldl (w.discover k) (w.following seen o).1 := rfl
  rw [hdiscover, visit]
  dsimp only
  split_ifs <;> rfl

/-- A type has been visited, or a twin of it has been. -/
def Covered (w : World) (d : Discovery) (t : Ty) : Prop :=
  ∃ m ∈ d.seen, w.Twin (w.unalias m.type) (w.unalias t)

/-- A type is going to be visited, or a twin of it is. -/
def Awaited (w : World) (d : Discovery) (os : List Occurrence) (t : Ty) : Prop :=
  ∃ o ∈ os, w.Twin (w.unalias (d.typeOf o)) (w.unalias t)

/-- What a visit comes to. -/
structure Visited (w : World) (rank : String → Nat) (F G : Set Ty) (d : Discovery) (o : Occurrence)
    (d' : Discovery) (next : List Occurrence) : Prop where
  regular : w.Regular rank F G d'
  later : d.Later d'
  mark_mem : w.mark d o ∈ d'.seen
  seen : ∀ m ∈ d'.seen, m = w.mark d o ∨ m ∈ d.seen
  placed : ∀ x ∈ next, d'.Placed rank x
  mem : ∀ x ∈ next, d'.typeOf x ∈ F
  /-- A new type is followed, -/
  followed (h : w.mark d o ∉ d.seen) : ∀ t ∈ w.followers (w.unalias (d.typeOf o)),
    w.Awaited d' next t
  /-- or found if it is an interface. -/
  kept (h : w.mark d o ∉ d.seen) : isName (w.unalias (d.typeOf o)) = true →
    w.isInterface (w.unalias (d.typeOf o)) = true → w.unalias (d.typeOf o) ∈ d'.found
  found : ∀ t ∈ d'.found, t ∈ d.found ∨
    t ∈ F ∧ isName t = true ∧ w.isInterface t = true ∧ w.aliasTarget? t = none
  /-- After the mark of a name is seen, or among the parts of another type, something is next. -/
  smaller : ∀ x ∈ next, w.mark d o ∉ d.seen ∧
    ((w.mark d o).isName = true ∨ sizeOf (d'.typeOf x) < sizeOf (d.typeOf o))

variable {w : World} {rank : String → Nat} {F G : Set Ty} {d d' : Discovery} {o : Occurrence}
  {n : TypeName} {xs : List Ty} {t : Ty}

theorem isName_eq_true : isName t = true ↔ ∃ n xs, t = .named n xs := by
  cases t with
  | named n xs => exact ⟨fun _ => ⟨n, xs, rfl⟩, fun _ => rfl⟩
  | _ => exact ⟨nofun, fun ⟨_, _, h⟩ => nomatch h⟩

/-- The mark of an occurrence bears a twin of its type, and shows whether that is a name. -/
theorem Territory.mark_type (h : w.Territory rank F G) (hd : w.Regular rank F G d)
    (hmem : d.typeOf o ∈ F) :
    (w.mark d o).type ∈ G ∧ w.Twin (d.typeOf o) (w.mark d o).type ∧
      (w.mark d o).isName = isName (d.typeOf o) := by
  by_cases hname : ∃ n xs, d.typeOf o = .named n xs
  · obtain ⟨n, xs, hname⟩ := hname
    obtain ⟨c, u, hmark, hu, htwin, -⟩ := h.mark_of_named hd hname (hname ▸ h.subset hmem)
    rw [hmark, hname]
    exact ⟨hu, htwin, rfl⟩
  · push Not at hname
    rw [mark_of_not_named hname]
    refine ⟨h.subset hmem, .refl w _, ?_⟩
    exact (Bool.eq_false_iff.mpr fun hn => by
      obtain ⟨n, xs, ht⟩ := isName_eq_true.mp hn
      exact hname n xs ht).symm

theorem Territory.mark_opened (h : w.Territory rank F G) (hd : w.Regular rank F G d)
    (hmem : d.typeOf o ∈ F) {c : Nat} {u : Ty} (hmark : w.mark d o = .name (some c) u) :
    ∃ e₀, d.Opens c e₀ := by
  by_cases hname : ∃ n xs, d.typeOf o = .named n xs
  · obtain ⟨n, xs, hname⟩ := hname
    obtain ⟨c', u', hmark', -, -, hc⟩ := h.mark_of_named hd hname (hname ▸ h.subset hmem)
    obtain ⟨rfl, rfl⟩ := Mark.name.inj (hmark'.symm.trans hmark)
    refine hd.exists_opener (o := o) ((hc.resolve_left (Option.some_ne_none c)).imp id ?_)
    exact fun ⟨e, he, hcontext⟩ => ⟨e, he, Option.some.inj hcontext⟩
  · push Not at hname
    rw [mark_of_not_named hname] at hmark
    cases hmark

theorem Territory.regular_see (h : w.Territory rank F G) (hd : w.Regular rank F G d)
    (hmem : d.typeOf o ∈ F) (hfresh : w.mark d o ∉ d.seen) :
    w.Regular rank F G { d with seen := w.mark d o :: d.seen } := by
  have hlater : d.Later { d with seen := w.mark d o :: d.seen } :=
    ⟨List.prefix_refl _, List.subset_cons_self _ _, fun _ h => h⟩
  refine ⟨fun hi => (hd.expansion hi).later hlater, hd.marks, hd.seen_nodup.cons hfresh,
    fun {m} hm => ?_, fun {c u} hm => ?_⟩
  · rcases List.mem_cons.mp hm with rfl | hm
    · exact (h.mark_type hd hmem).1
    · exact hd.seen_mem hm
  · rcases List.mem_cons.mp hm with hm | hm
    · exact h.mark_opened hd hmem hm.symm
    · exact hd.seen_opened hm

theorem visit_of_seen (hm : w.mark d o ∈ d.seen) : w.visit d o = (d, []) := by
  rw [visit]
  exact if_pos (List.contains_iff_mem.mpr hm)

theorem visit_of_interface (hm : w.mark d o ∉ d.seen)
    (hname : isName (w.unalias (d.typeOf o)) = true)
    (hi : w.isInterface (w.unalias (d.typeOf o)) = true) :
    w.visit d o = ({ d with
      seen := w.mark d o :: d.seen
      found := w.unalias (d.typeOf o) :: d.found }, []) := by
  rw [visit]
  dsimp only
  rw [if_neg (mt List.contains_iff_mem.mp hm), hname, hi]
  rfl

theorem visit_of_other (hm : w.mark d o ∉ d.seen)
    (hother : ¬(isName (w.unalias (d.typeOf o)) = true ∧
      w.isInterface (w.unalias (d.typeOf o)) = true)) :
    w.visit d o = w.following { d with seen := w.mark d o :: d.seen } o := by
  rw [visit]
  dsimp only
  rw [if_neg (mt List.contains_iff_mem.mp hm), if_neg (by simpa using hother)]

theorem later_see (d : Discovery) (m : Mark) (ts : List Ty) :
    d.Later { d with seen := m :: d.seen, found := ts ++ d.found } :=
  ⟨List.prefix_refl _, List.subset_cons_self _ _, List.subset_append_right _ _⟩

theorem awaited_of_occurs {ts : List Ty} {next : List Occurrence}
    (hnext : List.Forall₂ (w.Occurs rank F d) ts next) : ∀ u ∈ ts, w.Awaited d next u := by
  intro u hu
  obtain ⟨x, hx, hoccurs⟩ := exists_mem_of_forall₂ hnext hu
  exact ⟨x, hx, unalias_twin hoccurs.twin.symm⟩

theorem isName_of_unalias (ht : isName (w.unalias t) = true) : isName t = true := by
  by_contra hname
  rw [unalias_of_not_named fun n xs h => hname (isName_eq_true.mpr ⟨n, xs, h⟩)] at ht
  exact hname ht

theorem Territory.visited_interface (h : w.Territory rank F G) (hd : w.Regular rank F G d)
    (hmem : d.typeOf o ∈ F) (hm : w.mark d o ∉ d.seen)
    (hname : isName (w.unalias (d.typeOf o)) = true)
    (hi : w.isInterface (w.unalias (d.typeOf o)) = true) :
    w.Visited rank F G d o (w.visit d o).1 (w.visit d o).2 := by
  have hsee := h.regular_see hd hmem hm
  have hlater := later_see d (w.mark d o) [w.unalias (d.typeOf o)]
  rw [visit_of_interface hm hname hi]
  refine ⟨⟨fun hi => (hd.expansion hi).later hlater, hsee.marks, hsee.seen_nodup, hsee.seen_mem,
    hsee.seen_opened⟩, hlater, List.mem_cons_self, fun _ => List.mem_cons.mp, nofun, nofun,
    fun _ => ?_, fun _ _ _ => List.mem_cons_self, fun t ht => ?_, nofun⟩
  · obtain ⟨n, xs, ht⟩ := isName_eq_true.mp hname
    rw [ht, followers_of_isInterface (ht ▸ hi)]
    exact nofun
  · rcases List.mem_cons.mp ht with rfl | ht
    · exact .inr ⟨h.unalias_mem hmem, hname, hi, h.checked.unalias_ended _⟩
    · exact .inl ht

theorem Territory.visited_named (h : w.Territory rank F G) (hd : w.Regular rank F G d)
    (ho : d.Placed rank o) (hmem : d.typeOf o ∈ F) (hm : w.mark d o ∉ d.seen)
    (hname : w.unalias (d.typeOf o) = .named n xs)
    (hconcrete : w.isInterface (.named n xs) = false) :
    w.Visited rank F G d o (w.visit d o).1 (w.visit d o).2 := by
  have hlater := later_see d (w.mark d o) []
  have hother : ¬(isName (w.unalias (d.typeOf o)) = true ∧
      w.isInterface (w.unalias (d.typeOf o)) = true) := fun ⟨_, hi⟩ => by
    rw [hname, hconcrete] at hi
    cases hi
  obtain ⟨d', next, heq, hd', hnext⟩ :=
    h.following_named (h.regular_see hd hmem hm) (hlater.placed ho) hmem hname hconcrete
  have hseen : d'.seen = w.mark d o :: d.seen := hd'.seen
  have hoccurs : ∀ x ∈ next, ∃ t ∈ w.followers (.named n xs), w.Occurs rank F d' t x := fun x hx =>
    exists_mem_of_forall₂ hnext.flip hx
  rw [visit_of_other hm hother, heq]
  refine ⟨hd'.regular, hlater.trans hd'.later, hseen ▸ List.mem_cons_self,
    fun m hm' => List.mem_cons.mp (hseen ▸ hm'), fun x hx => ?_, fun x hx => ?_,
    fun _ => hname ▸ awaited_of_occurs hnext, fun _ hn hi => absurd ⟨hn, hi⟩ hother,
    fun t ht => .inl (hd'.found ▸ ht), fun x _ => ⟨hm, .inl ?_⟩⟩
  · obtain ⟨t, -, hx⟩ := hoccurs x hx
    exact hx.placed
  · obtain ⟨t, -, hx⟩ := hoccurs x hx
    exact hx.mem
  · rw [(h.mark_type hd hmem).2.2]
    exact isName_of_unalias (isName_eq_true.mpr ⟨n, xs, hname⟩)

theorem Territory.visited_parts (h : w.Territory rank F G) (hd : w.Regular rank F G d)
    (ho : d.Placed rank o) (hmem : d.typeOf o ∈ F) (hm : w.mark d o ∉ d.seen)
    (hname : ∀ n xs, w.unalias (d.typeOf o) ≠ .named n xs) :
    w.Visited rank F G d o (w.visit d o).1 (w.visit d o).2 := by
  have hlater := later_see d (w.mark d o) []
  have hsee := h.regular_see hd hmem hm
  have hother : ¬(isName (w.unalias (d.typeOf o)) = true ∧
      w.isInterface (w.unalias (d.typeOf o)) = true) := fun ⟨hn, _⟩ => by
    obtain ⟨n, xs, ht⟩ := isName_eq_true.mp hn
    exact hname n xs ht
  obtain ⟨next, heq, hplaced, htypes⟩ := hsee.following_parts (hlater.placed ho) hname
  have hpart : ∀ x ∈ next, d.typeOf x ∈ (w.unalias (d.typeOf o)).parts := fun x hx =>
    htypes ▸ List.mem_map_of_mem hx
  rw [visit_of_other hm hother, heq]
  refine ⟨hsee, hlater, List.mem_cons_self, fun _ => List.mem_cons.mp, hplaced,
    fun x hx => h.closed (h.unalias_mem hmem) (.part (hpart x hx)), fun _ t ht => ?_,
    fun _ hn hi => absurd ⟨hn, hi⟩ hother, fun _ => .inl, fun x hx => ⟨hm, ?_⟩⟩
  · rw [followers_of_not_named hname] at ht
    obtain ⟨x, hx, rfl⟩ := List.mem_map.mp (htypes ▸ ht)
    exact ⟨x, hx, .refl w _⟩
  · rw [(h.mark_type hd hmem).2.2]
    by_cases hn : isName (d.typeOf o) = true
    · exact .inl hn
    · refine .inr (Ty.sizeOf_lt_of_mem_children (Ty.mem_children_of_mem_parts ?_))
      have hself : w.unalias (d.typeOf o) = d.typeOf o :=
        unalias_of_not_named fun n xs ht => hn (isName_eq_true.mpr ⟨n, xs, ht⟩)
      exact hself ▸ hpart x hx

/-- **Every visit comes to that.** -/
theorem Territory.visited (h : w.Territory rank F G) (hd : w.Regular rank F G d)
    (ho : d.Placed rank o) (hmem : d.typeOf o ∈ F) :
    w.Visited rank F G d o (w.visit d o).1 (w.visit d o).2 := by
  by_cases hm : w.mark d o ∈ d.seen
  · rw [visit_of_seen hm]
    exact ⟨hd, .refl d, hm, fun _ => .inr, nofun, nofun, fun hfresh => absurd hm hfresh,
      fun hfresh => absurd hm hfresh, fun _ => .inl, nofun⟩
  · by_cases hname : ∃ n xs, w.unalias (d.typeOf o) = .named n xs
    · obtain ⟨n, xs, hname⟩ := hname
      cases hi : w.isInterface (.named n xs) with
      | true =>
        exact h.visited_interface hd hmem hm (isName_eq_true.mpr ⟨n, xs, hname⟩) (hname ▸ hi)
      | false => exact h.visited_named hd ho hmem hm hname hi
    · push Not at hname
      exact h.visited_parts hd ho hmem hm hname

end World

end EverEqual
