import EverEqual.Descriptor.Workshop
import EverEqual.Proofs.Descriptor.Filling

/-!
# The life of a descriptor

A descriptor that a blueprint describes is completed when it is made. One that is declared waits
with its builder until somebody attempts to complete it; the attempt succeeds or fails, and there is
no second one. What is completed stays as it is, whatever happens to the descriptors around it.

All of this is read off the deeds of a workshop, which say what came of each step, the last one
first.

* `Graph.exists_of_construct`: a blueprint adds what its attributes make of a new descriptor;
* `Workshop.Waits`, `Workshop.Completes`, `Workshop.Failed`: what the deeds say about a descriptor;
* `Workshop.Change`, `Workshop.change_step`: all that a step can do;
* `Workshop.Tidy`, `Workshop.Recorded`: what holds in every workshop, on its own and as its deeds
  tell it, with one lemma for a step and one for a run;
* `Workshop.lifecycle`: the whole life.
-/

namespace EverEqual

theorem exists_of_bind_eq_ok {ε α β : Type} {x : Except ε α} {f : α → Except ε β} {b : β}
    (h : x >>= f = .ok b) : ∃ a, f a = .ok b := by
  cases x with
  | error e => cases h
  | ok a => exact ⟨a, h⟩

/-- What a blueprint says about its descriptor. -/
def Blueprint.attributes : Blueprint → List Attribute
  | .unknown _ | .array none => []
  | .plain _ _ as | .collection _ none as => as
  | .nullable of => [.underlying of]
  | .array (some r) => [.element (some r)]
  | .collection _ (some r) as => .element (some r) :: as
  | .map key element => [.key key, .element element]
  | .tuple parts | .namedTuple _ parts => [.tuple parts]

namespace Graph

variable {g : Graph} {p : Graph × Ref}

theorem exists_of_addFilled {kind : Kind} {id : Identity} {as : List Attribute}
    (h : g.addFilled kind id as = .ok p) :
    ∃ kind id n, Node.fill g { kind, id } as = (n, none) ∧ p = g.add n := by
  unfold addFilled at h
  split at h
  · next n hfill =>
    cases h
    exact ⟨kind, id, n, hfill, rfl⟩
  · cases h

theorem exists_of_construct {blueprint : Blueprint} (h : g.construct blueprint = .ok p) :
    ∃ kind id n, Node.fill g { kind, id } blueprint.attributes = (n, none) ∧ p = g.add n := by
  cases blueprint with
  | unknown name | plain kind id as | namedTuple id parts =>
    unfold construct at h
    exact exists_of_addFilled h
  | array element | collection id element as =>
    cases element <;>
    · unfold construct at h
      exact exists_of_addFilled h
  | nullable of | tuple parts =>
    obtain ⟨_, h⟩ := exists_of_bind_eq_ok h
    exact exists_of_addFilled h
  | map key element =>
    obtain ⟨_, h⟩ := exists_of_bind_eq_ok h
    obtain ⟨_, h⟩ := exists_of_bind_eq_ok h
    exact exists_of_addFilled h

theorem completed_add {n : Node} {r : Ref} :
    ((g.add n).1.node r).completed = true ↔
      (r = g.size ∧ n.completed = true) ∨ (g.node r).completed = true := by
  rw [node_add]
  split
  · next hr =>
    subst hr
    simp [node_of_size_le le_rfl]
  · next hr => simp [hr]

end Graph

namespace Workshop

variable {s s' : Workshop} {deeds : List Deed} {deed : Deed} {b c : Builder.Name} {r x : Ref}

/-! ### What the deeds say -/

/-- The builder has declared the descriptor, and no attempt to complete it has been made with the
builder since. -/
def Waits (deeds : List Deed) (b : Builder.Name) (r : Ref) : Prop :=
  ∃ later earlier, deeds = later ++ .declared b r :: earlier ∧
    ∀ defect, .attempted b (some r) defect ∉ later

/-- The descriptor came from a blueprint, or an attempt to complete it succeeded. -/
def Completes (deeds : List Deed) (r : Ref) : Prop :=
  .made r ∈ deeds ∨ ∃ b, .attempted b (some r) none ∈ deeds

/-- An attempt to complete the descriptor was let through and failed. -/
def Failed (deeds : List Deed) (r : Ref) : Prop :=
  ∃ b defect, .attempted b (some r) (some defect) ∈ deeds ∧ ∀ shown, defect ≠ .notPending shown

theorem not_waits_nil : ¬ Waits [] b r := by
  rintro ⟨later, earlier, h, -⟩
  simp at h

theorem waits_cons : Waits (deed :: deeds) b r ↔
    deed = .declared b r ∨ (Waits deeds b r ∧ ∀ defect, deed ≠ .attempted b (some r) defect) := by
  constructor
  · rintro ⟨later, earlier, h, hlater⟩
    cases later with
    | nil => exact Or.inl (List.cons.inj h).1
    | cons first later =>
      obtain ⟨rfl, rfl⟩ := List.cons.inj h
      refine Or.inr ⟨⟨later, earlier, rfl, fun defect hmem => ?_⟩, ?_⟩
      · exact hlater defect (List.mem_cons_of_mem _ hmem)
      · rintro defect rfl
        exact hlater defect List.mem_cons_self
  · rintro (rfl | ⟨⟨later, earlier, rfl, hlater⟩, hne⟩)
    · exact ⟨[], deeds, rfl, fun _ => List.not_mem_nil⟩
    · refine ⟨deed :: later, earlier, rfl, fun defect hmem => ?_⟩
      rcases List.mem_cons.mp hmem with rfl | hmem
      · exact hne defect rfl
      · exact hlater defect hmem

theorem completes_cons : Completes (deed :: deeds) r ↔
    deed = .made r ∨ (∃ b, deed = .attempted b (some r) none) ∨ Completes deeds r := by
  unfold Completes
  simp only [List.mem_cons, exists_or, eq_comm (b := deed)]
  tauto

theorem failed_cons : Failed (deed :: deeds) r ↔
    (∃ b defect, deed = .attempted b (some r) (some defect) ∧ ∀ shown, defect ≠ .notPending shown) ∨
      Failed deeds r := by
  unfold Failed
  simp only [List.mem_cons, or_and_right, exists_or, eq_comm (b := deed)]

theorem Waits.declared (h : Waits deeds b r) : .declared b r ∈ deeds := by
  obtain ⟨later, earlier, rfl, -⟩ := h
  exact List.mem_append_right _ List.mem_cons_self

/-! ### All that a step can do -/

/-- The ways in which a step changes a workshop, with what comes of it. -/
inductive Change (s : Workshop) : Workshop → Deed → Prop
  | made {n : Node} (hn : n.Finished) : Change s { s with graph := (s.graph.add n).1 }
      (.made s.graph.size)
  | spoiled (defect : Defect) : Change s s (.spoiled defect)
  | declared (b : Builder.Name) (id : Identity) (kind : Kind)
      (hown : ∀ k, b = .own k → k = s.graph.size) : Change s
        ⟨(s.graph.add { kind, id }).1,
          Function.update s.builders b ⟨s.graph.size :: (s.builders b).pending⟩⟩
        (.declared b s.graph.size)
  | refused (b : Builder.Name) (d : Option Ref)
      (hd : ∀ r, d = some r → r ∉ (s.builders b).pending) :
      Change s s (.attempted b d (some (.notPending (s.graph.display d))))
  | filled (b : Builder.Name) {r : Ref} {as : List Attribute} {n : Node} {defect : Option Defect}
      (hr : r ∈ (s.builders b).pending)
      (hfill : (s.graph.node r).fill s.graph as = (n, defect)) : Change s
        ⟨s.graph.put r n, Function.update s.builders b ⟨(s.builders b).pending.erase r⟩⟩
        (.attempted b (some r) defect)

/-- A descriptor that does not wait is refused, and nothing changes. -/
theorem complete_of_not_pending {d : Option Ref} {as : List Attribute}
    (hd : ∀ r, d = some r → r ∉ (s.builders b).pending) :
    s.complete b d as = (s, .attempted b d (some (.notPending (s.graph.display d)))) := by
  cases d with
  | none => simp only [complete, Builder.complete, Function.update_eq_self]
  | some r =>
    have hr : ¬ (s.builders b).pending.contains r = true := by simpa using hd r rfl
    simp only [complete, Builder.complete, if_neg hr, Function.update_eq_self]

theorem complete_of_pending {as : List Attribute} (hr : r ∈ (s.builders b).pending) :
    s.complete b (some r) as =
      (⟨s.graph.put r ((s.graph.node r).fill s.graph as).1,
        Function.update s.builders b ⟨(s.builders b).pending.erase r⟩⟩,
        .attempted b (some r) ((s.graph.node r).fill s.graph as).2) := by
  have hr : (s.builders b).pending.contains r = true := by simpa using hr
  simp only [complete, Builder.complete, if_pos hr]

/-- Nothing else is refused. -/
theorem complete_eq_refused_iff {d : Option Ref} {as : List Attribute} :
    s.complete b d as = (s, .attempted b d (some (.notPending (s.graph.display d)))) ↔
      ∀ r, d = some r → r ∉ (s.builders b).pending := by
  refine ⟨fun h r hdr hr => ?_, complete_of_not_pending⟩
  subst hdr
  rw [complete_of_pending hr] at h
  exact absurd (Deed.attempted.inj (Prod.mk.inj h).2).2.2 (Node.fill_ne_notPending rfl _)

theorem change_complete (s : Workshop) (b : Builder.Name) (d : Option Ref) (as : List Attribute) :
    s.Change (s.complete b d as).1 (s.complete b d as).2 := by
  by_cases hd : ∀ r, d = some r → r ∉ (s.builders b).pending
  · rw [complete_of_not_pending hd]
    exact .refused b d hd
  · push Not at hd
    obtain ⟨r, rfl, hr⟩ := hd
    rw [complete_of_pending hr]
    exact .filled b hr rfl

theorem construct_cases (s : Workshop) (blueprint : Blueprint) :
    (∃ defect, s.construct blueprint = (s, .spoiled defect)) ∨
      ∃ kind id n, Node.fill s.graph { kind, id } blueprint.attributes = (n, none) ∧
        s.construct blueprint =
          ({ s with graph := (s.graph.add n).1 }, .made s.graph.size) := by
  unfold construct
  split
  · next g r h =>
    obtain ⟨kind, id, n, hfill, hadd⟩ := Graph.exists_of_construct h
    cases hadd
    exact Or.inr ⟨kind, id, n, hfill, rfl⟩
  · next defect _ => exact Or.inl ⟨defect, rfl⟩

theorem change_construct (s : Workshop) (blueprint : Blueprint) :
    s.Change (s.construct blueprint).1 (s.construct blueprint).2 := by
  rcases s.construct_cases blueprint with ⟨defect, h⟩ | ⟨kind, id, n, hfill, h⟩
  · rw [h]
    exact .spoiled defect
  · rw [h]
    exact .made (Node.finished_of_fill hfill)

/-- **A step changes a workshop in one of these ways.** -/
theorem change_step (s : Workshop) (m : Making) : s.Change (s.step m).1 (s.step m).2 := by
  cases m with
  | construct blueprint => exact s.change_construct blueprint
  | declare n id kind => exact .declared (.shared n) id kind nofun
  | complete n d as => exact s.change_complete (.shared n) d as
  | recursive id kind => exact .declared (.own s.graph.size) id kind (by rintro k ⟨⟩; rfl)
  | resolve r as => exact s.change_complete (.own r) (some r) as

/-! ### The workshop on its own -/

theorem mem_pending_declared : r ∈ (Function.update s.builders b
    ⟨x :: (s.builders b).pending⟩ c).pending ↔ (c = b ∧ r = x) ∨ r ∈ (s.builders c).pending := by
  rw [Function.update_apply]
  split
  · next hc =>
    subst hc
    simp
  · next hc => simp [hc]

theorem mem_pending_filled (hb : (s.builders b).pending.Nodup) :
    r ∈ (Function.update s.builders b ⟨(s.builders b).pending.erase x⟩ c).pending ↔
      r ∈ (s.builders c).pending ∧ ¬ (c = b ∧ r = x) := by
  rw [Function.update_apply]
  split
  · next hc =>
    subst hc
    rw [hb.mem_erase_iff]
    simp [and_comm]
  · next hc => simp [hc]

/-- What holds in a workshop at any time. -/
structure Tidy (s : Workshop) : Prop where
  nodup : ∀ b, (s.builders b).pending.Nodup
  /-- A descriptor waits with one builder only. -/
  apart : ∀ b c r, r ∈ (s.builders b).pending → r ∈ (s.builders c).pending → b = c
  /-- The builder of a recursion is used for nothing else. -/
  own : ∀ k r, r ∈ (s.builders (.own k)).pending → r = k
  inside : ∀ b r, r ∈ (s.builders b).pending → r < s.graph.size
  blank : ∀ b r, r ∈ (s.builders b).pending → (s.graph.node r).completed = false
  sound : ∀ r, (s.graph.node r).completed = true → (s.graph.node r).Finished

theorem tidy_start : Tidy {} where
  nodup _ := List.nodup_nil
  apart _ _ _ h := by cases h
  own _ _ h := by cases h
  inside _ _ h := by cases h
  blank _ _ h := by cases h
  sound r h := by cases h

theorem Tidy.node_add (hs : s.Tidy) (n : Node) (hr : r ∈ (s.builders b).pending) :
    (s.graph.add n).1.node r = s.graph.node r := by
  rw [Graph.node_add, if_neg (Nat.ne_of_lt (hs.inside b r hr))]

theorem Tidy.finished_add (hs : s.Tidy) {n : Node} (hn : n.completed = true → n.Finished)
    (hr : ((s.graph.add n).1.node r).completed = true) : ((s.graph.add n).1.node r).Finished := by
  rw [Graph.node_add] at hr ⊢
  split at hr
  · next h =>
    rw [if_pos h]
    exact hn hr
  · next h =>
    rw [if_neg h]
    exact hs.sound r hr

theorem Tidy.declared (hs : s.Tidy) (b : Builder.Name) (id : Identity) (kind : Kind)
    (hown : ∀ k, b = .own k → k = s.graph.size) : Tidy ⟨(s.graph.add { kind, id }).1,
      Function.update s.builders b ⟨s.graph.size :: (s.builders b).pending⟩⟩ where
  nodup c := by
    dsimp only
    rw [Function.update_apply]
    split
    · exact List.nodup_cons.mpr ⟨fun h => lt_irrefl _ (hs.inside b _ h), hs.nodup b⟩
    · exact hs.nodup c
  apart c e r hc he := by
    rcases mem_pending_declared.mp hc with ⟨hcb, hcr⟩ | hc'
    · rcases mem_pending_declared.mp he with ⟨heb, -⟩ | he'
      · rw [hcb, heb]
      · exact absurd hcr (Nat.ne_of_lt (hs.inside e r he'))
    · rcases mem_pending_declared.mp he with ⟨-, her⟩ | he'
      · exact absurd her (Nat.ne_of_lt (hs.inside c r hc'))
      · exact hs.apart c e r hc' he'
  own k r hr := by
    rcases mem_pending_declared.mp hr with ⟨hb, hr⟩ | hr'
    · rw [hr, hown k hb.symm]
    · exact hs.own k r hr'
  inside c r hr := by
    rw [Graph.size_add]
    rcases mem_pending_declared.mp hr with ⟨-, hr⟩ | hr'
    · exact Nat.lt_succ_of_le (le_of_eq hr)
    · exact Nat.lt_succ_of_lt (hs.inside c r hr')
  blank c r hr := by
    rcases mem_pending_declared.mp hr with ⟨-, hr⟩ | hr'
    · rw [Graph.node_add, if_pos hr]
    · rw [hs.node_add _ hr']
      exact hs.blank c r hr'
  sound r := hs.finished_add nofun

theorem Tidy.filled (hs : s.Tidy) {as : List Attribute} {n : Node} {defect : Option Defect}
    (hx : x ∈ (s.builders b).pending) (hfill : (s.graph.node x).fill s.graph as = (n, defect)) :
    Tidy ⟨s.graph.put x n, Function.update s.builders b ⟨(s.builders b).pending.erase x⟩⟩ := by
  -- Since nothing waits with two builders, the descriptor now waits with none.
  have hpending : ∀ c r, r ∈ (Function.update s.builders b
      ⟨(s.builders b).pending.erase x⟩ c).pending → r ∈ (s.builders c).pending ∧ r ≠ x := by
    intro c r hr
    obtain ⟨hc, hne⟩ := (mem_pending_filled (hs.nodup b)).mp hr
    refine ⟨hc, ?_⟩
    rintro rfl
    exact hne ⟨hs.apart c b r hc hx, rfl⟩
  exact {
    nodup := fun c => by
      dsimp only
      rw [Function.update_apply]
      split
      · exact (hs.nodup b).erase x
      · exact hs.nodup c
    apart := fun c e r hc he => hs.apart c e r (hpending c r hc).1 (hpending e r he).1
    own := fun k r hr => hs.own k r (hpending _ r hr).1
    inside := fun c r hr => by
      rw [Graph.size_put]
      exact hs.inside c r (hpending c r hr).1
    blank := fun c r hr => by
      rw [Graph.node_put, if_neg fun h => (hpending c r hr).2 h.1]
      exact hs.blank c r (hpending c r hr).1
    sound := fun r hr => by
      rw [Graph.node_put] at hr ⊢
      split at hr
      · next h =>
        rw [if_pos h]
        rcases Node.fill_cases hfill with ⟨-, hfinished⟩ | ⟨d, -, -, hcompleted⟩
        · exact hfinished
        · rw [hcompleted, hs.blank b x hx] at hr
          cases hr
      · next h =>
        rw [if_neg h]
        exact hs.sound r hr }

/-- **A step keeps a workshop tidy.** -/
theorem Change.tidy (h : s.Change s' deed) (hs : s.Tidy) : s'.Tidy := by
  cases h with
  | spoiled defect => exact hs
  | refused b d hd => exact hs
  | made hn =>
    exact { hs with
      inside := fun b r hr => by
        rw [Graph.size_add]
        exact Nat.lt_succ_of_lt (hs.inside b r hr)
      blank := fun b r hr => by
        rw [hs.node_add _ hr]
        exact hs.blank b r hr
      sound := fun r => hs.finished_add fun _ => hn }
  | declared b id kind hown => exact hs.declared b id kind hown
  | filled b hx hfill => exact hs.filled hx hfill

/-! ### The workshop as its deeds tell it -/

/-- What the deeds of a workshop say about it. -/
structure Recorded (s : Workshop) (deeds : List Deed) : Prop where
  waits : ∀ b r, r ∈ (s.builders b).pending ↔ Waits deeds b r
  completed : ∀ r, (s.graph.node r).completed = true ↔ Completes deeds r
  failed : ∀ r, Failed deeds r → r < s.graph.size ∧ ∀ b, r ∉ (s.builders b).pending
  settled : ∀ b r, .declared b r ∈ deeds →
    r ∈ (s.builders b).pending ∨ Completes deeds r ∨ Failed deeds r

theorem recorded_start : Recorded {} [] where
  waits b r := iff_of_false List.not_mem_nil not_waits_nil
  completed r := by
    refine iff_of_false (by simp [Graph.node]) ?_
    rintro (h | ⟨b, h⟩)
    · cases h
    · cases h
  failed := by
    rintro r ⟨b, defect, h, -⟩
    cases h
  settled b r h := by cases h

theorem Change.waits (h : s.Change s' deed) (ht : s.Tidy) (hs : s.Recorded deeds) :
    r ∈ (s'.builders b).pending ↔ Waits (deed :: deeds) b r := by
  rw [waits_cons, ← hs.waits]
  cases h with
  | made hn => simp
  | spoiled defect => simp
  | declared c id kind hown =>
    dsimp only
    rw [mem_pending_declared, Deed.declared.injEq, @eq_comm _ c b, @eq_comm _ s.graph.size r]
    simp
  | refused c d hd =>
    constructor
    · intro hr
      refine Or.inr ⟨hr, ?_⟩
      rintro defect ⟨⟩
      exact hd r rfl hr
    · rintro (h | ⟨hr, -⟩)
      · cases h
      · exact hr
  | filled c hx hfill =>
    dsimp only
    rw [mem_pending_filled (ht.nodup c)]
    constructor
    · rintro ⟨hr, hne⟩
      refine Or.inr ⟨hr, ?_⟩
      rintro defect ⟨⟩
      exact hne ⟨rfl, rfl⟩
    · rintro (h | ⟨hr, hne⟩)
      · cases h
      · refine ⟨hr, ?_⟩
        rintro ⟨rfl, rfl⟩
        exact hne _ rfl

theorem Change.completed (h : s.Change s' deed) (ht : s.Tidy) (hs : s.Recorded deeds) :
    (s'.graph.node r).completed = true ↔ Completes (deed :: deeds) r := by
  rw [completes_cons, ← hs.completed]
  cases h with
  | made hn =>
    dsimp only
    rw [Graph.completed_add, Deed.made.injEq, @eq_comm _ s.graph.size r]
    simp [hn.completed]
  | spoiled defect => simp
  | declared c id kind hown =>
    dsimp only
    rw [Graph.completed_add]
    simp
  | refused c d hd => simp
  | @filled c x as n defect hx hfill =>
    dsimp only
    rw [Graph.node_put]
    by_cases hr : r = x
    · subst hr
      rw [if_pos ⟨rfl, ht.inside c r hx⟩]
      have hblank := ht.blank c r hx
      rcases Node.fill_cases hfill with ⟨rfl, hfinished⟩ | ⟨d, rfl, -, hcompleted⟩
      · simp [hfinished.completed]
      · simp [hcompleted, hblank]
    · rw [if_neg fun h => hr h.1]
      simp [Ne.symm hr]

theorem Change.failed (h : s.Change s' deed) (ht : s.Tidy) (hs : s.Recorded deeds)
    (hr : Failed (deed :: deeds) r) : r < s'.graph.size ∧ ∀ b, r ∉ (s'.builders b).pending := by
  rcases failed_cons.mp hr with ⟨b, defect, rfl, hdefect⟩ | hr
  · cases h with
    | refused _ _ hd => exact absurd rfl (hdefect _)
    | filled _ hx hfill =>
      rw [Graph.size_put]
      refine ⟨ht.inside b r hx, fun c hc => ?_⟩
      obtain ⟨hc, hne⟩ := (mem_pending_filled (ht.nodup b)).mp hc
      exact hne ⟨ht.apart c b r hc hx, rfl⟩
  · obtain ⟨hinside, hout⟩ := hs.failed r hr
    cases h with
    | spoiled defect | refused b d hd => exact ⟨hinside, hout⟩
    | made hn =>
      rw [Graph.size_add]
      exact ⟨Nat.lt_succ_of_lt hinside, hout⟩
    | declared b id kind hown =>
      rw [Graph.size_add]
      refine ⟨Nat.lt_succ_of_lt hinside, fun c hc => ?_⟩
      rcases mem_pending_declared.mp hc with ⟨-, hsize⟩ | hc
      · exact absurd hsize (Nat.ne_of_lt hinside)
      · exact hout c hc
    | filled b hx hfill =>
      rw [Graph.size_put]
      exact ⟨hinside, fun c hc => hout c ((mem_pending_filled (ht.nodup b)).mp hc).1⟩

theorem Change.settled (h : s.Change s' deed) (ht : s.Tidy) (hs : s.Recorded deeds)
    (hr : .declared b r ∈ deed :: deeds) :
    r ∈ (s'.builders b).pending ∨ Completes (deed :: deeds) r ∨ Failed (deed :: deeds) r := by
  rw [h.waits ht hs, waits_cons, completes_cons, failed_cons, ← hs.waits]
  rcases List.mem_cons.mp hr with rfl | hr
  · exact Or.inl (Or.inl rfl)
  rcases hs.settled b r hr with hb | hdone | hfailed
  · by_cases hdeed : ∃ defect, deed = .attempted b (some r) defect
    · obtain ⟨defect, rfl⟩ := hdeed
      cases h with
      | refused _ _ hd => exact absurd hb (hd r rfl)
      | filled _ hx hfill =>
        rcases Node.fill_cases hfill with ⟨rfl, -⟩ | ⟨d, rfl, hd, -⟩
        · exact Or.inr (Or.inl (Or.inr (Or.inl ⟨b, rfl⟩)))
        · exact Or.inr (Or.inr (Or.inl ⟨b, d, rfl, hd⟩))
    · push Not at hdeed
      exact Or.inl (Or.inr ⟨hb, hdeed⟩)
  · exact Or.inr (Or.inl (Or.inr (Or.inr hdone)))
  · exact Or.inr (Or.inr (Or.inr hfailed))

/-- **A step does what its deed says.** -/
theorem Change.recorded (h : s.Change s' deed) (ht : s.Tidy) (hs : s.Recorded deeds) :
    s'.Recorded (deed :: deeds) where
  waits _ _ := h.waits ht hs
  completed _ := h.completed ht hs
  failed _ := h.failed ht hs
  settled _ _ := h.settled ht hs

/-- What does not wait with a builder was not declared with it, or has been completed, or has
failed. -/
theorem Recorded.not_pending_iff (hs : s.Recorded deeds) (ht : s.Tidy) :
    (.declared b r ∉ deeds ∨ (s.graph.node r).completed = true ∨ Failed deeds r) ↔
      r ∉ (s.builders b).pending := by
  constructor
  · rintro (hforeign | hdone | hfailed) hr
    · exact hforeign ((hs.waits b r).mp hr).declared
    · rw [ht.blank b r hr] at hdone
      cases hdone
    · exact (hs.failed r hfailed).2 b hr
  · intro hr
    by_cases hdeclared : .declared b r ∈ deeds
    · exact Or.inr (((hs.settled b r hdeclared).resolve_left hr).imp_left (hs.completed r).mpr)
    · exact Or.inl hdeclared

theorem Change.node_eq (h : s.Change s' deed) (ht : s.Tidy)
    (hr : (s.graph.node r).completed = true) : s'.graph.node r = s.graph.node r := by
  have hinside := Graph.lt_size_of_completed hr
  cases h with
  | spoiled defect | refused b d hd => rfl
  | made hn | declared b id kind hown => rw [Graph.node_add, if_neg (Nat.ne_of_lt hinside)]
  | filled b hx hfill =>
    rw [Graph.node_put, if_neg]
    rintro ⟨rfl, -⟩
    rw [ht.blank b r hx] at hr
    cases hr

/-! ### Any number of steps -/

theorem change_advance (p : Workshop × List Deed) (m : Making) :
    ∃ deed, p.1.Change (advance p m).1 deed ∧ (advance p m).2 = deed :: p.2 :=
  ⟨_, p.1.change_step m, rfl⟩

/-- **Whatever steps are taken**, the workshop is tidy and as its deeds tell it. -/
theorem tidy_recorded_run (ms : List Making) : (run ms).1.Tidy ∧ (run ms).1.Recorded (run ms).2 := by
  induction ms using List.reverseRecOn with
  | nil => exact ⟨tidy_start, recorded_start⟩
  | append_singleton ms m ih =>
    obtain ⟨ht, hs⟩ := ih
    obtain ⟨deed, hchange, hdeeds⟩ := change_advance (run ms) m
    rw [run_concat, hdeeds]
    exact ⟨hchange.tidy ht, hchange.recorded ht hs⟩

theorem node_run_append (ms more : List Making)
    (hr : ((run ms).1.graph.node r).completed = true) :
    (run (ms ++ more)).1.graph.node r = (run ms).1.graph.node r := by
  induction more using List.reverseRecOn with
  | nil => rw [List.append_nil]
  | append_singleton more m ih =>
    obtain ⟨deed, hchange, -⟩ := change_advance (run (ms ++ more)) m
    rw [← List.append_assoc, run_concat, ← ih]
    refine hchange.node_eq (tidy_recorded_run _).1 ?_
    rw [ih]
    exact hr

/-- A recursion that is asked for in a reached workshop, with a function that takes no steps, makes
of the graph what the recursion in one go makes of it. -/
theorem run_recursive (ms : List Making) (id : Identity) (kind : Kind) (as : Ref → List Attribute) :
    let g := (run ms).1.graph
    let p := run (ms ++ [.recursive id kind] ++ [.resolve g.size (as g.size)])
    ∃ defect, g.recursive id kind as = (p.1.graph, g.size, defect) ∧
      p.2 = .attempted (.own g.size) (some g.size) defect :: .declared (.own g.size) g.size ::
        (run ms).2 := by
  intro g p
  have hnew : ((run ms).1.builders (.own g.size)).pending = [] := by
    refine List.eq_nil_iff_forall_not_mem.mpr fun r hr => ?_
    have ht := (tidy_recorded_run ms).1
    exact Nat.ne_of_lt (ht.inside _ r hr) (ht.own _ r hr)
  obtain ⟨defect, hgraph, hdeed⟩ := graph_resolve (run ms).1 id kind as hnew
  have hp : p = advance (advance (run ms) (.recursive id kind)) (.resolve g.size (as g.size)) := by
    rw [← run_concat, ← run_concat]
  refine ⟨defect, ?_, ?_⟩
  · rw [hgraph, hp]
    rfl
  · rw [hp, ← hdeed]
    rfl

/-- **The life of a descriptor.** Whatever steps have been taken, with whatever failures: what waits
with a builder are the descriptors that it has declared and whose completion it has not been asked
for; completed are the descriptors that came from a blueprint and those whose completion came to an
end; a completed nullable wraps something; what is completed stays as it is, whatever steps follow;
and a builder refuses to complete a descriptor, and changes nothing, if and only if there is none, or
it has not declared it, or the descriptor has been completed, or its completion has failed. -/
theorem lifecycle (ms : List Making) :
    let s := (run ms).1
    let deeds := (run ms).2
    (∀ b, (s.builders b).pending.Nodup ∧ ∀ r, r ∈ (s.builders b).pending ↔ Waits deeds b r) ∧
    (∀ r, (s.graph.node r).completed = true ↔ Completes deeds r) ∧
    (∀ r, (s.graph.node r).completed = true → (s.graph.node r).kind = .nullable →
      ∃ u, (s.graph.node r).underlying = some u) ∧
    (∀ r, (s.graph.node r).completed = true → ∀ more,
      (run (ms ++ more)).1.graph.node r = s.graph.node r) ∧
    (∀ b d as,
      (∀ r, d = some r → .declared b r ∉ deeds ∨ (s.graph.node r).completed = true ∨
        Failed deeds r) ↔
      s.complete b d as = (s, .attempted b d (some (.notPending (s.graph.display d))))) := by
  intro s deeds
  obtain ⟨ht, hs⟩ := tidy_recorded_run ms
  refine ⟨fun b => ⟨ht.nodup b, hs.waits b⟩, hs.completed,
    fun r hr => (ht.sound r hr).exists_underlying, fun r hr more => node_run_append ms more hr,
    fun b d as => ?_⟩
  rw [complete_eq_refused_iff]
  exact forall₂_congr fun r _ => hs.not_pending_iff ht

-- A pointer that is completed too late, once a defect has used up the attempt, and an array of
-- pointers to itself, made by a recursion whose function makes the pointer.
example : (run [.declare 0 "p.P" .nullable, .complete 1 (some 0) [], .complete 0 (some 0) [],
    .complete 0 (some 0) [.underlying (some 0)], .recursive "p.A" .array,
    .construct (.nullable (some 1)), .resolve 1 [.element (some 2)]]).2.reverse =
    [.declared (.shared 0) 0,
      .attempted (.shared 1) (some 0) (some (.notPending "p.P (nullable)")),
      .attempted (.shared 0) (some 0) (some (.noUnderlying "p.P")),
      .attempted (.shared 0) (some 0) (some (.notPending "p.P (nullable)")),
      .declared (.own 1) 1, .made 2, .attempted (.own 1) (some 1) none] := by decide

end Workshop

end EverEqual
