import EverEqual.Proofs.Check.Operands
import EverEqual.Proofs.Describe.Complete

/-!
# Requests are answered

A describer is asked to register interfaces and to describe types, in any order and as often as one
likes; types may be missing, unresolved, recursive, instances of generic declarations or pointers to
pointers. If the types unfold to finitely many texts, every request is answered, nothing is left
waiting for completion, and all that can be reached from what was returned is complete. So a check
of two operands always has a finding.

* `Request`, `Draft.serve`: requests, and what a describer returns for them;
* `Draft.Sustains`, `Draft.exists_serve_upheld`: what finished descriptions keep up, requests keep up;
* `Draft.exists_serve`: requests are served, and drafts stay tidy;
* `Draft.serve_of_le`: how deep descriptions may go plays no part;
* `Operands.exists_described`: operands have descriptors that can be compared;
* `exists_check`: two operands have a finding, whatever a cache holds;
* `requests_answered`: all of this.
-/

namespace EverEqual

/-- What a describer is asked for. -/
inductive Request
  /-- To test types against further interfaces. -/
  | register (ts : List Ty)
  /-- The descriptor of a type, which may be missing. -/
  | describe (t : Option Ty)
deriving DecidableEq, Repr

/-- What a request asks to describe, if it does. -/
def Request.operand? : Request → Option (Option Ty)
  | register _ => none
  | describe t => some t

theorem World.Met.mono {w : World} {roots roots' : Set Ty} (h : roots ⊆ roots') {t : Ty}
    (ht : w.Met roots t) : w.Met roots' t := by
  induction ht with
  | root ht => exact .root (h ht)
  | part _ hu ih => exact .part ih hu

theorem World.Met.exists_root {w : World} {roots : Set Ty} {u : Ty} (h : w.Met roots u) :
    ∃ t ∈ roots, w.Met {t} u := by
  induction h with
  | root ht => exact ⟨_, ht, .root rfl⟩
  | part _ hu ih =>
    obtain ⟨t, ht, htu⟩ := ih
    exact ⟨t, ht, .part htu hu⟩

namespace Draft

variable {w : World} {interfaces : List Ty} {E : Finset Identity} {depth : Nat} {s s' : Draft}
variable {o : Option Ty} {r : Ref}

/-- The descriptor of a type, with names followed to a given depth. -/
def describeTo (w : World) (depth : Nat) (s : Draft) :
    Option Ty → Except DescribeError (Ref × Draft)
  | none => (construct (.unknown "nil")).run s
  | some t => (w.describeIn depth t).run s

theorem describe_eq (w : World) (s : Draft) (o : Option Ty) :
    s.describe w o = s.describeTo w w.horizon o := by
  cases o <;> rfl

/-- The descriptors returned for a list of requests, and the draft afterwards. -/
def serve (w : World) (depth : Nat) : Draft → List Request → Except DescribeError (List Ref × Draft)
  | s, [] => .ok ([], s)
  | s, .register ts :: rest => serve w depth { s with describer := s.describer.register w ts } rest
  | s, .describe o :: rest => do
    let (r, s) ← s.describeTo w depth o
    let (rs, s) ← serve w depth s rest
    return (r :: rs, s)

/-! ### Single requests -/

/-- A descriptor that was returned: it is remembered, or it is that of a missing type. -/
def Returned (w : World) (s : Draft) (r : Ref) : Prop := s.Remembered r ∨ s.Stands w none r

theorem Returned.of_extends (h : s.Returned w r) (hext : s.Extends s') : s'.Returned w r :=
  h.imp (·.of_extends hext) (·.of_extends hext)

theorem Tidy.finishedFrom_of_returned (hs : s.Tidy interfaces []) (h : s.Returned w r) :
    s.graph.FinishedFrom r := by
  rcases h with h | ⟨-, hnode, -⟩
  · exact hs.finishedFrom h
  · intro y hy
    rw [eq_of_reach_missing hnode hy, hnode]
    exact ⟨rfl, rfl⟩

theorem Tidy.add (hs : s.Tidy interfaces []) (n : Node) :
    Tidy interfaces [] ⟨(s.graph.add n).1, s.describer⟩ := by
  have hnode : ∀ r, s.Remembered r → (s.graph.add n).1.node r = s.graph.node r := fun r hr => by
    rw [Graph.node_add, if_neg (Nat.ne_of_lt (hs.inside r hr))]
  refine ⟨hs.registered, hs.pending, fun r hr => ?_, by simp, fun r hr hno => ?_,
    fun r hr hno => ?_⟩
  · exact (hs.inside r hr).trans_le (s.extends_add n).size
  · exact (hnode r hr).symm ▸ hs.finished r hr hno
  · exact (hnode r hr).symm ▸ hs.closed r hr hno

theorem Tidy.register (hs : s.Tidy interfaces []) (ts : List Ty) :
    Tidy (s.describer.register w ts).interfaces []
      { s with describer := s.describer.register w ts } := by
  obtain ⟨hmemo, hbuilder⟩ := Describer.register_frame (w := w) s.describer ts
  have hrem : ∀ r, Remembered { s with describer := s.describer.register w ts } r ↔
      s.Remembered r := fun r => by
    unfold Remembered Remembers
    rw [hmemo]
  refine ⟨rfl, ?_, fun r hr => hs.inside r ((hrem r).mp hr), by simp,
    fun r hr => hs.finished r ((hrem r).mp hr),
    fun r hr hno x hx => (hrem x).mpr (hs.closed r ((hrem r).mp hr) hno x hx)⟩
  change (s.describer.register w ts).builder.pending = []
  rw [hbuilder, hs.pending]

theorem extends_register (s : Draft) (ts : List Ty) :
    s.Extends { s with describer := s.describer.register w ts } := by
  have hmemo := (Describer.register_frame (w := w) s.describer ts).1
  refine ⟨le_rfl, fun e r hr => ?_, fun e r hr _ => ?_, fun _ _ _ => rfl⟩ <;>
    unfold Remembers at hr ⊢
  · rwa [hmemo]
  · rwa [← hmemo]

/-- What was returned for a type is found for it, and what was returned for a missing type stands
for that. -/
inductive Answered (w : World) (s : Draft) : Option Ty → Ref → Prop
  | found {t : Ty} {r : Ref} (h : s.Found w t r) : Answered w s (some t) r
  | missing {r : Ref} (h : s.Stands w none r) : Answered w s none r

theorem Answered.of_extends (h : s.Answered w o r) (hext : s.Extends s') : s'.Answered w o r := by
  cases h with
  | found h => exact .found (h.of_extends hext)
  | missing h => exact .missing (h.of_extends hext)

theorem Answered.returned (h : s.Answered w o r) : s.Returned w r := by
  cases h with
  | found h => exact Or.inl h.remembered
  | missing h => exact Or.inr h

/-- A property of drafts that requests keep up: descriptions do, whatever is registered, and so do
registering and the descriptor of a missing type. -/
structure Sustains (w : World) (roots : Set Ty) (Inv : Draft → Prop) : Prop where
  upholds : ∀ interfaces, w.Upholds interfaces roots Inv
  register : ∀ {s : Draft} (ts : List Ty), Inv s →
    Inv { s with describer := s.describer.register w ts }
  add : ∀ {s : Draft} {interfaces : List Ty}, s.Tidy interfaces [] → Inv s →
    Inv ⟨(s.graph.add .missing).1, s.describer⟩

variable {roots : Set Ty} {Inv : Draft → Prop}

/-- **A type is described**, if it unfolds to fewer texts than descriptions may go deep. -/
theorem exists_describeTo_upheld (hInv : Sustains w roots Inv)
    (hE : ∀ u, w.Met roots u → w.entry u ∈ E) (hdepth : E.card < depth)
    (hmet : ∀ t, o = some t → w.Met roots t) (hs : s.Tidy interfaces []) (his : Inv s) :
    ∃ r s', s.describeTo w depth o = .ok (r, s') ∧ s'.Tidy interfaces [] ∧ s.Extends s' ∧ Inv s' ∧
      s'.Answered w o r := by
  cases o with
  | none =>
    have hfresh : ∀ e, ¬ s.Remembers e s.graph.size := fun e he =>
      Nat.lt_irrefl _ (hs.inside _ ⟨e, he⟩)
    exact ⟨s.graph.size, ⟨(s.graph.add .missing).1, s.describer⟩, rfl, hs.add .missing,
      s.extends_add .missing, hInv.add hs his, .missing (stands_missing hfresh)⟩
  | some t =>
    have hunused : (World.unused E s).card < depth :=
      (Finset.card_le_card (Finset.filter_subset _ _)).trans_lt hdepth
    obtain ⟨r, s', hrun, hs', hkeeps, his', hr⟩ :=
      World.run_describeIn_upheld (hInv.upholds _) hE depth (hmet t rfl) hs his hunused
    exact ⟨r, s', hrun, hs', hkeeps.extended, his', .found hr⟩

theorem sustains_true (w : World) (roots : Set Ty) : Sustains w roots fun _ => True :=
  ⟨fun _ => ⟨fun _ _ _ _ => trivial, fun _ _ _ _ _ _ _ => trivial⟩, fun _ _ => trivial,
    fun _ _ => trivial⟩

theorem exists_describeTo (hs : s.Tidy interfaces [])
    (hE : ∀ t, o = some t → ∀ u, w.Met {t} u → w.entry u ∈ E) (hdepth : E.card < depth) :
    ∃ r s', s.describeTo w depth o = .ok (r, s') ∧ s'.Tidy interfaces [] ∧ s.Extends s' ∧
      s'.Returned w r := by
  have hroots : ∀ u, w.Met {t | o = some t} u → w.entry u ∈ E := fun u hu => by
    obtain ⟨t, ht, htu⟩ := hu.exists_root
    exact hE t ht u htu
  obtain ⟨r, s', hrun, hs', hext, -, hr⟩ := exists_describeTo_upheld (sustains_true w _) hroots
    hdepth (fun t ht => .root ht) hs trivial
  exact ⟨r, s', hrun, hs', hext, hr.returned⟩

theorem describeTo_of_le {z : Ref × Draft} {depth' : Nat} (hle : depth ≤ depth')
    (h : s.describeTo w depth o = .ok z) : s.describeTo w depth' o = .ok z := by
  obtain ⟨j, rfl⟩ := Nat.exists_eq_add_of_le hle
  cases o with
  | none => exact h
  | some t => exact World.describeIn_refines depth j t s z h

/-! ### Lists of requests -/

theorem tidy_start : Tidy ({} : Describer).interfaces [] {} where
  registered := rfl
  pending := rfl
  inside := by
    rintro r ⟨e, he⟩
    cases he
  reserved := by simp
  finished := by
    rintro r ⟨e, he⟩
    cases he
  closed := by
    rintro r ⟨e, he⟩
    cases he

/-- What is asked for in a list of requests. -/
def asked (requests : List Request) : Set Ty := {t | .describe (some t) ∈ requests}

/-- What each type that is asked for unfolds to, all of them together unfold to. -/
theorem entry_mem_of_asked {requests : List Request}
    (hE : ∀ t, .describe (some t) ∈ requests → ∀ u, w.Met {t} u → w.entry u ∈ E) (u : Ty)
    (hu : w.Met (asked requests) u) : w.entry u ∈ E := by
  obtain ⟨t, ht, htu⟩ := hu.exists_root
  exact hE t ht u htu

/-- **Requests are served**: the draft stays tidy, what requests keep up is kept up, and every
descriptor that was returned is found for what it was asked for. -/
theorem exists_serve_upheld {requests : List Request} (hInv : Sustains w roots Inv)
    (hE : ∀ u, w.Met roots u → w.entry u ∈ E) (hdepth : E.card < depth)
    (hasked : asked requests ⊆ roots) (hs : s.Tidy interfaces []) (his : Inv s) :
    ∃ rs s' interfaces', s.serve w depth requests = .ok (rs, s') ∧ s'.Tidy interfaces' [] ∧
      s.Extends s' ∧ Inv s' ∧
      List.Forall₂ (s'.Answered w) (requests.filterMap Request.operand?) rs := by
  induction requests generalizing s interfaces with
  | nil => exact ⟨[], s, interfaces, rfl, hs, .refl s, his, .nil⟩
  | cons q rest ih =>
    have hrest : asked rest ⊆ roots := fun t ht => hasked (List.mem_cons_of_mem _ ht)
    cases q with
    | register ts =>
      obtain ⟨rs, s', interfaces', hserve, hs', hext, his', hrs⟩ :=
        ih hrest (hs.register (w := w) ts) (hInv.register ts his)
      exact ⟨rs, s', interfaces', hserve, hs', (s.extends_register ts).trans hext, his', hrs⟩
    | describe o =>
      have hmet : ∀ t, o = some t → w.Met roots t := fun t ht =>
        .root (hasked (ht ▸ List.mem_cons_self))
      obtain ⟨r, s₁, hrun, hs₁, hext₁, his₁, hr⟩ :=
        exists_describeTo_upheld hInv hE hdepth hmet hs his
      obtain ⟨rs, s', interfaces', hserve, hs', hext, his', hrs⟩ := ih hrest hs₁ his₁
      refine ⟨r :: rs, s', interfaces', ?_, hs', hext₁.trans hext, his',
        .cons (hr.of_extends hext) hrs⟩
      rw [serve, hrun]
      simp only [bind, Except.bind, hserve]
      rfl

/-- **Requests are served**, and the draft stays tidy. -/
theorem exists_serve {requests : List Request}
    (hE : ∀ t, .describe (some t) ∈ requests → ∀ u, w.Met {t} u → w.entry u ∈ E)
    (hdepth : E.card < depth) (hs : s.Tidy interfaces []) :
    ∃ rs s' interfaces', s.serve w depth requests = .ok (rs, s') ∧ s'.Tidy interfaces' [] ∧
      s.Extends s' ∧ ∀ r ∈ rs, s'.Returned w r := by
  obtain ⟨rs, s', interfaces', hserve, hs', hext, -, hrs⟩ := exists_serve_upheld
    (sustains_true w (asked requests)) (entry_mem_of_asked hE) hdepth subset_rfl hs trivial
  refine ⟨rs, s', interfaces', hserve, hs', hext, fun r hr => ?_⟩
  obtain ⟨o, -, ho⟩ := exists_mem_of_forall₂ hrs.flip hr
  exact ho.returned

/-- How deep descriptions may go plays no part, as long as requests are served. -/
theorem serve_of_le {requests : List Request} {z : List Ref × Draft} {depth' : Nat}
    (hle : depth ≤ depth') (h : s.serve w depth requests = .ok z) :
    s.serve w depth' requests = .ok z := by
  induction requests generalizing s z with
  | nil => exact h
  | cons q rest ih =>
    cases q with
    | register ts => exact ih h
    | describe o =>
      rw [serve] at h ⊢
      cases hrun : s.describeTo w depth o with
      | error e =>
        rw [hrun] at h
        cases h
      | ok y =>
        rw [hrun] at h
        rw [describeTo_of_le hle hrun]
        simp only [bind, Except.bind] at h ⊢
        cases hserve : y.2.serve w depth rest with
        | error e =>
          rw [hserve] at h
          cases h
        | ok x =>
          rw [hserve] at h
          rw [ih hserve]
          exact h

end Draft

/-! ### Pairs of operands -/

namespace Operands

variable {w : World} {p : Operands}

theorem tidy_start (w : World) (p : Operands) :
    Draft.Tidy (p.describer w).interfaces [] ⟨{}, p.describer w⟩ :=
  ((Draft.tidy_start.register p.interfaces).register (w.interfacesIn p.left)).register
    (w.interfacesIn p.right)

/-- **Operands have descriptors that can be compared.** -/
theorem exists_described (h : w.Followed p.roots) :
    ∃ l r g, p.describe w = .ok (l, r, g) ∧ g.FinishedFrom l ∧ g.FinishedFrom r := by
  obtain ⟨E, hcard, hE⟩ := h
  have hroot : ∀ t, t ∈ p.roots → ∀ u, w.Met {t} u → w.entry u ∈ E := fun t ht u hu =>
    hE u (hu.mono (Set.singleton_subset_iff.mpr ht))
  obtain ⟨l, s₁, hl, hs₁, -, hretl⟩ := Draft.exists_describeTo (o := p.left) (p.tidy_start w)
    (fun t ht => hroot t (Or.inl ht)) hcard
  obtain ⟨r, s₂, hr, hs₂, hext, hretr⟩ := Draft.exists_describeTo (o := p.right) hs₁
    (fun t ht => hroot t (Or.inr ht)) hcard
  refine ⟨l, r, s₂.graph, ?_, hs₂.finishedFrom_of_returned (hretl.of_extends hext),
    hs₂.finishedFrom_of_returned hretr⟩
  unfold describe
  rw [Draft.describe_eq, hl]
  simp only [bind, Except.bind, Draft.describe_eq, hr]
  rfl

end Operands

/-- **A pair of operands has a finding**, by way of any cache. -/
theorem exists_check {w : World} (options : CheckOptions) (cache : Option Cache) {p : Operands}
    (h : w.Followed p.roots) : ∃ f cache', check w options cache p = .ok (f, cache') := by
  obtain ⟨l, r, g, hdesc, hl, hr⟩ := p.exists_described h
  obtain ⟨v, hv⟩ := exists_verdict Rule.defaults hl hr
  obtain ⟨u, hu⟩ := exists_verdict Rule.defaults hr hl
  unfold check
  simp only [hdesc, bind, Except.bind, pure, Except.pure, answerFor_of_verdict _ _ _ hv,
    answerFor_of_verdict _ _ _ hu]
  exact ⟨_, _, rfl⟩

/-- **Requests are answered completely, and every pair has a finding.** Whatever a describer is
asked for, if the types to describe unfold to finitely many texts, it returns a descriptor for each
of them, however deep descriptions may go beyond the number of texts; afterwards no descriptor waits
for completion, and whatever can be reached from what was returned is completed and wraps something
if it is nullable. So a check of two operands whose types are followed to their end has a finding,
whatever is registered for it and whatever a cache holds. -/
theorem requests_answered (w : World) :
    (∀ (requests : List Request) (E : Finset Identity),
      (∀ t, .describe (some t) ∈ requests → ∀ u, w.Met {t} u → w.entry u ∈ E) →
      ∃ rs s, (∀ depth, E.card < depth → Draft.serve w depth {} requests = .ok (rs, s)) ∧
        s.describer.builder.pending = [] ∧
        ∀ r ∈ rs, ∀ y, s.graph.Reach r y → (s.graph.node y).completed = true ∧
          ((s.graph.node y).kind = .nullable → ∃ u, (s.graph.node y).underlying = some u)) ∧
    ∀ (options : CheckOptions) (cache : Option Cache) (p : Operands), w.Followed p.roots →
      ∃ f cache', check w options cache p = .ok (f, cache') := by
  refine ⟨fun requests E hE => ?_, fun options cache p => exists_check options cache⟩
  obtain ⟨rs, s, interfaces, hserve, hs, -, hrs⟩ :=
    Draft.exists_serve hE (Nat.lt_succ_self _) Draft.tidy_start
  refine ⟨rs, s, fun depth hdepth => Draft.serve_of_le hdepth hserve, hs.pending,
    fun r hr y hy => ?_⟩
  have hfin := hs.finishedFrom_of_returned (hrs r hr) y hy
  exact ⟨hfin.completed, hfin.exists_underlying⟩

/-! ### A world of recursive types -/

/-- A pointer type that points to itself, and a generic list. -/
def recursive : World where
  packages := [{
    path := "p"
    name := "p"
    declarations :=
      [{ name := "Loop", type := .pointer (.named ⟨"p", "Loop"⟩ []) },
       { name := "List"
         type := .slice (.pointer (.named ⟨"p", "List"⟩ [.param ⟨⟨"p", "List"⟩, none⟩ 0 "T"]))
         params := [⟨"T", .named ⟨"", "any"⟩ []⟩] }] }]
  horizon := 12

/-- The type `Loop`. -/
def Ty.loop : Ty := .named ⟨"p", "Loop"⟩ []

/-- The type `List[int]`. -/
def Ty.ints : Ty := .named ⟨"p", "List"⟩ [.basic .int]

/-- What the recursive types are made of. -/
def recursive.parts : List Ty :=
  [.pointer (.pointer .loop), .pointer .loop, .loop, .ints, .pointer .ints, .basic .int, .invalid]

/-- Requests for types of every shape, with interfaces registered on the way. -/
def recursive.requests : List Request :=
  [.describe none, .describe (some (.pointer (.pointer .loop))), .register [.named ⟨"", "any"⟩ []],
    .describe (some .ints), .describe (some .invalid), .describe none]

theorem recursive.mem_parts_of_asked {t : Ty} (ht : t ∈ Draft.asked recursive.requests) :
    t ∈ recursive.parts := by
  change Request.describe (some t) ∈ recursive.requests at ht
  simp only [recursive.requests, List.mem_cons, List.not_mem_nil, or_false,
    Request.describe.injEq, Option.some.injEq, reduceCtorEq, false_or] at ht
  rcases ht with rfl | rfl | rfl <;> decide

theorem entry_mem_recursive {roots : Set Ty} (hroots : ∀ t ∈ roots, t ∈ recursive.parts) {u : Ty}
    (hu : recursive.Met roots u) :
    recursive.entry u ∈ (recursive.parts.map recursive.entry).toFinset := by
  have hmem : u ∈ recursive.parts := World.mem_of_met hroots (by decide) hu
  exact List.mem_toFinset.mpr (List.mem_map_of_mem hmem)

theorem card_recursive : (recursive.parts.map recursive.entry).toFinset.card < 8 :=
  (List.toFinset_card_le _).trans_lt (by decide)

theorem requests_answered_recursive :
    (∃ rs s, Draft.serve recursive 8 {} recursive.requests = .ok (rs, s) ∧
      s.describer.builder.pending = [] ∧
      ∀ r ∈ rs, ∀ y, s.graph.Reach r y → (s.graph.node y).completed = true ∧
        ((s.graph.node y).kind = .nullable → ∃ u, (s.graph.node y).underlying = some u)) ∧
    ∃ f cache', check recursive {} (some {}) ⟨"l", "r", some .loop, some .ints, [.loop]⟩ =
      .ok (f, cache') := by
  obtain ⟨hserve, hcheck⟩ := requests_answered recursive
  obtain ⟨rs, s, hrun, hpending, hreach⟩ := hserve recursive.requests
    (recursive.parts.map recursive.entry).toFinset
    fun t ht u => entry_mem_recursive fun t' ht' =>
      Set.mem_singleton_iff.mp ht' ▸ recursive.mem_parts_of_asked ht
  have hfollowed : recursive.Followed
      (Operands.roots ⟨"l", "r", some .loop, some .ints, [.loop]⟩) := by
    refine ⟨_, card_recursive.trans (by decide), fun u => entry_mem_recursive ?_⟩
    rintro t (ht | ht) <;> cases ht <;> decide
  exact ⟨⟨rs, s, hrun 8 card_recursive, hpending, hreach⟩, hcheck {} (some {}) _ hfollowed⟩

end EverEqual
