import EverEqual.Proofs.Check.Answered
import EverEqual.Proofs.Comparison.PairGraph
import EverEqual.Proofs.Describe.Steps
import EverEqual.Proofs.Types.Legible

/-!
# What a describer remembers

A describer remembers each descriptor by one text, which is the identity of the descriptor unless
the type could not be resolved; in that case the identity stands in angle brackets. So whatever can
be reached from what was returned, two descriptors of one identity are one, or they are both
unresolved and look the same. This holds as long as no name begins with an angle bracket.

A type that is described again has the descriptor it had, with one exception. All unnamed interfaces
without methods share one descriptor, which is remembered by their common identity and not by the
text of any of them. If another type with the text of such an interface has been described since,
then the text leads to the descriptor of that type.

* `World.Legible`: names do not begin with an angle bracket;
* `Draft.Singular`, `Draft.Step.singular`: the invariant, kept up by each step of a description;
* `Draft.Singular.consistent`: what was returned is consistent;
* `Draft.describeTo_again`: what a type has when it is described again;
* `described_again_iff`: all of this, for any list of requests.
-/

namespace EverEqual

open Text

namespace World

/-- The names at the beginning of texts do not begin with an angle bracket. -/
def Legible (w : World) (roots : Set Ty) : Prop :=
  ∀ t, w.Met roots t → ∀ name, (w.unalias t).BeginsWith name → name.toList.head? ≠ some '<'

variable {w : World} {roots : Set Ty} {t : Ty}

/-- The plan of a type is that of an unresolved one, or its entry is its identity: the text of the
type, or that of all interfaces without methods. -/
theorem plan_cases (t : Ty) :
    w.plan t = .unresolved (w.text t) ∨
      ((w.plan t).id = w.entry t ∧ (w.entry t = w.text t ∨ w.entry t = "any")) := by
  unfold entry plan text
  generalize w.unalias t = u
  have hunnamed : w.unnamedPlan u = .unresolved (w.typeString u) ∨
      ((w.unnamedPlan u).id = (w.unnamedPlan u).entry ∧
        ((w.unnamedPlan u).entry = w.typeString u ∨ (w.unnamedPlan u).entry = "any")) := by
    unfold unnamedPlan
    by_cases hunk : w.kindOf u = .unknown
    · exact Or.inl (if_pos hunk)
    · right
      simp only [if_neg hunk, true_and]
      split
      · exact Or.inr rfl
      · exact Or.inl rfl
  cases u with
  | named n args =>
    unfold namedPlan
    by_cases hinv : w.underlying (.named n args) = .invalid
    · exact Or.inl (if_pos hinv)
    · right
      simp only [if_neg hinv, true_and, true_or]
  | _ => exact hunnamed

theorem Legible.plain_entry (h : w.Legible roots) (ht : w.Met roots t)
    (hentry : w.entry t = w.text t ∨ w.entry t = "any") : Plain (w.entry t) := by
  rcases hentry with htext | hany
  · rw [htext]
    exact plain_typeString fun name hname => Or.inl (h t ht name hname)
  · rw [hany]
    exact Or.inl (by decide)

end World

/-- The descriptor of a type that could not be resolved. -/
def Node.Unresolved (n : Node) : Prop :=
  ∃ text completed, n = { kind := .unknown, id := "<error " ++ text ++ ">", completed }

theorem Node.Unresolved.kind_eq {n : Node} (h : n.Unresolved) : n.kind = .unknown := by
  obtain ⟨text, completed, rfl⟩ := h
  rfl

theorem Node.unresolved_missing : Node.missing.Unresolved := ⟨"nil", true, rfl⟩

namespace Draft

variable {w : World} {roots : Set Ty} {depth : Nat} {s s' : Draft} {e : Identity} {l r x y : Ref}
variable {t : Ty}

/-- Each descriptor that is remembered is remembered by one text, which is its identity unless it is
unresolved. -/
structure Singular (s : Draft) : Prop where
  inside : ∀ e r, s.Remembers e r → r < s.graph.size
  injective : ∀ e f r, s.Remembers e r → s.Remembers f r → e = f
  named : ∀ e r, s.Remembers e r →
    ((s.graph.node r).id = e ∧ Plain e) ∨ (s.graph.node r).Unresolved

theorem singular_start : Singular {} where
  inside e r hr := by cases hr
  injective e f r hr := by cases hr
  named e r hr := by cases hr

theorem Singular.begin (hlegible : w.Legible roots) (h : s.Singular) (ht : w.Met roots t) :
    (s.begin (w.plan t)).Singular where
  inside e r hr := by
    rw [size_begin]
    rcases remembers_begin.mp hr with ⟨-, rfl⟩ | ⟨-, hr⟩
    · exact Nat.lt_succ_self _
    · exact Nat.lt_succ_of_lt (h.inside e r hr)
  injective := injective_begin h.inside h.injective
  named e r hr := by
    rw [s.node_begin]
    rcases remembers_begin.mp hr with ⟨rfl, rfl⟩ | ⟨-, hr⟩
    · rw [if_pos rfl]
      rcases w.plan_cases t with hplan | ⟨hid, hentry⟩
      · right
        rw [hplan]
        exact ⟨w.text t, false, rfl⟩
      · exact Or.inl ⟨hid, hlegible.plain_entry ht hentry⟩
    · rw [if_neg (Nat.ne_of_lt (h.inside e r hr))]
      exact h.named e r hr

theorem Singular.finish (hlegible : w.Legible roots) (h : s.Singular) (ht : w.Met roots t)
    {as : List Attribute} {n : Node} (hid : (s.graph.node r).id = (w.plan t).id)
    (hlength : as.length = (w.plan t).features.length)
    (hfill : (s.graph.node r).fill s.graph as = (n, none)) : (s.finish r n).Singular where
  inside e x hx := by
    rw [size_finish]
    exact h.inside e x hx
  injective := h.injective
  named e x hx := by
    rw [s.node_finish_eq]
    by_cases hsame : x = r ∧ r < s.graph.size
    · rw [if_pos hsame]
      obtain ⟨rfl, -⟩ := hsame
      rcases h.named e x hx with ⟨hxid, hplain⟩ | ⟨text, completed, hnode⟩
      · exact Or.inl ⟨(Node.id_fill hfill).trans hxid, hplain⟩
      · right
        rw [hnode] at hid hfill
        rcases w.plan_cases t with hplan | ⟨hentry, hor⟩
        · -- an unresolved type has no features to be filled in with
          rw [hplan] at hlength
          obtain rfl : as = [] := List.eq_nil_of_length_eq_zero hlength
          cases hfill
          exact ⟨text, true, rfl⟩
        · have hplain := hlegible.plain_entry ht hor
          rw [← hentry] at hplain
          exact absurd hid.symm (hplain.ne_error text)
    · rw [if_neg hsame]
      exact h.named e x hx

/-- **Each step keeps a draft singular.** -/
theorem Step.singular (hlegible : w.Legible roots) (h : s.Singular) (hstep : Step w roots s s') :
    s'.Singular := by
  cases hstep with
  | reserve ht _ => exact h.begin hlegible ht
  | fillIn ht hid hlength hfill => exact h.finish hlegible ht hid hlength hfill

theorem Steps.singular (hlegible : w.Legible roots) (h : s.Singular) (hsteps : Steps w roots s s') :
    s'.Singular := by
  induction hsteps with
  | refl => exact h
  | tail _ hstep ih => exact hstep.singular hlegible ih

theorem Singular.add (h : s.Singular) (n : Node) :
    Singular ⟨(s.graph.add n).1, s.describer⟩ where
  inside e r hr := by
    rw [Graph.size_add]
    exact Nat.lt_succ_of_lt (h.inside e r hr)
  injective := h.injective
  named e r hr := by
    rw [Graph.node_add, if_neg (Nat.ne_of_lt (h.inside e r hr))]
    exact h.named e r hr

theorem Singular.register (h : s.Singular) (ts : List Ty) :
    Singular { s with describer := s.describer.register w ts } := by
  have hrem : ∀ e r, Remembers { s with describer := s.describer.register w ts } e r ↔
      s.Remembers e r := by
    intro e r
    unfold Remembers
    rw [(Describer.register_frame (w := w) s.describer ts).1]
  refine ⟨fun e r hr => ?_, fun e f r he hf => ?_, fun e r hr => ?_⟩
  · exact h.inside e r ((hrem e r).mp hr)
  · exact h.injective e f r ((hrem e r).mp he) ((hrem f r).mp hf)
  · exact h.named e r ((hrem e r).mp hr)

/-! ### Requests -/

/-- **Requests keep a draft singular.** -/
theorem Singular.serve {requests : List Request} {rs : List Ref}
    (hlegible : w.Legible roots) (hasked : asked requests ⊆ roots) (h : s.Singular)
    (hserve : s.serve w depth requests = .ok (rs, s')) : s'.Singular := by
  induction requests generalizing s rs with
  | nil =>
    cases hserve
    exact h
  | cons q rest ih =>
    have hrest : asked rest ⊆ roots := fun t ht => hasked (List.mem_cons_of_mem _ ht)
    cases q with
    | register ts => exact ih hrest (h.register (w := w) ts) hserve
    | describe o =>
      rw [Draft.serve] at hserve
      cases hrun : s.describeTo w depth o with
      | error d =>
        rw [hrun] at hserve
        cases hserve
      | ok z =>
        obtain ⟨r, s₁⟩ := z
        have hs₁ : s₁.Singular := by
          cases o with
          | none =>
            cases hrun
            exact h.add .missing
          | some t =>
            have ht : w.Met roots t := .root (hasked List.mem_cons_self)
            exact (World.steps_of_run depth ht hrun).singular hlegible h
        rw [hrun] at hserve
        simp only [bind, Except.bind] at hserve
        cases hserves : s₁.serve w depth rest with
        | error d =>
          rw [hserves] at hserve
          cases hserve
        | ok z =>
          rw [hserves] at hserve
          cases hserve
          exact ih hrest hs₁ hserves

theorem serve_append {first second : List Request} {rs rs' : List Ref} {s₁ s₂ : Draft}
    (hfirst : s.serve w depth first = .ok (rs, s₁))
    (hsecond : s₁.serve w depth second = .ok (rs', s₂)) :
    s.serve w depth (first ++ second) = .ok (rs ++ rs', s₂) := by
  induction first generalizing s rs with
  | nil =>
    cases hfirst
    exact hsecond
  | cons q rest ih =>
    cases q with
    | register ts => exact ih hfirst
    | describe o =>
      rw [List.cons_append]
      rw [Draft.serve] at hfirst ⊢
      cases hrun : s.describeTo w depth o with
      | error d =>
        rw [hrun] at hfirst
        cases hfirst
      | ok z =>
        rw [hrun] at hfirst
        simp only [bind, Except.bind] at hfirst ⊢
        cases hserves : z.2.serve w depth rest with
        | error d =>
          rw [hserves] at hfirst
          cases hfirst
        | ok y =>
          rw [hserves] at hfirst
          cases hfirst
          rw [ih hserves]
          rfl

/-! ### What was returned -/

variable {interfaces : List Ty}

theorem Singular.of_reach (h : s.Singular) (htidy : s.Tidy interfaces []) (hl : s.Returned w l)
    (hx : s.graph.Reach l x) :
    (s.Remembers (s.graph.node x).id x ∧ Plain (s.graph.node x).id) ∨
      (s.graph.node x).Unresolved := by
  rcases hl with hl | ⟨-, hmissing, -⟩
  · obtain ⟨e, he⟩ := htidy.remembered_of_reach hl hx
    rcases h.named e x he with ⟨rfl, hplain⟩ | hunres
    · exact Or.inl ⟨he, hplain⟩
    · exact Or.inr hunres
  · right
    rw [eq_of_reach_missing hmissing hx, hmissing]
    exact Node.unresolved_missing

/-- **Descriptors of one identity are one**, or they are both unresolved. -/
theorem Singular.eq_or_unresolved (h : s.Singular) (htidy : s.Tidy interfaces [])
    (hl : s.Returned w l) (hr : s.Returned w r) (hx : s.graph.Reach l x) (hy : s.graph.Reach r y)
    (hid : (s.graph.node x).id = (s.graph.node y).id) :
    x = y ∨ ((s.graph.node x).Unresolved ∧ (s.graph.node y).Unresolved) := by
  rcases h.of_reach htidy hl hx with ⟨hremx, hplain⟩ | hunx <;>
    rcases h.of_reach htidy hr hy with ⟨hremy, hplain'⟩ | huny
  · rw [← hid] at hremy
    exact Or.inl (hremx.unique hremy)
  · obtain ⟨text, completed, hnode⟩ := huny
    rw [hid, hnode] at hplain
    exact absurd rfl (hplain.ne_error text)
  · obtain ⟨text, completed, hnode⟩ := hunx
    rw [← hid, hnode] at hplain'
    exact absurd rfl (hplain'.ne_error text)
  · exact Or.inr ⟨hunx, huny⟩

theorem match_of_unresolved {m n : Node} {R : Ref → Ref → Prop} (hm : m.Unresolved)
    (hn : n.Unresolved) (hid : m.id = n.id) : m.Match R n := by
  obtain ⟨text, completed, rfl⟩ := hm
  obtain ⟨text', completed', rfl⟩ := hn
  exact ⟨hid, rfl, .none, .none, .none, .nil, rfl, .nil, fun _ => rfl, fun _ => rfl, fun _ => rfl⟩

/-- **What was returned is consistent.** -/
theorem Singular.consistent (h : s.Singular) (htidy : s.Tidy interfaces []) (hl : s.Returned w l)
    (hr : s.Returned w r) : s.graph.Consistent l r := by
  have hreturned : ∀ {x}, s.graph.ReachEither l r x →
      ∃ z, s.Returned w z ∧ s.graph.Reach z x := by
    rintro x (hx | hx)
    · exact ⟨l, hl, hx⟩
    · exact ⟨r, hr, hx⟩
  intro x y hx hy hid
  obtain ⟨z, hz, hzx⟩ := hreturned hx
  obtain ⟨z', hz', hzy⟩ := hreturned hy
  rcases h.eq_or_unresolved htidy hz hz' hzx hzy hid with rfl | ⟨hunx, huny⟩
  · exact (Node.match_self _).imp_of_mem fun c _ d _ hcd =>
      congrArg (fun a => (s.graph.node a).id) hcd
  · exact match_of_unresolved hunx huny hid

/-! ### Described again -/

/-- **A type that is described again.** The draft stays as it is, and the descriptor is the one that
the type had, unless the type is not remembered by its text but the text has come to be remembered
since. -/
theorem describeTo_again {s₀ s₁ : Draft} {k k' : Nat} (ht : w.Met roots t) (h : s.Singular)
    (hfirst : s₀.describeTo w k (some t) = .ok (r, s₁)) (hext : s₁.Extends s) :
    ∃ r', s.describeTo w (k' + 1) (some t) = .ok (r', s) ∧
      (r' = r ↔ w.entry t = w.text t ∨ (∃ x, s₀.Remembers (w.text t) x) ∨
        ∀ x, ¬ s.Remembers (w.text t) x) := by
  cases hold : s₀.describer.memo.lookup (w.text t) with
  | some x =>
    have hrun : r = x ∧ s₁ = s₀ := by
      cases k with
      | zero => cases hfirst
      | succ k =>
        have hfound := World.run_describeIn_of_text k hold
        cases hfound.symm.trans hfirst
        exact ⟨rfl, rfl⟩
    obtain ⟨rfl, rfl⟩ := hrun
    have hstill : s.Remembers (w.text t) r := hext.remembers _ _ hold
    refine ⟨r, World.run_describeIn_of_text k' hstill, ?_⟩
    exact iff_of_true rfl (Or.inr (Or.inl ⟨r, hold⟩))
  | none =>
    have hentry : s.Remembers (w.entry t) r :=
      hext.remembers _ _ (World.remembers_of_run ht hold hfirst)
    cases htext : s.describer.memo.lookup (w.text t) with
    | none =>
      refine ⟨r, World.run_describeIn_of_entry k' htext hentry, ?_⟩
      refine iff_of_true rfl (Or.inr (Or.inr fun x hx => ?_))
      cases htext.symm.trans hx
    | some y =>
      refine ⟨y, World.run_describeIn_of_text k' htext, ?_⟩
      constructor
      · rintro rfl
        exact Or.inl (h.injective _ _ y hentry htext)
      · rintro (heq | ⟨x, hx⟩ | hnone)
        · rw [heq] at hentry
          exact Remembers.unique (s := s) htext hentry
        · cases hold.symm.trans hx
        · exact absurd htext (hnone y)

end Draft

/-- **What one describer returns.** Whatever a describer is asked for, if the types to describe
unfold to finitely many texts and names do not begin with an angle bracket, then any two descriptors
that can be reached from what it returned and have one identity are the same one, or both are
unresolved, and descriptors of one identity agree. A type that is described again leaves everything
as it is. It has the descriptor that it had before, exactly if it is remembered by its own text, or
the text was remembered when it was described first, or the text is still not remembered. -/
theorem described_again_iff (w : World) (requests : List Request) (E : Finset Identity)
    (hE : ∀ t, .describe (some t) ∈ requests → ∀ u, w.Met {t} u → w.entry u ∈ E)
    (hlegible : w.Legible (Draft.asked requests)) :
    ∃ rs s, (∀ depth, E.card < depth → Draft.serve w depth {} requests = .ok (rs, s)) ∧
      (∀ l ∈ rs, ∀ r ∈ rs, ∀ x y, s.graph.Reach l x → s.graph.Reach r y →
        (s.graph.node x).id = (s.graph.node y).id →
        x = y ∨ ((s.graph.node x).kind = .unknown ∧ (s.graph.node y).kind = .unknown)) ∧
      (∀ l ∈ rs, ∀ r ∈ rs, s.graph.Consistent l r) ∧
      ∀ before t between, requests = before ++ .describe (some t) :: between →
        ∃ first r rest s₀, rs = first ++ r :: rest ∧
          (∀ depth, E.card < depth → Draft.serve w depth {} before = .ok (first, s₀)) ∧
          ∀ depth, E.card < depth → ∃ r', s.describeTo w depth (some t) = .ok (r', s) ∧
            (r' = r ↔ w.entry t = w.text t ∨ (∃ x, s₀.Remembers (w.text t) x) ∨
              ∀ x, ¬ s.Remembers (w.text t) x) := by
  obtain ⟨rs, s, interfaces, hserve, hs, -, hrs⟩ :=
    Draft.exists_serve hE (Nat.lt_succ_self _) Draft.tidy_start
  have hsingular : s.Singular := Draft.singular_start.serve hlegible subset_rfl hserve
  refine ⟨rs, s, fun depth hdepth => Draft.serve_of_le hdepth hserve, ?_, ?_, ?_⟩
  · intro l hl r hr x y hx hy hid
    rcases hsingular.eq_or_unresolved hs (hrs l hl) (hrs r hr) hx hy hid with hxy | ⟨hunx, huny⟩
    · exact Or.inl hxy
    · exact Or.inr ⟨hunx.kind_eq, huny.kind_eq⟩
  · intro l hl r hr
    exact hsingular.consistent hs (hrs l hl) (hrs r hr)
  · rintro before t between rfl
    have htmem : Request.describe (some t) ∈ before ++ .describe (some t) :: between :=
      List.mem_append_right _ List.mem_cons_self
    have ht : w.Met (Draft.asked (before ++ .describe (some t) :: between)) t := .root htmem
    -- the run, cut before and after the first description of the type
    obtain ⟨first, s₀, interfaces₀, hbefore, hs₀, -, -⟩ := Draft.exists_serve
      (fun u hu => hE u (List.mem_append_left _ hu)) (Nat.lt_succ_self _) Draft.tidy_start
    obtain ⟨r, s₁, hrun, hs₁, -, -⟩ := Draft.exists_describeTo (o := some t) hs₀
      (fun u hu => hE u (hu ▸ htmem)) (Nat.lt_succ_self _)
    obtain ⟨rest, s₂, interfaces₂, hbetween, -, hext, -⟩ := Draft.exists_serve
      (fun u hu => hE u (List.mem_append_right _ (List.mem_cons_of_mem _ hu)))
      (Nat.lt_succ_self _) hs₁
    have hlast : s₀.serve w (E.card + 1) (.describe (some t) :: between) = .ok (r :: rest, s₂) := by
      rw [Draft.serve, hrun]
      simp only [bind, Except.bind, hbetween]
      rfl
    have hwhole := Draft.serve_append hbefore hlast
    cases hwhole.symm.trans hserve
    refine ⟨first, r, rest, s₀, rfl, fun depth hdepth => Draft.serve_of_le hdepth hbefore,
      fun depth hdepth => ?_⟩
    obtain ⟨k, rfl⟩ := Nat.exists_eq_succ_of_ne_zero (Nat.ne_zero_of_lt hdepth)
    exact Draft.describeTo_again ht hsingular hrun hext

/-! ### An interface that is written like its only part -/

/-- An interface without methods, and a pointer type that points to itself. -/
def restated : World where
  packages := [{
    path := "p"
    name := "p"
    declarations :=
      [{ name := "E", type := .emptyInterface },
       { name := "Loop", type := .pointer (.named ⟨"p", "Loop"⟩ []) }] }]
  horizon := 12

/-- The declared interface `E`. -/
def Ty.blank : Ty := .named ⟨"p", "E"⟩ []

/-- The constraint `E`, as it stands in a list of type parameters. -/
def Ty.blankConstraint : Ty := .interface .implicit [] [.blank]

/-- What the types that are asked for are made of. -/
def restated.parts : List Ty :=
  [.blankConstraint, .blank, .pointer .loop, .loop, .invalid]

/-- Requests for missing, unresolved and recursive types, and for both forms of `E`. -/
def restated.requests : List Request :=
  [.describe none, .describe (some (.pointer .loop)), .register [.blank],
    .describe (some .blankConstraint), .describe (some .invalid), .describe (some .blank)]

theorem mem_parts_of_asked {t : Ty} (ht : t ∈ Draft.asked restated.requests) :
    t ∈ restated.parts := by
  change Request.describe (some t) ∈ restated.requests at ht
  simp only [restated.requests, List.mem_cons, List.not_mem_nil, or_false,
    Request.describe.injEq, Option.some.injEq, reduceCtorEq, false_or] at ht
  rcases ht with rfl | rfl | rfl | rfl <;> decide

theorem mem_parts_restated {roots : Set Ty} (hroots : roots ⊆ Draft.asked restated.requests)
    {u : Ty} (hu : restated.Met roots u) : u ∈ restated.parts :=
  World.mem_of_met (fun t ht => mem_parts_of_asked (hroots ht)) (by decide) hu

theorem legible_restated : restated.Legible (Draft.asked restated.requests) := by
  intro t ht name hname
  have hmem := mem_parts_restated subset_rfl ht
  simp only [restated.parts, List.mem_cons, List.not_mem_nil, or_false] at hmem
  have hblank : restated.unalias .blank = .blank := by decide
  have hloop : restated.unalias .loop = .loop := by decide
  rcases hmem with rfl | rfl | rfl | rfl | rfl
  · cases hname with
    | implicit hname =>
      cases hname
      decide
  · rw [hblank] at hname
    cases hname
    decide
  · cases hname
  · rw [hloop] at hname
    cases hname
    decide
  · cases hname

theorem described_again_iff_restated :
    ∃ rs s, Draft.serve restated 8 {} restated.requests = .ok (rs, s) ∧
      (∀ l ∈ rs, ∀ r ∈ rs, s.graph.Consistent l r) ∧
      ∃ first r rest, rs = first ++ r :: rest ∧
        s.describeTo restated 8 (some (.pointer .loop)) = .ok (r, s) := by
  have hcard : (restated.parts.map restated.entry).toFinset.card < 8 :=
    (List.toFinset_card_le _).trans_lt (by decide)
  obtain ⟨rs, s, hserve, -, hconsistent, hagain⟩ := described_again_iff restated restated.requests
    (restated.parts.map restated.entry).toFinset
    (fun t ht u hu => List.mem_toFinset.mpr (List.mem_map_of_mem
      (mem_parts_restated (Set.singleton_subset_iff.mpr ht) hu)))
    legible_restated
  obtain ⟨first, r, rest, s₀, hrs, -, hdescribe⟩ := hagain [.describe none] (.pointer .loop) _ rfl
  obtain ⟨r', hrun, hiff⟩ := hdescribe 8 hcard
  obtain rfl : r' = r := hiff.mpr (Or.inl (by decide))
  exact ⟨rs, s, hserve 8 hcard, hconsistent, first, r', rest, hrs, hrun⟩

/-- The constraint `E` is written like the declared `E`. Described again, it has the descriptor of
that. -/
theorem describe_again_other :
    ∃ x y z s, Draft.serve restated 8 {}
        [.describe (some .blankConstraint), .describe (some .blank),
          .describe (some .blankConstraint)] = .ok ([x, y, z], s) ∧
      z ≠ x ∧ z = y := by
  have hrun : (Draft.serve restated 8 {} [.describe (some .blankConstraint),
      .describe (some .blank), .describe (some .blankConstraint)]).toOption.map Prod.fst =
        some [0, 1, 1] := by
    decide
  cases hserve : Draft.serve restated 8 {} [.describe (some .blankConstraint),
      .describe (some .blank), .describe (some .blankConstraint)] with
  | error e =>
    rw [hserve] at hrun
    cases hrun
  | ok z =>
    obtain ⟨rs, s⟩ := z
    rw [hserve] at hrun
    obtain rfl : rs = [0, 1, 1] := Option.some.inj hrun
    exact ⟨0, 1, 1, s, rfl, by decide, rfl⟩

end EverEqual
