import EverEqual.Proofs.Check.InOrder
import EverEqual.Proofs.Check.Swap

/-!
# Pairs that share a cache

A cache keeps answers by pairs of identities, and an answer rests on more than that: on the
interfaces that the types of its pair are tested against. So pairs that are checked with a shared
cache get the findings that they would get alone, whatever the order of the steps, exactly if no two
questions with the same pair of identities have different answers.

* `Operands.Asks`, `Gives`: the questions of a pair, and the answers that a list of pairs gives;
* `unambiguous_of_same`: one way to have a single answer for every pair of identities;
* `shared_cache_iff`: the findings with a shared cache;
* `shared_cache_sequences`: pairs that get the wrong findings.
-/

namespace EverEqual

variable {w : World} {options : CheckOptions} {p p' : Operands} {ps : List Operands}
variable {key : IdentityPair} {l r l' r' : Option Ty} {e e' : Bool}

/-- A pair asks a question, with the pair of identities by which the answer is kept, with its
operands in order, and with the answer to it without a cache. -/
inductive Operands.Asks (w : World) (p : Operands) :
    IdentityPair → Option Ty → Option Ty → Bool → Prop
  | forth {d : Described} {a b : Bool} (h : p.Alone w d a b) : Asks w p d.forthKey p.left p.right a
  | back {d : Described} {a b : Bool} (h : p.Alone w d a b) : Asks w p d.backKey p.right p.left b

/-- An answer that a list of pairs gives to a pair of identities. -/
def Gives (w : World) (ps : List Operands) (key : IdentityPair) (equal : Bool) : Prop :=
  ∃ p ∈ ps, ∃ l r, p.Asks w key l r equal

/-- A list of pairs gives no two answers to one pair of identities. -/
def Unambiguous (w : World) (ps : List Operands) : Prop :=
  ∀ key a b, Gives w ps key a → Gives w ps key b → a = b

/-! ### The same operands and interfaces -/

namespace Operands.Asks

theorem operands_eq (hne : ∀ d a b, p.Alone w d a b → d.forthKey ≠ d.backKey)
    (h : p.Asks w key l r e) (h' : p.Asks w key l' r' e') : l = l' ∧ r = r' := by
  generalize hkey : key = key' at h'
  cases h with
  | forth hd =>
    cases h' with
    | forth => exact ⟨rfl, rfl⟩
    | back hd' =>
      obtain ⟨rfl, -, -⟩ := hd.unique hd'
      exact absurd hkey (hne _ _ _ hd)
  | back hd =>
    cases h' with
    | forth hd' =>
      obtain ⟨rfl, -, -⟩ := hd.unique hd'
      exact absurd hkey.symm (hne _ _ _ hd)
    | back => exact ⟨rfl, rfl⟩

theorem mem_roots_iff (h : p.Asks w key l r e) (t : Ty) :
    t ∈ p.roots ↔ l = some t ∨ r = some t := by
  cases h with
  | forth => exact Iff.rfl
  | back => exact or_comm

theorem mem_interfacesFor_iff (h : p.Asks w key l r e) (i : Ty) :
    i ∈ p.interfacesFor w ↔ i = .error ∨ (w.isInterface i = true ∧
      (i ∈ p.interfaces ∨ i ∈ w.interfacesIn l ∨ i ∈ w.interfacesIn r)) := by
  rw [mem_interfacesFor]
  cases h with
  | forth => exact Iff.rfl
  | back => rw [or_comm (a := i ∈ w.interfacesIn p.left)]

theorem exists_draft (h : p.Asks w key l r e)
    (ho : w.Orderly (p.interfacesFor w) p.roots) :
    ∃ (s : Draft) (x y : Ref), s.Faithful w (p.interfacesFor w) p.roots [] ∧ s.Stands w l x ∧
      s.Stands w r y ∧ canBeEqual s.graph Rule.defaults (some x) (some y) = .ok e := by
  obtain ⟨x, y, s, hdesc, hs, hx, hy⟩ := exists_describe ho
  cases h with
  | forth h =>
    obtain ⟨rfl, rfl, hg⟩ := by simpa using hdesc.symm.trans h.described
    exact ⟨s, _, _, hs, hx, hy, hg ▸ h.forward⟩
  | back h =>
    obtain ⟨rfl, rfl, hg⟩ := by simpa using hdesc.symm.trans h.described
    exact ⟨s, _, _, hs, hy, hx, hg ▸ h.reverse⟩

/-- Questions with the same operands that are tested against the same interfaces have the same
answer, if no ancestor depends on a circular base. -/
theorem answer_eq (h : p.Asks w key l r e) (h' : p'.Asks w key l r e')
    (ho : w.Orderly (p.interfacesFor w) p.roots) (hset : w.Settled (p.interfacesFor w) p.roots)
    (hsame : ∀ i, i ∈ p.interfaces ↔ i ∈ p'.interfaces) : e = e' := by
  have hroots : p'.roots = p.roots := by
    ext t
    rw [h'.mem_roots_iff, h.mem_roots_iff]
  have hout : ∀ t, w.outline (p.interfacesFor w) t = w.outline (p'.interfacesFor w) t :=
    World.outline_congr fun i => by rw [h.mem_interfacesFor_iff, h'.mem_interfacesFor_iff, hsame]
  obtain ⟨s, x, y, hs, hx, hy, hanswer⟩ := h.exists_draft ho
  obtain ⟨s', x', y', hs', hx', hy', hanswer'⟩ := h'.exists_draft (hroots ▸ ho.congr hout)
  rw [hroots] at hs'
  obtain ⟨v, hv⟩ := exists_verdict Rule.defaults (hx.finishedFrom hs) (hy.finishedFrom hs)
  obtain ⟨v', hv'⟩ := exists_verdict Rule.defaults (hx'.finishedFrom hs') (hy'.finishedFrom hs')
  have hsim := Draft.similarity_of_faithful hset hout hs hs'
  have hvv : v = v' := verdict_eq_of_similarity hsim
    (hx.alike (fun t ht => .root ((h.mem_roots_iff t).mpr (Or.inl ht))) hx')
    (hy.alike (fun t ht => .root ((h.mem_roots_iff t).mpr (Or.inr ht))) hy') hv hv'
  rw [canBeEqual_of_verdict hv] at hanswer
  rw [canBeEqual_of_verdict hv'] at hanswer'
  rw [← Except.ok.inj hanswer, ← Except.ok.inj hanswer', hvv]

end Operands.Asks

/-- **The same operands, tested against the same interfaces.** If every pair of identities stands
for that in all pairs of a list, and no ancestor depends on a circular base, then the list gives no
two answers to one pair of identities. -/
theorem unambiguous_of_same (ho : ∀ p ∈ ps, w.Orderly (p.interfacesFor w) p.roots)
    (hset : ∀ p ∈ ps, w.Settled (p.interfacesFor w) p.roots)
    (hsame : ∀ p ∈ ps, ∀ p' ∈ ps, ∀ key l r l' r' e e', p.Asks w key l r e →
      p'.Asks w key l' r' e' → l = l' ∧ r = r' ∧ ∀ i, i ∈ p.interfaces ↔ i ∈ p'.interfaces) :
    Unambiguous w ps := by
  rintro key a b ⟨p, hp, l, r, hasks⟩ ⟨p', hp', l', r', hasks'⟩
  obtain ⟨rfl, rfl, hinterfaces⟩ := hsame p hp p' hp' key l r l' r' a b hasks hasks'
  exact hasks.answer_eq hasks' (ho p hp) (hset p hp) hinterfaces

/-! ### One pair after the other -/

theorem Cache.exists_settle (c : Cache) (key : IdentityPair) (e : Bool) :
    ∃ equal c', Cache.settle (some c) key e = (equal, some c') ∧ c'.find? key = some equal ∧
      ∀ key' equal', c.find? key' = some equal' → c'.find? key' = some equal' := by
  unfold settle
  cases hfind : c.find? key with
  | some kept => exact ⟨kept, c, by simp only [hfind], hfind, fun _ _ h => h⟩
  | none =>
    refine ⟨e, c.store key e, by simp only [hfind], by simp [find?_store], fun key' equal' h => ?_⟩
    have hne : key' ≠ key := by
      rintro rfl
      cases hfind.symm.trans h
    rw [find?_store, if_neg hne, h]

/-- **Pairs that are checked one after the other** report what the cache holds in the end. -/
theorem exists_checkEach (options : CheckOptions)
    (halone : ∀ p ∈ ps, ∃ d a b, p.Alone w d a b) (c : Cache) :
    ∃ fs c', checkEach w options (some c) ps = .ok (fs, some c') ∧
      (∀ key equal, c.find? key = some equal → c'.find? key = some equal) ∧
      List.Forall₂ (fun p f => ∀ d a b, p.Alone w d a b →
        c'.find? d.forthKey = some f.forward ∧ c'.find? d.backKey = some f.reverse) ps fs := by
  induction ps generalizing c with
  | nil => exact ⟨[], c, rfl, fun _ _ h => h, .nil⟩
  | cons p ps ih =>
    obtain ⟨d, a, b, hd⟩ := halone p List.mem_cons_self
    obtain ⟨forward, c₁, hfirst, hforward, hgrow₁⟩ := c.exists_settle d.forthKey a
    obtain ⟨reverse, c₂, hsecond, hreverse, hgrow₂⟩ := c₁.exists_settle d.backKey b
    obtain ⟨fs, c', hrest, hgrow, hfs⟩ := ih (fun p hp => halone p (List.mem_cons_of_mem _ hp)) c₂
    refine ⟨d.finding options p forward reverse :: fs, c', ?_,
      fun key equal h => hgrow _ _ (hgrow₂ _ _ (hgrow₁ _ _ h)), .cons (fun d' a' b' hd' => ?_) hfs⟩
    · rw [checkEach, hd.check_eq, hfirst, hsecond]
      simp only [bind, Except.bind, hrest]
      rfl
    · obtain ⟨rfl, -, -⟩ := hd.unique hd'
      exact ⟨hgrow _ _ (hgrow₂ _ _ hforward), hgrow _ _ hreverse⟩

/-! ### Any schedule -/

theorem exists_of_forall₂ {α β : Type} {R S : α → β → Prop} {xs : List α} {ys : List β}
    (hR : List.Forall₂ R xs ys) (hS : List.Forall₂ S xs ys) {x : α} (hx : x ∈ xs) :
    ∃ y, R x y ∧ S x y := by
  induction hR with
  | nil => cases hx
  | cons hab _ ih =>
    cases hS with
    | cons hab' hS =>
      rcases List.mem_cons.mp hx with rfl | hx
      · exact ⟨_, hab, hab'⟩
      · exact ih hS hx

/-- A finding with the answers of a pair on its own. -/
def Operands.RightOn (w : World) (options : CheckOptions) (p : Operands) (f : Finding) : Prop :=
  ∃ f₀, check w options none p = .ok (f₀, none) ∧ f.forward = f₀.forward ∧ f.reverse = f₀.reverse

theorem Reported.eq_own (hun : Unambiguous w ps) {own : Bool} (hp : p ∈ ps)
    (hown : p.Asks w key l r own) (h : Reported (Gives w ps) key own e) : e = own :=
  h.elim id fun hgives => hun key e own hgives ⟨p, hp, l, r, hown⟩

theorem Operands.Possible.rightOn (hun : Unambiguous w ps) (hp : p ∈ ps) {f : Finding}
    (h : p.Possible w options (Gives w ps) f) : p.RightOn w options f := by
  obtain ⟨d, a, b, hd, hforward, hreverse, -⟩ := h
  exact ⟨_, hd.check_none options, hforward.eq_own hun hp (.forth hd),
    hreverse.eq_own hun hp (.back hd)⟩

/-- What the cache holds in the end is what is reported to every question; so if every finding is
right, the list gives no two answers to one pair of identities. -/
theorem unambiguous_of_rightOn {fs : List Finding} {c : Cache}
    (hreport : List.Forall₂ (fun p f => ∀ d a b, p.Alone w d a b →
      c.find? d.forthKey = some f.forward ∧ c.find? d.backKey = some f.reverse) ps fs)
    (hright : List.Forall₂ (fun p f => p.RightOn w options f) ps fs) : Unambiguous w ps := by
  have hheld : ∀ key e, Gives w ps key e → c.find? key = some e := by
    rintro key e ⟨p, hp, l, r, hasks⟩
    obtain ⟨f, hf, ⟨f₀, hf₀, hforward, hreverse⟩⟩ := exists_of_forall₂ hreport hright hp
    cases hasks with
    | forth hd =>
      obtain rfl := congrArg Prod.fst (Except.ok.inj (hf₀.symm.trans (hd.check_none options)))
      exact (hf _ _ _ hd).1.trans (congrArg some hforward)
    | back hd =>
      obtain rfl := congrArg Prod.fst (Except.ok.inj (hf₀.symm.trans (hd.check_none options)))
      exact (hf _ _ _ hd).2.trans (congrArg some hreverse)
  intro key a b ha hb
  exact Option.some.inj ((hheld key a ha).symm.trans (hheld key b hb))

/-- **Pairs that share a cache.** A list of pairs whose types are followed to their end is checked
with any number of jobs and an empty cache. However the steps of the workers are mixed, the checks
come to an end: no schedule is longer than ten moves a pair and one, and until there is an outcome
some move is possible. Unless the checks are called off, the outcome is a finding on every pair in
the order of the list, and each of its answers is the one that some pair of the list gets on its own
to a question with the same identities. These are always the answers that the pair gets on its own
exactly if the list gives no two answers to one pair of identities. -/
theorem shared_cache_iff (w : World) (options : CheckOptions) (jobs : Int) (processors : Nat)
    (ps : List Operands) (hprocessors : 0 < processors) (h : ∀ p ∈ ps, w.Followed p.roots) :
    (∀ schedule s,
      (Pool.forJobs jobs processors (some {}) ps).run? w options schedule = some s →
      schedule.length ≤ 10 * ps.length + 1 ∧
      (s.outcome? = none → ∃ m s', m ≠ .cancel ∧ s.move? w options m = some s') ∧
      (.cancel ∉ schedule → ∀ outcome, s.outcome? = some outcome → ∃ fs, outcome = .ok fs ∧
        List.Forall₂ (fun p f => p.Possible w options (Gives w ps) f) ps fs)) ∧
    ((∀ schedule s fs, .cancel ∉ schedule →
      (Pool.forJobs jobs processors (some {}) ps).run? w options schedule = some s →
      s.outcome? = some (.ok fs) → List.Forall₂ (fun p f => p.RightOn w options f) ps fs) ↔
        Unambiguous w ps) := by
  have halone : ∀ p ∈ ps, ∃ d a b, p.Alone w d a b := fun p hp => p.exists_alone (h p hp)
  have hlimit : ps ≠ [] → 0 < Pool.limitFor jobs processors ps.length := fun hne =>
    Pool.limitFor_pos jobs hprocessors (List.length_pos_iff.mpr hne)
  have hstart : (Pool.forJobs jobs processors (some {}) ps).Sound w options (Gives w ps) ps :=
    Pool.Sound.start hlimit
      (fun _ p hp _ _ _ hd => ⟨⟨p, hp, _, _, .forth hd⟩, ⟨p, hp, _, _, .back hd⟩⟩)
      (fun key equal hlook => by simp [Cache.look, Cache.find?] at hlook)
  refine ⟨fun schedule s hrun => ?_, fun hright => ?_, fun hun schedule s fs hno hrun ho => ?_⟩
  · obtain ⟨hs, hlength, -⟩ := hstart.run halone hrun
    refine ⟨?_, hs.exists_move, fun hno _ ho => hstart.exists_findings halone rfl hno hrun ho⟩
    rw [Pool.forJobs, Pool.movesLeft_start] at hlength
    exact le_trans (Nat.le_add_right _ _) hlength
  · obtain ⟨fs, c, heach, -, hreport⟩ := exists_checkEach options halone {}
    obtain ⟨schedule, s, hno, hrun, ho⟩ :=
      Pool.exists_run_checkAll w options _ (some {}) false ps hlimit
    refine unambiguous_of_rightOn hreport (hright schedule s fs (hno rfl) hrun ?_)
    rw [ho, checkAll_false, heach]
    rfl
  · obtain ⟨fs', hfs, hpossible⟩ := hstart.exists_findings halone rfl hno hrun ho
    obtain rfl := Except.ok.inj hfs
    exact forall₂_imp_of_mem hpossible fun p hp f _ hf => hf.rightOn hun hp

/-! ### A list and a sequence -/

/-- Package `a` has a type `T` with a method and a list of it; package `b` has an interface `I` with
that method and a sequence of it, which is a function type. -/
def sequences : World where
  packages :=
    [{ path := "a"
       name := "a"
       declarations :=
        [{ name := "T", type := .struct [], methods := [⟨"M", false, .func [] [] false⟩] },
         { name := "Seq", type := .slice (.named ⟨"a", "T"⟩ []) }] },
     { path := "b"
       name := "b"
       declarations :=
        [{ name := "I"
           type := .interface .literal [⟨"M", .func [] [] false, "b", false, []⟩] [] },
         { name := "Seq"
           type := .func [⟨"yield", .func [⟨"", .named ⟨"b", "I"⟩ [], "", false, []⟩]
            [⟨"", .basic .bool, "", false, []⟩] false, "b", false, []⟩] [] false }] }]
  horizon := 20

namespace sequences

/-- The list and the sequence, tested against some interfaces. The sequence does not mention `I`
where interfaces are looked for. -/
def pair (interfaces : List Ty) : Operands where
  leftText := "a.Seq"
  rightText := "b.Seq"
  left := some (.named ⟨"a", "Seq"⟩ [])
  right := some (.named ⟨"b", "Seq"⟩ [])
  interfaces := interfaces

/-- The pair, tested against no further interfaces. -/
def bare : Operands := pair []

/-- The pair, tested against `I`. -/
def informed : Operands := pair [.named ⟨"b", "I"⟩ []]

/-- The informed pair, twice. -/
def alike : List Operands := [informed, informed]

/-- The bare pair before the informed one. -/
def mixed : List Operands := [bare, informed]

/-- What the types of the pair are made of. -/
def parts : List Ty :=
  [.named ⟨"a", "Seq"⟩ [], .named ⟨"b", "Seq"⟩ [], .named ⟨"a", "T"⟩ [], .named ⟨"b", "I"⟩ []]

theorem mem_parts (interfaces : List Ty) : ∀ t ∈ (pair interfaces).roots, t ∈ parts := by
  rintro t (ht | ht) <;> cases ht <;> decide

theorem closed_parts : ∀ t ∈ parts, ∀ u ∈ (sequences.plan t).types, u ∈ parts := by
  decide

theorem orderly_informed : sequences.Orderly (informed.interfacesFor sequences) informed.roots :=
  World.orderly_of_closed parts (mem_parts _) closed_parts (by decide) (by decide)

theorem settled_informed : sequences.Settled (informed.interfacesFor sequences) informed.roots :=
  World.settled_of_closed parts (mem_parts _) closed_parts
    (fun e => if e = "a.Seq" ∨ e = "b.Seq" then 1 else 0) (by decide)

theorem followed_pair (interfaces : List Ty) : sequences.Followed (pair interfaces).roots :=
  World.followed_of_closed parts (mem_parts _) closed_parts (by decide)

theorem key_of_alone {interfaces : List Ty} {d : Described} {a b : Bool}
    (hids : ∀ z ∈ ((pair interfaces).describe sequences).toOption,
      (z.2.2.node z.1).id = "a.Seq" ∧ (z.2.2.node z.2.1).id = "b.Seq")
    (h : (pair interfaces).Alone sequences d a b) :
    d.forthKey = ⟨"a.Seq", "b.Seq"⟩ ∧ d.backKey = ⟨"b.Seq", "a.Seq"⟩ := by
  obtain ⟨hleft, hright⟩ := hids (d.left, d.right, d.graph) (by rw [h.described]; rfl)
  unfold Described.forthKey Described.backKey Cache.key
  rw [hleft, hright]
  exact ⟨rfl, rfl⟩

theorem exists_asks {interfaces : List Ty} {e : Bool}
    (hids : ∀ z ∈ ((pair interfaces).describe sequences).toOption,
      (z.2.2.node z.1).id = "a.Seq" ∧ (z.2.2.node z.2.1).id = "b.Seq")
    (hforward : (check sequences {} none (pair interfaces)).toOption.map (·.1.forward) = some e) :
    ∃ l r, (pair interfaces).Asks sequences ⟨"a.Seq", "b.Seq"⟩ l r e := by
  obtain ⟨d, a, b, hd⟩ := (pair interfaces).exists_alone (followed_pair interfaces)
  rw [hd.check_none] at hforward
  obtain rfl : a = e := Option.some.inj hforward
  exact (key_of_alone hids hd).1 ▸ ⟨_, _, .forth hd⟩

theorem ids_bare : ∀ z ∈ (bare.describe sequences).toOption,
    (z.2.2.node z.1).id = "a.Seq" ∧ (z.2.2.node z.2.1).id = "b.Seq" := by
  decide +kernel

theorem ids_informed : ∀ z ∈ (informed.describe sequences).toOption,
    (z.2.2.node z.1).id = "a.Seq" ∧ (z.2.2.node z.2.1).id = "b.Seq" := by
  decide +kernel

theorem not_unambiguous_mixed : ¬ Unambiguous sequences mixed := by
  intro hun
  obtain ⟨l, r, hbare⟩ := exists_asks (e := false) ids_bare (by decide +kernel)
  obtain ⟨l', r', hinformed⟩ := exists_asks (e := true) ids_informed (by decide +kernel)
  exact Bool.false_ne_true (hun _ false true ⟨bare, by simp [mixed], l, r, hbare⟩
    ⟨informed, by simp [mixed], l', r', hinformed⟩)

theorem unambiguous_alike : Unambiguous sequences alike := by
  have hmem : ∀ p ∈ alike, p = informed := by simp [alike]
  refine unambiguous_of_same (fun p hp => hmem p hp ▸ orderly_informed)
    (fun p hp => hmem p hp ▸ settled_informed) fun p hp p' hp' key l r l' r' e e' h h' => ?_
  obtain rfl := hmem p hp
  obtain rfl := hmem p' hp'
  have hne : ∀ d a b, informed.Alone sequences d a b → d.forthKey ≠ d.backKey := by
    intro d a b hd
    obtain ⟨hforth, hback⟩ := key_of_alone ids_informed hd
    rw [hforth, hback]
    decide
  obtain ⟨hl, hr⟩ := h.operands_eq hne h'
  exact ⟨hl, hr, fun _ => Iff.rfl⟩

end sequences

/-- With two jobs, the pair that is tested against `I` gets its own findings beside itself, but not
always beside the bare pair. -/
theorem shared_cache_iff_sequences :
    (∀ schedule s fs, .cancel ∉ schedule →
      (Pool.forJobs 2 8 (some {}) sequences.alike).run? sequences {} schedule = some s →
      s.outcome? = some (.ok fs) →
      List.Forall₂ (fun p f => p.RightOn sequences {} f) sequences.alike fs) ∧
    ¬ ∀ schedule s fs, .cancel ∉ schedule →
      (Pool.forJobs 2 8 (some {}) sequences.mixed).run? sequences {} schedule = some s →
      s.outcome? = some (.ok fs) →
      List.Forall₂ (fun p f => p.RightOn sequences {} f) sequences.mixed fs := by
  have hfollowed : ∀ p ∈ sequences.alike ++ sequences.mixed, sequences.Followed p.roots := by
    simp only [sequences.alike, sequences.mixed, List.cons_append, List.nil_append,
      List.forall_mem_cons, List.not_mem_nil, false_imp_iff, implies_true, and_true]
    exact ⟨sequences.followed_pair _, sequences.followed_pair _, sequences.followed_pair _,
      sequences.followed_pair _⟩
  obtain ⟨-, hright⟩ := shared_cache_iff sequences {} 2 8 sequences.alike (by decide)
    fun p hp => hfollowed p (List.mem_append_left _ hp)
  obtain ⟨-, hwrong⟩ := shared_cache_iff sequences {} 2 8 sequences.mixed (by decide)
    fun p hp => hfollowed p (List.mem_append_right _ hp)
  exact ⟨hright.mpr sequences.unambiguous_alike,
    fun h => sequences.not_unambiguous_mixed (hwrong.mp h)⟩

/-- **The pair that is checked first decides on the findings.** Without a cache, the pair is never
equal when it is tested against no further interfaces, and may be equal when it is tested against
`I`. When both share a cache, the second one gets the answers of the first. -/
theorem shared_cache_sequences :
    (check sequences {} none sequences.bare).toOption.map (fun z => (z.1.forward, z.1.reverse)) =
        some (false, false) ∧
      (check sequences {} none sequences.informed).toOption.map
        (fun z => (z.1.forward, z.1.reverse)) = some (true, true) ∧
      ∃ schedule s fs, .cancel ∉ schedule ∧
        (Pool.forJobs 1 8 (some {}) sequences.mixed).run? sequences {} schedule = some s ∧
        s.outcome? = some (.ok fs) ∧
        fs.map (fun f => (f.forward, f.reverse)) = [(false, false), (false, false)] := by
  refine ⟨by decide +kernel, by decide +kernel, ?_⟩
  obtain ⟨schedule, s, hno, hrun, ho⟩ := Pool.exists_run_checkAll sequences {} 1 (some {}) false
    sequences.mixed fun _ => Nat.one_pos
  have hfindings : (checkAll sequences {} (some {}) false sequences.mixed).toOption.map
      (fun z => z.1.map fun f => (f.forward, f.reverse)) =
        some [(false, false), (false, false)] := by
    decide +kernel
  cases hall : checkAll sequences {} (some {}) false sequences.mixed with
  | error e =>
    rw [hall] at hfindings
    cases hfindings
  | ok z =>
    rw [hall] at hfindings ho
    exact ⟨schedule, s, z.1, hno rfl, hrun, ho, Option.some.inj hfindings⟩

end EverEqual
