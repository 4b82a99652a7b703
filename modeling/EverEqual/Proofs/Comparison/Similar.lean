import EverEqual.Proofs.Comparison.Judgment
import Mathlib.Data.List.Forall2
import Mathlib.Data.Option.Basic
import Mathlib.Tactic.SplitIfs

/-!
# Descriptors that rules cannot tell apart

Two descriptors match, for a relation between references, if they agree in everything a rule reads
and their parts are related. A relation under which related descriptors match is a similarity
between two graphs: every rule makes the same of related pairs, up to related parts.

* `Node.Match`, `Similarity`: the relation;
* `Similarity.resolve`: a rule makes the same of related pairs;
* `Similarity.firstResolution`: so does a list of rules;
* `Similarity.judged`, `verdict_eq_of_similarity`: related pairs have the same verdict.
-/

namespace EverEqual

/-- Two descriptors agree in what rules read, and their parts are related. -/
structure Node.Match (R : Ref → Ref → Prop) (m n : Node) : Prop where
  id : m.id = n.id
  kind : m.kind = n.kind
  element : Option.Rel R m.element n.element
  key : Option.Rel R m.key n.key
  underlying : Option.Rel R m.underlying n.underlying
  tuple : List.Forall₂ R m.tuple n.tuple
  origin : m.origin = n.origin
  typeArgs : List.Forall₂ R m.typeArgs n.typeArgs
  convertsTo : ∀ id, m.convertsTo id = n.convertsTo id
  equatableTo : ∀ id, m.equatableTo id = n.equatableTo id
  hasAncestor : ∀ id, m.hasAncestor id = n.hasAncestor id

/-- Related descriptors of two graphs match. -/
def Similarity (g h : Graph) (R : Ref → Ref → Prop) : Prop :=
  ∀ x y, R x y → (g.node x).Match R (h.node y)

/-- Two resolutions agree, up to related parts. -/
inductive Resolution.Match (R : Ref → Ref → Prop) : Resolution → Resolution → Prop
  | settled (v : Verdict) : Resolution.Match R (.settled v) (.settled v)
  | parts {ps qs : List (Option Ref × Option Ref)}
      (h : List.Forall₂ (fun p q => Option.Rel R p.1 q.1 ∧ Option.Rel R p.2 q.2) ps qs) :
      Resolution.Match R (.parts ps) (.parts qs)

theorem none_or_some_of_rel {α β : Type} {R : α → β → Prop} {a : Option α} {b : Option β}
    (h : Option.Rel R a b) :
    (a = none ∧ b = none) ∨ ∃ x y, a = some x ∧ b = some y ∧ R x y := by
  cases h with
  | none => exact Or.inl ⟨rfl, rfl⟩
  | some hxy => exact Or.inr ⟨_, _, rfl, rfl, hxy⟩

theorem exists_mem_of_forall₂ {α β : Type} {R : α → β → Prop} {xs : List α} {ys : List β}
    (h : List.Forall₂ R xs ys) {x : α} (hx : x ∈ xs) : ∃ y ∈ ys, R x y := by
  induction h with
  | nil => cases hx
  | cons hab _ ih =>
    rcases List.mem_cons.mp hx with rfl | hx
    · exact ⟨_, List.mem_cons_self, hab⟩
    · obtain ⟨y, hy, hxy⟩ := ih hx
      exact ⟨y, List.mem_cons_of_mem _ hy, hxy⟩

theorem forall₂_imp_of_mem {α β : Type} {R S : α → β → Prop} {xs : List α} {ys : List β}
    (h : List.Forall₂ R xs ys) (hRS : ∀ x ∈ xs, ∀ y ∈ ys, R x y → S x y) :
    List.Forall₂ S xs ys := by
  induction h with
  | nil => exact .nil
  | cons hab _ ih =>
    exact .cons (hRS _ List.mem_cons_self _ List.mem_cons_self hab)
      (ih fun x hx y hy => hRS x (List.mem_cons_of_mem _ hx) y (List.mem_cons_of_mem _ hy))

theorem rel_imp_of_mem {α β : Type} {R S : α → β → Prop} {a : Option α} {b : Option β}
    (h : Option.Rel R a b) (hRS : ∀ x, a = some x → ∀ y, b = some y → R x y → S x y) :
    Option.Rel S a b := by
  cases h with
  | none => exact .none
  | some hxy => exact .some (hRS _ rfl _ rfl hxy)

theorem rel_self (o : Option Ref) : Option.Rel (· = ·) o o := by
  cases o with
  | none => exact .none
  | some x => exact .some rfl

theorem Node.match_self (n : Node) : n.Match (· = ·) n where
  id := rfl
  kind := rfl
  element := rel_self n.element
  key := rel_self n.key
  underlying := rel_self n.underlying
  tuple := List.forall₂_refl n.tuple
  origin := rfl
  typeArgs := List.forall₂_refl n.typeArgs
  convertsTo _ := rfl
  equatableTo _ := rfl
  hasAncestor _ := rfl

namespace Node.Match

variable {R S : Ref → Ref → Prop} {m n : Node}

theorem imp_of_mem (h : m.Match R n)
    (hRS : ∀ x ∈ m.children, ∀ y ∈ n.children, R x y → S x y) : m.Match S n where
  id := h.id
  kind := h.kind
  element := rel_imp_of_mem h.element fun x hx y hy =>
    hRS x (by simp [children, hx]) y (by simp [children, hy])
  key := rel_imp_of_mem h.key fun x hx y hy =>
    hRS x (by simp [children, hx]) y (by simp [children, hy])
  underlying := rel_imp_of_mem h.underlying fun x hx y hy =>
    hRS x (by simp [children, hx]) y (by simp [children, hy])
  tuple := forall₂_imp_of_mem h.tuple fun x hx y hy =>
    hRS x (by simp [children, hx]) y (by simp [children, hy])
  origin := h.origin
  typeArgs := forall₂_imp_of_mem h.typeArgs fun x hx y hy =>
    hRS x (by simp [children, hx]) y (by simp [children, hy])
  convertsTo := h.convertsTo
  equatableTo := h.equatableTo
  hasAncestor := h.hasAncestor

theorem enumerable (h : m.Match R n) : m.enumerable = n.enumerable := by
  unfold Node.enumerable
  rcases none_or_some_of_rel h.element with ⟨hm, hn⟩ | ⟨x, y, hm, hn, -⟩
  · rw [h.kind, hm, hn]
  · rw [h.kind, hm, hn]
    rfl

theorem nonGeneric (h : m.Match R n) : m.nonGeneric = n.nonGeneric := by
  unfold Node.nonGeneric
  rcases none_or_some_of_rel h.element with ⟨hm, hn⟩ | ⟨x, y, hm, hn, -⟩
  · rw [h.enumerable, hm, hn]
  · rw [h.enumerable, hm, hn]
    rfl

end Node.Match

namespace Similarity

variable {g h : Graph} {R : Ref → Ref → Prop}

theorem matched {xs ys xs' ys' : List Ref} (hx : List.Forall₂ R xs xs')
    (hy : List.Forall₂ R ys ys') :
    Resolution.Match R (Rule.matched xs ys) (Rule.matched xs' ys') := by
  refine .parts ?_
  induction hx generalizing ys ys' with
  | nil => exact .nil
  | cons hab _ ih =>
    cases hy with
    | nil => exact .nil
    | cons hcd hys => exact .cons ⟨.some hab, .some hcd⟩ (ih hys)

variable {x y x' y' : Ref}

theorem compareElements (hR : Similarity g h R) {m n m' n' : Node} (hm : m.Match R m')
    (hn : n.Match R n') :
    Option.Rel (Resolution.Match R) (Rule.compareElements g m n)
      (Rule.compareElements h m' n') := by
  have helem : Resolution.Match R (.parts [(m.element, n.element)])
      (.parts [(m'.element, n'.element)]) := .parts (.cons ⟨hm.element, hn.element⟩ .nil)
  unfold Rule.compareElements
  rcases none_or_some_of_rel hm.key with ⟨hk, hk'⟩ | ⟨k, k', hk, hk', hkR⟩ <;>
    rcases none_or_some_of_rel hn.key with ⟨hl, hl'⟩ | ⟨l, l', hl, hl', hlR⟩ <;>
    simp only [hk, hk', hl, hl']
  · exact .some helem
  · exact .none
  · exact .none
  · unfold Rule.sameKey
    simp only [(hR _ _ hkR).id, (hR _ _ hkR).kind, (hR _ _ hlR).id, (hR _ _ hlR).kind]
    split_ifs
    · exact .some helem
    · exact .some (.settled _)

/-- **A rule makes the same of related pairs.** -/
theorem resolve (hR : Similarity g h R) (hx : R x x') (hy : R y y') (rule : Rule) :
    Option.Rel (Resolution.Match R) (rule.resolve g x y) (rule.resolve h x' y') := by
  have hm := hR x x' hx
  have hn := hR y y' hy
  have settle : ∀ (c : Prop) [Decidable c] (v : Verdict), Option.Rel (Resolution.Match R)
      (if c then some (.settled v) else none) (if c then some (.settled v) else none) := by
    intro c _ v
    split_ifs
    · exact .some (.settled v)
    · exact .none
  cases rule with
  | unknown =>
    simp only [Rule.resolve, hm.kind, hn.kind]
    exact settle _ _
  | identity =>
    simp only [Rule.resolve, hm.id, hn.id]
    exact settle _ _
  | nullable =>
    simp only [Rule.resolve, hm.kind, hn.kind]
    split_ifs
    · exact .some (.parts (.cons ⟨hm.underlying, .some hy⟩ .nil))
    · exact .some (.parts (.cons ⟨.some hx, hn.underlying⟩ .nil))
    · exact .none
  | enumeration =>
    simp only [Rule.resolve, hm.kind, hn.kind, hm.id, hn.id]
    split_ifs
    · exact .none
    · exact .none
    · exact .some (.settled _)
    · exact .some (.settled _)
  | numeric =>
    simp only [Rule.resolve, hm.kind, hn.kind]
    exact settle _ _
  | collection =>
    simp only [Rule.resolve, hm.enumerable, hn.enumerable, hm.nonGeneric, hn.nonGeneric]
    split_ifs
    · exact .none
    · exact .some (.settled _)
    · exact hR.compareElements hm hn
  | tuple =>
    simp only [Rule.resolve, hm.kind, hn.kind, hm.tuple.length_eq, hn.tuple.length_eq]
    split_ifs
    · exact .none
    · exact .some (.settled _)
    · exact .some (matched hm.tuple hn.tuple)
  | generic =>
    simp only [Rule.resolve, hm.origin, hn.origin, hm.typeArgs.length_eq, hn.typeArgs.length_eq]
    split_ifs
    · exact .none
    · exact .none
    · exact .some (matched hm.typeArgs hn.typeArgs)
  | inheritance =>
    simp only [Rule.resolve, hm.hasAncestor, hn.hasAncestor, hm.id, hn.id]
    exact settle _ _
  | interface =>
    simp only [Rule.resolve, hm.kind, hn.kind]
    exact settle _ _
  | conversion =>
    simp only [Rule.resolve, hm.convertsTo, hm.equatableTo, hn.id]
    exact settle _ _

/-- **A list of rules makes the same of related pairs**, by the same rule. -/
theorem firstResolution (hR : Similarity g h R) (hx : R x x') (hy : R y y') (rules : List Rule) :
    Option.Rel (fun a b => a.1 = b.1 ∧ Resolution.Match R a.2 b.2)
      (firstResolution g rules x y) (firstResolution h rules x' y') := by
  unfold EverEqual.firstResolution
  induction rules with
  | nil => exact .none
  | cons rule rules ih =>
    rw [List.findSome?_cons, List.findSome?_cons]
    rcases none_or_some_of_rel (hR.resolve hx hy rule) with ⟨ha, hb⟩ | ⟨a, b, ha, hb, hab⟩
    · rw [ha, hb]
      exact ih
    · rw [ha, hb]
      exact .some ⟨rfl, hab⟩

theorem pair_eq (hR : Similarity g h R) (hx : R x x') (hy : R y y') :
    g.pair x y = h.pair x' y' := by
  unfold Graph.pair
  rw [(hR x x' hx).id, (hR y y' hy).id]

theorem firstResolution_eq_none (hR : Similarity g h R) (hx : R x x') (hy : R y y')
    {rules : List Rule} (hres : EverEqual.firstResolution g rules x y = none) :
    EverEqual.firstResolution h rules x' y' = none := by
  have hrel := hR.firstResolution hx hy rules
  rw [hres] at hrel
  generalize EverEqual.firstResolution h rules x' y' = o at hrel
  cases hrel
  rfl

theorem firstResolution_settled (hR : Similarity g h R) (hx : R x x') (hy : R y y')
    {rules : List Rule} {rule : Rule} {v : Verdict}
    (hres : EverEqual.firstResolution g rules x y = some (rule, .settled v)) :
    EverEqual.firstResolution h rules x' y' = some (rule, .settled v) := by
  have hrel := hR.firstResolution hx hy rules
  rw [hres] at hrel
  rcases none_or_some_of_rel hrel with ⟨ha, -⟩ | ⟨a, ⟨rule', res⟩, ha, hb, hrule, hmatch⟩
  · cases ha
  · cases ha
    cases hmatch
    obtain rfl : rule = rule' := hrule
    exact hb

theorem firstResolution_parts (hR : Similarity g h R) (hx : R x x') (hy : R y y')
    {rules : List Rule} {rule : Rule} {ps : List (Option Ref × Option Ref)}
    (hres : EverEqual.firstResolution g rules x y = some (rule, .parts ps)) :
    ∃ qs, EverEqual.firstResolution h rules x' y' = some (rule, .parts qs) ∧
      List.Forall₂ (fun p q => Option.Rel R p.1 q.1 ∧ Option.Rel R p.2 q.2) ps qs := by
  have hrel := hR.firstResolution hx hy rules
  rw [hres] at hrel
  rcases none_or_some_of_rel hrel with ⟨ha, -⟩ | ⟨a, ⟨rule', res⟩, ha, hb, hrule, hmatch⟩
  · cases ha
  · cases ha
    cases hmatch with
    | parts hps =>
      obtain rfl : rule = rule' := hrule
      exact ⟨_, hb, hps⟩

theorem exists_part {ps qs : List (Option Ref × Option Ref)}
    (hps : List.Forall₂ (fun p q => Option.Rel R p.1 q.1 ∧ Option.Rel R p.2 q.2) ps qs)
    {a b : Ref} (hab : (some a, some b) ∈ ps) :
    ∃ a' b', (some a', some b') ∈ qs ∧ R a a' ∧ R b b' := by
  obtain ⟨⟨c, d⟩, hmem, hac, hbd⟩ := exists_mem_of_forall₂ hps hab
  cases hac with
  | some hac => cases hbd with
    | some hbd => exact ⟨_, _, hmem, hac, hbd⟩

theorem exists_part_left {ps qs : List (Option Ref × Option Ref)}
    (hps : List.Forall₂ (fun p q => Option.Rel R p.1 q.1 ∧ Option.Rel R p.2 q.2) ps qs)
    {a' b' : Ref} (hab : (some a', some b') ∈ qs) :
    ∃ a b, (some a, some b) ∈ ps ∧ R a a' ∧ R b b' := by
  obtain ⟨⟨c, d⟩, hmem, hca, hdb⟩ := exists_mem_of_forall₂ hps.flip hab
  cases hca with
  | some hca => cases hdb with
    | some hdb => exact ⟨_, _, hmem, hca, hdb⟩

/-- **Related pairs have the same verdict**, inside the same pairs. -/
theorem judged (hR : Similarity g h R) (hx : R x x') (hy : R y y') {rules : List Rule}
    {stack : List IdentityPair} {v : Verdict} (hj : Judged g rules stack x y v) :
    Judged h rules stack x' y' v := by
  induction hj generalizing x' y' with
  | again hmem => exact .again (hR.pair_eq hx hy ▸ hmem)
  | unresolved hnew hres =>
    exact .unresolved (hR.pair_eq hx hy ▸ hnew) (hR.firstResolution_eq_none hx hy hres)
  | settled hnew hres =>
    exact .settled (hR.pair_eq hx hy ▸ hnew) (hR.firstResolution_settled hx hy hres)
  | incompatible hnew hres hp _ ih =>
    obtain ⟨qs, hres', hps⟩ := hR.firstResolution_parts hx hy hres
    obtain ⟨a', b', hq, ha, hb⟩ := exists_part hps hp
    have hab := ih ha hb
    rw [hR.pair_eq hx hy] at hnew hab
    exact .incompatible hnew hres' hq hab
  | @assumed stack _ _ _ _ _ _ hnew hres u _ hne hp _ ihu ih =>
    obtain ⟨qs, hres', hps⟩ := hR.firstResolution_parts hx hy hres
    obtain ⟨a', b', hq, ha, hb⟩ := exists_part hps hp
    have hab := ih ha hb
    have hall : ∀ c' d', (some c', some d') ∈ qs →
        ∃ v, Judged h rules (h.pair x' y' :: stack) c' d' v ∧ v ≠ .incompatible := by
      intro c' d' hcd'
      obtain ⟨c, d, hcd, hc, hd⟩ := exists_part_left hps hcd'
      have hju := ihu c d hcd hc hd
      rw [hR.pair_eq hx hy] at hju
      exact ⟨u c d, hju, hne c d hcd⟩
    choose! u' hu' using hall
    rw [hR.pair_eq hx hy] at hnew hab
    exact .assumed hnew hres' u' (fun c d hcd => (hu' c d hcd).1)
      (fun c d hcd => (hu' c d hcd).2) hq hab
  | compatible hnew hres _ ih =>
    obtain ⟨qs, hres', hps⟩ := hR.firstResolution_parts hx hy hres
    refine .compatible (hR.pair_eq hx hy ▸ hnew) hres' fun a' b' hq => ?_
    obtain ⟨a, b, hp, ha, hb⟩ := exists_part_left hps hq
    have hab := ih a b hp ha hb
    rw [hR.pair_eq hx hy] at hab
    exact hab

end Similarity

/-- The verdict on descriptors that no rule can tell apart. -/
theorem verdict_eq_of_similarity {g g' : Graph} {R : Ref → Ref → Prop} {x y x' y' : Ref}
    {rules : List Rule} {v v' : Verdict} (hR : Similarity g g' R) (hx : R x x') (hy : R y y')
    (hv : verdict g rules (some x) (some y) = .ok v)
    (hv' : verdict g' rules (some x') (some y') = .ok v') : v = v' :=
  (hR.judged hx hy (judged_of_verdict hv)).unique (judged_of_verdict hv')

end EverEqual
