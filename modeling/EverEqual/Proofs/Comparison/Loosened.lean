import EverEqual.Proofs.Comparison.Unwrapped

/-!
# Less resolved, more declared

A graph of descriptors is loosened if some types are no longer resolved, or declare further
conversions, typed equalities or ancestors. Then the walk can leave a pair early, take another rule
for it, or go on where keys used to differ, but no verdict gets worse: what the rules made of a pair
before is what they make of it now, unless the pair is compatible now or was rejected before. The
identities stay, so the guard cuts both walks at the same pairs, and descriptors of one identity
need not agree.

* `Edit`, `Graph.edited`: single changes, and a graph after a list of them;
* `Node.Loosened`, `Graph.Loosened`: the relation that they all keep;
* `Graph.Loosened.decision`: what the default rules make of a pair in both graphs;
* `Judged.code_le_of_loosened`: no verdict gets worse, inside whatever pairs;
* `verdict_edited`: the verdicts and answers on two operands.
-/

namespace EverEqual

/-- A change of one descriptor. -/
inductive Edit
  /-- The type is no longer resolved. -/
  | unresolve
  /-- A conversion is declared toward an identity. -/
  | conversion (target : Identity) (kind : ConversionKind)
  /-- A typed equality is declared toward an identity. -/
  | equatable (target : Identity)
  /-- The type derives from or implements one of a given identity. -/
  | ancestor (id : Identity)
deriving DecidableEq, Repr

/-- A descriptor after a change; all that the change is not about stays. -/
def Node.edited (n : Node) : Edit → Node
  | .unresolve => { n with kind := .unknown }
  | .conversion target kind => { n with conversions := n.conversions.insert target kind }
  | .equatable target => { n with equatable := n.equatable.insert target }
  | .ancestor id => { n with ancestors := n.ancestors.insert id }

/-- A graph after a list of changes, each of one of its descriptors. -/
def Graph.edited (g : Graph) (edits : List (Ref × Edit)) : Graph :=
  edits.foldl (fun g e => g.put e.1 ((g.node e.1).edited e.2)) g

/-- The descriptor `n` is `m`, perhaps no longer resolved and with more capabilities. -/
structure Node.Loosened (m n : Node) : Prop where
  id : n.id = m.id
  kind : n.kind = m.kind ∨ n.kind = .unknown
  element : n.element = m.element
  key : n.key = m.key
  underlying : n.underlying = m.underlying
  tuple : n.tuple = m.tuple
  origin : n.origin = m.origin
  typeArgs : n.typeArgs = m.typeArgs
  completed : n.completed = m.completed
  convertsTo : ∀ id, (m.convertsTo id).isSome = true → (n.convertsTo id).isSome = true
  equatableTo : ∀ id, m.equatableTo id = true → n.equatableTo id = true
  hasAncestor : ∀ id, m.hasAncestor id = true → n.hasAncestor id = true

namespace Node.Loosened

variable {m n k : Node}

theorem refl (n : Node) : n.Loosened n :=
  ⟨rfl, Or.inl rfl, rfl, rfl, rfl, rfl, rfl, rfl, rfl, fun _ h => h,
    fun _ h => h, fun _ h => h⟩

theorem trans (hmn : m.Loosened n) (hnk : n.Loosened k) : m.Loosened k where
  id := hnk.id.trans hmn.id
  kind := hnk.kind.elim (fun h => hmn.kind.imp h.trans h.trans) Or.inr
  element := hnk.element.trans hmn.element
  key := hnk.key.trans hmn.key
  underlying := hnk.underlying.trans hmn.underlying
  tuple := hnk.tuple.trans hmn.tuple
  origin := hnk.origin.trans hmn.origin
  typeArgs := hnk.typeArgs.trans hmn.typeArgs
  completed := hnk.completed.trans hmn.completed
  convertsTo id h := hnk.convertsTo id (hmn.convertsTo id h)
  equatableTo id h := hnk.equatableTo id (hmn.equatableTo id h)
  hasAncestor id h := hnk.hasAncestor id (hmn.hasAncestor id h)

theorem edited (n : Node) (e : Edit) : n.Loosened (n.edited e) := by
  cases e with
  | unresolve => exact { refl n with kind := Or.inr rfl }
  | conversion target kind =>
    refine { refl n with convertsTo := fun id h => ?_ }
    change (IdentityMap.find? (n.conversions.insert target kind) id).isSome = true
    rw [IdentityMap.find?_insert]
    split_ifs
    · rfl
    · exact h
  | equatable target =>
    refine { refl n with equatableTo := fun id h => ?_ }
    simp only [Node.equatableTo, List.contains_iff_mem] at h ⊢
    exact IdentitySet.mem_insert.mpr (Or.inr h)
  | ancestor a =>
    refine { refl n with hasAncestor := fun id h => ?_ }
    simp only [Node.hasAncestor, List.contains_iff_mem] at h ⊢
    exact IdentitySet.mem_insert.mpr (Or.inr h)

theorem children (h : m.Loosened n) : n.children = m.children := by
  unfold Node.children
  rw [h.element, h.key, h.underlying, h.tuple, h.typeArgs]

theorem finished (h : m.Loosened n) (hm : m.Finished) : n.Finished := by
  refine ⟨h.completed.trans hm.completed, unsound_eq_none_iff.mpr fun hnull => ?_⟩
  rw [h.underlying]
  rcases h.kind with hkind | hkind
  · exact unsound_eq_none_iff.mp hm.sound (hkind.symm.trans hnull)
  · rw [hkind] at hnull
    cases hnull

theorem face (h : m.Loosened n) (hres : n.kind ≠ .unknown) : n.face = m.face := by
  unfold Node.face
  rw [h.kind.resolve_right hres, h.id, h.element, h.key, h.tuple, h.origin, h.typeArgs]

end Node.Loosened

namespace Graph

/-- All descriptors of the graph `h` are those of `g`, perhaps loosened. -/
def Loosened (g h : Graph) : Prop := ∀ r, (g.node r).Loosened (h.node r)

theorem loosened_put {g : Graph} {r : Ref} {n : Node} (hn : (g.node r).Loosened n) :
    g.Loosened (g.put r n) := by
  intro s
  rw [node_put]
  split_ifs with hs
  · exact hs.1 ▸ hn
  · exact .refl _

theorem loosened_edited (g : Graph) (edits : List (Ref × Edit)) : g.Loosened (g.edited edits) := by
  induction edits generalizing g with
  | nil => exact fun r => .refl _
  | cons e edits ih =>
    exact fun r => (loosened_put (.edited _ e.2) r).trans (ih _ r)

namespace Loosened

variable {g h : Graph} {x y : Ref}

theorem reach (hgh : g.Loosened h) (hxy : h.Reach x y) : g.Reach x y := by
  induction hxy with
  | refl => exact .refl
  | tail _ hchild ih =>
    unfold Child at hchild
    rw [(hgh _).children] at hchild
    exact ih.tail hchild

theorem finishedFrom (hgh : g.Loosened h) (hx : g.FinishedFrom x) : h.FinishedFrom x :=
  fun y hy => (hgh y).finished (hx y (hgh.reach hy))

theorem pair_eq (hgh : g.Loosened h) (x y : Ref) : h.pair x y = g.pair x y := by
  unfold pair
  rw [(hgh x).id, (hgh y).id]

theorem sameKey (hgh : g.Loosened h) (hkey : Rule.sameKey (g.node x) (g.node y) = true) :
    Rule.sameKey (h.node x) (h.node y) = true := by
  simp only [Rule.sameKey, Bool.or_eq_true, decide_eq_true_iff, (hgh x).id, (hgh y).id] at hkey ⊢
  have hunk : ∀ {z}, (g.node z).kind = .unknown → (h.node z).kind = .unknown := fun hz =>
    (hgh _).kind.elim (·.trans hz) id
  exact hkey.imp (Or.imp_right hunk) hunk

theorem related (hgh : g.Loosened h) (hx : (h.node x).kind ≠ .unknown)
    (hy : (h.node y).kind ≠ .unknown) (hxy : g.Related x y) : h.Related x y := by
  unfold Related at hxy ⊢
  rw [(hgh x).id, (hgh y).id, (hgh x).kind.resolve_right hx, (hgh y).kind.resolve_right hy]
  exact hxy.imp ((hgh x).hasAncestor _) <| Or.imp ((hgh y).hasAncestor _) <|
    Or.imp_right <| Or.imp ((hgh x).convertsTo _) ((hgh x).equatableTo _)

/-- **What the default rules make of a pair** after its descriptors have been loosened: they settle
it as compatible, or they make of it what they did before, or they rejected it before. -/
theorem decision (hgh : g.Loosened h) (x y : Ref) :
    h.decision x y (h.stage x y) = some (.settled .compatible) ∨
      h.decision x y (h.stage x y) = g.decision x y (g.stage x y) ∨
      g.Rejected Rule.defaults (x, y) := by
  by_cases hunk : (h.node x).kind = .unknown ∨ (h.node y).kind = .unknown
  · have hstage : h.stage x y = .unknown := Face.stage_eq_unknown hunk
    rw [hstage]
    exact Or.inl rfl
  obtain ⟨hx, hy⟩ := not_or.mp hunk
  have hstage : h.stage x y = g.stage x y := by
    unfold stage
    rw [(hgh x).face hx, (hgh y).face hy]
  rw [hstage, rejected_iff]
  cases hst : g.stage x y with
  | keyed =>
    -- keys that differed may count as the same now
    obtain ⟨hk, hl⟩ := Face.hasKey_of_stage hst
    obtain ⟨k, hk⟩ := Option.isSome_iff_exists.mp hk
    obtain ⟨l, hl⟩ := Option.isSome_iff_exists.mp hl
    rw [Graph.decision, Graph.decision, compareElements_of_key hk hl,
      compareElements_of_key ((hgh x).key.trans hk) ((hgh y).key.trans hl), (hgh x).element,
      (hgh y).element]
    cases hsame : Rule.sameKey (g.node k) (g.node l) with
    | true => exact Or.inr (Or.inl (by rw [hgh.sameKey hsame]))
    | false => exact Or.inr (Or.inr (Or.inr rfl))
  | rest =>
    by_cases hrel : g.Related x y
    · left
      rw [Graph.decision, if_pos (hgh.related hx hy hrel)]
    · right; right; left
      rw [Graph.decision, if_neg hrel]
  | left | right | elements | tuple | generic =>
    simp only [Graph.decision, (hgh x).underlying, (hgh y).underlying, (hgh x).element,
      (hgh y).element, (hgh x).tuple, (hgh y).tuple, (hgh x).typeArgs, (hgh y).typeArgs, true_or,
      or_true]
  | _ => exact Or.inr (Or.inl rfl)

/-- A pair that the rules did not reject is compatible now, or is resolved as before. -/
theorem firstResolution (hgh : g.Loosened h) {rule : Rule} {res : Resolution}
    (hres : EverEqual.firstResolution g Rule.defaults x y = some (rule, res))
    (hkept : res ≠ .settled .incompatible) :
    (∃ rule', EverEqual.firstResolution h Rule.defaults x y =
        some (rule', .settled .compatible)) ∨
      ∃ rule', EverEqual.firstResolution h Rule.defaults x y = some (rule', res) := by
  have hdec : g.decision x y (g.stage x y) = some res :=
    map_firstResolution.symm.trans (firstResolution_eq_some.mp ⟨rule, hres⟩)
  rcases hgh.decision x y with hset | hsame | hrej
  · exact Or.inl (firstResolution_eq_some.mpr (map_firstResolution.trans hset))
  · rw [hdec] at hsame
    exact Or.inr (firstResolution_eq_some.mpr (map_firstResolution.trans hsame))
  · rw [rejected_iff, hdec] at hrej
    rcases hrej with hnone | hinc
    · cases hnone
    · exact absurd (Option.some.inj hinc) hkept

end Loosened

end Graph

theorem Verdict.code_incompatible_le (v : Verdict) : incompatible.code ≤ v.code := by
  cases v <;> decide

theorem Verdict.eq_compatible_of_code_le {v : Verdict} (h : compatible.code ≤ v.code) :
    v = compatible := by
  cases v with
  | compatible => rfl
  | _ => exact absurd h (by decide)

namespace Judged

variable {g h : Graph} {stack : List IdentityPair} {x y : Ref} {u v : Verdict}

/-- The verdict on a pair that is resolved by its parts shows in one of them, unless all are
compatible. -/
theorem of_parts {rules : List Rule} {rule : Rule} {ps : List (Option Ref × Option Ref)}
    (hj : Judged h rules stack x y u) (hnew : h.pair x y ∉ stack)
    (hres : firstResolution h rules x y = some (rule, .parts ps)) :
    u = .compatible ∨
      ∃ a b, (some a, some b) ∈ ps ∧ Judged h rules (h.pair x y :: stack) a b u := by
  cases hj with
  | again hmem => exact absurd hmem hnew
  | unresolved _ hres' | settled _ hres' => simp [hres] at hres'
  | incompatible _ hres' hp hab =>
    obtain ⟨-, rfl⟩ : _ ∧ ps = _ := by simpa [hres] using hres'
    exact Or.inr ⟨_, _, hp, hab⟩
  | assumed _ hres' _ _ _ hp hab =>
    obtain ⟨-, rfl⟩ : _ ∧ ps = _ := by simpa [hres] using hres'
    exact Or.inr ⟨_, _, hp, hab⟩
  | compatible _ _ _ => exact Or.inl rfl

/-- **No verdict gets worse** when a graph is loosened, inside whatever pairs. The induction is on
the verdict before. -/
theorem code_le_of_loosened (hgh : g.Loosened h) (hv : Judged g Rule.defaults stack x y v)
    (hu : Judged h Rule.defaults stack x y u) : v.code ≤ u.code := by
  induction hv generalizing u with
  | @again stack x y hmem =>
    rw [← hgh.pair_eq] at hmem
    rw [hu.unique (.again hmem)]
  | unresolved _ _ | incompatible _ _ _ _ _ => exact u.code_incompatible_le
  | @settled stack x y rule v hnew hres =>
    rw [← hgh.pair_eq] at hnew
    cases v with
    | incompatible => exact u.code_incompatible_le
    | assumed => exact absurd (resolve_of_firstResolution hres) resolve_ne_assumed
    | compatible =>
      rcases hgh.firstResolution hres (by simp) with ⟨rule', hres'⟩ | ⟨rule', hres'⟩ <;>
        rw [hu.unique (.settled hnew hres')]
  | @assumed stack x y a b rule ps hnew hres w hw hne _ _ ih _ =>
    rw [← hgh.pair_eq] at hnew ih
    rcases hgh.firstResolution hres (by simp) with ⟨rule', hres'⟩ | ⟨rule', hres'⟩
    · rw [hu.unique (.settled hnew hres')]
      decide
    · rcases hu.of_parts hnew hres' with rfl | ⟨c, d, hcd, hj⟩
      · decide
      · have hle := ih c d hcd hj
        have hkept := hne c d hcd
        cases hwcd : w c d <;> cases u <;> simp_all [Verdict.code]
  | @compatible stack x y rule ps hnew hres _ ih =>
    rw [← hgh.pair_eq] at hnew ih
    rcases hgh.firstResolution hres (by simp) with ⟨rule', hres'⟩ | ⟨rule', hres'⟩
    · rw [hu.unique (.settled hnew hres')]
    · rcases hu.of_parts hnew hres' with rfl | ⟨c, d, hcd, hj⟩
      · exact le_rfl
      · exact ih c d hcd hj

end Judged

/-- **Less resolved and more declared types stay equal.** If all that can be reached from two
descriptors is finished, then after any changes by which descriptors are no longer resolved or
declare further conversions, typed equalities and ancestors, the two still have a verdict, and it is
no worse than before. In particular, an answer that was true stays true. Descriptors of one identity
need not agree, neither before nor after. -/
theorem verdict_edited {g : Graph} {l r : Ref} (edits : List (Ref × Edit)) (hl : g.FinishedFrom l)
    (hr : g.FinishedFrom r) :
    (∃ v u, verdict g Rule.defaults (some l) (some r) = .ok v ∧
      verdict (g.edited edits) Rule.defaults (some l) (some r) = .ok u ∧ v.code ≤ u.code) ∧
    (canBeEqual g Rule.defaults (some l) (some r) = .ok true →
      canBeEqual (g.edited edits) Rule.defaults (some l) (some r) = .ok true) := by
  have hgh := g.loosened_edited edits
  obtain ⟨v, hv⟩ := exists_verdict Rule.defaults hl hr
  obtain ⟨u, hu⟩ := exists_verdict Rule.defaults (hgh.finishedFrom hl) (hgh.finishedFrom hr)
  have hle : v.code ≤ u.code := (judged_of_verdict hv).code_le_of_loosened hgh (judged_of_verdict hu)
  refine ⟨⟨v, u, hv, hu, hle⟩, fun h => ?_⟩
  rw [canBeEqual_of_verdict hv, Except.ok.injEq, decide_eq_true_iff] at h
  subst h
  rw [canBeEqual_of_verdict hu, Verdict.eq_compatible_of_code_le hle]
  rfl

/-- Two maps with keys of one identity that do not agree, from arrays of a type to arrays of an
interface that the type implements; the first key refers to its map. -/
def Graph.twoMaps : Graph :=
  ⟨#[{ kind := .collection, id := "map[K][]T", key := some 1, element := some 2,
        completed := true },
     { kind := .userDefined, id := "K", element := some 0, completed := true },
     { kind := .array, id := "[]T", element := some 3, completed := true },
     { kind := .userDefined, id := "T", ancestors := ["I"], completed := true },
     { kind := .collection, id := "map[K][]I", key := some 5, element := some 6,
        completed := true },
     { kind := .enumeration, id := "K", completed := true },
     { kind := .array, id := "[]I", element := some 7, completed := true },
     { kind := .interface, id := "I", completed := true }]⟩

/-- The maps with an unresolved key, an unresolved interface and further capabilities of the
others. -/
def Graph.looserMaps : Graph :=
  twoMaps.edited [(5, .unresolve), (7, .unresolve), (2, .ancestor "map[K][]I"),
    (3, .conversion "K" .explicit), (0, .equatable "I")]

theorem verdict_edited_maps :
    (Graph.twoMaps.FinishedFrom 0 ∧ Graph.twoMaps.FinishedFrom 4) ∧
      canBeEqual Graph.twoMaps Rule.defaults (some 0) (some 4) = .ok true ∧
      (Graph.looserMaps.node 7).kind = .unknown ∧
      canBeEqual Graph.looserMaps Rule.defaults (some 0) (some 4) = .ok true := by
  have h₀ : Graph.twoMaps.FinishedFrom 0 :=
    Graph.finishedFrom_of_closed [0, 1, 2, 3] (by decide) (by decide) (by decide)
  have h₄ : Graph.twoMaps.FinishedFrom 4 :=
    Graph.finishedFrom_of_closed [4, 5, 6, 7] (by decide) (by decide) (by decide)
  have hbefore : canBeEqual Graph.twoMaps Rule.defaults (some 0) (some 4) = .ok true := by decide
  exact ⟨⟨h₀, h₄⟩, hbefore, by decide, (verdict_edited _ h₀ h₄).2 hbefore⟩

end EverEqual
