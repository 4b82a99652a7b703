import EverEqual.Proofs.Check.Operands
import EverEqual.Proofs.Comparison.Decision

/-!
# What a check accepts

The decision order can be read off the types of the operands, without drawing descriptors and
without a walk. A type accepts another one if a finite derivation by that order shows it. This is
what a check answers, for any two types that are described in order: the memo, the guard and the
early ends of the walk leave no trace.

* `World.Accepts`: the derivations, one constructor for every stage that can end well;
* `Draft.mem_allowed_iff_accepts`: the rules allow descriptors exactly if their types accept
  each other;
* `exists_check_of_describe`: a check of described operands finds what the rules allow;
* `check_iff_allowed`, `check_iff_accepts`: the finding on two types.
-/

namespace EverEqual

/-- The outside of a portrait. -/
def Portrait.face {α : Type} (P : Portrait α) : Face where
  kind := P.kind
  id := P.id
  hasElement := P.element.isSome
  hasKey := P.key.isSome
  components := P.tuple.length
  origin := P.origin
  arguments := P.typeArgs.length

namespace World

variable (w : World) (interfaces : List Ty) (roots : Set Ty)

/-- The stage at which two types are decided. -/
def stage (t u : Ty) : Stage :=
  (w.portrait interfaces t).face.stage (w.portrait interfaces u).face

/-- Two key types count as the same: an unresolved key could be any. -/
def SameKey (k l : Ty) : Prop :=
  (w.plan k).id = (w.plan l).id ∨ (w.plan k).kind = .unknown ∨ (w.plan l).kind = .unknown

/-- What is left to decide on two types at the end of the order: one has the other as an ancestor,
both are interfaces, or the left one declares something toward the right one. -/
def Related (t u : Ty) : Prop :=
  w.Ancestor interfaces roots (w.entry t) (w.plan u).id ∨
    w.Ancestor interfaces roots (w.entry u) (w.plan t).id ∨
    ((w.plan t).kind = .interface ∧ (w.plan u).kind = .interface) ∨
    (w.plan u).id ∈ (w.portrait interfaces t).conversions ∨
    (w.plan u).id ∈ (w.portrait interfaces t).equatable

/-- **A value of the left type could equal one of the right type**, by the decision order. -/
inductive Accepts : Ty → Ty → Prop
  /-- A side is unresolved. -/
  | unknown {t u : Ty} (h : w.stage interfaces t u = .unknown) : Accepts t u
  /-- Both sides have one identity. -/
  | identity {t u : Ty} (h : w.stage interfaces t u = .identity) : Accepts t u
  /-- What the left side wraps accepts the right side. -/
  | left {t u a : Ty} (h : w.stage interfaces t u = .left)
      (ha : (w.portrait interfaces t).underlying = some a) (hau : Accepts a u) : Accepts t u
  /-- The left side, which wraps nothing, accepts what the right side wraps. -/
  | right {t u b : Ty} (h : w.stage interfaces t u = .right)
      (hb : (w.portrait interfaces u).underlying = some b) (htb : Accepts t b) : Accepts t u
  /-- Both sides are numeric. -/
  | numeric {t u : Ty} (h : w.stage interfaces t u = .numeric) : Accepts t u
  /-- The elements of one side could be anything. -/
  | anyElement {t u : Ty} (h : w.stage interfaces t u = .anyElement) : Accepts t u
  /-- The elements accept each other. -/
  | elements {t u a b : Ty} (h : w.stage interfaces t u = .elements)
      (ha : (w.portrait interfaces t).element = some a)
      (hb : (w.portrait interfaces u).element = some b) (hab : Accepts a b) : Accepts t u
  /-- The keys are the same and the elements accept each other. -/
  | keyed {t u k l a b : Ty} (h : w.stage interfaces t u = .keyed)
      (hk : (w.portrait interfaces t).key = some k) (hl : (w.portrait interfaces u).key = some l)
      (hkl : w.SameKey k l) (ha : (w.portrait interfaces t).element = some a)
      (hb : (w.portrait interfaces u).element = some b) (hab : Accepts a b) : Accepts t u
  /-- The components accept each other, one by one. -/
  | tuple {t u : Ty} (h : w.stage interfaces t u = .tuple)
      (hparts : ∀ q ∈ (w.portrait interfaces t).tuple.zip (w.portrait interfaces u).tuple,
        Accepts q.1 q.2) : Accepts t u
  /-- The arguments accept each other, one by one. -/
  | generic {t u : Ty} (h : w.stage interfaces t u = .generic)
      (hparts : ∀ q ∈ (w.portrait interfaces t).typeArgs.zip (w.portrait interfaces u).typeArgs,
        Accepts q.1 q.2) : Accepts t u
  /-- No part decides, but the types are related. -/
  | rest {t u : Ty} (h : w.stage interfaces t u = .rest)
      (hrel : w.Related interfaces roots t u) : Accepts t u

/-! ### Stages of types -/

variable {w interfaces roots} {t u a b : Ty}

theorem stage_of_unresolved (h : (w.plan t).kind = .unknown ∨ (w.plan u).kind = .unknown) :
    w.stage interfaces t u = .unknown := by
  simp [stage, Face.stage, Portrait.face, h]

theorem stage_of_text (hres : ¬ ((w.plan t).kind = .unknown ∨ (w.plan u).kind = .unknown))
    (h : (w.plan t).id = (w.plan u).id) : w.stage interfaces t u = .identity := by
  simp [stage, Face.stage, Portrait.face, h, hres]

theorem stage_left (hid : (w.plan t).id ≠ (w.plan u).id) (ht : (w.plan t).kind = .nullable)
    (hu : (w.plan u).kind ≠ .unknown) : w.stage interfaces t u = .left := by
  simp [stage, Face.stage, Portrait.face, hid, ht, hu]

theorem stage_right (hid : (w.plan t).id ≠ (w.plan u).id) (ht : (w.plan t).kind ≠ .nullable)
    (hres : (w.plan t).kind ≠ .unknown) (hu : (w.plan u).kind = .nullable) :
    w.stage interfaces t u = .right := by
  simp [stage, Face.stage, Portrait.face, hid, ht, hres, hu]

/-- Only types of different texts have to be looked into. -/
theorem accepts_of_differ
    (h : (w.plan t).id ≠ (w.plan u).id → w.Accepts interfaces roots t u) :
    w.Accepts interfaces roots t u := by
  by_cases hres : (w.plan t).kind = .unknown ∨ (w.plan u).kind = .unknown
  · exact .unknown (stage_of_unresolved hres)
  by_cases hid : (w.plan t).id = (w.plan u).id
  · exact .identity (stage_of_text hres hid)
  · exact h hid

theorem accepts_of_text (h : (w.plan t).id = (w.plan u).id) : w.Accepts interfaces roots t u :=
  accepts_of_differ fun hid => absurd h hid

theorem accepts_iff_of_left (hst : w.stage interfaces t u = .left)
    (ha : (w.portrait interfaces t).underlying = some a) :
    w.Accepts interfaces roots t u ↔ w.Accepts interfaces roots a u := by
  constructor
  · intro h
    cases h with
    | left _ ha' hau =>
      cases ha.symm.trans ha'
      exact hau
    | _ => simp_all
  · exact .left hst ha

end World

/-! ### Descriptors of types -/

theorem exists_zip_of_forall₂ {α β : Type} {R : α → β → Prop} {us vs : List α} {xs ys : List β}
    (hx : List.Forall₂ R us xs) (hy : List.Forall₂ R vs ys) {a b : α} (hab : (a, b) ∈ us.zip vs) :
    ∃ x y, (x, y) ∈ xs.zip ys ∧ R a x ∧ R b y := by
  induction hx generalizing vs ys with
  | nil => cases hab
  | cons hux _ ih => cases hy with
    | nil => cases hab
    | cons hvy hys =>
      rw [List.zip_cons_cons, List.mem_cons] at hab
      rcases hab with hab | hab
      · cases hab
        exact ⟨_, _, List.mem_cons_self, hux, hvy⟩
      · obtain ⟨x, y, hmem, hax, hby⟩ := ih hys hab
        exact ⟨x, y, List.mem_cons_of_mem _ hmem, hax, hby⟩

theorem mem_matched_iff {xs ys : List Ref} {q : Option Ref × Option Ref} :
    q ∈ (xs.map some).zip (ys.map some) ↔ ∃ a b, q = (some a, some b) ∧ (a, b) ∈ xs.zip ys := by
  rw [List.zip_map, List.mem_map]
  constructor
  · rintro ⟨⟨a, b⟩, hab, rfl⟩
    exact ⟨a, b, rfl, hab⟩
  · rintro ⟨a, b, rfl, hab⟩
    exact ⟨(a, b), hab, rfl⟩

theorem isSome_eq_of_rel {α β : Type} {R : α → β → Prop} {a : Option α} {b : Option β}
    (h : Option.Rel R a b) : a.isSome = b.isSome := by
  cases h <;> rfl

theorem Portrait.Depicts.face_eq {α : Type} {R : α → Ref → Prop} {P : Portrait α} {n : Node}
    (h : P.Depicts R n) : n.face = P.face := by
  unfold Node.face Portrait.face
  rw [h.kind, h.id, h.origin, isSome_eq_of_rel h.element, isSome_eq_of_rel h.key,
    h.tuple.length_eq, h.typeArgs.length_eq]

namespace Draft

variable {w : World} {interfaces : List Ty} {roots : Set Ty} {s : Draft} {t u k l : Ty}
variable {x y : Ref}

/-- The descriptor stands for a type that was come across. -/
def Denotes (w : World) (roots : Set Ty) (s : Draft) (t : Ty) (x : Ref) : Prop :=
  w.Met roots t ∧ s.Remembers (w.entry t) x

/-- The descriptor of a type depicts its portrait, with descriptors of the types that it names. -/
theorem Denotes.depicts (hx : Denotes w roots s t x) (hs : s.Faithful w interfaces roots []) :
    (w.portrait interfaces t).Depicts (Denotes w roots s) (s.graph.node x) :=
  (hs.drawn t x hx.1 hx.2 List.not_mem_nil).depicts.of_map.imp_of_parts
    fun _ hu _ hx' => ⟨.part hx.1 (World.mem_types_of_mem_parts hu), hx'⟩

theorem Denotes.id_eq (hx : Denotes w roots s t x) (hs : s.Faithful w interfaces roots []) :
    (s.graph.node x).id = (w.plan t).id :=
  hs.id_node hx.1 hx.2

theorem Denotes.kind_eq (hx : Denotes w roots s t x) (hs : s.Faithful w interfaces roots []) :
    (s.graph.node x).kind = (w.plan t).kind := by
  rw [(hx.depicts hs).kind, w.kind_portrait]

theorem Denotes.stage_eq (hx : Denotes w roots s t x) (hy : Denotes w roots s u y)
    (hs : s.Faithful w interfaces roots []) : s.graph.stage x y = w.stage interfaces t u := by
  unfold Graph.stage World.stage
  rw [(hx.depicts hs).face_eq, (hy.depicts hs).face_eq]

theorem Denotes.sameKey_iff (hx : Denotes w roots s k x) (hy : Denotes w roots s l y)
    (hs : s.Faithful w interfaces roots []) :
    Rule.sameKey (s.graph.node x) (s.graph.node y) = true ↔ w.SameKey k l := by
  unfold Rule.sameKey World.SameKey
  rw [hx.id_eq hs, hy.id_eq hs, hx.kind_eq hs, hy.kind_eq hs]
  simp [or_assoc]

/-- Where no ancestor depends on a circular base, a descriptor has all ancestors of its type. -/
theorem Denotes.hasAncestor_iff (hset : w.Settled interfaces roots)
    (hx : Denotes w roots s t x) (hs : s.Faithful w interfaces roots []) {a : Identity}
    (ha : a ≠ (w.plan t).id) :
    (s.graph.node x).hasAncestor a = true ↔ w.Ancestor interfaces roots (w.entry t) a := by
  have hd := hs.drawn t x hx.1 hx.2 List.not_mem_nil
  unfold Node.hasAncestor
  rw [List.contains_iff_mem]
  constructor
  · exact fun h => (hd.ancestor a h).2
  · exact fun h => hd.certain a ((hset t hx.1 a h).resolve_left ha) ha

theorem Denotes.related_iff (hset : w.Settled interfaces roots)
    (hx : Denotes w roots s t x) (hy : Denotes w roots s u y)
    (hs : s.Faithful w interfaces roots []) (hne : (w.plan t).id ≠ (w.plan u).id) :
    s.graph.Related x y ↔ w.Related interfaces roots t u := by
  unfold Graph.Related World.Related
  rw [hx.id_eq hs, hy.id_eq hs, hx.hasAncestor_iff hset hs hne.symm,
    hy.hasAncestor_iff hset hs hne, hx.kind_eq hs, hy.kind_eq hs,
    (hx.depicts hs).convertsTo, (hx.depicts hs).equatableTo]
  simp

/-! ### Descriptors and types accept alike -/

theorem accepts_zip {known : Set (Ref × Ref)}
    (hknown : ∀ {t u : Ty} {x y : Ref}, (x, y) ∈ known → Denotes w roots s t x →
      Denotes w roots s u y → w.Accepts interfaces roots t u)
    {us vs : List Ty} {xs ys : List Ref} (hx : List.Forall₂ (Denotes w roots s) us xs)
    (hy : List.Forall₂ (Denotes w roots s) vs ys) {ps : List (Option Ref × Option Ref)}
    (hps : some (Rule.matched xs ys) = some (.parts ps))
    (hall : ∀ q ∈ ps, ∃ a b, q = (some a, some b) ∧ (a, b) ∈ known) :
    ∀ q ∈ us.zip vs, w.Accepts interfaces roots q.1 q.2 := by
  rintro ⟨a, b⟩ hab
  cases hps
  obtain ⟨x, y, hxy, hax, hby⟩ := exists_zip_of_forall₂ hx hy hab
  obtain ⟨x', y', heq, hmem⟩ := hall _ (mem_matched_iff.mpr ⟨x, y, rfl, hxy⟩)
  cases heq
  exact hknown hmem hax hby

/-- **One round of the rules** on descriptors is one constructor for their types. -/
theorem accepts_of_decision (hset : w.Settled interfaces roots)
    (hs : s.Faithful w interfaces roots []) {known : Set (Ref × Ref)}
    (hknown : ∀ {t u : Ty} {x y : Ref}, (x, y) ∈ known → Denotes w roots s t x →
      Denotes w roots s u y → w.Accepts interfaces roots t u)
    (hx : Denotes w roots s t x) (hy : Denotes w roots s u y)
    (h : (x, y) ∈ s.graph.allowing Rule.defaults known) : w.Accepts interfaces roots t u := by
  have hdx := hx.depicts hs
  have hdy := hy.depicts hs
  rw [mem_allowing_iff, hx.stage_eq hy hs] at h
  cases hst : w.stage interfaces t u with
  | unknown => exact .unknown hst
  | identity => exact .identity hst
  | numeric => exact .numeric hst
  | anyElement => exact .anyElement hst
  | enumeration | arity => simp [hst, Graph.decision] at h
  | left =>
    rw [hst] at h
    rcases h with h | ⟨ps, hps, hall⟩
    · cases h
    · obtain ⟨a, b, ha, hb, hmem⟩ := exists_of_single hps hall
      cases hb
      obtain ⟨v, hv, hva⟩ := exists_of_rel_right hdx.underlying ha
      exact .left hst hv (hknown hmem hva hy)
  | right =>
    rw [hst] at h
    rcases h with h | ⟨ps, hps, hall⟩
    · cases h
    · obtain ⟨a, b, ha, hb, hmem⟩ := exists_of_single hps hall
      cases ha
      obtain ⟨v, hv, hvb⟩ := exists_of_rel_right hdy.underlying hb
      exact .right hst hv (hknown hmem hx hvb)
  | elements =>
    rw [hst] at h
    rcases h with h | ⟨ps, hps, hall⟩
    · cases h
    · obtain ⟨a, b, ha, hb, hmem⟩ := exists_of_single hps hall
      obtain ⟨v, hv, hva⟩ := exists_of_rel_right hdx.element ha
      obtain ⟨z, hz, hzb⟩ := exists_of_rel_right hdy.element hb
      exact .elements hst hv hz (hknown hmem hva hzb)
  | keyed =>
    obtain ⟨hkey, hkey'⟩ := Face.hasKey_of_stage hst
    obtain ⟨k, hk⟩ := Option.isSome_iff_exists.mp hkey
    obtain ⟨l, hl⟩ := Option.isSome_iff_exists.mp hkey'
    obtain ⟨k', hk', hkk'⟩ := exists_of_rel_left hdx.key hk
    obtain ⟨l', hl', hll'⟩ := exists_of_rel_left hdy.key hl
    rw [hst, Graph.decision, compareElements_of_key hk' hl'] at h
    by_cases hsame : Rule.sameKey (s.graph.node k') (s.graph.node l') = true
    · rw [if_pos hsame] at h
      rcases h with h | ⟨ps, hps, hall⟩
      · cases h
      · obtain ⟨a, b, ha, hb, hmem⟩ := exists_of_single hps hall
        obtain ⟨v, hv, hva⟩ := exists_of_rel_right hdx.element ha
        obtain ⟨z, hz, hzb⟩ := exists_of_rel_right hdy.element hb
        exact .keyed hst hk hl ((hkk'.sameKey_iff hll' hs).mp hsame) hv hz (hknown hmem hva hzb)
    · rw [if_neg hsame] at h
      rcases h with h | ⟨ps, hps, -⟩
      · cases h
      · cases hps
  | tuple =>
    rw [hst] at h
    rcases h with h | ⟨ps, hps, hall⟩
    · cases h
    · exact .tuple hst (accepts_zip hknown hdx.tuple hdy.tuple hps hall)
  | generic =>
    rw [hst] at h
    rcases h with h | ⟨ps, hps, hall⟩
    · cases h
    · exact .generic hst (accepts_zip hknown hdx.typeArgs hdy.typeArgs hps hall)
  | rest =>
    have hne : (w.plan t).id ≠ (w.plan u).id := by
      rw [← w.id_portrait t, ← w.id_portrait u]
      exact Face.id_ne_of_stage hst
    rw [hst, Graph.decision] at h
    by_cases hrel : s.graph.Related x y
    · exact .rest hst ((hx.related_iff hset hy hs hne).mp hrel)
    · rw [if_neg hrel] at h
      rcases h with h | ⟨ps, hps, -⟩
      · cases h
      · cases hps

theorem mem_allowed_of_accepts (hset : w.Settled interfaces roots)
    (hs : s.Faithful w interfaces roots []) (h : w.Accepts interfaces roots t u)
    (hx : Denotes w roots s t x) (hy : Denotes w roots s u y) :
    (x, y) ∈ s.graph.allowed Rule.defaults := by
  induction h generalizing x y with
  | unknown hst | identity hst | numeric hst | anyElement hst =>
    rw [mem_allowed_iff, hx.stage_eq hy hs, hst]
    exact Or.inl rfl
  | left hst ha _ ih =>
    obtain ⟨a, hna, hda⟩ := exists_of_rel_left (hx.depicts hs).underlying ha
    rw [mem_allowed_iff, hx.stage_eq hy hs, hst, Graph.decision, hna]
    refine Or.inr ⟨_, rfl, fun q hq => ?_⟩
    exact ⟨a, y, List.mem_singleton.mp hq, ih hda hy⟩
  | right hst hb _ ih =>
    obtain ⟨b, hnb, hdb⟩ := exists_of_rel_left (hy.depicts hs).underlying hb
    rw [mem_allowed_iff, hx.stage_eq hy hs, hst, Graph.decision, hnb]
    refine Or.inr ⟨_, rfl, fun q hq => ?_⟩
    exact ⟨x, b, List.mem_singleton.mp hq, ih hx hdb⟩
  | elements hst ha hb _ ih =>
    obtain ⟨a, hna, hda⟩ := exists_of_rel_left (hx.depicts hs).element ha
    obtain ⟨b, hnb, hdb⟩ := exists_of_rel_left (hy.depicts hs).element hb
    rw [mem_allowed_iff, hx.stage_eq hy hs, hst, Graph.decision, hna, hnb]
    refine Or.inr ⟨_, rfl, fun q hq => ?_⟩
    exact ⟨a, b, List.mem_singleton.mp hq, ih hda hdb⟩
  | keyed hst hk hl hkl ha hb _ ih =>
    obtain ⟨k, hnk, hdk⟩ := exists_of_rel_left (hx.depicts hs).key hk
    obtain ⟨l, hnl, hdl⟩ := exists_of_rel_left (hy.depicts hs).key hl
    obtain ⟨a, hna, hda⟩ := exists_of_rel_left (hx.depicts hs).element ha
    obtain ⟨b, hnb, hdb⟩ := exists_of_rel_left (hy.depicts hs).element hb
    rw [mem_allowed_iff, hx.stage_eq hy hs, hst, Graph.decision, compareElements_of_key hnk hnl,
      if_pos ((hdk.sameKey_iff hdl hs).mpr hkl), hna, hnb]
    refine Or.inr ⟨_, rfl, fun q hq => ?_⟩
    exact ⟨a, b, List.mem_singleton.mp hq, ih hda hdb⟩
  | tuple hst _ ih =>
    rw [mem_allowed_iff, hx.stage_eq hy hs, hst]
    refine Or.inr ⟨_, rfl, fun q hq => ?_⟩
    obtain ⟨a, b, rfl, hab⟩ := mem_matched_iff.mp hq
    obtain ⟨v, z, hvz, hva, hzb⟩ :=
      exists_zip_of_forall₂ (hx.depicts hs).tuple.flip (hy.depicts hs).tuple.flip hab
    exact ⟨a, b, rfl, ih (v, z) hvz hva hzb⟩
  | generic hst _ ih =>
    rw [mem_allowed_iff, hx.stage_eq hy hs, hst]
    refine Or.inr ⟨_, rfl, fun q hq => ?_⟩
    obtain ⟨a, b, rfl, hab⟩ := mem_matched_iff.mp hq
    obtain ⟨v, z, hvz, hva, hzb⟩ :=
      exists_zip_of_forall₂ (hx.depicts hs).typeArgs.flip (hy.depicts hs).typeArgs.flip hab
    exact ⟨a, b, rfl, ih (v, z) hvz hva hzb⟩
  | @rest t u hst hrel =>
    have hne : (w.plan t).id ≠ (w.plan u).id := by
      rw [← w.id_portrait t, ← w.id_portrait u]
      exact Face.id_ne_of_stage hst
    rw [mem_allowed_iff, hx.stage_eq hy hs, hst, Graph.decision,
      if_pos ((hx.related_iff hset hy hs hne).mpr hrel)]
    exact Or.inl rfl

/-- **The rules allow descriptors exactly if their types accept each other.** -/
theorem mem_allowed_iff_accepts (hset : w.Settled interfaces roots)
    (hs : s.Faithful w interfaces roots []) (hx : Denotes w roots s t x)
    (hy : Denotes w roots s u y) :
    (x, y) ∈ s.graph.allowed Rule.defaults ↔ w.Accepts interfaces roots t u := by
  constructor
  · intro h
    let known : Set (Ref × Ref) := {p | ∀ t u, Denotes w roots s t p.1 →
      Denotes w roots s u p.2 → w.Accepts interfaces roots t u}
    have hmem : ∀ {t u : Ty} {x y : Ref}, (x, y) ∈ known → Denotes w roots s t x →
        Denotes w roots s u y → w.Accepts interfaces roots t u := fun h => h _ _
    have hknown : s.graph.allowing Rule.defaults known ≤ known := fun p hp t u hx hy =>
      accepts_of_decision hset hs hmem hx hy hp
    exact OrderHom.lfp_le _ hknown h t u hx hy
  · exact fun h => mem_allowed_of_accepts hset hs h hx hy

/-! ### The verdict -/

theorem Denotes.exists_of_reach (hx : Denotes w roots s t x)
    (hs : s.Faithful w interfaces roots []) (h : s.graph.Reach x y) :
    ∃ u, Denotes w roots s u y := by
  obtain ⟨f, hf⟩ := hs.exists_of_reach hx.2 h
  obtain ⟨-, u, hu, rfl⟩ := hs.known f y hf
  exact ⟨u, hu, hf⟩

theorem Denotes.eq_of_id (hx : Denotes w roots s t x) (hy : Denotes w roots s u y)
    (ho : w.Orderly interfaces roots) (hs : s.Faithful w interfaces roots [])
    (hid : (s.graph.node x).id = (s.graph.node y).id) : x = y := by
  rw [hx.id_eq hs, hy.id_eq hs] at hid
  exact hx.2.unique (ho.entry_eq_of_id hx.1 hy.1 hid ▸ hy.2)

theorem Denotes.consistent (hx : Denotes w roots s t x) (hy : Denotes w roots s u y)
    (ho : w.Orderly interfaces roots) (hs : s.Faithful w interfaces roots []) :
    s.graph.Consistent x y := by
  have hden : ∀ {z}, s.graph.ReachEither x y z → ∃ v, Denotes w roots s v z := fun hz =>
    hz.elim (hx.exists_of_reach hs) (hy.exists_of_reach hs)
  intro a b ha hb hid
  obtain ⟨v, hva⟩ := hden ha
  obtain ⟨z, hzb⟩ := hden hb
  cases hva.eq_of_id hzb ho hs hid
  have hd := hva.depicts hs
  refine (hd.toMatch hd fun _ => Iff.rfl).imp_of_mem ?_
  rintro c - d - ⟨e, hc, hd⟩
  rw [hc.2.unique hd.2]

end Draft

/-- The finding on descriptors that can be compared says whether the rules allow them. -/
theorem exists_check_of_describe {w : World} {p : Operands} {g : Graph} {l r : Ref}
    (options : CheckOptions) (hdesc : p.describe w = .ok (l, r, g)) (hl : g.FinishedFrom l)
    (hr : g.FinishedFrom r) (hc : g.Consistent l r) :
    ∃ f, check w options none p = .ok (f, none) ∧
      (f.forward = true ↔ (l, r) ∈ g.allowed Rule.defaults) ∧
      (f.reverse = true ↔ (r, l) ∈ g.allowed Rule.defaults) := by
  obtain ⟨v, hv⟩ := exists_verdict Rule.defaults hl hr
  obtain ⟨v', hv'⟩ := exists_verdict Rule.defaults hr hl
  refine ⟨_, check_of_describe hdesc hv hv', ?_, ?_⟩
  · rw [← (judged_of_verdict hv).eq_compatible_iff hl hr hc]
    simp [Operands.finding]
  · rw [← (judged_of_verdict hv').eq_compatible_iff hr hl fun x y hx hy => hc x y hx.symm hy.symm]
    simp [Operands.finding]

theorem check_iff_allowed {w : World} {p : Operands} {t u : Ty} (options : CheckOptions)
    (hleft : p.left = some t) (hright : p.right = some u)
    (ho : w.Orderly (p.interfacesFor w) p.roots) :
    ∃ f l r s, check w options none p = .ok (f, none) ∧
      s.Faithful w (p.interfacesFor w) p.roots [] ∧ Draft.Denotes w p.roots s t l ∧
      Draft.Denotes w p.roots s u r ∧
      (f.forward = true ↔ (l, r) ∈ s.graph.allowed Rule.defaults) ∧
      (f.reverse = true ↔ (r, l) ∈ s.graph.allowed Rule.defaults) := by
  obtain ⟨l, r, s, hdesc, hs, hl, hr⟩ := Operands.exists_describe ho
  rw [hleft] at hl
  rw [hright] at hr
  have hdl : Draft.Denotes w p.roots s t l := ⟨.root (Or.inl hleft), hl⟩
  have hdr : Draft.Denotes w p.roots s u r := ⟨.root (Or.inr hright), hr⟩
  obtain ⟨f, hf, hiff⟩ := exists_check_of_describe options hdesc (hl.finishedFrom hs)
    (hr.finishedFrom hs) (hdl.consistent hdr ho hs)
  exact ⟨f, l, r, s, hf, hs, hdl, hdr, hiff⟩

/-- **A check answers whether the types of the operands accept each other.** -/
theorem check_iff_accepts {w : World} {p : Operands} {t u : Ty} (options : CheckOptions)
    (hleft : p.left = some t) (hright : p.right = some u)
    (ho : w.Orderly (p.interfacesFor w) p.roots) (hset : w.Settled (p.interfacesFor w) p.roots) :
    ∃ f, check w options none p = .ok (f, none) ∧
      (f.forward = true ↔ w.Accepts (p.interfacesFor w) p.roots t u) ∧
      (f.reverse = true ↔ w.Accepts (p.interfacesFor w) p.roots u t) := by
  obtain ⟨f, l, r, s, hf, hs, hl, hr, hforward, hreverse⟩ :=
    check_iff_allowed options hleft hright ho
  refine ⟨f, hf, ?_, ?_⟩
  · exact hforward.trans (Draft.mem_allowed_iff_accepts hset hs hl hr)
  · exact hreverse.trans (Draft.mem_allowed_iff_accepts hset hs hr hl)

end EverEqual
