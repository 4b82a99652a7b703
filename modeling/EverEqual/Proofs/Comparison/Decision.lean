import EverEqual.Proofs.Comparison.PairGraph

/-!
# The decision order

Which of the default rules decides on two descriptors can be seen from the outside: from their
kinds, identities, arities and whether elements and keys are known. What the rule makes of the pair
is then a matter of its parts, or, at the end of the order, of declared capabilities.

* `Face`, `Face.stage`: the outside of a descriptor, and the stage of the order at which two of them
  are decided;
* `Face.Decided`, `Face.decided_stage`: what is known of two descriptors by their stage;
* `Face.stage_comm`: the stage in the other direction;
* `Graph.decision`, `map_firstResolution`: what the default rules make of a pair at each stage;
* `edge_iff`, `rejected_iff`: what this means for the graph of pairs;
* `mem_allowed_iff`: what it means for the pairs that the rules allow.
-/

namespace EverEqual

/-- What the rules look at before they follow parts. -/
structure Face where
  kind : Kind
  id : Identity
  hasElement : Bool
  hasKey : Bool
  /-- The number of components of a tuple. -/
  components : Nat
  origin : Identity
  /-- The number of arguments of an instance. -/
  arguments : Nat
deriving DecidableEq, Repr

/-- The outside of a descriptor. -/
def Node.face (n : Node) : Face where
  kind := n.kind
  id := n.id
  hasElement := n.element.isSome
  hasKey := n.key.isSome
  components := n.tuple.length
  origin := n.origin
  arguments := n.typeArgs.length

/-- Where in the decision order a pair is decided. -/
inductive Stage
  /-- A side is unresolved. -/
  | unknown
  /-- Both sides have one identity. -/
  | identity
  /-- The left side is unwrapped. -/
  | left
  /-- The right side is unwrapped. -/
  | right
  /-- An enumeration meets something else. -/
  | enumeration
  | numeric
  /-- Both sides have elements, and those of one side could be anything. -/
  | anyElement
  /-- Both sides have elements and no keys. -/
  | elements
  /-- Both sides have elements and keys. -/
  | keyed
  | tuple
  /-- Both sides are tuples, of different length. -/
  | arity
  /-- Both sides are instances of one declaration. -/
  | generic
  /-- Only ancestors, interfaces and declared capabilities are left. -/
  | rest
deriving DecidableEq, Repr

namespace Face

/-- Whether values yield elements. -/
def enumerable (a : Face) : Bool :=
  a.kind = .array || a.kind = .collection || a.hasElement

/-- The stage at which a pair is decided. -/
def stage (a b : Face) : Stage :=
  if a.kind = .unknown ∨ b.kind = .unknown then .unknown
  else if a.id = b.id then .identity
  else if a.kind = .nullable then .left
  else if b.kind = .nullable then .right
  else if (a.kind = .enumeration ∨ b.kind = .enumeration) ∧
      a.kind ≠ .interface ∧ b.kind ≠ .interface then .enumeration
  else if a.kind = .numeric ∧ b.kind = .numeric then .numeric
  else if a.enumerable ∧ b.enumerable ∧ ¬ (a.hasElement ∧ b.hasElement) then .anyElement
  else if a.enumerable ∧ b.enumerable ∧ ¬ a.hasKey ∧ ¬ b.hasKey then .elements
  else if a.enumerable ∧ b.enumerable ∧ a.hasKey ∧ b.hasKey then .keyed
  else if a.kind = .tuple ∧ b.kind = .tuple then
    if a.components = b.components then .tuple else .arity
  else if a.origin ≠ "" ∧ a.origin = b.origin ∧ a.arguments = b.arguments then .generic
  else .rest

variable {a b : Face}

theorem stage_eq_unknown (h : a.kind = .unknown ∨ b.kind = .unknown) : a.stage b = .unknown :=
  if_pos h

theorem stage_eq_identity (hres : ¬ (a.kind = .unknown ∨ b.kind = .unknown)) (h : a.id = b.id) :
    a.stage b = .identity := by
  rw [stage, if_neg hres, if_pos h]

theorem stage_eq_left (hres : ¬ (a.kind = .unknown ∨ b.kind = .unknown)) (hid : a.id ≠ b.id)
    (ha : a.kind = .nullable) : a.stage b = .left := by
  rw [stage, if_neg hres, if_neg hid, if_pos ha]

theorem stage_eq_right (hres : ¬ (a.kind = .unknown ∨ b.kind = .unknown)) (hid : a.id ≠ b.id)
    (ha : a.kind ≠ .nullable) (hb : b.kind = .nullable) : a.stage b = .right := by
  rw [stage, if_neg hres, if_neg hid, if_neg ha, if_pos hb]

/-- Two faces that are resolved, told apart and not nullable. -/
structure Plain (a b : Face) : Prop where
  resolved : ¬ (a.kind = .unknown ∨ b.kind = .unknown)
  apart : a.id ≠ b.id
  left : a.kind ≠ .nullable
  right : b.kind ≠ .nullable

/-- What is known of two faces that are decided at a stage. -/
def Decided (a b : Face) : Stage → Prop
  | .unknown => a.kind = .unknown ∨ b.kind = .unknown
  | .identity => a.id = b.id
  | .left => a.kind = .nullable
  | .right => a.kind ≠ .nullable ∧ b.kind = .nullable
  | .enumeration | .arity => a.Plain b
  | .numeric => a.Plain b ∧ a.kind = .numeric ∧ b.kind = .numeric
  | .anyElement => a.Plain b ∧ (a.enumerable = true ∧ b.enumerable = true) ∧
      ¬ (a.hasElement = true ∧ b.hasElement = true)
  | .elements => a.Plain b ∧ (a.hasElement = true ∧ b.hasElement = true) ∧
      ¬ a.hasKey = true ∧ ¬ b.hasKey = true
  | .keyed => a.Plain b ∧ (a.hasElement = true ∧ b.hasElement = true) ∧
      a.hasKey = true ∧ b.hasKey = true
  | .tuple => a.Plain b ∧ a.kind = .tuple ∧ b.kind = .tuple
  | .generic => a.Plain b ∧ a.origin ≠ "" ∧ b.origin ≠ ""
  | .rest => a.Plain b ∧
      ¬ (a.enumerable = true ∧ b.enumerable = true ∧ a.hasKey = b.hasKey) ∧
      ¬ (a.kind = .numeric ∧ b.kind = .numeric) ∧ ¬ (a.kind = .tuple ∧ b.kind = .tuple) ∧
      ¬ (a.origin ≠ "" ∧ a.origin = b.origin ∧ a.arguments = b.arguments)

theorem decided_ite {c : Prop} [Decidable c] {p q : Stage} (hp : c → a.Decided b p)
    (hq : ¬ c → a.Decided b q) : a.Decided b (if c then p else q) := by
  by_cases hc : c
  · rw [if_pos hc]
    exact hp hc
  · rw [if_neg hc]
    exact hq hc

theorem decided_stage (a b : Face) : a.Decided b (a.stage b) := by
  unfold stage
  refine decided_ite (fun h => h) fun hres => decided_ite (fun h => h) fun hid =>
    decided_ite (fun h => h) fun hleft => decided_ite (⟨hleft, ·⟩) fun hright => ?_
  have hplain : a.Plain b := ⟨hres, hid, hleft, hright⟩
  refine decided_ite (fun _ => hplain) fun _ => decided_ite (⟨hplain, ·⟩) fun hnumeric =>
    decided_ite (fun hany => ⟨hplain, ⟨hany.1, hany.2.1⟩, hany.2.2⟩) fun hany =>
    decided_ite (fun h => ⟨hplain, ?_, h.2.2⟩) fun helements =>
    decided_ite (fun h => ⟨hplain, ?_, h.2.2⟩) fun hkeyed =>
    decided_ite (fun htuple => decided_ite (fun _ => ⟨hplain, htuple⟩) fun _ => hplain)
    fun htuple => decided_ite (fun h => ⟨hplain, h.1, h.2.1 ▸ h.1⟩) fun horigin =>
    ⟨hplain, ?_, hnumeric, htuple, horigin⟩
  · exact not_not.mp fun hno => hany ⟨h.1, h.2.1, hno⟩
  · exact not_not.mp fun hno => hany ⟨h.1, h.2.1, hno⟩
  · rintro ⟨ha, hb, hkeys⟩
    by_cases hkey : a.hasKey = true
    · exact hkeyed ⟨ha, hb, hkey, hkeys ▸ hkey⟩
    · exact helements ⟨ha, hb, hkey, hkeys ▸ hkey⟩

theorem decided_of_stage {st : Stage} (h : a.stage b = st) : a.Decided b st :=
  h ▸ decided_stage a b

theorem hasKey_of_stage (h : a.stage b = .keyed) : a.hasKey = true ∧ b.hasKey = true :=
  (decided_of_stage h).2.2

theorem id_ne_of_stage (h : a.stage b = .rest) : a.id ≠ b.id :=
  (decided_of_stage h).1.apart

theorem stage_comm (ha : a.kind ≠ .nullable) (hb : b.kind ≠ .nullable) :
    a.stage b = b.stage a := by
  unfold stage
  rw [if_neg ha, if_neg hb, if_neg hb, if_neg ha]
  refine if_congr or_comm rfl <| if_congr eq_comm rfl <| if_congr ?_ rfl <|
    if_congr and_comm rfl <| if_congr ?_ rfl <| if_congr ?_ rfl <| if_congr ?_ rfl <|
    if_congr and_comm (if_congr eq_comm rfl rfl) <| if_congr ?_ rfl rfl
  all_goals grind

end Face

/-! ### What is made of a pair -/

namespace Graph

variable (g : Graph) (x y : Ref)

/-- The stage at which two descriptors are decided. -/
def stage : Stage := (g.node x).face.stage (g.node y).face

/-- What is left to decide on two descriptors at the end of the order. -/
def Related : Prop :=
  (g.node x).hasAncestor (g.node y).id = true ∨ (g.node y).hasAncestor (g.node x).id = true ∨
    ((g.node x).kind = .interface ∧ (g.node y).kind = .interface) ∨
    ((g.node x).convertsTo (g.node y).id).isSome = true ∨
    (g.node x).equatableTo (g.node y).id = true

instance : Decidable (g.Related x y) := by
  unfold Related
  infer_instance

/-- What is made of two descriptors at a stage. -/
def decision : Stage → Option Resolution
  | .unknown | .identity | .numeric | .anyElement => some (.settled .compatible)
  | .left => some (.parts [((g.node x).underlying, some y)])
  | .right => some (.parts [(some x, (g.node y).underlying)])
  | .enumeration | .arity => some (.settled .incompatible)
  | .elements => some (.parts [((g.node x).element, (g.node y).element)])
  | .keyed => Rule.compareElements g (g.node x) (g.node y)
  | .tuple => some (Rule.matched (g.node x).tuple (g.node y).tuple)
  | .generic => some (Rule.matched (g.node x).typeArgs (g.node y).typeArgs)
  | .rest => if g.Related x y then some (.settled .compatible) else none

end Graph

section Stages

variable {g : Graph} {x y : Ref}

theorem resolve_unknown :
    Rule.unknown.resolve g x y =
      if (g.node x).face.kind = .unknown ∨ (g.node y).face.kind = .unknown then
        some (.settled .compatible)
      else none := by
  simp only [Rule.resolve]
  grind [Node.face]

theorem resolve_identity :
    Rule.identity.resolve g x y =
      if (g.node x).face.id = (g.node y).face.id then some (.settled .compatible) else none := by
  simp only [Rule.resolve]
  grind [Node.face]

theorem resolve_nullable :
    Rule.nullable.resolve g x y =
      if (g.node x).face.kind = .nullable then some (.parts [((g.node x).underlying, some y)])
      else if (g.node y).face.kind = .nullable then some (.parts [(some x, (g.node y).underlying)])
      else none := by
  simp only [Rule.resolve]
  grind [Node.face]

theorem resolve_enumeration (hid : ¬ (g.node x).face.id = (g.node y).face.id) :
    Rule.enumeration.resolve g x y =
      if ((g.node x).face.kind = .enumeration ∨ (g.node y).face.kind = .enumeration) ∧
          (g.node x).face.kind ≠ .interface ∧ (g.node y).face.kind ≠ .interface then
        some (.settled .incompatible)
      else none := by
  simp only [Rule.resolve]
  grind [Node.face]

theorem resolve_numeric :
    Rule.numeric.resolve g x y =
      if (g.node x).face.kind = .numeric ∧ (g.node y).face.kind = .numeric then
        some (.settled .compatible)
      else none := by
  simp only [Rule.resolve]
  grind [Node.face]

theorem resolve_collection :
    Rule.collection.resolve g x y =
      if (g.node x).face.enumerable ∧ (g.node y).face.enumerable ∧
          ¬ ((g.node x).face.hasElement ∧ (g.node y).face.hasElement) then
        some (.settled .compatible)
      else if (g.node x).face.enumerable ∧ (g.node y).face.enumerable ∧
          ¬ (g.node x).face.hasKey ∧ ¬ (g.node y).face.hasKey then
        some (.parts [((g.node x).element, (g.node y).element)])
      else if (g.node x).face.enumerable ∧ (g.node y).face.enumerable ∧
          (g.node x).face.hasKey ∧ (g.node y).face.hasKey then
        Rule.compareElements g (g.node x) (g.node y)
      else none := by
  generalize hm : g.node x = m
  generalize hn : g.node y = n
  have henum : ∀ k : Node, k.face.enumerable = k.enumerable := fun _ => rfl
  have hnon : ∀ k : Node, k.nonGeneric = (k.enumerable && !k.face.hasElement) := fun k => by
    simp [Node.nonGeneric, Node.face]
  simp only [Rule.resolve, hm, hn, henum, hnon]
  cases m.enumerable <;> cases n.enumerable <;> simp
  cases m.face.hasElement <;> cases n.face.hasElement <;> simp [Node.face]
  rcases Option.eq_none_or_eq_some m.key with hk | ⟨k, hk⟩ <;>
    rcases Option.eq_none_or_eq_some n.key with hl | ⟨l, hl⟩ <;>
    simp [Rule.compareElements, hk, hl]

theorem compareElements_of_key {m n : Node} {k l : Ref} (hk : m.key = some k)
    (hl : n.key = some l) :
    Rule.compareElements g m n = some
      (if Rule.sameKey (g.node k) (g.node l) then .parts [(m.element, n.element)]
        else .settled .incompatible) := by
  simp only [Rule.compareElements, hk, hl]
  split_ifs <;> rfl

theorem resolve_tuple :
    Rule.tuple.resolve g x y =
      if (g.node x).face.kind = .tuple ∧ (g.node y).face.kind = .tuple then
        if (g.node x).face.components = (g.node y).face.components then
          some (Rule.matched (g.node x).tuple (g.node y).tuple)
        else some (.settled .incompatible)
      else none := by
  simp only [Rule.resolve]
  grind [Node.face]

theorem resolve_generic :
    Rule.generic.resolve g x y =
      if (g.node x).face.origin ≠ "" ∧ (g.node x).face.origin = (g.node y).face.origin ∧
          (g.node x).face.arguments = (g.node y).face.arguments then
        some (Rule.matched (g.node x).typeArgs (g.node y).typeArgs)
      else none := by
  simp only [Rule.resolve]
  grind [Node.face]

theorem map_firstResolution_cons (rule : Rule) (rules : List Rule) :
    (firstResolution g (rule :: rules) x y).map Prod.snd =
      match rule.resolve g x y with
      | some res => some res
      | none => (firstResolution g rules x y).map Prod.snd := by
  simp only [firstResolution, List.findSome?]
  cases rule.resolve g x y <;> rfl

theorem map_firstResolution_rest :
    (firstResolution g [.inheritance, .interface, .conversion] x y).map Prod.snd =
      g.decision x y .rest := by
  simp only [firstResolution, Rule.resolve, Graph.decision, Graph.Related, List.findSome?]
  grind

/-- **The decision order**: the stage says what the default rules make of a pair. -/
theorem map_firstResolution :
    (firstResolution g Rule.defaults x y).map Prod.snd = g.decision x y (g.stage x y) := by
  unfold Graph.stage Face.stage Rule.defaults
  rw [map_firstResolution_cons, resolve_unknown]
  by_cases hunk : (g.node x).face.kind = .unknown ∨ (g.node y).face.kind = .unknown
  · rw [if_pos hunk, if_pos hunk]
    rfl
  rw [if_neg hunk, if_neg hunk, map_firstResolution_cons, resolve_identity]
  by_cases hid : (g.node x).face.id = (g.node y).face.id
  · rw [if_pos hid, if_pos hid]
    rfl
  rw [if_neg hid, if_neg hid, map_firstResolution_cons, resolve_nullable]
  by_cases hl : (g.node x).face.kind = .nullable
  · rw [if_pos hl, if_pos hl]
    rfl
  rw [if_neg hl, if_neg hl]
  by_cases hr : (g.node y).face.kind = .nullable
  · rw [if_pos hr, if_pos hr]
    rfl
  rw [if_neg hr, if_neg hr, map_firstResolution_cons, resolve_enumeration hid]
  by_cases he : ((g.node x).face.kind = .enumeration ∨ (g.node y).face.kind = .enumeration) ∧
      (g.node x).face.kind ≠ .interface ∧ (g.node y).face.kind ≠ .interface
  · rw [if_pos he, if_pos he]
    rfl
  rw [if_neg he, if_neg he, map_firstResolution_cons, resolve_numeric]
  by_cases hnum : (g.node x).face.kind = .numeric ∧ (g.node y).face.kind = .numeric
  · rw [if_pos hnum, if_pos hnum]
    rfl
  rw [if_neg hnum, if_neg hnum, map_firstResolution_cons, resolve_collection]
  by_cases hany : (g.node x).face.enumerable ∧ (g.node y).face.enumerable ∧
      ¬ ((g.node x).face.hasElement ∧ (g.node y).face.hasElement)
  · rw [if_pos hany, if_pos hany]
    rfl
  rw [if_neg hany, if_neg hany]
  by_cases helem : (g.node x).face.enumerable ∧ (g.node y).face.enumerable ∧
      ¬ (g.node x).face.hasKey ∧ ¬ (g.node y).face.hasKey
  · rw [if_pos helem, if_pos helem]
    rfl
  rw [if_neg helem, if_neg helem]
  by_cases hkey : (g.node x).face.enumerable ∧ (g.node y).face.enumerable ∧
      (g.node x).face.hasKey ∧ (g.node y).face.hasKey
  · rw [if_pos hkey, if_pos hkey]
    obtain ⟨k, hk⟩ := Option.isSome_iff_exists.mp hkey.2.2.1
    obtain ⟨l, hl⟩ := Option.isSome_iff_exists.mp hkey.2.2.2
    rw [Graph.decision, compareElements_of_key hk hl]
  rw [if_neg hkey, if_neg hkey, map_firstResolution_cons, resolve_tuple]
  by_cases htup : (g.node x).face.kind = .tuple ∧ (g.node y).face.kind = .tuple
  · rw [if_pos htup, if_pos htup]
    by_cases hlen : (g.node x).face.components = (g.node y).face.components
    · rw [if_pos hlen, if_pos hlen]
      rfl
    · rw [if_neg hlen, if_neg hlen]
      rfl
  rw [if_neg htup, if_neg htup, map_firstResolution_cons, resolve_generic]
  by_cases hgen : (g.node x).face.origin ≠ "" ∧ (g.node x).face.origin = (g.node y).face.origin ∧
      (g.node x).face.arguments = (g.node y).face.arguments
  · rw [if_pos hgen, if_pos hgen]
    rfl
  · rw [if_neg hgen, if_neg hgen]
    exact map_firstResolution_rest

theorem firstResolution_eq_some {rules : List Rule} {res : Resolution} :
    (∃ rule, firstResolution g rules x y = some (rule, res)) ↔
      (firstResolution g rules x y).map Prod.snd = some res := by
  constructor
  · rintro ⟨rule, h⟩
    rw [h]
    rfl
  · intro h
    obtain ⟨⟨rule, res'⟩, hres, rfl⟩ := Option.map_eq_some_iff.mp h
    exact ⟨rule, hres⟩

theorem edge_iff {q : Ref × Ref} :
    g.Edge Rule.defaults (x, y) q ↔
      ∃ ps, g.decision x y (g.stage x y) = some (.parts ps) ∧ (some q.1, some q.2) ∈ ps := by
  simp only [← map_firstResolution, ← firstResolution_eq_some]
  constructor
  · rintro ⟨rule, ps, hres, hq⟩
    exact ⟨ps, ⟨rule, hres⟩, hq⟩
  · rintro ⟨ps, ⟨rule, hres⟩, hq⟩
    exact ⟨rule, ps, hres, hq⟩

theorem rejected_iff :
    g.Rejected Rule.defaults (x, y) ↔
      g.decision x y (g.stage x y) = none ∨
        g.decision x y (g.stage x y) = some (.settled .incompatible) := by
  rw [← map_firstResolution, ← firstResolution_eq_some, Option.map_eq_none_iff]
  rfl

theorem mem_allowing_iff {known : Set (Ref × Ref)} :
    (x, y) ∈ g.allowing Rule.defaults known ↔
      g.decision x y (g.stage x y) = some (.settled .compatible) ∨
        ∃ ps, g.decision x y (g.stage x y) = some (.parts ps) ∧
          ∀ q ∈ ps, ∃ a b, q = (some a, some b) ∧ (a, b) ∈ known := by
  rw [← map_firstResolution, ← firstResolution_eq_some]
  refine or_congr Iff.rfl ?_
  constructor
  · rintro ⟨rule, ps, hres, hps⟩
    exact ⟨ps, firstResolution_eq_some.mp ⟨rule, hres⟩, hps⟩
  · rintro ⟨ps, hres, hps⟩
    obtain ⟨rule, hres⟩ := firstResolution_eq_some.mpr hres
    exact ⟨rule, ps, hres, hps⟩

theorem exists_of_single {known : Set (Ref × Ref)} {o o' : Option Ref}
    {ps : List (Option Ref × Option Ref)}
    (hps : some (Resolution.parts [(o, o')]) = some (.parts ps))
    (hall : ∀ q ∈ ps, ∃ a b, q = (some a, some b) ∧ (a, b) ∈ known) :
    ∃ a b, o = some a ∧ o' = some b ∧ (a, b) ∈ known := by
  cases hps
  obtain ⟨a, b, hab, hmem⟩ := hall _ List.mem_cons_self
  exact ⟨a, b, (Prod.mk.inj hab).1, (Prod.mk.inj hab).2, hmem⟩

theorem mem_allowed_iff :
    (x, y) ∈ g.allowed Rule.defaults ↔
      g.decision x y (g.stage x y) = some (.settled .compatible) ∨
        ∃ ps, g.decision x y (g.stage x y) = some (.parts ps) ∧
          ∀ q ∈ ps, ∃ a b, q = (some a, some b) ∧ (a, b) ∈ g.allowed Rule.defaults := by
  rw [← mem_allowing_iff]
  unfold Graph.allowed
  rw [OrderHom.map_lfp]

theorem Graph.mem_allowed_of_unknown
    (h : (g.node x).kind = .unknown ∨ (g.node y).kind = .unknown) :
    (x, y) ∈ g.allowed Rule.defaults := by
  have hstage : g.stage x y = .unknown := Face.stage_eq_unknown h
  rw [mem_allowed_iff, hstage]
  exact Or.inl rfl

end Stages

end EverEqual
