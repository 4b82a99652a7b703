import EverEqual.Proofs.Types.Explored

/-!
# The interfaces that are found

The search ends with the named interfaces that a type mentions, and with no others. It has to follow
names deep enough; how deep depends on the type, if that mentions only finitely many types. An alias
is visited apart from its target, in which its arguments are filled in; it may have any number of
parameters, and so does not always lead to one target.

* `World.upTo`: a world that is followed to a given depth;
* `World.NamedInterface`: the types that are sought;
* `interfacesIn_mentioned`: they are found.
-/

namespace EverEqual

namespace World

/-- The world, followed to a given depth. -/
def upTo (w : World) (k : Nat) : World :=
  { w with horizon := k }

/-- A declared type, and no alias, that is an interface. -/
def NamedInterface (w : World) (t : Ty) : Prop :=
  isName t = true ∧ w.aliasTarget? t = none ∧ w.isInterface t = true

instance (w : World) : DecidablePred w.NamedInterface := fun _ =>
  inferInstanceAs (Decidable (_ ∧ _ ∧ _))

variable {w : World} {rank : String → Nat} {n : TypeName} {xs : List Ty}
  {t u : Ty} {k : Nat}

/-! ### The depth makes no difference to what types mean -/

theorem unaliasIn_upTo (j : Nat) (t : Ty) : (w.upTo k).unaliasIn j t = w.unaliasIn j t := by
  induction j generalizing t with
  | zero => rfl
  | succ j ih =>
    rw [unaliasIn, unaliasIn, show (w.upTo k).aliasTarget? t = w.aliasTarget? t from rfl]
    cases w.aliasTarget? t with
    | none => rfl
    | some u => exact ih u

theorem unalias_upTo : (w.upTo k).unalias t = w.unalias t :=
  unaliasIn_upTo _ t

theorem siteIn_upTo (j : Nat) (t : Ty) : (w.upTo k).siteIn j t = w.siteIn j t := by
  induction j generalizing t with
  | zero => rfl
  | succ j ih =>
    cases t with
    | named n xs =>
      have hdeclared : (w.upTo k).declaration? n = w.declaration? n := rfl
      cases hd : w.declaration? n with
      | none => rw [siteIn, siteIn, hdeclared, hd]
      | some d =>
        rw [siteIn_succ (hdeclared.trans hd), siteIn_succ hd]
        split
        · exact ih _
        · rfl
    | _ => rfl

theorem underlying_upTo : (w.upTo k).underlying (.named n xs) = w.underlying (.named n xs) := by
  change (w.upTo k).definition (.named n xs) = w.definition (.named n xs)
  rw [definition, definition, site?, site?, siteIn_upTo]
  rfl

theorem isInterface_upTo : (w.upTo k).isInterface (.named n xs) = w.isInterface (.named n xs) := by
  rw [isInterface, isInterface, underlying_upTo]

theorem Refers.upTo (h : w.Refers t u) : (w.upTo k).Refers t u := by
  cases h with
  | target h => exact .target h
  | argument hname hconcrete hx => exact .argument hname (isInterface_upTo.trans hconcrete) hx
  | underlying hname hconcrete hdeclared =>
    exact underlying_upTo (k := k) ▸
      .underlying hname (isInterface_upTo.trans hconcrete) hdeclared
  | part h => exact .part h

theorem Refers.of_upTo (h : (w.upTo k).Refers t u) : w.Refers t u :=
  Refers.upTo (w := w.upTo k) (k := w.horizon) h

theorem Mentions.upTo (h : w.Mentions t u) (k : Nat) : (w.upTo k).Mentions t u :=
  Relation.ReflTransGen.mono (fun _ _ => Refers.upTo) _ _ h

theorem NamedInterface.upTo (h : w.NamedInterface t) (k : Nat) : (w.upTo k).NamedInterface t := by
  obtain ⟨hname, htarget, hi⟩ := h
  obtain ⟨n, xs, rfl⟩ := isName_eq_true.mp hname
  exact ⟨hname, htarget, isInterface_upTo.trans hi⟩

theorem NamedInterface.of_upTo (h : (w.upTo k).NamedInterface t) : w.NamedInterface t :=
  NamedInterface.upTo (w := w.upTo k) h w.horizon

theorem Checked.upTo (h : w.Checked rank) (k : Nat) : (w.upTo k).Checked rank where
  written {n d} hd := h.written hd
  ne_param := h.ne_param
  alias_ends hd := by
    rw [unalias_upTo]
    exact h.alias_ends hd
  defined hd := by
    rw [site?, siteIn_upTo]
    exact h.defined hd

/-! ### The whole search -/

/-- The right sides of declarations that are not mentioned, but may be expanded on the way. -/
def rightSides (w : World) : Set Ty :=
  {t | ∃ n d, w.declaration? n = some d ∧ w.unalias d.type = t}

theorem finite_rightSides (w : World) : w.rightSides.Finite := by
  refine ((List.finite_toSet w.entries).image fun e => w.unalias e.2.type).subset ?_
  rintro t ⟨n, d, hd, rfl⟩
  exact ⟨(n, d), mem_entries hd, rfl⟩

theorem Checked.territory (h : w.Checked rank) (hfinite : {u | w.Mentions t u}.Finite)
    (hdeep : ∀ u ∈ {u | w.Mentions t u} ∪ w.rightSides, sizeOf u < k) :
    (w.upTo k).Territory rank {u | w.Mentions t u} ({u | w.Mentions t u} ∪ w.rightSides) where
  checked := h.upTo k
  closed ht hu := ht.tail hu.of_upTo
  subset := Set.subset_union_left
  type_mem {n d} hd := .inr ⟨n, d, hd, unalias_upTo.symm⟩
  finite := hfinite.union w.finite_rightSides
  horizon {u} hu := hdeep u hu

theorem Searching.start {F G : Set Ty} (ht : t ∈ F) :
    w.Searching rank F G t {} [{ written := t }] where
  regular := ⟨nofun, .nil, .nil, nofun, nofun⟩
  placed := List.forall_mem_singleton.mpr (.inl rfl)
  mem := List.forall_mem_singleton.mpr ht
  root := .inr ⟨_, List.mem_cons_self, .refl w _⟩
  followed := nofun
  kept := nofun
  found := nofun

theorem Searching.covered {F G : Set Ty} {d : Discovery} (hs : w.Searching rank F G t d [])
    (h : w.Checked rank) (hu : w.Mentions t u) : w.Covered d u := by
  have hall : ∀ u, w.Covered d u ∨ w.Awaited d [] u → w.Covered d u := fun u hu =>
    hu.resolve_right fun ⟨_, hx, _⟩ => nomatch hx
  induction hu with
  | refl => exact hall t hs.root
  | @tail u v _ huv ih =>
    obtain ⟨m, hm, htwin⟩ := ih
    cases htarget : w.aliasTarget? u with
    | some target =>
      have hsame : w.unalias u = w.unalias v := by
        rw [huv.eq_target htarget]
        exact h.unalias_eq htarget
      exact ⟨m, hm, hsame ▸ htwin⟩
    | none =>
      rw [unalias_of_none htarget] at htwin
      obtain ⟨v', hv', hvv'⟩ := exists_mem_of_forall₂ (h.followers_twin htwin.symm)
        ((refers_iff htarget).mp huv)
      obtain ⟨m', hm', htwin'⟩ := hall v' (hs.followed m hm v' hv')
      exact ⟨m', hm', htwin'.trans (unalias_twin hvv').symm⟩

theorem Searching.exists_found {F G : Set Ty} {d : Discovery} (hs : w.Searching rank F G t d [])
    (h : w.Checked rank) (hu : w.Mentions t u) (hi : w.NamedInterface u) :
    ∃ u' ∈ d.found, w.Twin u' u := by
  obtain ⟨hname, htarget, hinterface⟩ := hi
  obtain ⟨m, hm, htwin⟩ := hs.covered h hu
  obtain ⟨n, xs, rfl⟩ := isName_eq_true.mp hname
  rw [unalias_of_none htarget] at htwin
  obtain ⟨ys, hm', -⟩ := htwin.symm.exists_named
  obtain ⟨u', hu', htwin'⟩ := hs.kept m hm (isName_eq_true.mpr ⟨n, ys, hm'⟩)
    (by rw [hm', h.isInterface_named]; exact hinterface)
  exact ⟨u', hu', htwin'.trans htwin⟩

/-- **Enough depth completes the search.** -/
theorem Checked.exists_explored (h : w.Checked rank) (hfinite : {u | w.Mentions t u}.Finite) :
    ∃ n, ∀ k ≥ n, (w.upTo k).Territory rank {u | w.Mentions t u}
        ({u | w.Mentions t u} ∪ w.rightSides) ∧
      ∀ j ≥ n, (w.upTo k).Explored {} [{ written := t }]
        ((w.upTo k).discover j {} { written := t }) := by
  obtain ⟨R, hR⟩ := w.exists_rank_le rank
  obtain ⟨M, hM⟩ := ((hfinite.union w.finite_rightSides).image sizeOf).bddAbove
  have hsize : ∀ u ∈ {u | w.Mentions t u} ∪ w.rightSides, sizeOf u ≤ M := fun u hu =>
    hM ⟨u, hu, rfl⟩
  let B := (codes ({u | w.Mentions t u} ∪ w.rightSides) R).ncard
  refine ⟨max (M + 1) (fuel B M {} { written := t } + 1), fun k hk => ?_⟩
  have hterritory := h.territory hfinite fun u hu =>
    Nat.lt_of_lt_of_le (Nat.lt_succ_of_le (hsize u hu)) ((Nat.le_max_left _ _).trans hk)
  refine ⟨hterritory, fun j hj => ?_⟩
  exact hterritory.explored (fun d hd => hd.names_le hterritory.finite hR) hsize
    (.start (Relation.ReflTransGen.refl)) ((Nat.le_max_right _ _).trans hj)

end World

/-- **The search ends, and finds the named interfaces that a type mentions.** Followed deep enough,
it comes to the same whatever the depth is. What it finds are named interfaces that are mentioned;
every one that is mentioned is found, as a twin if it has arguments; and a missing type mentions
none. -/
theorem interfacesIn_mentioned {w : World} {rank : String → Nat} (h : w.Checked rank) {t : Ty}
    (hfinite : {u | w.Mentions t u}.Finite) :
    ∃ n, ∀ k ≥ n,
      (∀ j ≥ n, (w.upTo k).discover j {} { written := t } =
        (w.upTo k).discover k {} { written := t }) ∧
      (∀ u ∈ (w.upTo k).interfacesIn (some t), w.Mentions t u ∧ w.NamedInterface u) ∧
      (∀ u, w.Mentions t u → w.NamedInterface u →
        ∃ u' ∈ (w.upTo k).interfacesIn (some t), (w.upTo k).Twin u' u) ∧
      (∀ m, .named m [] ∈ (w.upTo k).interfacesIn (some t) ↔
        w.Mentions t (.named m []) ∧ w.NamedInterface (.named m [])) ∧
      (w.upTo k).interfacesIn none = [] := by
  obtain ⟨n, hn⟩ := h.exists_explored hfinite
  refine ⟨n, fun k hk => ?_⟩
  obtain ⟨hterritory, hexplored⟩ := hn k hk
  have hs : (w.upTo k).Searching rank {u | w.Mentions t u} ({u | w.Mentions t u} ∪ w.rightSides) t
      ((w.upTo k).discover k {} { written := t }) [] :=
    (hterritory.searching_run (hexplored k hk) (.start .refl)).1
  have hmem : ∀ u, u ∈ (w.upTo k).interfacesIn (some t) ↔
      u ∈ ((w.upTo k).discover k {} { written := t }).found := fun _ => List.mem_reverse
  have hsound : ∀ u ∈ (w.upTo k).interfacesIn (some t), w.Mentions t u ∧ w.NamedInterface u := by
    intro u hu
    obtain ⟨hmentions, hname, hinterface, htarget⟩ := hs.found u ((hmem u).mp hu)
    exact ⟨hmentions, World.NamedInterface.of_upTo ⟨hname, htarget, hinterface⟩⟩
  have hcomplete : ∀ u, w.Mentions t u → w.NamedInterface u →
      ∃ u' ∈ (w.upTo k).interfacesIn (some t), (w.upTo k).Twin u' u := by
    intro u hu hi
    obtain ⟨u', hu', htwin⟩ := hs.exists_found (h.upTo k) (hu.upTo k) (hi.upTo k)
    exact ⟨u', (hmem u').mpr hu', htwin⟩
  refine ⟨fun j hj => (hexplored j hj).unique (hexplored k hk), hsound, hcomplete, fun m => ?_, rfl⟩
  refine ⟨hsound _, fun ⟨hm, hi⟩ => ?_⟩
  obtain ⟨u', hu', htwin⟩ := hcomplete _ hm hi
  obtain ⟨ys, rfl, hys⟩ := htwin.symm.exists_named
  cases hys
  exact hu'

/-- Package `p` has an interface, lists of any type that lead to themselves, and an alias for the
list of a type. Package `q` has trees of any type with such a list at the root, which lead to
themselves too, and a type that mentions the tree of the interface and the alias for its list. -/
def groves : World where
  packages :=
    [{ path := "p"
       name := "p"
       declarations :=
        [{ name := "Shape"
           type := .interface .literal [⟨"Area", .func [] [] false, "p", false, []⟩] [] },
         { name := "Node"
           params := [⟨"T", .named ⟨"", "any"⟩ []⟩]
           type := .struct [⟨"value", .param ⟨⟨"p", "Node"⟩, none⟩ 0 "T", "p", false, []⟩,
            ⟨"next", .pointer (.named ⟨"p", "Node"⟩ [.param ⟨⟨"p", "Node"⟩, none⟩ 0 "T"]), "p",
              false, []⟩] },
         { name := "Chain"
           params := [⟨"T", .named ⟨"", "any"⟩ []⟩]
           type := .named ⟨"p", "Node"⟩ [.param ⟨⟨"p", "Chain"⟩, none⟩ 0 "T"]
           isAlias := true }] },
     { path := "q"
       name := "q"
       declarations :=
        [{ name := "Tree"
           params := [⟨"T", .named ⟨"", "any"⟩ []⟩]
           type := .struct [⟨"root", .named ⟨"p", "Node"⟩ [.param ⟨⟨"q", "Tree"⟩, none⟩ 0 "T"], "q",
              false, []⟩,
            ⟨"left", .pointer (.named ⟨"q", "Tree"⟩ [.param ⟨⟨"q", "Tree"⟩, none⟩ 0 "T"]), "q",
              false, []⟩] },
         { name := "Grove"
           type := .map (.named ⟨"q", "Tree"⟩ [.named ⟨"p", "Shape"⟩ []])
            (.named ⟨"p", "Chain"⟩ [.named ⟨"p", "Shape"⟩ []]) }] }]
  horizon := 20

namespace groves

/-- The ranks of the packages. -/
def rank (path : String) : Nat :=
  if path = "q" then 2 else if path = "p" then 1 else 0

theorem checked : groves.Checked rank :=
  World.checked_of_checks (by decide)

/-- What a pointer to the grove mentions. -/
def parts : List Ty :=
  let shape := Ty.named ⟨"p", "Shape"⟩ []
  let node := Ty.named ⟨"p", "Node"⟩ [shape]
  let chain := Ty.named ⟨"p", "Chain"⟩ [shape]
  let tree := Ty.named ⟨"q", "Tree"⟩ [shape]
  [.pointer (.named ⟨"q", "Grove"⟩ []), .named ⟨"q", "Grove"⟩ [], .map tree chain, tree, chain,
    shape, node, .pointer node, .pointer tree,
    .struct [⟨"value", shape, "p", false, []⟩, ⟨"next", .pointer node, "p", false, []⟩],
    .struct [⟨"root", node, "q", false, []⟩, ⟨"left", .pointer tree, "q", false, []⟩]]

theorem mem_parts {u : Ty} (hu : groves.Mentions (.pointer (.named ⟨"q", "Grove"⟩ [])) u) :
    u ∈ parts :=
  hu.mem List.mem_cons_self (by decide)

theorem mentions_shape :
    groves.Mentions (.pointer (.named ⟨"q", "Grove"⟩ [])) (.named ⟨"p", "Shape"⟩ []) := by
  have hmap : groves.Mentions (.pointer (.named ⟨"q", "Grove"⟩ []))
      (.map (.named ⟨"q", "Tree"⟩ [.named ⟨"p", "Shape"⟩ []])
        (.named ⟨"p", "Chain"⟩ [.named ⟨"p", "Shape"⟩ []])) :=
    (Relation.ReflTransGen.single (by decide : groves.Refers _ (.named ⟨"q", "Grove"⟩ []))).tail
      (by decide)
  have hchain : groves.Mentions _ (.named ⟨"p", "Chain"⟩ [.named ⟨"p", "Shape"⟩ []]) :=
    hmap.parts (List.mem_cons_of_mem _ List.mem_cons_self)
  have hnode : groves.Mentions _ (.named ⟨"p", "Node"⟩ [.named ⟨"p", "Shape"⟩ []]) :=
    hchain.tail (by decide)
  exact hnode.tail (by decide)

end groves

/-- In the grove, types lead to themselves in both packages, and an alias has an argument; the search
ends, and finds the one interface. -/
theorem interfacesIn_mentioned_groves :
    let t := Ty.pointer (.named ⟨"q", "Grove"⟩ [])
    groves.Checked groves.rank ∧ {u | groves.Mentions t u}.Finite ∧
      ∃ n, ∀ k ≥ n, ∀ u,
        u ∈ (groves.upTo k).interfacesIn (some t) ↔ u = .named ⟨"p", "Shape"⟩ [] := by
  intro t
  have hfinite : {u | groves.Mentions t u}.Finite :=
    (List.finite_toSet groves.parts).subset fun _ => groves.mem_parts
  refine ⟨groves.checked, hfinite, ?_⟩
  obtain ⟨n, hn⟩ := interfacesIn_mentioned groves.checked hfinite
  refine ⟨n, fun k hk u => ?_⟩
  obtain ⟨-, hsound, -, hexact, -⟩ := hn k hk
  constructor
  · intro hu
    obtain ⟨hmentions, hi⟩ := hsound u hu
    have hall : ∀ v ∈ groves.parts, groves.NamedInterface v → v = .named ⟨"p", "Shape"⟩ [] := by
      decide
    exact hall u (groves.mem_parts hmentions) hi
  · rintro rfl
    exact (hexact _).mpr ⟨groves.mentions_shape, by decide⟩

/-- A depth of twenty is enough for that. -/
example : groves.interfacesIn (some (.pointer (.named ⟨"q", "Grove"⟩ []))) =
    [.named ⟨"p", "Shape"⟩ []] := by
  decide +kernel

end EverEqual
