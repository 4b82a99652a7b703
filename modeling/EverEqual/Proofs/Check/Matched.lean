import EverEqual.Check.Match
import EverEqual.Package.Load
import EverEqual.Proofs.Text.Order
import Mathlib.Data.List.Nodup
import Mathlib.Data.List.Sort
import Mathlib.Data.String.Basic

/-!
# What is matched by name

Matching pairs things of one name, and it leaves out no name that both lists have. The pairs come in
the order of their names. If no name occurs twice, every two things of one name are paired, and the
names of the pairs grow strictly. Then the matches are known by what is among them, so neither the
order of the lists nor which of them comes first makes a difference.

* `ByName`: what is true of pairs that were matched;
* `byName_matchByName`: it is true of all matches;
* `eq_of_mem_iff`: pairs whose names grow strictly are known by what is among them;
* `namesakes_matched`: all that can be said of matches;
* `Package.nodup_exportedTypes`: exported types have different names if declarations have.
-/

namespace EverEqual

variable {α : Type} {name : α → String} {left right : List α} {l r : α}

/-- Pairs of things of one name, in the order of the names. -/
structure ByName (name : α → String) (left right : List α) (ms : List (α × α)) : Prop where
  /-- Only things of one name are paired. -/
  mem : ∀ m ∈ ms, m.1 ∈ left ∧ m.2 ∈ right ∧ name m.1 = name m.2
  /-- What has a namesake is in some pair. -/
  covers : ∀ l ∈ left, ∀ r ∈ right, name l = name r → ∃ m ∈ ms, m.1 = l
  sorted : ms.Pairwise fun m m' => name m.1 ≤ name m'.1
  /-- Things of one name are paired if there are no others of that name on the right. -/
  mem_of_nodup : (right.map name).Nodup → ∀ l ∈ left, ∀ r ∈ right, name l = name r → (l, r) ∈ ms
  /-- The names grow strictly if none of them occurs twice on the left. -/
  strict : (left.map name).Nodup → ms.Pairwise fun m m' => name m.1 < name m'.1

theorem lastNamed?_eq_some {s : String} (h : lastNamed? name right s = some r) :
    r ∈ right ∧ name r = s :=
  ⟨List.mem_reverse.1 (List.mem_of_find?_eq_some h), by simpa using List.find?_some h⟩

theorem exists_lastNamed? (name : α → String) (hr : r ∈ right) :
    ∃ r', lastNamed? name right (name r) = some r' := by
  rw [← Option.isSome_iff_exists, lastNamed?, List.find?_isSome]
  exact ⟨r, List.mem_reverse.2 hr, by simp⟩

theorem mem_pairsByName {m : α × α} :
    m ∈ pairsByName name left right ↔
      m.1 ∈ left ∧ lastNamed? name right (name m.1) = some m.2 := by
  obtain ⟨l, r⟩ := m
  simp [pairsByName]

theorem exists_append_of_lastNamed? {s : String} (h : lastNamed? name right s = some r) :
    ∃ before after, right = before ++ r :: after ∧ ∀ x ∈ after, name x ≠ s := by
  obtain ⟨-, after, before, hright, hafter⟩ := List.find?_eq_some_iff_append.mp h
  refine ⟨before.reverse, after.reverse, ?_, fun x hx => ?_⟩
  · simpa using congrArg List.reverse hright
  · simpa using hafter x (List.mem_reverse.mp hx)

theorem isSome_lastNamed?_iff {s : String} :
    (lastNamed? name right s).isSome = true ↔ s ∈ right.map name := by
  rw [Option.isSome_iff_exists, List.mem_map]
  constructor
  · rintro ⟨r, hr⟩
    exact ⟨r, lastNamed?_eq_some hr⟩
  · rintro ⟨r, hr, rfl⟩
    exact exists_lastNamed? name hr

theorem map_fst_pairsByName (name : α → String) (left right : List α) :
    (pairsByName name left right).map Prod.fst = left.filter fun l => name l ∈ right.map name := by
  rw [pairsByName, List.map_filterMap]
  induction left with
  | nil => rfl
  | cons l left ih =>
    rw [List.filterMap_cons, List.filter_cons, ← ih]
    cases h : lastNamed? name right (name l) with
    | none =>
      have hl : name l ∉ right.map name := by
        rw [← isSome_lastNamed?_iff, h]
        exact Bool.false_ne_true
      simp [hl]
    | some r =>
      have hl : name l ∈ right.map name := by
        rw [← isSome_lastNamed?_iff, h]
        rfl
      simp [hl]

theorem perm_matchByName (name : α → String) (left right : List α) :
    (matchByName name left right).Perm (pairsByName name left right) :=
  List.mergeSort_perm _ _

theorem sorted_matchByName (name : α → String) (left right : List α) :
    (matchByName name left right).Pairwise fun m m' => name m.1 ≤ name m'.1 := by
  refine (List.pairwise_mergeSort ?_ ?_ _).imp fun h => by simpa using h
  · intro a b c hab hbc
    simp only [decide_eq_true_eq] at *
    exact hab.trans hbc
  · intro a b
    simpa using le_total (name a.1) (name b.1)

theorem perm_map_fst_matchByName (name : α → String) (left right : List α) :
    ((matchByName name left right).map Prod.fst).Perm
      (left.filter fun l => name l ∈ right.map name) := by
  rw [← map_fst_pairsByName]
  exact (perm_matchByName name left right).map _

/-- **All that is matched is matched by name.** -/
theorem byName_matchByName (name : α → String) (left right : List α) :
    ByName name left right (matchByName name left right) := by
  have hperm := perm_matchByName name left right
  have hsorted := sorted_matchByName name left right
  refine ⟨fun m hm => ?_, fun l hl r hr hname => ?_, hsorted, fun hnodup l hl r hr hname => ?_,
    fun hnodup => ?_⟩
  · obtain ⟨hleft, hlast⟩ := mem_pairsByName.1 (hperm.mem_iff.1 hm)
    obtain ⟨hright, hname⟩ := lastNamed?_eq_some hlast
    exact ⟨hleft, hright, hname.symm⟩
  · obtain ⟨r', hr'⟩ := exists_lastNamed? name hr
    exact ⟨(l, r'), hperm.mem_iff.2 (mem_pairsByName.2 ⟨hl, hname ▸ hr'⟩), rfl⟩
  · obtain ⟨r', hr'⟩ := exists_lastNamed? name hr
    obtain ⟨hmem, hname'⟩ := lastNamed?_eq_some hr'
    obtain rfl := List.inj_on_of_nodup_map hnodup hmem hr hname'
    exact hperm.mem_iff.2 (mem_pairsByName.2 ⟨hl, hname ▸ hr'⟩)
  · have hnames : ((matchByName name left right).map fun m => name m.1).Nodup := by
      have hsub : ((left.filter fun l => name l ∈ right.map name).map name).Nodup :=
        (List.filter_sublist.map name).nodup hnodup
      have hmap := (perm_map_fst_matchByName name left right).map name
      rw [List.map_map] at hmap
      exact hmap.nodup_iff.2 hsub
    exact (hsorted.and (List.pairwise_map.1 hnames)).imp fun ⟨hle, hne⟩ => lt_of_le_of_ne hle hne

/-! ### Matches without repeated names -/

/-- Pairs whose names grow strictly are known by what is among them. -/
theorem eq_of_mem_iff {ms ms' : List (α × α)} (hms : ms.Pairwise fun m m' => name m.1 < name m'.1)
    (hms' : ms'.Pairwise fun m m' => name m.1 < name m'.1) (h : ∀ m, m ∈ ms ↔ m ∈ ms') :
    ms = ms' := by
  have hnodup : ∀ {ms : List (α × α)}, (ms.Pairwise fun m m' => name m.1 < name m'.1) → ms.Nodup :=
    fun h => h.imp fun hlt heq => absurd (heq ▸ hlt) (lt_irrefl _)
  refine List.Perm.eq_of_pairwise (fun m m' _ _ hlt hlt' => absurd hlt hlt'.asymm) hms hms' ?_
  exact (List.perm_ext_iff_of_nodup (hnodup hms) (hnodup hms')).mpr h

theorem mem_matchByName_iff (hright : (right.map name).Nodup) {m : α × α} :
    m ∈ matchByName name left right ↔ m.1 ∈ left ∧ m.2 ∈ right ∧ name m.1 = name m.2 := by
  have hall := byName_matchByName name left right
  exact ⟨hall.mem m, fun ⟨hl, hr, hname⟩ => hall.mem_of_nodup hright m.1 hl m.2 hr hname⟩

/-- The order of the lists makes no difference. -/
theorem matchByName_eq_of_perm {left' right' : List α} (hleft : (left.map name).Nodup)
    (hright : (right.map name).Nodup) (hl : left'.Perm left) (hr : right'.Perm right) :
    matchByName name left' right' = matchByName name left right := by
  have hleft' : (left'.map name).Nodup := (hl.map name).nodup_iff.mpr hleft
  have hright' : (right'.map name).Nodup := (hr.map name).nodup_iff.mpr hright
  refine eq_of_mem_iff ((byName_matchByName name left' right').strict hleft')
    ((byName_matchByName name left right).strict hleft) fun m => ?_
  rw [mem_matchByName_iff hright', mem_matchByName_iff hright, hl.mem_iff, hr.mem_iff]

/-- Nor does it which of them comes first, but for the sides of the pairs. -/
theorem matchByName_swap (hleft : (left.map name).Nodup) (hright : (right.map name).Nodup) :
    matchByName name right left = (matchByName name left right).map Prod.swap := by
  have hall := byName_matchByName name left right
  have hstrict : ((matchByName name left right).map Prod.swap).Pairwise
      fun m m' => name m.1 < name m'.1 := by
    refine List.pairwise_map.mpr ((hall.strict hleft).imp_of_mem fun hm hm' hlt => ?_)
    rw [(hall.mem _ hm).2.2, (hall.mem _ hm').2.2] at hlt
    exact hlt
  refine eq_of_mem_iff ((byName_matchByName name right left).strict hright) hstrict fun m => ?_
  rw [mem_matchByName_iff hleft, List.mem_map]
  constructor
  · rintro ⟨hr, hl, hname⟩
    exact ⟨m.swap, (mem_matchByName_iff hright).mpr ⟨hl, hr, hname.symm⟩, m.swap_swap⟩
  · rintro ⟨m', hm', rfl⟩
    obtain ⟨hl, hr, hname⟩ := (mem_matchByName_iff hright).mp hm'
    exact ⟨hr, hl, hname.symm⟩

/-- **Namesakes are matched.** The pairs come in the order of the bytes of their names. Their left
sides are what has a namesake on the right, as often as it is on the left, and each right side is
the last thing there of that name. If no name occurs twice on either side, the lists may be put in
any order, and the lists may change places: only the sides of the pairs change with them. -/
theorem namesakes_matched (name : α → String) (left right : List α) :
    let ms := matchByName name left right
    (ms.Pairwise fun m m' => Text.bytesOf (name m.1) ≤ Text.bytesOf (name m'.1)) ∧
    (ms.map Prod.fst).Perm (left.filter fun l => name l ∈ right.map name) ∧
    (∀ m ∈ ms, name m.2 = name m.1 ∧
      ∃ before after, right = before ++ m.2 :: after ∧ ∀ r ∈ after, name r ≠ name m.1) ∧
    ((left.map name).Nodup → (right.map name).Nodup →
      (∀ left' right', left'.Perm left → right'.Perm right →
        matchByName name left' right' = ms) ∧
      matchByName name right left = ms.map Prod.swap) := by
  intro ms
  refine ⟨?_, perm_map_fst_matchByName name left right, fun m hm => ?_, fun hleft hright => ?_⟩
  · exact (sorted_matchByName name left right).imp Text.bytesOf_le_bytesOf_iff.mpr
  · have hlast := (mem_pairsByName.mp ((perm_matchByName name left right).mem_iff.mp hm)).2
    exact ⟨(lastNamed?_eq_some hlast).2, exists_append_of_lastNamed? hlast⟩
  · exact ⟨fun _ _ hl hr => matchByName_eq_of_perm hleft hright hl hr,
      matchByName_swap hleft hright⟩

/-- Names that differ in case are different, and a name on one side only is left out. -/
theorem namesakes_matched_users :
    let left := [("User", 1), ("Address", 2), ("user", 3)]
    let right := [("Tag", 4), ("User", 5), ("Address", 6)]
    ((left.map Prod.fst).Nodup ∧ (right.map Prod.fst).Nodup) ∧
      matchByName Prod.fst left right =
        [(("Address", 2), ("Address", 6)), (("User", 1), ("User", 5))] ∧
      matchByName Prod.fst right left =
        [(("Address", 6), ("Address", 2)), (("User", 5), ("User", 1))] := by
  intro left right
  have hleft : (left.map Prod.fst).Nodup := by decide
  have hright : (right.map Prod.fst).Nodup := by decide
  have hms : matchByName Prod.fst left right =
      [(("Address", 2), ("Address", 6)), (("User", 1), ("User", 5))] := by
    simp [matchByName, pairsByName, lastNamed?, left, right, List.mergeSort,
      List.MergeSort.Internal.splitInTwo]
  refine ⟨⟨hleft, hright⟩, hms, ?_⟩
  rw [((namesakes_matched Prod.fst left right).2.2.2 hleft hright).2, hms]
  rfl

theorem Package.nodup_exportedTypes {p : Package} (h : (p.declarations.map (·.name)).Nodup) :
    (p.exportedTypes.map (·.name)).Nodup := by
  rw [exportedTypes, ((List.mergeSort_perm _ _).map _).nodup_iff, List.map_map]
  exact (List.filter_sublist.map _).nodup h

end EverEqual
