import EverEqual.Proofs.Types.Occurrences
import Mathlib.Data.Set.Finite.Basic

/-!
# Expansions and marks

What the search keeps in order. Every instance that it expands has one mark, which bears a twin of
the instance. A context is opened by an expansion; what is expanded in the context is declared in
the package of that expansion, and a context that is opened inside another one belongs to a lower
package. So contexts are not nested without end.

* `World.Territory`: the types that a search can come across;
* `World.Regular`: what holds of every discovery;
* `World.Territory.mark_of_named`: the mark of a name;
* `World.Regular.expand`: an expansion keeps order, and its arguments are twins of those asked for.
-/

namespace EverEqual

/-- The type that a mark stands for. -/
def Mark.type : Mark → Ty
  | .name _ t | .place _ _ _ t => t

/-- An expansion that has opened its own context. -/
def Discovery.Opens (d : Discovery) (c : Nat) (e : Expansion) : Prop :=
  d.expansions[c]? = some e ∧ e.context = c

namespace World

open Discovery

/-- The types that a search can come across: those of `F` by visiting them, and those of `G` by
expanding them on the way to an underlying type. They are finitely many, and each is seen whole
within the horizon. -/
structure Territory (w : World) (rank : String → Nat) (F G : Set Ty) : Prop where
  checked : w.Checked rank
  closed {t u} (ht : t ∈ F) (h : w.Refers t u) : u ∈ F
  subset : F ⊆ G
  type_mem {n d} (h : w.declaration? n = some d) : w.unalias d.type ∈ G
  finite : G.Finite
  horizon {t} (ht : t ∈ G) : sizeOf t < w.horizon

/-- What holds of an expansion, by its number. -/
structure RegularExpansion (w : World) (rank : String → Nat) (F G : Set Ty) (d : Discovery)
    (i : Nat) (e : Expansion) : Prop where
  declared : (w.declaration? e.owner).isSome
  underlying_mem : w.underlying (.named e.owner e.args) ∈ F
  sourced : d.Sourced rank e
  /-- The mark bears a twin. If it was made in a context, the expansion continues that context, or
  opens one that belongs to a lower package. -/
  mark : ∃ c u, e.mark = .name c u ∧ u ∈ G ∧ w.Twin u (.named e.owner e.args) ∧
    ∀ c₀, c = some c₀ → c₀ < i ∧ ∃ e₀, d.Opens c₀ e₀ ∧
      (e.context = c₀ ∨ rank e.owner.path < rank e₀.owner.path)
  opener : ∃ e₀, d.Opens e.context e₀ ∧ e₀.owner.path = e.owner.path

/-- What holds of every discovery: of its expansions, and of the types that it has seen. -/
structure Regular (w : World) (rank : String → Nat) (F G : Set Ty) (d : Discovery) : Prop where
  expansion {i e} (h : d.expansions[i]? = some e) : w.RegularExpansion rank F G d i e
  marks : (d.expansions.map (·.mark)).Nodup
  seen_nodup : d.seen.Nodup
  seen_mem {m} (h : m ∈ d.seen) : m.type ∈ G
  seen_opened {c u} (h : .name (some c) u ∈ d.seen) : ∃ e₀, d.Opens c e₀

variable {w : World} {rank : String → Nat} {F G : Set Ty} {d d' : Discovery} {o : Occurrence}
  {e : Expansion} {n : TypeName} {args : List Ty} {t : Ty} {m : Mark} {i : Nat}

theorem Regular.of_expansion? (hd : w.Regular rank F G d) {scope : Nat}
    (he : d.expansion? scope = some e) : ∃ i, w.RegularExpansion rank F G d i e := by
  rw [expansion?] at he
  split at he
  · cases he
  · exact ⟨_, hd.expansion he⟩

theorem Regular.sourced (hd : w.Regular rank F G d) :
    ∀ e, d.expansion? o.scope = some e → d.Sourced rank e := by
  intro e he
  obtain ⟨i, hi⟩ := hd.of_expansion? he
  exact hi.sourced

/-! ### Marks -/

theorem mem_expansions_of_expansion? {scope : Nat} (he : d.expansion? scope = some e) :
    e ∈ d.expansions := by
  rw [expansion?] at he
  split at he
  · cases he
  · exact List.mem_of_getElem? he

/-- The mark of an instance that was made in the context of an expansion. -/
theorem Territory.instanceMark_cases (h : w.Territory rank F G) (hd : w.Regular rank F G d)
    (ht : t ∈ G) (e : Expansion) :
    ∃ c u, w.instanceMark d e t = .name c u ∧ u ∈ G ∧ w.Twin t u ∧
      ((∃ e₀ ∈ d.expansions, e₀.mark = .name c u) ∨ c = some e.context) := by
  have htwin : ∀ u, w.spelledAlike t u = true → w.Twin t u := fun u =>
    Twin.of_spelledAlike (h.horizon ht)
  rw [instanceMark]
  split
  · next m hm =>
    have halike := List.find?_some hm
    obtain ⟨e₀, he₀, rfl⟩ := Option.map_eq_some_iff.mp
      (Option.mem_toList.mp (List.mem_of_find?_eq_some hm))
    have hmem := mem_expansions_of_expansion? he₀
    obtain ⟨i, hi⟩ := hd.of_expansion? he₀
    obtain ⟨c, u, hmark, hu, -⟩ := hi.mark
    rw [hmark] at halike ⊢
    exact ⟨c, u, rfl, hu, htwin u halike, .inl ⟨e₀, hmem, hmark⟩⟩
  · cases hseen : d.seen.find? _ with
    | none => exact ⟨some e.context, t, rfl, ht, .refl w t, .inr rfl⟩
    | some m =>
      have hm := hd.seen_mem (List.mem_of_find?_eq_some hseen)
      have halike := List.find?_some hseen
      cases m with
      | name c u =>
        simp only [Bool.and_eq_true, decide_eq_true_eq] at halike
        exact ⟨c, u, rfl, hm, htwin u halike.2, .inr halike.1⟩
      | place _ _ _ _ => cases halike

/-- The mark of a name bears a twin of it. It was made outside of all contexts, or it is that of an
expansion, or it was made in the context of the expansion that fills the parameters. -/
theorem Territory.mark_of_named (h : w.Territory rank F G) (hd : w.Regular rank F G d)
    (ht : d.typeOf o = .named n args) (hmem : .named n args ∈ G) :
    ∃ c u, w.mark d o = .name c u ∧ u ∈ G ∧ w.Twin (.named n args) u ∧
      (c = none ∨ (∃ e ∈ d.expansions, e.mark = .name c u) ∨
        ∃ e, d.expansion? o.scope = some e ∧ c = some e.context) := by
  rw [mark, ht]
  cases he : d.expansion? o.scope with
  | none => exact ⟨none, _, rfl, hmem, .refl w _, .inl rfl⟩
  | some e =>
    dsimp only
    split
    · obtain ⟨c, u, hmark, hu, htwin, hc⟩ := h.instanceMark_cases hd hmem e
      exact ⟨c, u, hmark, hu, htwin, .inr (hc.imp id fun hc => ⟨e, rfl, hc⟩)⟩
    · exact ⟨none, _, rfl, hmem, .refl w _, .inl rfl⟩

theorem mark_of_not_named (ht : ∀ n xs, d.typeOf o ≠ .named n xs) :
    w.mark d o = .place o.home o.path (if d.depends o then o.scope else 0) (d.typeOf o) := by
  rw [mark]
  split
  · next n xs _ hname _ => exact absurd hname (ht n xs)
  · next n xs hname _ => exact absurd hname (ht n xs)
  · rfl

theorem Regular.exists_opener (hd : w.Regular rank F G d) {c : Nat} {u : Ty}
    (hc : (∃ e ∈ d.expansions, e.mark = .name (some c) u) ∨
      ∃ e, d.expansion? o.scope = some e ∧ c = e.context) : ∃ e₀, d.Opens c e₀ := by
  rcases hc with ⟨e, he, hmark⟩ | ⟨e, he, rfl⟩
  · obtain ⟨i, hi⟩ := List.mem_iff_getElem?.mp he
    obtain ⟨c', u', hmark', -, -, hopen⟩ := (hd.expansion hi).mark
    obtain ⟨rfl, rfl⟩ := Mark.name.inj (hmark.symm.trans hmark')
    obtain ⟨-, e₀, he₀, -⟩ := hopen c rfl
    exact ⟨e₀, he₀⟩
  · obtain ⟨i, hi⟩ := hd.of_expansion? he
    obtain ⟨e₀, he₀, -⟩ := hi.opener
    exact ⟨e₀, he₀⟩

/-! ### Expanding -/

theorem later_append (d : Discovery) (e : Expansion) :
    d.Later { d with expansions := d.expansions ++ [e] } :=
  ⟨List.prefix_append _ _, fun _ h => h, fun _ h => h⟩

theorem RegularExpansion.later (he : w.RegularExpansion rank F G d i e) (h : d.Later d') :
    w.RegularExpansion rank F G d' i e := by
  have hopens : ∀ {c e₀}, d.Opens c e₀ → d'.Opens c e₀ := fun ⟨hc, hcontext⟩ =>
    ⟨h.getElem?_expansions hc, hcontext⟩
  obtain ⟨c, u, hmark, hu, htwin, hc⟩ := he.mark
  obtain ⟨e₀, he₀, hpath⟩ := he.opener
  refine ⟨he.declared, he.underlying_mem, h.sourced he.sourced,
    ⟨c, u, hmark, hu, htwin, fun c₀ hc₀ => ?_⟩, e₀, hopens he₀, hpath⟩
  obtain ⟨hlt, e₁, he₁, hrank⟩ := hc c₀ hc₀
  exact ⟨hlt, e₁, hopens he₁, hrank⟩

/-- An instance that has not been expanded is expanded in the context of its mark, if its
declaration is of the package there, and otherwise in a context of its own. -/
theorem expand_of_mark (args : List Ty) {c : Option Nat} {u : Ty} (hmark : w.mark d o = .name c u)
    (hfresh : d.expansions.findIdx? (·.mark = .name c u) = none) {ys : List Ty}
    (hwritten : o.written = .named n ys) :
    ∃ context, w.expand d o n args =
        ({ d with expansions := d.expansions ++ [⟨.name c u, n, args, d.inside o ys, context⟩] },
          d.expansions.length + 1) ∧
      ((context = d.expansions.length ∧ ∀ c₀ e, c = some c₀ → d.expansion? o.scope = some e →
          e.owner.path ≠ n.path) ∨
        ∃ e, c = some context ∧ d.expansion? o.scope = some e ∧ e.owner.path = n.path) := by
  rw [expand, hmark]
  simp only [hfresh, hwritten]
  refine ⟨_, rfl, ?_⟩
  split
  · next c' u' e hm he =>
    cases hm
    split
    · next hpath => exact .inr ⟨e, rfl, he, hpath⟩
    · next hpath =>
      refine .inl ⟨rfl, fun c₀ e' _ he' => ?_⟩
      rw [he] at he'
      cases he'
      exact hpath
  · next hother =>
    exact .inl ⟨rfl, fun c₀ e hc he => absurd he (hother c₀ u e (by rw [hc]))⟩

/-- What is new in a discovery are expansions. -/
structure Expanded (w : World) (rank : String → Nat) (F G : Set Ty) (d d' : Discovery) : Prop where
  regular : w.Regular rank F G d'
  later : d.Later d'
  seen : d'.seen = d.seen
  found : d'.found = d.found

theorem Regular.expanded (hd : w.Regular rank F G d) : w.Expanded rank F G d d :=
  ⟨hd, .refl d, rfl, rfl⟩

theorem Regular.append (hd : w.Regular rank F G d) (hfresh : ∀ e' ∈ d.expansions, e'.mark ≠ e.mark)
    (he : w.RegularExpansion rank F G { d with expansions := d.expansions ++ [e] }
      d.expansions.length e) :
    w.Expanded rank F G d { d with expansions := d.expansions ++ [e] } := by
  have hlater := later_append d e
  refine ⟨⟨fun {i e'} hi => ?_, ?_, hd.seen_nodup, hd.seen_mem, fun {c u} hm => ?_⟩, hlater, rfl,
    rfl⟩
  · rcases lt_trichotomy i d.expansions.length with hlt | rfl | hgt
    · rw [List.getElem?_append_left hlt] at hi
      exact (hd.expansion hi).later hlater
    · rw [List.getElem?_concat_length] at hi
      exact Option.some.inj hi ▸ he
    · rw [List.getElem?_append_right hgt.le, List.getElem?_singleton,
        if_neg (Nat.sub_ne_zero_of_lt hgt)] at hi
      cases hi
  · rw [List.map_append, List.map_singleton, List.nodup_append]
    refine ⟨hd.marks, List.nodup_singleton _, fun m hm m' hm' => ?_⟩
    obtain ⟨e', he', rfl⟩ := List.mem_map.mp hm
    exact List.mem_singleton.mp hm' ▸ hfresh e' he'
  · obtain ⟨e₀, he₀, hcontext⟩ := hd.seen_opened hm
    exact ⟨e₀, hlater.getElem?_expansions he₀, hcontext⟩

/-- What holds of an expansion that is made in the context of its mark, or in one of its own. -/
theorem Regular.regularExpansion (hd : w.Regular rank F G d)
    (ho : d.Placed rank o) {ys : List Ty} (hwritten : o.written = .named n ys)
    (hargs : args = ys.map (d.fill o)) (hunder : w.underlying (.named n args) ∈ F)
    (hn : (w.declaration? n).isSome) {c : Option Nat} {u : Ty} (hu : u ∈ G)
    (htwin : w.Twin u (.named n args))
    (hc : ∀ c₀, c = some c₀ → ∃ e, d.expansion? o.scope = some e ∧ c₀ = e.context) {context : Nat}
    (hcontext : (context = d.expansions.length ∧ ∀ c₀ e, c = some c₀ →
        d.expansion? o.scope = some e → e.owner.path ≠ n.path) ∨
      ∃ e, c = some context ∧ d.expansion? o.scope = some e ∧ e.owner.path = n.path) :
    w.RegularExpansion rank F G
      { d with expansions := d.expansions ++ [⟨.name c u, n, args, d.inside o ys, context⟩] }
      d.expansions.length ⟨.name c u, n, args, d.inside o ys, context⟩ := by
  have hlater := later_append d ⟨.name c u, n, args, d.inside o ys, context⟩
  have hchildren : ∀ t ∈ ys, t ∈ o.written.children := hwritten ▸ fun _ ht => ht
  refine ⟨hn, hunder, hlater.sourced ⟨?_, ho.inside hd.sourced hchildren⟩,
    ⟨c, u, rfl, hu, htwin, fun c₀ hc₀ => ?_⟩, ?_⟩
  · exact (typeOf_inside hd.sourced ys).trans hargs.symm
  · obtain ⟨e, he, rfl⟩ := hc c₀ hc₀
    obtain ⟨i, hi⟩ := hd.of_expansion? he
    obtain ⟨e₀, he₀, hpath⟩ := hi.opener
    refine ⟨(List.getElem?_eq_some_iff.mp he₀.1).1, e₀,
      ⟨hlater.getElem?_expansions he₀.1, he₀.2⟩, ?_⟩
    rcases hcontext with ⟨-, hother⟩ | ⟨e', hcontext, -⟩
    · -- The name stands in a type that is written in the package of the expansion.
      have hlayered : Layered rank e.owner n := by
        rcases ho with hscope | ⟨e', he', hnames, -⟩
        · rw [expansion?, if_pos hscope] at he
          cases he
        · obtain rfl := Option.some.inj (he.symm.trans he')
          exact (hwritten ▸ hnames).head
      rw [hpath]
      exact .inr (hlayered.resolve_left fun hn => hother _ e hc₀ he hn.symm)
    · exact .inl (Option.some.inj (hcontext.symm.trans hc₀))
  · rcases hcontext with ⟨hcontext, -⟩ | ⟨e, hcontext, he, hpath⟩
    · exact ⟨_, ⟨hcontext ▸ List.getElem?_concat_length, rfl⟩, rfl⟩
    · obtain ⟨e', he', rfl⟩ := hc context hcontext
      obtain rfl := Option.some.inj (he.symm.trans he')
      obtain ⟨i, hi⟩ := hd.of_expansion? he
      obtain ⟨e₀, he₀, hpath₀⟩ := hi.opener
      exact ⟨e₀, ⟨hlater.getElem?_expansions he₀.1, he₀.2⟩, hpath₀.trans hpath⟩

/-- **An instance is expanded under its mark.** If it has been expanded before, then with arguments
that are twins of its own. -/
theorem Territory.expand (h : w.Territory rank F G) (hd : w.Regular rank F G d)
    (ho : d.Placed rank o) (ht : d.typeOf o = .named n args) (hmem : .named n args ∈ G)
    (hunder : w.underlying (.named n args) ∈ F) (hn : (w.declaration? n).isSome) :
    ∃ d' scope e, w.expand d o n args = (d', scope) ∧ w.Expanded rank F G d d' ∧ scope ≠ 0 ∧
      d'.expansion? scope = some e ∧ e.owner = n ∧ List.Forall₂ w.Twin args e.args := by
  obtain ⟨c, u, hmark, hu, htwin, hc⟩ := h.mark_of_named hd ht hmem
  obtain ⟨ys, hwritten, hargs⟩ := ho.exists_written ht
  cases hfind : d.expansions.findIdx? (·.mark = .name c u) with
  | some i =>
    obtain ⟨hi, hsame, -⟩ := List.findIdx?_eq_some_iff_getElem.mp hfind
    have he := List.getElem?_eq_getElem hi
    obtain ⟨c', u', hmark', -, htwin', -⟩ := (hd.expansion he).mark
    obtain ⟨rfl, rfl⟩ := Mark.name.inj (hmark'.symm.trans (of_decide_eq_true hsame))
    obtain ⟨zs, hzs, hall⟩ := (htwin.trans htwin').exists_named
    obtain ⟨howner, rfl⟩ := Ty.named.inj hzs
    refine ⟨d, i + 1, d.expansions[i], ?_, hd.expanded, Nat.succ_ne_zero i, he, howner, hall⟩
    rw [World.expand, hmark]
    simp only [hfind]
  | none =>
    have hfresh : ∀ e' ∈ d.expansions, e'.mark ≠ .name c u := fun e' he' heq =>
      absurd (decide_eq_true heq) (List.findIdx?_eq_none_iff.mp hfind e' he' ▸ Bool.false_ne_true)
    obtain ⟨context, heq, hcontext⟩ := expand_of_mark args hmark hfind hwritten
    have hinner : ∀ c₀, c = some c₀ → ∃ e, d.expansion? o.scope = some e ∧ c₀ = e.context := by
      rintro c₀ rfl
      rcases hc with hc | ⟨e', he', hsame⟩ | ⟨e, he, hc⟩
      · cases hc
      · exact absurd hsame (hfresh e' he')
      · exact ⟨e, he, Option.some.inj hc⟩
    refine ⟨_, _, ⟨.name c u, n, args, d.inside o ys, context⟩, heq, hd.append hfresh ?_,
      Nat.succ_ne_zero _, List.getElem?_concat_length, rfl, Twin.refls w args⟩
    exact hd.regularExpansion ho hwritten hargs hunder hn hu htwin.symm hinner hcontext

end World

end EverEqual
