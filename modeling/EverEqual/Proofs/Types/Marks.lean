import EverEqual.Proofs.Types.Following
import Mathlib.Data.Set.Card
import Mathlib.Data.Set.Finite.List
import Mathlib.Data.Set.Finite.Lattice

/-!
# How many names there are to visit

A name is marked with the context in which it was made, and the context was opened by an expansion
under a mark of its own, and so on. The types of these marks, from the innermost one, identify a
mark. Since each context belongs to a lower package than the one around it, the list has at most one
type for each rank of a package, and one for the name. So only so many names can be marked, in
whatever order they are met.

* `Coded`: the types of a mark and of the contexts around it;
* `Coded.unique`: the mark is known by them;
* `World.Regular.exists_code`: there are few of them;
* `World.Regular.names_le`: how many names a search can visit.
-/

namespace EverEqual

/-- Whether a mark is that of a name. -/
def Mark.isName : Mark → Bool
  | .name _ _ => true
  | .place _ _ _ _ => false

/-- The number of names that have been visited. -/
def Discovery.names (d : Discovery) : Nat :=
  (d.seen.filter Mark.isName).length

/-- The types of a mark and of the marks of the expansions that opened the contexts around it. -/
inductive Coded (d : Discovery) : Mark → List Ty → Prop
  | outer (t : Ty) : Coded d (.name none t) [t]
  | inner {c : Nat} {e : Expansion} {t : Ty} {ts : List Ty} (he : d.expansions[c]? = some e)
    (h : Coded d e.mark ts) : Coded d (.name (some c) t) (t :: ts)

variable {d : Discovery} {m m' : Mark} {ts : List Ty}

theorem Coded.ne_nil (h : Coded d m ts) : ts ≠ [] := by
  cases h <;> exact List.cons_ne_nil _ _

theorem Coded.unique (hd : (d.expansions.map (·.mark)).Nodup) (h : Coded d m ts)
    (h' : Coded d m' ts) : m = m' := by
  induction h generalizing m' with
  | outer t =>
    cases h' with
    | outer _ => rfl
    | inner _ h' => exact absurd rfl h'.ne_nil
  | @inner c e t ts he h ih =>
    cases h' with
    | outer _ => exact absurd rfl h.ne_nil
    | @inner c' e' _ _ he' h' =>
      have hlt : c < (d.expansions.map (·.mark)).length := by
        rw [List.length_map]
        exact (List.getElem?_eq_some_iff.mp he).1
      have hsame : (d.expansions.map (·.mark))[c]? = (d.expansions.map (·.mark))[c']? := by
        rw [List.getElem?_map, List.getElem?_map, he, he']
        exact congrArg some (ih h')
      rw [(List.getElem?_inj hlt hd).mp hsame]

namespace World

open Discovery

variable {w : World} {rank : String → Nat} {F G : Set Ty} {R : Nat}

theorem exists_rank_le (w : World) (rank : String → Nat) :
    ∃ R, ∀ n, (w.declaration? n).isSome → rank n.path ≤ R := by
  obtain ⟨R, hR⟩ := ((List.finite_toSet w.entries).image fun e => rank e.1.path).bddAbove
  refine ⟨R, fun n hn => ?_⟩
  obtain ⟨d, hd⟩ := Option.isSome_iff_exists.mp hn
  exact hR ⟨(n, d), mem_entries hd, rfl⟩

theorem Regular.exists_code_opener (hd : w.Regular rank F G d)
    (hR : ∀ n, (w.declaration? n).isSome → rank n.path ≤ R) (i : Nat) :
    ∀ e, d.Opens i e → ∃ ts, Coded d e.mark ts ∧ ts.length + rank e.owner.path ≤ R + 1 ∧
      ∀ t ∈ ts, t ∈ G := by
  induction i using Nat.strong_induction_on with
  | h i ih =>
    intro e ⟨he, hcontext⟩
    have hreg := hd.expansion he
    obtain ⟨c, u, hmark, hu, -, hc⟩ := hreg.mark
    have hrank := hR e.owner hreg.declared
    rw [hmark]
    cases c with
    | none =>
      refine ⟨[u], .outer u, ?_, fun t ht => List.mem_singleton.mp ht ▸ hu⟩
      rw [List.length_singleton]
      omega
    | some c =>
      obtain ⟨hlt, e₀, he₀, hcases⟩ := hc c rfl
      obtain ⟨ts, hts, hlength, hG⟩ := ih c hlt e₀ he₀
      have hbelow : rank e.owner.path < rank e₀.owner.path :=
        hcases.resolve_left fun hsame => hlt.ne (hsame.symm.trans hcontext)
      refine ⟨u :: ts, .inner he₀.1 hts, ?_, List.forall_mem_cons.mpr ⟨hu, hG⟩⟩
      rw [List.length_cons]
      omega

/-- The codes of the marks of names. -/
def codes (G : Set Ty) (R : Nat) : Set (List Ty) :=
  {ts | ts.length ≤ R + 2 ∧ ∀ t ∈ ts, t ∈ G}

theorem finite_codes (hG : G.Finite) : (codes G R).Finite := by
  have := hG.to_subtype
  refine ((List.finite_length_le G (R + 2)).image (List.map Subtype.val)).subset ?_
  rintro ts ⟨hlength, hmem⟩
  lift ts to List G using hmem
  exact ⟨ts, by simpa using hlength, rfl⟩

/-- Every name that has been visited is known by few types. -/
theorem Regular.exists_code (hd : w.Regular rank F G d)
    (hR : ∀ n, (w.declaration? n).isSome → rank n.path ≤ R) (hm : m ∈ d.seen)
    (hname : m.isName = true) : ∃ ts ∈ codes G R, Coded d m ts := by
  have hmem := hd.seen_mem hm
  cases m with
  | place _ _ _ _ => cases hname
  | name c u =>
    cases c with
    | none =>
      exact ⟨[u], ⟨by simp, fun t ht => List.mem_singleton.mp ht ▸ hmem⟩, .outer u⟩
    | some c =>
      obtain ⟨e₀, he₀⟩ := hd.seen_opened hm
      obtain ⟨ts, hts, hlength, hG⟩ := hd.exists_code_opener hR c e₀ he₀
      refine ⟨u :: ts, ⟨?_, List.forall_mem_cons.mpr ⟨hmem, hG⟩⟩, .inner he₀.1 hts⟩
      rw [List.length_cons]
      omega

/-- **A search visits only so many names.** -/
theorem Regular.names_le (hd : w.Regular rank F G d) (hG : G.Finite)
    (hR : ∀ n, (w.declaration? n).isSome → rank n.path ≤ R) :
    d.names ≤ (codes G R).ncard := by
  have hcode : ∀ m ∈ d.seen.filter Mark.isName, ∃ ts, ts ∈ codes G R ∧ Coded d m ts := by
    intro m hm
    obtain ⟨hseen, hname⟩ := List.mem_filter.mp hm
    obtain ⟨ts, hts, hcoded⟩ := hd.exists_code hR hseen hname
    exact ⟨ts, hts, hcoded⟩
  choose! code hcodes hcoded using hcode
  have hnodup : ((d.seen.filter Mark.isName).map code).Nodup := by
    refine (hd.seen_nodup.filter _).map_on fun m hm m' hm' hsame => ?_
    exact (hcoded m hm).unique hd.marks (hsame ▸ hcoded m' hm')
  rw [names, ← List.length_map code, ← List.toFinset_card_of_nodup hnodup, ← Set.ncard_coe_finset]
  refine Set.ncard_le_ncard (fun ts hts => ?_) (finite_codes hG)
  obtain ⟨m, hm, rfl⟩ := List.mem_map.mp (List.mem_toFinset.mp hts)
  exact hcodes m hm

end World

end EverEqual
