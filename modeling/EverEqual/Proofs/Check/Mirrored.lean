import EverEqual.Proofs.Check.Remembered
import EverEqual.Proofs.Describe.Core
import EverEqual.Proofs.Describe.Sketched

/-!
# Descriptors mirror types

While a type is described, the descriptors of its parts are looked up or made, and some of them are
not finished by then. In the end the descriptor of a type refers to exactly what the describer
returns for its parts, in recursive types too and in whatever order types are described. This rests
on texts that tell types apart. An unnamed interface without methods is remembered by the common
identity of all such interfaces; if a declared interface is written the same, then what is returned
for the unnamed one depends on which of them has been described by then.

* `Draft.Has`: what the describer returns for a type from now on;
* `Draft.Mirrors`: a descriptor refers to what the describer has for the parts of the type;
* `Draft.exists_serve_shown`: requests are served, and all that is returned shows its type;
* `parts_mirrored`: all descriptors that were returned mirror what was asked for;
* `mirrored_restated`: a pointer that does not, where two types are written alike.
-/

namespace EverEqual

namespace Draft

variable {w : World} {interfaces : List Ty} {roots : Set Ty} {s : Draft} {t u e : Ty} {x y : Ref}

/-- The describer has a descriptor for a type: a description returns it and changes nothing. -/
def Has (w : World) (s : Draft) (t : Ty) (r : Ref) : Prop :=
  ∀ depth, 0 < depth → s.describeTo w depth (some t) = .ok (r, s)

theorem Has.unique (hx : s.Has w t x) (hy : s.Has w t y) : x = y := by
  have hsame := (hx 1 Nat.one_pos).symm.trans (hy 1 Nat.one_pos)
  exact congrArg Prod.fst (Except.ok.inj hsame)

theorem Sketched.has_of_shows (h : s.Sketched w roots) (hw : w.Discerning roots)
    (hx : w.Shows roots s t x) : s.Has w t x := by
  intro depth hdepth
  obtain ⟨k, rfl⟩ := Nat.exists_eq_succ_of_ne_zero hdepth.ne'
  cases htext : s.describer.memo.lookup (w.text t) with
  | some y =>
    obtain rfl : y = x := (h.shows_of_found hw hx.1 (Or.inl htext)).2.unique hx.2
    exact World.run_describeIn_of_text k htext
  | none => exact World.run_describeIn_of_entry k htext hx.2

theorem sustains_sketched (hw : w.Discerning roots) : Sustains w roots (Sketched w roots) where
  upholds := upholds_sketched hw
  register := by
    intro s ts h
    have hmemo := (Describer.register_frame (w := w) s.describer ts).1
    have hrem : Remembers { s with describer := s.describer.register w ts } = s.Remembers := by
      funext e r
      unfold Remembers
      rw [hmemo]
    have hshows : ∀ {t r}, w.Shows roots { s with describer := s.describer.register w ts } t r →
        w.Shows roots s t r := fun hr => ⟨hr.1, hrem ▸ hr.2⟩
    refine ⟨fun e r hr => h.known e r (hrem ▸ hr), fun e f r he hf => ?_,
      fun t r hr => h.head t r (hshows hr), fun t r hr hdone => ?_⟩
    · exact h.injective e f r (hrem ▸ he) (hrem ▸ hf)
    · rw [hrem]
      exact h.depicts t r (hshows hr) hdone
  add := by
    intro s interfaces hs h
    have hnode : ∀ {t r}, w.Shows roots s t r → (s.graph.add .missing).1.node r = s.graph.node r :=
      fun hr => by rw [Graph.node_add, if_neg (Nat.ne_of_lt (hs.inside _ ⟨_, hr.2⟩))]
    refine ⟨h.known, h.injective, fun t r hr => ?_, fun t r hr hdone => ?_⟩
    · rw [hnode hr]
      exact h.head t r hr
    · rw [hnode hr] at hdone ⊢
      exact h.depicts t r hr hdone

theorem sketched_start (w : World) (roots : Set Ty) : Sketched w roots {} where
  known e r hr := by cases hr
  injective e f r hr := by cases hr
  head t r hr := by cases hr.2
  depicts t r hr := by cases hr.2

/-! ### Mirrors -/

/-- A descriptor refers to what the describer has for the parts of the type. Elements that could be
anything are left out. -/
structure Mirrors (w : World) (s : Draft) (t : Ty) (r : Ref) : Prop where
  pointer : ∀ e, w.core t = .pointer e →
    ∃ x, (s.graph.node r).underlying = some x ∧ s.Has w e x
  element : ∀ e, (w.core t).item? = some e ∨ w.rangeElements (w.core t) = some ⟨none, e⟩ →
    if w.isEmptyInterface e then (s.graph.node r).element = none
    else ∃ x, (s.graph.node r).element = some x ∧ s.Has w e x
  entries : ∀ k e, w.core t = .map k e →
    ∃ x y, (s.graph.node r).key = some x ∧ s.Has w k x ∧
      (s.graph.node r).element = some y ∧ s.Has w e y
  components : ∀ ts, (w.unalias t).components? = some ts →
    List.Forall₂ (s.Has w) ts (s.graph.node r).tuple
  arguments : ∀ n ts, w.unalias t = .named n ts → w.core t ≠ .invalid →
    List.Forall₂ (s.Has w) ts (s.graph.node r).typeArgs

/-- **What is remembered for a type mirrors it**, once nothing is open. -/
theorem Sketched.mirrors (h : s.Sketched w roots) (hw : w.Discerning roots)
    (hs : s.Tidy interfaces []) (hx : w.Shows roots s t x) : s.Mirrors w t x := by
  have hdep := (h.depicts_portrait hs [] hx).imp fun _ _ => h.has_of_shows hw
  refine ⟨fun e he => ?_, fun e he => ?_, fun k e he => ?_, fun ts hts => ?_,
    fun n ts hts hvalid => ?_⟩
  · have hunder := World.underlying_portrait (w := w) [] t
    rw [World.pointee_eq_some.mpr he] at hunder
    exact exists_of_rel_left hdep.underlying hunder
  · have hyields : w.yields? (w.core t) = some ⟨none, e⟩ :=
      he.elim World.yields_of_item World.yields_of_rangeElements
    have helement := (World.portrait_of_yields [] hyields).1
    unfold World.known? at helement
    split_ifs at helement ⊢ with hany
    · rcases none_or_some_of_rel hdep.element with ⟨-, hnone⟩ | ⟨a, y, ha, -, -⟩
      · exact hnone
      · cases helement.symm.trans ha
    · exact exists_of_rel_left hdep.element helement
  · obtain ⟨helement, hkey⟩ := World.portrait_of_map [] he
    obtain ⟨y, hy, hey⟩ := exists_of_rel_left hdep.element helement
    obtain ⟨x, hx, hkx⟩ := exists_of_rel_left hdep.key hkey
    exact ⟨x, y, hx, hkx, hy, hey⟩
  · exact World.tuple_of_components [] hts ▸ hdep.tuple
  · exact World.typeArgs_portrait [] hts hvalid ▸ hdep.typeArgs

end Draft

theorem Draft.exists_serve_shown {w : World} {requests : List Request} {E : Finset Identity}
    (hE : ∀ t, .describe (some t) ∈ requests → ∀ u, w.Met {t} u → w.entry u ∈ E)
    (hw : w.Discerning (asked requests)) :
    ∃ rs s interfaces, (∀ depth, E.card < depth → serve w depth {} requests = .ok (rs, s)) ∧
      s.Tidy interfaces [] ∧ s.Sketched w (asked requests) ∧
      List.Forall₂ (fun o r => ∀ t, o = some t → w.Shows (asked requests) s t r)
        (requests.filterMap Request.operand?) rs := by
  obtain ⟨rs, s, interfaces, hserve, hs, -, hsketched, hrs⟩ := exists_serve_upheld
    (sustains_sketched hw) (entry_mem_of_asked hE) (Nat.lt_succ_self _) subset_rfl
    tidy_start (sketched_start w _)
  refine ⟨rs, s, interfaces, fun depth hdepth => serve_of_le hdepth hserve, hs, hsketched,
    forall₂_imp_of_mem hrs fun o ho r _ hor => ?_⟩
  rintro t rfl
  obtain ⟨q, hq, hqt⟩ := List.mem_filterMap.mp ho
  have hmet : w.Met (asked requests) t := by
    cases q with
    | register ts => cases hqt
    | describe o =>
      obtain rfl := Option.some.inj hqt
      exact .root hq
  cases hor with
  | found hfound => exact hsketched.shows_of_found hw hmet hfound

/-- **What one describer returns mirrors what it was asked for.** Whatever a describer is asked for,
if the types to describe unfold to finitely many texts and types that share a text look the same,
then it has what it returned for each type ever after, and this refers to what it has for the parts
of the type: to what a pointer points to, to the elements of a sequence, a channel or a function
that can be ranged over, unless they could be anything, to the keys and elements of a map, all of
these also behind a name, to the fields of a struct or the parts of a tuple without a name, and to
the arguments of an instance. -/
theorem parts_mirrored (w : World) (requests : List Request) (E : Finset Identity)
    (hE : ∀ t, .describe (some t) ∈ requests → ∀ u, w.Met {t} u → w.entry u ∈ E)
    (hw : w.Discerning (Draft.asked requests)) :
    ∃ rs s, (∀ depth, E.card < depth → Draft.serve w depth {} requests = .ok (rs, s)) ∧
      List.Forall₂ (fun o r => ∀ t, o = some t → s.Has w t r ∧ s.Mirrors w t r)
        (requests.filterMap Request.operand?) rs := by
  obtain ⟨rs, s, interfaces, hserve, hs, hsketched, hrs⟩ := Draft.exists_serve_shown hE hw
  refine ⟨rs, s, hserve, hrs.imp fun o r hor t ht => ?_⟩
  have hshows := hor t ht
  exact ⟨hsketched.has_of_shows hw hshows, hsketched.mirrors hw hs hshows⟩

theorem discerning_recursive : recursive.Discerning (Draft.asked recursive.requests) := by
  have horderly : recursive.Orderly [] (Draft.asked recursive.requests) :=
    World.orderly_of_closed recursive.parts (fun _ => recursive.mem_parts_of_asked) (by decide)
      (by decide) (by decide)
  exact horderly.discerning

theorem parts_mirrored_recursive :
    ∃ rs s, Draft.serve recursive 8 {} recursive.requests = .ok (rs, s) ∧
      List.Forall₂ (fun o r => ∀ t, o = some t → s.Has recursive t r ∧ s.Mirrors recursive t r)
        [none, some (.pointer (.pointer .loop)), some .ints, some .invalid, none] rs := by
  obtain ⟨rs, s, hserve, hmirrors⟩ := parts_mirrored recursive recursive.requests
    (recursive.parts.map recursive.entry).toFinset
    (fun t ht u => entry_mem_recursive fun t' ht' =>
      Set.mem_singleton_iff.mp ht' ▸ recursive.mem_parts_of_asked ht)
    discerning_recursive
  exact ⟨rs, s, hserve 8 card_recursive, hmirrors⟩

theorem exists_ok_of_toOption {ε α β : Type} {e : Except ε α} {f : α → β} {b : β}
    (h : e.toOption.map f = some b) : ∃ a, e = .ok a ∧ f a = b := by
  cases e with
  | error => cases h
  | ok a => exact ⟨a, rfl, Option.some.inj h⟩

/-- A pointer to the constraint `E` refers to a descriptor that the constraint no longer has once
the declared `E` is described. -/
theorem mirrored_restated :
    ∃ x y z u s, Draft.serve restated 8 {}
        [.describe (some (.pointer .blankConstraint)), .describe (some .blank),
          .describe (some .blankConstraint)] = .ok ([x, y, z], s) ∧
      (s.graph.node x).underlying = some u ∧ u ≠ z := by
  have hrun : (Draft.serve restated 8 {} [.describe (some (.pointer .blankConstraint)),
      .describe (some .blank), .describe (some .blankConstraint)]).toOption.map
        (fun z => (z.1, (z.2.graph.node 0).underlying)) = some ([0, 2, 2], some 1) := by
    decide +kernel
  obtain ⟨⟨rs, s⟩, hserve, heq⟩ := exists_ok_of_toOption hrun
  obtain ⟨rfl, hunder⟩ := Prod.mk.inj heq
  exact ⟨0, 2, 2, 1, s, hserve, hunder, by decide⟩

end EverEqual
