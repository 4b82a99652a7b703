import EverEqual.Comparison.Cache
import EverEqual.Proofs.Comparison.Unwrapped
import EverEqual.Proofs.Descriptor.Inherited

/-!
# Identities can be read back

The identity of a pointer, an array, a map or an unnamed tuple is put together from the identities
of its parts with a few marks. If the identities that this starts from have no marks in them, an
identity tells how it was put together: its first character says what comes first, and the identity
of a part ends at the end or where a mark closes it. So the rules, the guard and the cache, which go
by identities, take no type for one that is put together in another way.

* `Atom`, `Assembly`: how a descriptor is put together, and from what;
* `Assembly.spelling_append_inj`: a text that starts with an identity determines the assembly, and
  what comes after it;
* `Workshop.Assembles`: the steps put a descriptor together;
* `Workshop.assemblies_told_apart`: assemblies are told apart by identities.
-/

namespace EverEqual

/-- The characters by which identities are put together. -/
def Identity.marks : List Char := ['*', '[', ']', '(', ')', ',', ' ']

/-- An identity that is not put together: it has no marks, and it is not empty. -/
@[ext]
structure Atom where
  id : Identity
  ne_empty : id ≠ ""
  plain : ∀ c ∈ id.toList, c ∉ Identity.marks

/-- How a descriptor is put together from atoms. -/
inductive Assembly
  | atom (a : Atom)
  | nullable (of : Assembly)
  | array (element : Assembly)
  | map (key element : Assembly)
  | tuple (parts : List Assembly)

namespace Assembly

/-! ### Reading an identity -/

mutual

/-- The characters of the identity of an assembly. -/
def spelling : Assembly → List Char
  | .atom a => a.id.toList
  | .nullable t => '*' :: t.spelling
  | .array t => '[' :: ']' :: t.spelling
  | .map k e => 'm' :: 'a' :: 'p' :: '[' :: (k.spelling ++ ']' :: e.spelling)
  | .tuple ts => '(' :: listed ts

/-- The characters after the opening parenthesis of a tuple. -/
def listed : List Assembly → List Char
  | [] => [')']
  | t :: ts => t.spelling ++ following ts

/-- The characters after the first part of a tuple. -/
def following : List Assembly → List Char
  | [] => [')']
  | t :: ts => ',' :: ' ' :: (t.spelling ++ following ts)

end

/-- What may come after an identity: nothing, or a mark that closes it. -/
def Ends (x : List Char) : Prop := ∀ c ∈ x.head?, c ∈ [']', ',', ')']

variable {x y : List Char}

theorem Ends.marks (h : Ends x) : ∀ c ∈ x.head?, c ∈ Identity.marks := by
  have hmarks : ∀ c ∈ [']', ',', ')'], c ∈ Identity.marks := by simp [Identity.marks]
  exact fun c hc => hmarks c (h c hc)

theorem ends_cons {c : Char} (hc : c ∈ [']', ',', ')']) (x : List Char) : Ends (c :: x) := by
  rintro d ⟨⟩
  exact hc

theorem ends_following (ts : List Assembly) (x : List Char) : Ends (following ts ++ x) := by
  cases ts with
  | nil => exact ends_cons (by decide) x
  | cons t ts => exact ends_cons (by decide) _

/-- A text without marks ends at the first mark. -/
theorem append_inj_of_plain {a b : List Char} (ha : ∀ c ∈ a, c ∉ Identity.marks)
    (hb : ∀ c ∈ b, c ∉ Identity.marks) (hx : ∀ c ∈ x.head?, c ∈ Identity.marks)
    (hy : ∀ c ∈ y.head?, c ∈ Identity.marks) (h : a ++ x = b ++ y) : a = b ∧ x = y := by
  induction a generalizing b with
  | nil =>
    cases b with
    | nil => exact ⟨rfl, h⟩
    | cons c b =>
      rw [List.nil_append] at h
      subst h
      exact absurd (hx c rfl) (hb c List.mem_cons_self)
  | cons c a ih =>
    cases b with
    | nil =>
      rw [List.nil_append] at h
      subst h
      exact absurd (hy c rfl) (ha c List.mem_cons_self)
    | cons d b =>
      rw [List.cons_append, List.cons_append] at h
      obtain ⟨rfl, hrest⟩ := List.cons.inj h
      obtain ⟨rfl, hxy⟩ := ih (fun c hc => ha c (List.mem_cons_of_mem _ hc))
        (fun c hc => hb c (List.mem_cons_of_mem _ hc)) hrest
      exact ⟨rfl, hxy⟩

theorem atom_append_ne {c : Char} (a : Atom) (hc : c ∈ Identity.marks) (x y : List Char) :
    a.id.toList ++ x ≠ c :: y := by
  intro h
  cases hid : a.id.toList with
  | nil => exact a.ne_empty (String.toList_eq_nil_iff.mp hid)
  | cons d ds =>
    rw [hid, List.cons_append] at h
    obtain ⟨rfl, -⟩ := List.cons.inj h
    exact a.plain d (hid ▸ List.mem_cons_self) hc

theorem spelling_append_ne (t : Assembly) {c : Char} (hc : c ∈ [']', ',', ')']) (x y : List Char) :
    t.spelling ++ x ≠ c :: y := by
  have hmarks : ∀ c ∈ [']', ',', ')'],
      c ∈ Identity.marks ∧ c ≠ '*' ∧ c ≠ '[' ∧ c ≠ 'm' ∧ c ≠ '(' := by simp [Identity.marks]
  obtain ⟨hmark, hpointer, harray, hmap, htuple⟩ := hmarks c hc
  intro h
  cases t with
  | atom a => exact atom_append_ne a hmark x y h
  | nullable t => exact hpointer (List.cons.inj h).1.symm
  | array t => exact harray (List.cons.inj h).1.symm
  | map k e => exact hmap (List.cons.inj h).1.symm
  | tuple ts => exact htuple (List.cons.inj h).1.symm

theorem atom_append_inj (a : Atom) (u : Assembly) (hx : Ends x) (hy : Ends y)
    (h : a.id.toList ++ x = u.spelling ++ y) : .atom a = u ∧ x = y := by
  cases u with
  | atom b =>
    obtain ⟨hid, hxy⟩ := append_inj_of_plain a.plain b.plain hx.marks hy.marks h
    exact ⟨congrArg atom (Atom.ext (String.toList_inj.mp hid)), hxy⟩
  | nullable u | array u | tuple us => exact absurd h (atom_append_ne a (by decide) x _)
  | map k e =>
    -- the atom would be the word of a map, and a bracket would come after it
    have hword : ∀ c ∈ ['m', 'a', 'p'], c ∉ Identity.marks := by simp [Identity.marks]
    have hbracket : ∀ z, ∀ c ∈ (('[' :: z : List Char)).head?, c ∈ Identity.marks := by
      rintro z c ⟨⟩
      decide
    obtain ⟨-, rfl⟩ := append_inj_of_plain (b := ['m', 'a', 'p']) a.plain hword hx.marks
      (hbracket (k.spelling ++ ']' :: e.spelling ++ y)) (by simpa [spelling] using h)
    exact absurd (hx '[' rfl) (by decide)

mutual

/-- **A text that starts with an identity** determines how that was put together, and what comes
after it. -/
theorem spelling_append_inj : ∀ (t u : Assembly) {x y : List Char}, Ends x → Ends y →
    t.spelling ++ x = u.spelling ++ y → t = u ∧ x = y
  | .atom a, u, _, _, hx, hy, h => atom_append_inj a u hx hy h
  | .nullable t, u, x, y, hx, hy, h => by
    cases u with
    | nullable u =>
      simp only [spelling, List.cons_append, List.cons.injEq, true_and] at h
      obtain ⟨rfl, hxy⟩ := spelling_append_inj t u hx hy h
      exact ⟨rfl, hxy⟩
    | atom a => exact (atom_append_inj a _ hy hx h.symm).imp Eq.symm Eq.symm
    | array u | map k e | tuple us => simp [spelling] at h
  | .array t, u, x, y, hx, hy, h => by
    cases u with
    | array u =>
      simp only [spelling, List.cons_append, List.cons.injEq, true_and] at h
      obtain ⟨rfl, hxy⟩ := spelling_append_inj t u hx hy h
      exact ⟨rfl, hxy⟩
    | atom a => exact (atom_append_inj a _ hy hx h.symm).imp Eq.symm Eq.symm
    | nullable u | map k e | tuple us => simp [spelling] at h
  | .map k e, u, x, y, hx, hy, h => by
    cases u with
    | map k' e' =>
      simp only [spelling, List.cons_append, List.append_assoc, List.cons.injEq, true_and] at h
      -- the key ends at the bracket that closes it
      obtain ⟨rfl, hrest⟩ := spelling_append_inj k k' (ends_cons (by decide) _)
        (ends_cons (by decide) _) h
      obtain ⟨rfl, hxy⟩ := spelling_append_inj e e' hx hy (List.cons.inj hrest).2
      exact ⟨rfl, hxy⟩
    | atom a => exact (atom_append_inj a _ hy hx h.symm).imp Eq.symm Eq.symm
    | nullable u | array u | tuple us => simp [spelling] at h
  | .tuple ts, u, x, y, hx, hy, h => by
    cases u with
    | tuple us =>
      simp only [spelling, List.cons_append, List.cons.injEq, true_and] at h
      obtain ⟨rfl, hxy⟩ := listed_append_inj ts us h
      exact ⟨rfl, hxy⟩
    | atom a => exact (atom_append_inj a _ hy hx h.symm).imp Eq.symm Eq.symm
    | nullable u | array u | map k e => simp [spelling] at h

theorem listed_append_inj : ∀ (ts us : List Assembly) {x y : List Char},
    listed ts ++ x = listed us ++ y → ts = us ∧ x = y
  | [], us, x, y, h => by
    cases us with
    | nil => exact ⟨rfl, (List.cons.inj h).2⟩
    | cons u us =>
      simp only [listed, List.append_assoc] at h
      exact absurd h.symm (spelling_append_ne u (by decide) _ _)
  | t :: ts, us, x, y, h => by
    cases us with
    | nil =>
      simp only [listed, List.append_assoc] at h
      exact absurd h (spelling_append_ne t (by decide) _ _)
    | cons u us =>
      simp only [listed, List.append_assoc] at h
      obtain ⟨rfl, hrest⟩ := spelling_append_inj t u (ends_following ts x) (ends_following us y) h
      obtain ⟨rfl, hxy⟩ := following_append_inj ts us hrest
      exact ⟨rfl, hxy⟩

theorem following_append_inj : ∀ (ts us : List Assembly) {x y : List Char},
    following ts ++ x = following us ++ y → ts = us ∧ x = y
  | [], us, x, y, h => by
    cases us with
    | nil => exact ⟨rfl, (List.cons.inj h).2⟩
    | cons u us => simp [following] at h
  | t :: ts, us, x, y, h => by
    cases us with
    | nil => simp [following] at h
    | cons u us =>
      simp only [following, List.cons_append, List.append_assoc, List.cons.injEq, true_and] at h
      obtain ⟨rfl, hrest⟩ := spelling_append_inj t u (ends_following ts x) (ends_following us y) h
      obtain ⟨rfl, hxy⟩ := following_append_inj ts us hrest
      exact ⟨rfl, hxy⟩

end

/-- **No two assemblies have one spelling.** -/
theorem spelling_injective : Function.Injective spelling := fun t u h =>
  (spelling_append_inj t u (x := []) (y := []) nofun nofun (by rw [h])).1

theorem intercalate_spelling (ts : List Assembly) :
    [',', ' '].intercalate (ts.map spelling) ++ [')'] = listed ts := by
  cases ts with
  | nil => rfl
  | cons t ts =>
    rw [listed]
    induction ts generalizing t with
    | nil => simp [following]
    | cons u us ih =>
      rw [List.map_cons, List.map_cons, List.intercalate_cons_cons, ← List.map_cons,
        List.append_assoc, List.append_assoc, ih]
      rfl

end Assembly

namespace Workshop

/-! ### Descriptors that are put together -/

/-- After some steps, a blueprint makes a descriptor. -/
def Makes (ms : List Making) (blueprint : Blueprint) (r : Ref) : Prop :=
  ((run ms).1.step (.construct blueprint)).2 = .made r

/-- The steps put a descriptor together, from parts that they have put together before. Any
descriptor may be an atom, if its identity is one. -/
inductive Assembles : List Making → Assembly → Ref → Prop
  | atom {ms : List Making} {r : Ref} (a : Atom) (h : ((run ms).1.graph.node r).id = a.id) :
      Assembles ms (.atom a) r
  /-- Further steps follow. -/
  | later {ms : List Making} {t : Assembly} {r : Ref} (m : Making) (h : Assembles ms t r) :
      Assembles (ms ++ [m]) t r
  | nullable {ms : List Making} {t : Assembly} {r x : Ref} (h : Assembles ms t r)
      (hmade : Makes ms (.nullable (some r)) x) :
      Assembles (ms ++ [.construct (.nullable (some r))]) (.nullable t) x
  | array {ms : List Making} {t : Assembly} {r x : Ref} (h : Assembles ms t r)
      (hmade : Makes ms (.array (some r)) x) :
      Assembles (ms ++ [.construct (.array (some r))]) (.array t) x
  | map {ms : List Making} {t u : Assembly} {r s x : Ref} (hkey : Assembles ms t r)
      (helement : Assembles ms u s) (hmade : Makes ms (.map (some r) (some s)) x) :
      Assembles (ms ++ [.construct (.map (some r) (some s))]) (.map t u) x
  | tuple {ms : List Making} {ts : List Assembly} {rs : List Ref} {x : Ref}
      (hlength : ts.length = rs.length) (h : ∀ p ∈ ts.zip rs, Assembles ms p.1 p.2)
      (hmade : Makes ms (.tuple (rs.map some)) x) :
      Assembles (ms ++ [.construct (.tuple (rs.map some))]) (.tuple ts) x

variable {ms : List Making} {t u t' u' : Assembly} {r x y x' y' : Ref}

theorem id_of_makes {blueprint : Blueprint} {n : Node}
    (hconstruct : (run ms).1.graph.construct blueprint = .ok ((run ms).1.graph.add n))
    (hmade : Makes ms blueprint x) :
    x < (run (ms ++ [.construct blueprint])).1.graph.size ∧
      ((run (ms ++ [.construct blueprint])).1.graph.node x).id = n.id := by
  have hstep : (run ms).1.step (.construct blueprint) =
      ({ (run ms).1 with graph := ((run ms).1.graph.add n).1 }, .made (run ms).1.graph.size) := by
    rw [step, construct, hconstruct]
    rfl
  have hx : (run ms).1.graph.size = x := by
    rw [Makes, hstep] at hmade
    exact Deed.made.inj hmade
  have hrun : (run (ms ++ [.construct blueprint])).1.graph = ((run ms).1.graph.add n).1 := by
    rw [run_concat, advance, hstep]
  rw [hrun, Graph.size_add, Graph.node_add, if_pos hx.symm]
  exact ⟨hx ▸ Nat.lt_succ_self _, rfl⟩

/-- **What is put together is spelled like its assembly**, whatever steps follow. -/
theorem Assembles.spelled (h : Assembles ms t x) :
    x < (run ms).1.graph.size ∧ ((run ms).1.graph.node x).id.toList = t.spelling := by
  induction h with
  | @atom ms r a h =>
    refine ⟨?_, by rw [h]; rfl⟩
    by_contra hr
    rw [Graph.node_of_size_le (Nat.le_of_not_lt hr)] at h
    exact a.ne_empty h.symm
  | @later ms t r m h ih =>
    have hkept := retains_run_append ms [m]
    rw [hkept.id r ih.1]
    exact ⟨ih.1.trans_le hkept.size, ih.2⟩
  | nullable h hmade ih =>
    obtain ⟨hx, hid⟩ := id_of_makes (Graph.construct_nullable _ _) hmade
    refine ⟨hx, ?_⟩
    rw [hid, Assembly.spelling, ← ih.2]
    simp [Graph.wrapping]
  | array h hmade ih =>
    obtain ⟨hx, hid⟩ := id_of_makes (Graph.construct_array _ _) hmade
    refine ⟨hx, ?_⟩
    rw [hid, Assembly.spelling, ← ih.2]
    simp [Node.yielding]
  | map hkey helement hmade ihkey ihelement =>
    obtain ⟨hx, hid⟩ := id_of_makes (Graph.construct_map _ _ _) hmade
    refine ⟨hx, ?_⟩
    rw [hid, Assembly.spelling, ← ihkey.2, ← ihelement.2]
    simp [Node.yielding]
  | @tuple ms ts rs x hlength h hmade ih =>
    obtain ⟨hx, hid⟩ := id_of_makes (Graph.construct_tuple _ _) hmade
    refine ⟨hx, ?_⟩
    have hparts : ts.map Assembly.spelling =
        rs.map fun r => ((run ms).1.graph.node r).id.toList := by
      rw [← List.forall₂_eq_eq_eq, List.forall₂_map_left_iff, List.forall₂_map_right_iff,
        List.forall₂_iff_zip]
      exact ⟨hlength, fun hp => (ih _ hp).2.symm⟩
    rw [hid, Assembly.spelling, ← Assembly.intercalate_spelling, hparts]
    simp [Node.composed, Graph.tupleId, String.toList_intercalate, Function.comp_def]

theorem Assembles.id_eq_iff (hx : Assembles ms t x) (hy : Assembles ms u y) :
    ((run ms).1.graph.node x).id = ((run ms).1.graph.node y).id ↔ t = u := by
  rw [← String.toList_inj, hx.spelled.2, hy.spelled.2]
  exact Assembly.spelling_injective.eq_iff

theorem Assembles.pair_eq_iff (hx : Assembles ms t x) (hy : Assembles ms u y)
    (hx' : Assembles ms t' x') (hy' : Assembles ms u' y') :
    (run ms).1.graph.pair x' y' = (run ms).1.graph.pair x y ↔ t' = t ∧ u' = u := by
  rw [← hx'.id_eq_iff hx, ← hy'.id_eq_iff hy]
  exact IdentityPair.mk.injEq _ _ _ _ ▸ Iff.rfl

/-- **Assemblies are told apart.** Descriptors that were put together as pointers, arrays with known
elements, maps and unnamed tuples, however deep, from descriptors whose identities have no marks,
have one identity exactly if they are put together alike. So the rule of identity takes only such
types for one; the guard finds a pair after another one was entered only if both sides are put
together alike, or if it was there before; and of an answer that is kept for a pair, the same holds:
it is found for a pair that is put together alike, and what is found for others stays as it was. -/
theorem assemblies_told_apart (hx : Assembles ms t x) (hy : Assembles ms u y) :
    let g := (run ms).1.graph
    ((g.node x).id = (g.node y).id ↔ t = u) ∧
    (Rule.identity.resolve g x y = some (.settled .compatible) ↔ t = u) ∧
    ∀ {t' u' : Assembly} {x' y' : Ref}, Assembles ms t' x' → Assembles ms u' y' →
      (∀ guard : Guard, (guard.push (g.pair x y)).active (g.pair x' y') = true ↔
        (t' = t ∧ u' = u) ∨ guard.active (g.pair x' y') = true) ∧
      ∀ (cache : Cache) (answer : Bool),
        (t' = t ∧ u' = u → (cache.store (Cache.key g x y) answer).find? (Cache.key g x' y') =
          some answer) ∧
        (¬ (t' = t ∧ u' = u) → (cache.store (Cache.key g x y) answer).find? (Cache.key g x' y') =
          cache.find? (Cache.key g x' y')) := by
  intro g
  have hid := hx.id_eq_iff hy
  refine ⟨hid, ?_, fun {t' u' x' y'} hx' hy' => ?_⟩
  · rw [← hid, Rule.resolve]
    split
    · next h => simpa using h
    · next h => simpa using h
  · have hpair := hx.pair_eq_iff hy hx' hy'
    refine ⟨fun guard => ?_, fun cache answer => ⟨fun h => ?_, fun h => ?_⟩⟩
    · rw [Guard.active_eq_true_iff, Guard.active_eq_true_iff, Guard.push,
        Std.ExtTreeSet.mem_insert, Std.compare_eq_iff_eq, ← hpair, eq_comm]
    · have hkey : Cache.key g x' y' = Cache.key g x y := hpair.mpr h
      rw [Cache.find?_store, if_pos hkey]
    · have hkey : Cache.key g x' y' ≠ Cache.key g x y := mt hpair.mp h
      rw [Cache.find?_store, if_neg hkey]

/-- The identity `int` as an atom. -/
def intAtom : Atom := ⟨"int", by decide, by simp [Identity.marks]⟩

/-- Integers, pointers to arrays of them under integers as keys, the empty tuple, a pair of these
two, and a tuple of the first one alone. -/
def nested : List Making :=
  [.construct (.plain .numeric "int" []), .construct (.array (some 0)),
    .construct (.nullable (some 1)), .construct (.map (some 0) (some 2)), .construct (.tuple []),
    .construct (.tuple [some 3, some 4]), .construct (.tuple [some 3])]

/-- A tuple that ends with the empty tuple is told from one without it, also by the guard. -/
theorem assemblies_told_apart_nested :
    let g := (run nested).1.graph
    let whole : Assembly := .map (.atom intAtom) (.nullable (.array (.atom intAtom)))
    (Assembles nested (.tuple [whole, .tuple []]) 5 ∧ Assembles nested (.tuple [whole]) 6) ∧
      (g.node 5).id ≠ (g.node 6).id ∧
      (({} : Guard).push (g.pair 5 6)).active (g.pair 6 5) = false := by
  intro g whole
  have hint : Assembles (nested.take 1) (.atom intAtom) 0 := .atom intAtom (by decide)
  have harray : Assembles (nested.take 2) (.array (.atom intAtom)) 1 := hint.array rfl
  have hpointer : Assembles (nested.take 3) (.nullable (.array (.atom intAtom))) 2 :=
    harray.nullable rfl
  have hwhole : Assembles (nested.take 4) whole 3 := ((hint.later _).later _).map hpointer rfl
  have hempty : Assembles (nested.take 5) (.tuple []) 4 :=
    @Assembles.tuple (nested.take 4) [] [] 4 rfl nofun rfl
  have hpair : Assembles (nested.take 6) (.tuple [whole, .tuple []]) 5 := by
    refine @Assembles.tuple (nested.take 5) [whole, .tuple []] [3, 4] 5 rfl ?_ rfl
    exact List.forall_mem_cons.mpr ⟨hwhole.later _, List.forall_mem_singleton.mpr hempty⟩
  have hone : Assembles nested (.tuple [whole]) 6 := by
    refine @Assembles.tuple (nested.take 6) [whole] [3] 6 rfl ?_ rfl
    exact List.forall_mem_singleton.mpr ((hwhole.later _).later _)
  have htwo : Assembles nested (.tuple [whole, .tuple []]) 5 := hpair.later _
  have hne : Assembly.tuple [whole, .tuple []] ≠ .tuple [whole] := by simp
  obtain ⟨hid, -, hother⟩ := assemblies_told_apart htwo hone
  refine ⟨⟨htwo, hone⟩, mt hid.mp hne, Bool.eq_false_iff.mpr fun hactive => ?_⟩
  rcases ((hother hone htwo).1 {}).mp hactive with ⟨hsame, -⟩ | hempty
  · exact hne hsame.symm
  · simp [Guard.active] at hempty

end Workshop

end EverEqual
