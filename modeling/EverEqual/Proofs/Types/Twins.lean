import EverEqual.Proofs.Types.Filled

/-!
# Twins

Instances whose arguments are spelled alike are one instance. Types that can be told apart only as
the arguments of one instance can are twins: those that are spelled alike, and whatever comes of
filling them in.

* `World.Twin`: types that are twins;
* `Ty.SameHead`: types that are built alike at the head;
* `World.Twin.sameHead`: twins have one name and twins for arguments, or no name and twins for
  parts.
-/

namespace EverEqual

/-- Two types have one name, and their arguments are related; or neither has a name, and their parts
are related. -/
inductive Ty.SameHead (r : Ty → Ty → Prop) : Ty → Ty → Prop
  | named {n : TypeName} {xs ys : List Ty} (h : List.Forall₂ r xs ys) :
    SameHead r (.named n xs) (.named n ys)
  | other {t u : Ty} (ht : ∀ n xs, t ≠ .named n xs) (hu : ∀ n xs, u ≠ .named n xs)
    (h : List.Forall₂ r t.parts u.parts) : SameHead r t u

/-- A parameter that is filled in twice, with related arguments or not at all. -/
theorem Ty.subst_param_rel {r : Ty → Ty → Prop} (hr : ∀ t, r t t) {xs ys : List Ty}
    (hlength : xs.length = ys.length) (h : ∀ x y, (x, y) ∈ xs.zip ys → r x y) (n : TypeName)
    (b : Binder) (i : Nat) (l : String) :
    r ((Ty.param b i l).subst n xs) ((Ty.param b i l).subst n ys) := by
  rw [subst_param, subst_param]
  split
  · rw [List.getD_eq_getElem?_getD, List.getD_eq_getElem?_getD]
    by_cases hi : i < xs.length
    · have hzip : (xs[i], ys[i]) ∈ xs.zip ys :=
        List.mem_iff_getElem.mpr ⟨i, by simp [hi, ← hlength], List.getElem_zip⟩
      rw [List.getElem?_eq_getElem hi, List.getElem?_eq_getElem (hlength ▸ hi)]
      exact h _ _ hzip
    · rw [List.getElem?_eq_none (Nat.le_of_not_lt hi),
        List.getElem?_eq_none (hlength ▸ Nat.le_of_not_lt hi)]
      exact hr _
  · exact hr _

namespace Ty.SameHead

variable {r : Ty → Ty → Prop} {s : Ty} {n : TypeName} {xs ys : List Ty}

theorem forall₂_map {α : Type} {f g : α → Ty} (h : ∀ s, r (f s) (g s)) (ts : List α) :
    List.Forall₂ r (ts.map f) (ts.map g) :=
  List.forall₂_map_left_iff.mpr (List.forall₂_map_right_iff.mpr
    (List.forall₂_same.mpr fun s _ => h s))

theorem refl (hr : ∀ t, r t t) (t : Ty) : t.SameHead r t := by
  by_cases hname : ∃ n xs, t = .named n xs
  · obtain ⟨n, xs, rfl⟩ := hname
    exact .named (List.forall₂_same.mpr fun x _ => hr x)
  · push Not at hname
    exact .other hname hname (List.forall₂_same.mpr fun x _ => hr x)

theorem subst (hr : ∀ s : Ty, r (s.subst n xs) (s.subst n ys)) (hs : ∀ b i l, s ≠ .param b i l) :
    (s.subst n xs).SameHead r (s.subst n ys) := by
  by_cases hname : ∃ m zs, s = .named m zs
  · obtain ⟨m, zs, rfl⟩ := hname
    rw [Ty.subst_named, Ty.subst_named]
    exact .named (forall₂_map hr zs)
  · push Not at hname
    refine .other (Ty.subst_ne_named hs hname) (Ty.subst_ne_named hs hname) ?_
    rw [Ty.parts_subst hs, Ty.parts_subst hs]
    exact forall₂_map hr s.parts

end Ty.SameHead

namespace World

/-- Types that are spelled alike, from depths that see all of them, and what can be made of such. -/
inductive Twin (w : World) : Ty → Ty → Prop
  | alike {t u : Ty} {k : Nat} (hk : sizeOf t < k) (h : w.identicalIn .spelled k [] t u = true) :
    Twin w t u
  /-- Twins filled in for the parameters of a type. -/
  | subst {s : Ty} {n : TypeName} {xs ys : List Ty} (hlength : xs.length = ys.length)
    (h : ∀ x y, (x, y) ∈ xs.zip ys → Twin w x y) : Twin w (s.subst n xs) (s.subst n ys)
  | symm {t u : Ty} (h : Twin w t u) : Twin w u t
  | trans {s t u : Ty} (h : Twin w s t) (h' : Twin w t u) : Twin w s u

variable {w : World} {s t u : Ty} {n : TypeName} {xs ys : List Ty}

namespace Twin

theorem of_spelledAlike (ht : sizeOf t < w.horizon) (h : w.spelledAlike t u = true) :
    w.Twin t u :=
  .alike ht h

variable (w) in
theorem refl (t : Ty) : w.Twin t t :=
  .alike (Nat.lt_succ_self _) (by simp [identicalIn])

variable (w) in
theorem refls (ts : List Ty) : List.Forall₂ w.Twin ts ts :=
  List.forall₂_same.mpr fun t _ => refl w t

theorem filled (s : Ty) (n : TypeName) (h : List.Forall₂ w.Twin xs ys) :
    w.Twin (s.subst n xs) (s.subst n ys) := by
  obtain ⟨hlength, hall⟩ := List.forall₂_iff_zip.mp h
  exact .subst hlength fun x y hxy => hall hxy

theorem all_symm (h : List.Forall₂ w.Twin xs ys) : List.Forall₂ w.Twin ys xs :=
  h.flip.imp fun _ _ h => h.symm

theorem all_trans {zs : List Ty} (h : List.Forall₂ w.Twin xs ys)
    (h' : List.Forall₂ w.Twin ys zs) : List.Forall₂ w.Twin xs zs := by
  induction h generalizing zs with
  | nil => exact h'
  | cons hx _ ih =>
    cases h' with
    | cons hy hys => exact .cons (hx.trans hy) (ih hys)

end Twin

theorem forall₂_of_related {k : Nat} (hk : ∀ x ∈ xs, sizeOf x < k)
    (h : related (w.identicalIn .spelled k []) xs ys = true) : List.Forall₂ w.Twin xs ys := by
  simp only [related, Bool.and_eq_true, decide_eq_true_eq, List.all_eq_true] at h
  refine List.forall₂_iff_zip.mpr ⟨h.1, fun {x y} hxy => ?_⟩
  exact .alike (hk x (List.of_mem_zip hxy).1) (h.2 (x, y) hxy)

theorem related_types {mode : Sameness} {r : Ty → Ty → Bool} {fs gs : List (Member Ty)}
    (h : related (sameField mode r) fs gs = true) :
    related r (fs.map (·.type)) (gs.map (·.type)) = true := by
  simp only [related, Bool.and_eq_true, decide_eq_true_eq, List.all_eq_true, List.length_map,
    List.zip_map, List.mem_map] at h ⊢
  refine ⟨h.1, ?_⟩
  rintro _ ⟨⟨f, g⟩, hfg, rfl⟩
  have hsame := h.2 (f, g) hfg
  simp only [sameField, Bool.and_eq_true] at hsame
  exact hsame.2

theorem sameHead_of_alike {k : Nat} (hk : sizeOf t < k)
    (h : w.identicalIn .spelled k [] t u = true) : t.SameHead w.Twin u := by
  cases k with
  | zero => exact absurd hk (Nat.not_lt_zero _)
  | succ k =>
    have hparts : ∀ x ∈ t.children, sizeOf x < k := fun x hx =>
      Nat.lt_of_lt_of_le (Ty.sizeOf_lt_of_mem_children hx) (Nat.le_of_lt_succ hk)
    have hone : ∀ {x y}, x ∈ t.children → w.identicalIn .spelled k [] x y = true → w.Twin x y :=
      fun hx hxy => .alike (hparts _ hx) hxy
    rw [identicalIn] at h
    simp only [resolved, Bool.or_eq_true] at h
    rcases h with h | h
    · obtain rfl := of_decide_eq_true h
      exact .refl (Twin.refl w) t
    · split at h
      all_goals try simp only [Bool.and_eq_true, decide_eq_true_eq, reduceCtorEq, if_false] at h
      case h_2 n xs m ys =>
        obtain ⟨rfl, h⟩ := h
        exact .named (forall₂_of_related hparts h)
      case h_4 | h_5 => exact .other nofun nofun (.cons (hone List.mem_cons_self h) .nil)
      case h_6 | h_8 => exact .other nofun nofun (.cons (hone List.mem_cons_self h.2) .nil)
      case h_7 =>
        exact .other nofun nofun (.cons (hone List.mem_cons_self h.1)
          (.cons (hone (List.mem_cons_of_mem _ List.mem_cons_self) h.2) .nil))
      case h_10 => exact .other nofun nofun (forall₂_of_related hparts (related_types h))
      case h_11 => exact .other nofun nofun (forall₂_of_related hparts h)
      all_goals exact .other nofun nofun .nil

/-- **Twins are built alike at the head.** -/
theorem Twin.sameHead (h : w.Twin t u) : t.SameHead w.Twin u := by
  induction h with
  | alike hk h => exact sameHead_of_alike hk h
  | @subst s n xs ys hlength h ih =>
    by_cases hs : ∃ b i l, s = .param b i l
    · obtain ⟨b, i, l, rfl⟩ := hs
      exact Ty.subst_param_rel (Ty.SameHead.refl (Twin.refl w)) hlength ih n b i l
    · push Not at hs
      exact .subst (fun z => .subst hlength h) hs
  | symm _ ih =>
    cases ih with
    | named h => exact .named (Twin.all_symm h)
    | other ht hu h => exact .other hu ht (Twin.all_symm h)
  | trans _ _ ih ih' =>
    cases ih with
    | named h =>
      cases ih' with
      | named h' => exact .named (Twin.all_trans h h')
      | other ht _ _ => exact absurd rfl (ht _ _)
    | other ht hu h =>
      cases ih' with
      | named _ => exact absurd rfl (hu _ _)
      | other _ hv h' => exact .other ht hv (Twin.all_trans h h')

theorem Twin.exists_named (h : w.Twin (.named n xs) u) :
    ∃ ys, u = .named n ys ∧ List.Forall₂ w.Twin xs ys := by
  cases h.sameHead with
  | named hargs => exact ⟨_, rfl, hargs⟩
  | other ht _ _ => exact absurd rfl (ht n xs)

end World

end EverEqual
