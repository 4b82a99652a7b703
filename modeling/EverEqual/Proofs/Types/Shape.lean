import EverEqual.Describe.Shape
import EverEqual.Proofs.Types.Checked

/-!
# Shapes of identical types

Identity is worked out to a given depth. Two types are identical if the answer is yes at every great
depth; then they are built alike, behind aliases, and their parts are identical again. Whether two
types have one shape does not depend on their order, and is kept where identical arguments are
filled in. So types are taken as one type if they are identical in one order or the other, or come
of filling in such types.

* `Ty.item?`, `Ty.components?`: what a sequence, channel, struct or tuple is made of;
* `World.Identical`, `World.OneType`: identity at every great depth, and what comes of it;
* `World.Built`: types of one shape;
* `World.Checked.built_of_oneType`: types that are one type have one shape.
-/

namespace EverEqual

namespace Ty

/-- What a sequence holds or a channel carries. -/
def item? : Ty → Option Ty
  | .slice a | .array _ a | .chan _ a => some a
  | _ => none

/-- The types of the fields of a struct or of the parts of a tuple. -/
def components? : Ty → Option (List Ty)
  | .struct fs => some (fs.map (·.type))
  | .tuple ts => some ts
  | _ => none

theorem item_of_components {t : Ty} {as : List Ty} (h : t.components? = some as) :
    t.item? = none := by
  cases t with
  | struct | tuple => rfl
  | _ => cases h

end Ty

/-- Predeclared types with two names are numeric. -/
theorem Basic.kind_of_canonical {a b : Basic} (h : a.canonical = b.canonical) (hne : a ≠ b) :
    a.kind = .numeric ∧ b.kind = .numeric := by
  have hkind : ∀ c : Basic, c.canonical.kind = c.kind := by intro c; cases c <;> rfl
  have hother : ∀ c : Basic, c.canonical ≠ c → c.kind = .numeric := by
    intro c hc
    cases c with
    | byte | rune => rfl
    | _ => exact absurd rfl hc
  have heq : a.kind = b.kind := by rw [← hkind a, h, hkind b]
  by_cases ha : a.canonical = a
  · have hb : b.canonical ≠ b := fun hb => hne (by rw [← ha, h, hb])
    exact ⟨heq.trans (hother b hb), hother b hb⟩
  · exact ⟨hother a ha, heq ▸ hother a ha⟩

namespace World

variable (w : World)

/-- Two types are identical if they are found to be so at every great depth. -/
def Identical (t u : Ty) : Prop := ∃ n, ∀ k ≥ n, w.identicalIn .identical k [] t u = true

/-- Two types are one type: they are identical in one order or the other, or such types have been
filled in for the parameters of a type. -/
inductive OneType : Ty → Ty → Prop
  | identical {t u : Ty} (h : w.Identical t u) : OneType t u
  | symm {t u : Ty} (h : OneType t u) : OneType u t
  | subst {s : Ty} {n : TypeName} {xs ys : List Ty} (hlength : xs.length = ys.length)
    (h : ∀ x y, (x, y) ∈ xs.zip ys → OneType x y) : OneType (s.subst n xs) (s.subst n ys)

/-- Two types that are no aliases have one shape, and corresponding parts are one type. -/
inductive Built : Ty → Ty → Prop
  | same (t : Ty) : Built t t
  | basic {a b : Basic} (h : a.canonical = b.canonical) : Built (.basic a) (.basic b)
  /-- Instances of one declaration. -/
  | named {n : TypeName} {xs ys : List Ty} (h : List.Forall₂ w.OneType xs ys) :
      Built (.named n xs) (.named n ys)
  | pointer {a b : Ty} (h : w.OneType a b) : Built (.pointer a) (.pointer b)
  | item {t u a b : Ty} (ht : t.item? = some a) (hu : u.item? = some b) (h : w.OneType a b) :
      Built t u
  | map {k l a b : Ty} (hk : w.OneType k l) (h : w.OneType a b) : Built (.map k a) (.map l b)
  | func {ps qs rs ss : List (Member Ty)} {v v' : Bool}
      (hparams : List.Forall₂ w.OneType (ps.map (·.type)) (qs.map (·.type)))
      (hresults : List.Forall₂ w.OneType (rs.map (·.type)) (ss.map (·.type))) :
      Built (.func ps rs v) (.func qs ss v')
  | components {t u : Ty} {as bs : List Ty} (ht : t.components? = some as)
      (hu : u.components? = some bs) (h : List.Forall₂ w.OneType as bs) : Built t u
  | interface (f g : InterfaceForm) (ms ns : List (Member Ty)) (es ds : List Ty) :
      Built (.interface f ms es) (.interface g ns ds)
  | param (p : Binder) (i : Nat) (l l' : String) : Built (.param p i l) (.param p i l')
  | union (xs ys : List Ty) : Built (.union xs) (.union ys)
  | tilde (a b : Ty) : Built (.tilde a) (.tilde b)

variable {w} {rank : String → Nat} {s t u : Ty} {n : TypeName} {xs ys : List Ty} {k : Nat}

theorem identical_of_add (k : Nat) (h : ∀ j, w.identicalIn .identical (j + k) [] t u = true) :
    w.Identical t u := by
  refine ⟨k, fun j hj => ?_⟩
  obtain ⟨j, rfl⟩ := Nat.exists_eq_add_of_le' hj
  exact h j

namespace OneType

variable (w) in
theorem refl (t : Ty) : w.OneType t t :=
  .identical (identical_of_add 1 fun j => by simp [identicalIn])

variable (w) in
theorem refls (ts : List Ty) : List.Forall₂ w.OneType ts ts :=
  List.forall₂_same.mpr fun t _ => refl w t

theorem filled (h : List.Forall₂ w.OneType xs ys) (s : Ty) (n : TypeName) :
    w.OneType (s.subst n xs) (s.subst n ys) := by
  obtain ⟨hlength, hall⟩ := List.forall₂_iff_zip.mp h
  exact .subst hlength fun x y hxy => hall hxy

theorem all_symm (h : List.Forall₂ w.OneType xs ys) : List.Forall₂ w.OneType ys xs :=
  h.flip.imp fun _ _ h => h.symm

end OneType

namespace Built

theorem symm (h : w.Built t u) : w.Built u t := by
  cases h with
  | same => exact .same _
  | basic h => exact .basic h.symm
  | named h => exact .named (OneType.all_symm h)
  | pointer h => exact .pointer h.symm
  | item ht hu h => exact .item hu ht h.symm
  | map hk h => exact .map hk.symm h.symm
  | func hparams hresults => exact .func (OneType.all_symm hparams) (OneType.all_symm hresults)
  | components ht hu h => exact .components hu ht (OneType.all_symm h)
  | interface => exact .interface _ _ _ _ _ _
  | param => exact .param _ _ _ _
  | union => exact .union _ _
  | tilde => exact .tilde _ _

theorem exists_named (h : w.Built (.named n xs) u) :
    ∃ ys, u = .named n ys ∧ List.Forall₂ w.OneType xs ys := by
  cases h with
  | same => exact ⟨xs, rfl, OneType.refls w xs⟩
  | named h => exact ⟨_, rfl, h⟩
  | item h | components h => cases h

theorem exists_pointer {a : Ty} (h : w.Built (.pointer a) u) :
    ∃ b, u = .pointer b ∧ w.OneType a b := by
  cases h with
  | same => exact ⟨a, rfl, .refl w a⟩
  | pointer h => exact ⟨_, rfl, h⟩
  | item h | components h => cases h

theorem exists_map {k a : Ty} (h : w.Built (.map k a) u) :
    ∃ l b, u = .map l b ∧ w.OneType a b := by
  cases h with
  | same => exact ⟨k, a, rfl, .refl w a⟩
  | map _ h => exact ⟨_, _, rfl, h⟩
  | item h | components h => cases h

theorem exists_func {ps rs : List (Member Ty)} {v : Bool} (h : w.Built (.func ps rs v) u) :
    ∃ qs ss v', u = .func qs ss v' ∧
      List.Forall₂ w.OneType (ps.map (·.type)) (qs.map (·.type)) ∧
      List.Forall₂ w.OneType (rs.map (·.type)) (ss.map (·.type)) := by
  cases h with
  | same => exact ⟨ps, rs, v, rfl, OneType.refls w _, OneType.refls w _⟩
  | func hparams hresults => exact ⟨_, _, _, rfl, hparams, hresults⟩
  | item h | components h => cases h

theorem exists_components {as : List Ty} (h : w.Built t u) (ht : t.components? = some as) :
    ∃ bs, u.components? = some bs ∧ List.Forall₂ w.OneType as bs := by
  cases h with
  | same => exact ⟨as, ht, OneType.refls w as⟩
  | components ht' hu h =>
    cases ht.symm.trans ht'
    exact ⟨_, hu, h⟩
  | item hitem => cases hitem.symm.trans (Ty.item_of_components ht)
  | _ => cases ht

end Built

/-! ### Identical types -/

theorem oneTypes_of_related {depth : Nat}
    (h : ∀ k ≥ depth, related (w.identicalIn .identical k []) xs ys = true) :
    List.Forall₂ w.OneType xs ys := by
  have hall : ∀ k ≥ depth, xs.length = ys.length ∧
      ∀ q ∈ xs.zip ys, w.identicalIn .identical k [] q.1 q.2 = true := fun k hk => by
    simpa [related] using h k hk
  exact List.forall₂_iff_zip.mpr ⟨(hall depth (Nat.le_refl _)).1, fun hq =>
    .identical ⟨depth, fun k hk => (hall k hk).2 _ hq⟩⟩

/-- **Identical types have one shape**, behind aliases. -/
theorem built_of_identical (h : w.Identical t u) : w.Built (w.unalias t) (w.unalias u) := by
  obtain ⟨depth, hdepth⟩ := h
  by_cases hne : w.unalias t = w.unalias u
  · rw [hne]
    exact .same _
  have hall : ∀ k ≥ depth, w.identicalIn .identical (k + 1) [] t u = true := fun k hk =>
    hdepth (k + 1) (Nat.le_succ_of_le hk)
  simp only [identicalIn, resolved, hne, decide_false, Bool.false_or] at hall
  have hat := hall depth (Nat.le_refl _)
  split at hat
  case h_1 ht hu =>
    rw [ht, hu]
    exact .basic (of_decide_eq_true hat)
  case h_2 n xs m ys ht hu =>
    simp only [ht, hu, Bool.and_eq_true, decide_eq_true_eq, reduceCtorEq, if_false] at hall ⊢
    obtain ⟨rfl, -⟩ := hall depth (Nat.le_refl _)
    exact .named (oneTypes_of_related fun k hk => (hall k hk).2)
  case h_3 ht hu =>
    rw [Bool.and_eq_true, decide_eq_true_eq, decide_eq_true_eq] at hat
    rw [ht, hu, hat.1, hat.2]
    exact .param _ _ _ _
  case h_4 ht hu =>
    simp only [ht, hu] at hall ⊢
    exact .pointer (.identical ⟨depth, hall⟩)
  case h_5 ht hu =>
    simp only [ht, hu] at hall ⊢
    exact .item rfl rfl (.identical ⟨depth, hall⟩)
  case h_6 ht hu | h_8 ht hu =>
    simp only [ht, hu, Bool.and_eq_true] at hall ⊢
    exact .item rfl rfl (.identical ⟨depth, fun k hk => (hall k hk).2⟩)
  case h_7 ht hu =>
    simp only [ht, hu, Bool.and_eq_true] at hall ⊢
    exact .map (.identical ⟨depth, fun k hk => (hall k hk).1⟩)
      (.identical ⟨depth, fun k hk => (hall k hk).2⟩)
  case h_9 ht hu =>
    simp only [ht, hu, Bool.and_eq_true] at hall ⊢
    exact .func (oneTypes_of_related fun k hk => (hall k hk).1.2)
      (oneTypes_of_related fun k hk => (hall k hk).2)
  case h_10 fs gs ht hu =>
    simp only [ht, hu] at hall ⊢
    exact .components rfl rfl (oneTypes_of_related fun k hk => related_types (hall k hk))
  case h_11 ht hu =>
    simp only [ht, hu] at hall ⊢
    exact .components rfl rfl (oneTypes_of_related hall)
  case h_12 ht hu =>
    rw [ht, hu]
    exact .interface _ _ _ _ _ _
  case h_13 ht hu =>
    rw [ht, hu]
    exact .union _ _
  case h_14 => cases hat

/-! ### Filling in -/

/-- Filling in keeps the shape of a type, unless it is a parameter by itself. -/
theorem built_filled (hargs : List.Forall₂ w.OneType xs ys) (hs : ∀ b i l, s ≠ .param b i l) :
    w.Built (s.subst n xs) (s.subst n ys) := by
  have hall : ∀ s : Ty, w.OneType (s.subst n xs) (s.subst n ys) := fun s => .filled hargs s n
  have hmembers : ∀ fs : List (Member Ty), List.Forall₂ w.OneType
      ((fs.map fun m => { m with type := m.type.subst n xs }).map (·.type))
      ((fs.map fun m => { m with type := m.type.subst n ys }).map (·.type)) := fun fs => by
    rw [List.map_map, List.map_map]
    exact Ty.SameHead.forall₂_map (fun m => hall m.type) fs
  rw [Ty.subst_eq_mapChildren hs, Ty.subst_eq_mapChildren hs]
  cases s with
  | basic b => exact .same _
  | named m zs => exact .named (Ty.SameHead.forall₂_map hall zs)
  | param b i l => exact absurd rfl (hs b i l)
  | pointer a => exact .pointer (hall a)
  | slice a | array k a | chan d a => exact .item rfl rfl (hall a)
  | map k a => exact .map (hall k) (hall a)
  | func ps rs v => exact .func (hmembers ps) (hmembers rs)
  | struct fs => exact .components rfl rfl (hmembers fs)
  | tuple ts => exact .components rfl rfl (Ty.SameHead.forall₂_map hall ts)
  | interface f ms es => exact .interface _ _ _ _ _ _
  | union ts => exact .union _ _
  | tilde a => exact .tilde _ _

namespace Checked

variable (hw : w.Checked rank)

include hw

theorem built_aliasTarget? (h : w.Built t u) :
    Option.Rel w.Built (w.aliasTarget? t) (w.aliasTarget? u) := by
  cases h with
  | same t =>
    cases w.aliasTarget? t with
    | none => exact .none
    | some v => exact .some (.same v)
  | named hargs =>
    exact aliasTarget?_rel (.named hargs) fun hd hargs => built_filled hargs (hw.ne_param hd)
  | item ht hu _ | components ht hu _ =>
    have hnone : ∀ {v : Ty}, (∀ n xs, v ≠ .named n xs) → w.aliasTarget? v = none :=
      aliasTarget?_of_not_named
    rw [hnone fun n xs hname => by simp [hname, Ty.item?, Ty.components?] at ht,
      hnone fun n xs hname => by simp [hname, Ty.item?, Ty.components?] at hu]
    exact .none
  | _ => exact .none

/-- **Types that are one type have one shape**, behind aliases. -/
theorem built_of_oneType (h : w.OneType t u) : w.Built (w.unalias t) (w.unalias u) := by
  induction h with
  | identical h => exact built_of_identical h
  | symm _ ih => exact ih.symm
  | @subst s n xs ys hlength h ih =>
    by_cases hs : ∃ b i l, s = .param b i l
    · obtain ⟨b, i, l, rfl⟩ := hs
      exact Ty.subst_param_rel (fun t => .same (w.unalias t)) hlength ih n b i l
    · push Not at hs
      have hargs : List.Forall₂ w.OneType xs ys :=
        List.forall₂_iff_zip.mpr ⟨hlength, fun hxy => h _ _ hxy⟩
      exact unaliasIn_rel hw.built_aliasTarget? (built_filled hargs hs)

end Checked

end World

end EverEqual
