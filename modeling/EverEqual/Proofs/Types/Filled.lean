import EverEqual.Types.Mentioned
import Mathlib.Data.List.Forall2

/-!
# Types with their parameters filled in

A type that is written in a declaration stands for many types: one for each list of arguments. What
is looked for in such a type is found in it as it is written, and the arguments are filled in after
that.

* `Ty.children`, `Ty.Every`, `Ty.Names`: what a type is made of, and the names in it;
* `Ty.mapChildren`: filling in, one step down;
* `Ty.parts_subst`: the parts of a type with its parameters filled in;
* `Ty.subst_subst`: arguments that are filled in themselves.
-/

namespace EverEqual

namespace Ty

/-- The types that a type is directly made of. -/
def children : Ty → List Ty
  | .named _ xs | .tuple xs | .union xs => xs
  | .pointer a | .slice a | .array _ a | .chan _ a | .tilde a => [a]
  | .map k a => [k, a]
  | .func ps rs _ => ps.map (·.type) ++ rs.map (·.type)
  | .struct fs => fs.map (·.type)
  | .interface _ ms es => ms.map (·.type) ++ es
  | .basic _ | .param _ _ _ => []

/-- A type and all that it is made of have a property. -/
inductive Every (p : Ty → Prop) : Ty → Prop
  | intro {t : Ty} (h : p t) (hs : ∀ s ∈ t.children, Every p s) : Every p t

variable {p q : Ty → Prop} {s t : Ty} {m n : TypeName} {xs ys : List Ty}

theorem Every.self (h : t.Every p) : p t := by
  cases h with
  | intro h _ => exact h

theorem Every.child (h : t.Every p) (hs : s ∈ t.children) : s.Every p := by
  cases h with
  | intro _ hchildren => exact hchildren s hs

theorem Every.imp (hpq : ∀ s, p s → q s) (h : t.Every p) : t.Every q := by
  induction h with
  | intro h _ ih => exact .intro (hpq _ h) ih

/-- Whether a type and all that it is made of have a property, down to a given depth. -/
def everyIn (p : Ty → Bool) : Nat → Ty → Bool
  | 0, _ => false
  | k + 1, t => p t && t.children.all (everyIn p k)

theorem every_of_everyIn {p : Ty → Bool} {k : Nat} (h : t.everyIn p k = true) :
    t.Every (p · = true) := by
  induction k generalizing t with
  | zero => cases h
  | succ k ih =>
    rw [everyIn, Bool.and_eq_true, List.all_eq_true] at h
    exact .intro h.1 fun s hs => ih (h.2 s hs)

theorem sizeOf_lt_of_mem_types {fs : List (Member Ty)} (hs : s ∈ fs.map (·.type)) :
    sizeOf s < sizeOf fs := by
  obtain ⟨f, hf, rfl⟩ := List.mem_map.mp hs
  have hlist := List.sizeOf_lt_of_mem hf
  have hmember : sizeOf f.type < sizeOf f := by
    cases f
    simp
    omega
  omega

theorem sizeOf_lt_of_mem_children (hs : s ∈ t.children) : sizeOf s < sizeOf t := by
  cases t with
  | named n xs | tuple xs | union xs =>
    have hlist : sizeOf s < sizeOf xs := List.sizeOf_lt_of_mem hs
    simp
    omega
  | pointer a | slice a | array k a | chan c a | tilde a =>
    obtain rfl := List.mem_singleton.mp hs
    simp
    try omega
  | map k a =>
    rw [map.sizeOf_spec]
    rcases List.mem_pair.mp hs with rfl | rfl
    · omega
    · omega
  | func ps rs v =>
    rcases List.mem_append.mp hs with hs | hs
    · have hlist := sizeOf_lt_of_mem_types hs
      simp
      omega
    · have hlist := sizeOf_lt_of_mem_types hs
      simp
      omega
  | struct fs =>
    have hlist := sizeOf_lt_of_mem_types hs
    simp
    omega
  | interface f ms es =>
    rcases List.mem_append.mp hs with hs | hs
    · have hlist := sizeOf_lt_of_mem_types hs
      simp
      omega
    · have hlist := List.sizeOf_lt_of_mem hs
      simp
      omega
  | basic b | param b i l => cases hs

theorem induction_children {P : Ty → Prop} (h : ∀ t, (∀ s ∈ t.children, P s) → P t) (t : Ty) :
    P t :=
  h t fun s _ => induction_children h s
termination_by sizeOf t
decreasing_by exact sizeOf_lt_of_mem_children ‹_›

theorem mem_children_of_mem_parts (hs : s ∈ t.parts) : s ∈ t.children := by
  cases t <;> first | exact hs | cases hs

/-! ### Filling in -/

/-- The type with everything that it is directly made of replaced. -/
def mapChildren (f : Ty → Ty) : Ty → Ty
  | .named n xs => .named n (xs.map f)
  | .pointer a => .pointer (f a)
  | .slice a => .slice (f a)
  | .array k a => .array k (f a)
  | .map k a => .map (f k) (f a)
  | .chan d a => .chan d (f a)
  | .func ps rs v =>
    .func (ps.map fun m => { m with type := f m.type })
      (rs.map fun m => { m with type := f m.type }) v
  | .struct fs => .struct (fs.map fun m => { m with type := f m.type })
  | .tuple xs => .tuple (xs.map f)
  | .interface form ms es =>
    .interface form (ms.map fun m => { m with type := f m.type }) (es.map f)
  | .union xs => .union (xs.map f)
  | .tilde a => .tilde (f a)
  | .basic b => .basic b
  | .param b i l => .param b i l

variable {f g : Ty → Ty}

theorem mapChildren_congr (h : ∀ s ∈ t.children, f s = g s) :
    t.mapChildren f = t.mapChildren g := by
  have hmembers : ∀ {fs : List (Member Ty)}, (∀ s ∈ fs.map (·.type), f s = g s) →
      (fs.map fun m => { m with type := f m.type }) = fs.map fun m => { m with type := g m.type } :=
    fun h => List.map_congr_left fun m hm => by rw [h _ (List.mem_map_of_mem hm)]
  cases t with
  | named n xs | tuple xs | union xs =>
    have hxs : xs.map f = xs.map g := List.map_congr_left h
    simp only [mapChildren, hxs]
  | pointer a | slice a | array k a | chan c a | tilde a =>
    simp only [mapChildren, h a List.mem_cons_self]
  | map k a =>
    simp only [mapChildren, h k (List.mem_pair.mpr (Or.inl rfl)),
      h a (List.mem_pair.mpr (Or.inr rfl))]
  | func ps rs v =>
    simp only [mapChildren, hmembers fun s hs => h s (List.mem_append_left _ hs),
      hmembers fun s hs => h s (List.mem_append_right _ hs)]
  | struct fs => simp only [mapChildren, hmembers h]
  | interface form ms es =>
    simp only [mapChildren, hmembers fun s hs => h s (List.mem_append_left _ hs),
      List.map_congr_left fun s hs => h s (List.mem_append_right _ hs)]
  | basic b | param b i l => rfl

theorem mapChildren_id (t : Ty) : t.mapChildren id = t := by
  cases t <;> simp [mapChildren]

theorem mapChildren_mapChildren (t : Ty) :
    (t.mapChildren f).mapChildren g = t.mapChildren (g ∘ f) := by
  cases t <;> simp [mapChildren, Function.comp_def]

theorem children_mapChildren (t : Ty) : (t.mapChildren f).children = t.children.map f := by
  cases t <;> simp [mapChildren, children, Function.comp_def]

theorem parts_mapChildren (t : Ty) : (t.mapChildren f).parts = t.parts.map f := by
  cases t <;> simp [mapChildren, parts, Function.comp_def]

/-- Where no parameter is filled in, what a type is made of is. -/
theorem subst_eq_mapChildren (ht : ∀ b i l, t ≠ .param b i l) :
    t.subst n xs = t.mapChildren (subst n xs) := by
  have hall : ∀ ts, substAll n xs ts = ts.map (subst n xs) := by
    intro ts
    induction ts with
    | nil => rfl
    | cons t ts ih => rw [substAll, ih, List.map_cons]
  have hmembers : ∀ fs : List (Member Ty),
      substMembers n xs fs = fs.map fun m => { m with type := m.type.subst n xs } := by
    intro fs
    induction fs with
    | nil => rfl
    | cons f fs ih => rw [substMembers, ih, List.map_cons]
  cases t with
  | param b i l => exact absurd rfl (ht b i l)
  | _ => simp only [subst, mapChildren, hall, hmembers]

theorem mapChildren_ne_param (ht : ∀ b i l, t ≠ .param b i l) (b : Binder) (i : Nat) (l : String) :
    t.mapChildren f ≠ .param b i l := by
  cases t with
  | param b' i' l' => exact absurd rfl (ht b' i' l')
  | _ => nofun

theorem subst_ne_param (ht : ∀ b i l, t ≠ .param b i l) (b : Binder) (i : Nat) (l : String) :
    t.subst n xs ≠ .param b i l := by
  rw [subst_eq_mapChildren ht]
  exact mapChildren_ne_param ht b i l

theorem subst_ne_named (ht : ∀ b i l, t ≠ .param b i l) (hname : ∀ m ys, t ≠ .named m ys)
    (m : TypeName) (ys : List Ty) : t.subst n xs ≠ .named m ys := by
  rw [subst_eq_mapChildren ht]
  cases t with
  | named m' ys' => exact absurd rfl (hname m' ys')
  | _ => nofun

theorem subst_param (b : Binder) (i : Nat) (l : String) :
    (Ty.param b i l).subst n xs =
      if b.declaration = n then xs.getD i (.param b i l) else .param b i l := by
  rw [subst]

theorem subst_named : (Ty.named m ys).subst n xs = .named m (ys.map (subst n xs)) :=
  subst_eq_mapChildren fun _ _ _ => nofun

/-- What becomes a name is one, unless it is a parameter. -/
theorem exists_of_subst_eq_named (ht : ∀ b i l, t ≠ .param b i l)
    (h : t.subst n xs = .named m ys) : ∃ zs, t = .named m zs ∧ ys = zs.map (subst n xs) := by
  by_cases hname : ∃ k zs, t = .named k zs
  · obtain ⟨k, zs, rfl⟩ := hname
    rw [subst_named] at h
    cases h
    exact ⟨zs, rfl, rfl⟩
  · push Not at hname
    exact absurd h (subst_ne_named ht hname m ys)

theorem parts_subst (ht : ∀ b i l, t ≠ .param b i l) :
    (t.subst n xs).parts = t.parts.map (subst n xs) := by
  rw [subst_eq_mapChildren ht, parts_mapChildren]

theorem subst_nil (t : Ty) : t.subst n [] = t := by
  induction t using induction_children with
  | h t ih =>
    by_cases ht : ∃ b i l, t = .param b i l
    · obtain ⟨b, i, l, rfl⟩ := ht
      simp [subst_param]
    · push Not at ht
      rw [subst_eq_mapChildren ht, mapChildren_congr (g := id) ih, mapChildren_id]

/-- A parameter is one of so many parameters of a declaration; other types are not restricted. -/
def Fillable (n : TypeName) (count : Nat) : Ty → Prop
  | .param b i _ => b.declaration = n ∧ i < count
  | _ => True

/-- **Arguments may be filled in before they fill in a type**, if all its parameters are. -/
theorem subst_subst (h : t.Every (Fillable m xs.length)) :
    (t.subst m xs).subst n ys = t.subst m (xs.map (subst n ys)) := by
  induction h with
  | @intro t h _ ih =>
    by_cases ht : ∃ b i l, t = .param b i l
    · obtain ⟨b, i, l, rfl⟩ := ht
      obtain ⟨rfl, hi⟩ := h
      simp [subst_param, hi]
    · push Not at ht
      rw [subst_eq_mapChildren ht, subst_eq_mapChildren (mapChildren_ne_param ht),
        mapChildren_mapChildren, subst_eq_mapChildren ht]
      exact mapChildren_congr ih

/-- The names in a type have a property. -/
def Names (p : TypeName → Prop) (t : Ty) : Prop :=
  t.Every fun s => ∀ m xs, s = .named m xs → p m

theorem Names.head {p : TypeName → Prop} (h : (Ty.named m ys).Names p) : p m :=
  h.self m ys rfl

theorem Names.child {p : TypeName → Prop} (h : t.Names p) (hs : s ∈ t.children) : s.Names p :=
  Every.child h hs

theorem Names.imp {p q : TypeName → Prop} (hpq : ∀ m, p m → q m) (h : t.Names p) : t.Names q :=
  Every.imp (fun _ hs m xs hm => hpq m (hs m xs hm)) h

theorem Names.subst {p : TypeName → Prop} (h : t.Names p) (hxs : ∀ x ∈ xs, x.Names p) :
    (t.subst n xs).Names p := by
  unfold Names at h
  induction h with
  | @intro t h _ ih =>
    by_cases ht : ∃ b i l, t = .param b i l
    · obtain ⟨b, i, l, rfl⟩ := ht
      rw [subst_param]
      have hself : (Ty.param b i l).Names p := .intro nofun (by simp [children])
      split
      · rw [List.getD_eq_getElem?_getD]
        cases hx : xs[i]? with
        | none => exact hself
        | some x => exact hxs x (List.mem_of_getElem? hx)
      · exact hself
    · push Not at ht
      rw [subst_eq_mapChildren ht]
      refine .intro (fun m ys hm => ?_) fun s hs => ?_
      · cases t with
        | named _ zs =>
          cases hm
          exact h _ zs rfl
        | _ => cases hm
      · rw [children_mapChildren] at hs
        obtain ⟨r, hr, rfl⟩ := List.mem_map.mp hs
        exact ih r hr

end Ty

end EverEqual
