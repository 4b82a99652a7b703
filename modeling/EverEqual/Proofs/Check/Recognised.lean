import EverEqual.Proofs.Check.Accepts
import EverEqual.Proofs.Describe.Counterparts

/-!
# How identical types are recognised

Types are told apart by their texts, and identical types may have different texts: predeclared types
have second names, aliases stand for other types, and parameters have names. Where the texts differ,
the shape of the types leads to a stage of the decision order, and there their parts decide, which
are identical again: what they point to, hold, expose or are made of, or the arguments of an
instance. But the keys of maps only count by their texts, and of a function type only what ranging
over it yields is looked at.

* `World.Recognised`: the identical types that are taken for one type, by their parts;
* `World.accepts_of_recognised`: these accept each other;
* `World.recognised_of_accepts`: identical types that accept each other are among these;
* `World.accepts_iff_recognised`: both.
-/

namespace EverEqual

namespace World

variable {w : World} {rank : String → Nat} {interfaces : List Ty} {roots : Set Ty} {n : TypeName}
  {xs ys : List Ty} {t u v a b c k l : Ty} {r s : RangeElements} {j : Nat}

/-- **Identical types that are taken for one type.** -/
inductive Recognised (w : World) (interfaces : List Ty) : Ty → Ty → Prop
  /-- The text of the right side is that of the left side, or of a type that the left side points
  to: pointers may lead in a circle, and identical types enter it at different places. -/
  | text {t u v : Ty} (hpass : w.Passes t v) (h : (w.plan v).id = (w.plan u).id) :
      Recognised w interfaces t u
  /-- A side is unresolved, as type parameters are. -/
  | unresolved {t u : Ty} (h : (w.plan t).kind = .unknown ∨ (w.plan u).kind = .unknown) :
      Recognised w interfaces t u
  | numeric {t u : Ty} (ht : (w.plan t).kind = .numeric) (hu : (w.plan u).kind = .numeric) :
      Recognised w interfaces t u
  /-- Pointers come to an end, and what they point to is recognised. -/
  | pointer {t u a b c : Ty} {j : Nat} (ht : w.pointee? t = some a) (hu : w.pointee? u = some b)
      (hends : w.Behind j a c) (h : Recognised w interfaces a b) : Recognised w interfaces t u
  /-- Values of both sides yield elements, which on one side could be anything. -/
  | anyElement {t u : Ty} {r s : RangeElements} (hr : w.yields? (w.core t) = some r)
      (hs : w.yields? (w.core u) = some s)
      (h : w.isEmptyInterface r.element = true ∨ w.isEmptyInterface s.element = true) :
      Recognised w interfaces t u
  /-- Values of both sides yield elements that are recognised, with keys of one text or with
  none. -/
  | yields {t u : Ty} {r s : RangeElements} (hr : w.yields? (w.core t) = some r)
      (hs : w.yields? (w.core u) = some s) (hkey : Option.Rel w.SameKey r.key s.key)
      (h : Recognised w interfaces r.element s.element) : Recognised w interfaces t u
  /-- Maps have keys of one text, and what they hold is recognised. -/
  | map {t u k l a b : Ty} (ht : w.core t = .map k a) (hu : w.core u = .map l b)
      (hkl : w.SameKey k l) (h : Recognised w interfaces a b) : Recognised w interfaces t u
  /-- Instances are compared by elements that their methods expose, and these are recognised. -/
  | exposed {t u a b : Ty} {n : TypeName} {xs ys : List Ty}
      (hst : w.stage interfaces t u = .elements) (ht : w.unalias t = .named n xs)
      (hu : w.unalias u = .named n ys) (ha : (w.portrait interfaces t).element = some a)
      (hb : (w.portrait interfaces u).element = some b) (h : Recognised w interfaces a b) :
      Recognised w interfaces t u
  | components {t u : Ty} {as bs : List Ty} (ht : (w.unalias t).components? = some as)
      (hu : (w.unalias u).components? = some bs) (hlen : as.length = bs.length)
      (h : ∀ q ∈ as.zip bs, Recognised w interfaces q.1 q.2) : Recognised w interfaces t u
  /-- The arguments of instances are recognised, where nothing else decides. -/
  | arguments {t u : Ty} {n : TypeName} {xs ys : List Ty} (hst : w.stage interfaces t u = .generic)
      (ht : w.unalias t = .named n xs) (hu : w.unalias u = .named n ys)
      (h : ∀ q ∈ xs.zip ys, Recognised w interfaces q.1 q.2) : Recognised w interfaces t u
  | interface {t u : Ty} {f g : InterfaceForm} {ms ns : List (Member Ty)} {es ds : List Ty}
      (ht : w.unalias t = .interface f ms es) (hu : w.unalias u = .interface g ns ds) :
      Recognised w interfaces t u
  /-- Other functions are not recognised, unless a registered interface goes by the text of one. -/
  | listed {t u : Ty} {ps qs rs ss : List (Member Ty)} {v v' : Bool}
      (ht : w.unalias t = .func ps rs v) (hu : w.unalias u = .func qs ss v')
      (hr : w.rangeElements (.func ps rs v) = none)
      (h : (w.plan u).id ∈ (w.portrait interfaces t).own ∨
        (w.plan t).id ∈ (w.portrait interfaces u).own) : Recognised w interfaces t u

/-! ### Where identical types are decided -/

section Stages

variable (hid : (w.plan t).id ≠ (w.plan u).id)
include hid

theorem stage_numeric (ht : (w.plan t).kind = .numeric) (hu : (w.plan u).kind = .numeric) :
    w.stage interfaces t u = .numeric := by
  simp [stage, Face.stage, Portrait.face, hid, ht, hu]

theorem stage_map (ht : w.core t = .map k a) (hu : w.core u = .map l b) :
    w.stage interfaces t u = .keyed := by
  simp [stage, Face.stage, Face.enumerable, Portrait.face, hid, kind_of_map ht, kind_of_map hu,
    portrait_of_map interfaces ht, portrait_of_map interfaces hu]

theorem stage_components {as bs : List Ty} (ht : (w.unalias t).components? = some as)
    (hu : (w.unalias u).components? = some bs) (hlen : as.length = bs.length) :
    w.stage interfaces t u = .tuple := by
  obtain ⟨bases, hP⟩ := portrait_components interfaces ht
  obtain ⟨bases', hQ⟩ := portrait_components interfaces hu
  simp [stage, Face.stage, Face.enumerable, Portrait.face, hP, hQ, hid, hlen]

theorem stage_interface {f g : InterfaceForm} {ms ns : List (Member Ty)} {es ds : List Ty}
    (ht : w.unalias t = .interface f ms es) (hu : w.unalias u = .interface g ns ds) :
    w.stage interfaces t u = .rest := by
  simp [stage, Face.stage, Face.enumerable, Portrait.face, portrait_interface ht,
    portrait_interface hu, hid]

theorem stage_func {ps qs rs ss : List (Member Ty)} {x y : Bool}
    (ht : w.unalias t = .func ps rs x) (hu : w.unalias u = .func qs ss y)
    (hr : w.rangeElements (.func ps rs x) = none) : w.stage interfaces t u = .rest := by
  cases hs : w.rangeElements (.func qs ss y) <;>
    simp [stage, Face.stage, Face.enumerable, Portrait.face, portrait_func ht, portrait_func hu,
      hid, hr, hs, kindOf]

theorem stage_anyElement (hr : w.yields? (w.core t) = some r) (hs : w.yields? (w.core u) = some s)
    (h : w.isEmptyInterface r.element = true ∨ w.isEmptyInterface s.element = true) :
    w.stage interfaces t u = .anyElement := by
  have ha := (portrait_of_yields interfaces hr).1
  have hb := (portrait_of_yields interfaces hs).1
  rcases kind_of_yields hr with ht | ht <;> rcases kind_of_yields hs with hu | hu <;>
    rcases h with h | h <;>
    simp [stage, Face.stage, Face.enumerable, Portrait.face, hid, ht, hu, ha, hb, known?, h]

theorem stage_yields (interfaces : List Ty) (hr : w.yields? (w.core t) = some r)
    (hs : w.yields? (w.core u) = some s)
    (h : ¬ (w.isEmptyInterface r.element = true ∨ w.isEmptyInterface s.element = true))
    (hkey : r.key.isSome = s.key.isSome) :
    w.stage interfaces t u = if r.key.isSome then .keyed else .elements := by
  obtain ⟨ha, hk⟩ := portrait_of_yields interfaces hr
  obtain ⟨hb, hl⟩ := portrait_of_yields interfaces hs
  rw [not_or] at h
  cases hrk : r.key <;> cases hsk : s.key <;> simp only [hrk, hsk] at hkey <;>
    rcases kind_of_yields hr with ht | ht <;> rcases kind_of_yields hs with hu | hu <;>
    simp_all [stage, Face.stage, Face.enumerable, Portrait.face, known?]

end Stages

theorem plan_of_plain (h : (w.portrait interfaces t).face.Plain (w.portrait interfaces u).face) :
    ((w.plan t).kind ≠ .unknown ∧ (w.plan u).kind ≠ .unknown) ∧ (w.plan t).id ≠ (w.plan u).id ∧
      (w.plan t).kind ≠ .nullable ∧ (w.plan u).kind ≠ .nullable := by
  obtain ⟨hres, hid, ht, hu⟩ := h
  simp only [Portrait.face, kind_portrait, id_portrait] at hres hid ht hu
  exact ⟨not_or.mp hres, hid, ht, hu⟩

/-! ### Soundness -/

theorem accepts_of_pointee (ht : w.pointee? t = some a) (h : w.Accepts interfaces roots a u) :
    w.Accepts interfaces roots t u := by
  refine accepts_of_differ fun hid => ?_
  by_cases hres : (w.plan u).kind = .unknown
  · exact .unknown (stage_of_unresolved (Or.inr hres))
  · exact .left (stage_left hid (kind_of_pointee ht) hres) ((underlying_portrait _ t).trans ht) h

theorem accepts_of_passes (hpass : w.Passes t v) (h : w.Accepts interfaces roots v u) :
    w.Accepts interfaces roots t u := by
  induction hpass with
  | start => exact h
  | pointee _ he ih => exact ih (accepts_of_pointee he h)

/-- A pointer on the right side may be put on, if those of the left side come to an end: it is taken
off when no pointer is left there. -/
theorem accepts_of_behind (ho : w.Orderly interfaces roots) (hends : w.Behind j t c)
    (hmt : w.Met roots t) (hmu : w.Met roots u) (hu : w.pointee? u = some b)
    (h : w.Accepts interfaces roots t b) : w.Accepts interfaces roots t u := by
  induction hends generalizing u b with
  | @bare t ht =>
    have hkind := kind_of_pointee_eq_none ht
    by_cases hres : (w.plan t).kind = .unknown
    · exact .unknown (stage_of_unresolved (Or.inl hres))
    have hid : (w.plan t).id ≠ (w.plan u).id := fun hid =>
      hkind ((ho.kind_eq_of_id hmt hmu hid).trans (kind_of_pointee hu))
    exact .right (stage_right hid hkind hres (kind_of_pointee hu))
      ((underlying_portrait _ u).trans hu) h
  | @pointer k t a c ht _ ih =>
    have hma := hmt.pointee ht
    have hmb := hmu.pointee hu
    refine accepts_of_pointee ht (ih hma hmu hu ?_)
    by_cases hres : (w.plan b).kind = .unknown
    · exact .unknown (stage_of_unresolved (Or.inr hres))
    by_cases hid : (w.plan t).id = (w.plan b).id
    · -- What one text points to has one text, and the pointer in front of it is on the right again.
      obtain ⟨e, he⟩ := exists_underlying interfaces
        ((ho.kind_eq_of_id hmt hmb hid).symm.trans (kind_of_pointee ht))
      have hae := ho.id_underlying hmt hmb hid ((underlying_portrait _ t).trans ht) he
      rw [underlying_portrait] at he
      exact ih hma hmb he (accepts_of_text hae)
    · exact (accepts_iff_of_left (stage_left hid (kind_of_pointee ht) hres)
        ((underlying_portrait _ t).trans ht)).mp h

theorem accepts_of_yields (hr : w.yields? (w.core t) = some r) (hs : w.yields? (w.core u) = some s)
    (hkey : Option.Rel w.SameKey r.key s.key)
    (h : (w.portrait interfaces t).element = some r.element →
      (w.portrait interfaces u).element = some s.element →
      w.Accepts interfaces roots r.element s.element) : w.Accepts interfaces roots t u := by
  refine accepts_of_differ fun hid => ?_
  by_cases hany : w.isEmptyInterface r.element = true ∨ w.isEmptyInterface s.element = true
  · exact .anyElement (stage_anyElement hid hr hs hany)
  obtain ⟨ha, hk⟩ := portrait_of_yields interfaces hr
  obtain ⟨hb, hl⟩ := portrait_of_yields interfaces hs
  rw [known?, if_neg (not_or.mp hany).1] at ha
  rw [known?, if_neg (not_or.mp hany).2] at hb
  have hst := stage_yields hid interfaces hr hs hany
  cases hrk : r.key <;> cases hsk : s.key <;> rw [hrk, hsk] at hkey hst
  · exact .elements (hst rfl) ha hb (h ha hb)
  · cases hkey
  · cases hkey
  · cases hkey with
    | some hkl => exact .keyed (hst rfl) (hk.trans hrk) (hl.trans hsk) hkl ha hb (h ha hb)

/-- Functions of different texts have nothing in common but an interface that goes by the text of
one of them. -/
theorem related_func (ho : w.Orderly interfaces roots) (hmt : w.Met roots t) (hmu : w.Met roots u)
    {ps qs rs ss : List (Member Ty)} {x y : Bool} (ht : w.unalias t = .func ps rs x)
    (hu : w.unalias u = .func qs ss y) :
    w.Related interfaces roots t u ↔ (w.plan u).id ∈ (w.portrait interfaces t).own ∨
      (w.plan t).id ∈ (w.portrait interfaces u).own := by
  have hkind : ∀ {v : Ty} {ps rs : List (Member Ty)} {b : Bool}, w.unalias v = .func ps rs b →
      (w.plan v).kind ≠ .interface := by
    intro v ps rs b hv
    rw [← w.kind_portrait (I := interfaces), portrait_func hv]
    simp only [kindOf]
    split <;> simp
  unfold Related
  rw [ho.ancestor_iff_own hmt (by rw [portrait_func ht]),
    ho.ancestor_iff_own hmu (by rw [portrait_func hu])]
  simp [hkind ht, portrait_func ht, portrait_func hu]

/-- **Types that are recognised accept each other.** -/
theorem accepts_of_recognised (ho : w.Orderly interfaces roots)
    (h : w.Recognised interfaces t u) (hmt : w.Met roots t) (hmu : w.Met roots u) :
    w.Accepts interfaces roots t u := by
  induction h with
  | text hpass h => exact accepts_of_passes hpass (accepts_of_text h)
  | unresolved h => exact .unknown (stage_of_unresolved h)
  | numeric ht hu => exact accepts_of_differ fun hid => .numeric (stage_numeric hid ht hu)
  | pointer ht hu hends _ ih =>
    have hma := hmt.pointee ht
    exact accepts_of_pointee ht
      (accepts_of_behind ho hends hma hmu hu (ih hma (hmu.pointee hu)))
  | anyElement hr hs h =>
    exact accepts_of_differ fun hid => .anyElement (stage_anyElement hid hr hs h)
  | yields hr hs hkey _ ih =>
    exact accepts_of_yields hr hs hkey fun ha hb => ih (hmt.element ha) (hmu.element hb)
  | map ht hu hkl _ ih =>
    obtain ⟨ha, hk⟩ := portrait_of_map interfaces ht
    obtain ⟨hb, hl⟩ := portrait_of_map interfaces hu
    exact accepts_of_differ fun hid =>
      .keyed (stage_map hid ht hu) hk hl hkl ha hb (ih (hmt.element ha) (hmu.element hb))
  | exposed hst _ _ ha hb _ ih => exact .elements hst ha hb (ih (hmt.element ha) (hmu.element hb))
  | components ht hu hlen _ ih =>
    refine accepts_of_differ fun hid => .tuple (stage_components hid ht hu hlen) ?_
    have hP := tuple_of_components interfaces ht
    have hQ := tuple_of_components interfaces hu
    rw [hP, hQ]
    intro q hq
    have hmem := List.of_mem_zip hq
    exact ih q hq (hmt.tuple (hP ▸ hmem.1)) (hmu.tuple (hQ ▸ hmem.2))
  | arguments hst ht hu _ ih =>
    refine .generic hst ?_
    obtain ⟨hres, -⟩ := plan_of_plain (Face.decided_of_stage hst).1
    have hP := typeArgs_portrait interfaces ht (core_ne_invalid hres.1)
    have hQ := typeArgs_portrait interfaces hu (core_ne_invalid hres.2)
    rw [hP, hQ]
    intro q hq
    have hmem := List.of_mem_zip hq
    exact ih q hq (hmt.argument (hP ▸ hmem.1)) (hmu.argument (hQ ▸ hmem.2))
  | interface ht hu =>
    refine accepts_of_differ fun hid => .rest (stage_interface hid ht hu) ?_
    refine Or.inr (Or.inr (Or.inl ⟨?_, ?_⟩))
    · rw [← w.kind_portrait (I := interfaces), portrait_interface ht]
    · rw [← w.kind_portrait (I := interfaces), portrait_interface hu]
  | listed ht hu hr h =>
    exact accepts_of_differ fun hid =>
      .rest (stage_func hid ht hu hr) ((related_func ho hmt hmu ht hu).mpr h)

/-! ### Pointers of identical types -/

theorem Orderly.behind_of_id (ho : w.Orderly interfaces roots) (h : w.Behind j t c)
    (hmt : w.Met roots t) (hmu : w.Met roots u) (hid : (w.plan t).id = (w.plan u).id) :
    ∃ d, w.Behind j u d := by
  have hkind := ho.kind_eq_of_id hmt hmu hid
  induction h generalizing u with
  | bare ht =>
    exact ⟨u, .bare (pointee_eq_none_of_kind (hkind ▸ kind_of_pointee_eq_none ht))⟩
  | @pointer k t a c ht _ ih =>
    obtain ⟨b, hb⟩ := exists_underlying interfaces (hkind.symm.trans (kind_of_pointee ht))
    have hab := ho.id_underlying hmt hmu hid ((underlying_portrait _ t).trans ht) hb
    have hma := hmt.pointee ht
    have hmb := hmu.underlying hb
    obtain ⟨d, hd⟩ := ih hma hmb hab (ho.kind_eq_of_id hma hmb hab)
    exact ⟨d, .pointer ((underlying_portrait _ u).symm.trans hb) hd⟩

/-- If pointers never end, only a type of the same text on the way lets them accept anything. -/
theorem passes_of_endless (h : w.Accepts interfaces roots t u)
    (hendless : ∀ j c, ¬ w.Behind j t c) :
    (∃ v, w.Passes t v ∧ (w.plan v).id = (w.plan u).id) ∨ (w.plan u).kind = .unknown := by
  have hnullable : ∀ {t}, (∀ j c, ¬ w.Behind j t c) → (w.plan t).kind = .nullable := by
    intro t hendless
    by_contra hkind
    exact hendless 0 t (.bare (pointee_eq_none_of_kind hkind))
  induction h with
  | unknown hst =>
    have hres := Face.decided_of_stage hst
    simp only [Face.Decided, Portrait.face, kind_portrait, hnullable hendless] at hres
    exact .inr (hres.resolve_left (by simp))
  | identity hst =>
    have hid := Face.decided_of_stage hst
    simp only [Face.Decided, Portrait.face, id_portrait] at hid
    exact .inl ⟨_, .start, hid⟩
  | left hst ha _ ih =>
    rw [underlying_portrait] at ha
    refine (ih fun j c h => hendless (j + 1) c (.pointer ha h)).imp_left ?_
    rintro ⟨v, hpass, hid⟩
    exact ⟨v, hpass.head ha, hid⟩
  | right hst =>
    have hkind := (Face.decided_of_stage hst).1
    simp only [Portrait.face, kind_portrait] at hkind
    exact absurd (hnullable hendless) hkind
  | numeric hst | anyElement hst | elements hst | keyed hst | tuple hst | generic hst | rest hst =>
    exact absurd (hnullable hendless) (plan_of_plain (Face.decided_of_stage hst).1).2.2.1

/-! ### Completeness -/

theorem enumerable_of_kind (h : (w.plan t).kind = .array ∨ (w.plan t).kind = .collection) :
    (w.portrait interfaces t).face.enumerable = true := by
  rcases h with h | h <;> simp [Face.enumerable, Portrait.face, h]

/-- Instances of one declaration that are told apart are compared by their arguments, if nothing
else decides. -/
theorem generic_of_instances (hres : (w.plan t).kind ≠ .unknown ∧ (w.plan u).kind ≠ .unknown)
    (hid : (w.plan t).id ≠ (w.plan u).id) (ht : w.unalias t = .named n xs)
    (hu : w.unalias u = .named n ys) (hlen : xs.length = ys.length) :
    (w.portrait interfaces t).face.origin ≠ "" ∧
      (w.portrait interfaces t).face.origin = (w.portrait interfaces u).face.origin ∧
      (w.portrait interfaces t).face.arguments = (w.portrait interfaces u).face.arguments := by
  have hvalid := core_ne_invalid hres.1
  have hgeneric := generic_portrait interfaces ht hvalid
  have hgeneric' := generic_portrait interfaces hu (core_ne_invalid hres.2)
  have hxs : xs ≠ [] := by
    rintro rfl
    obtain rfl := List.length_eq_zero_iff.mp hlen.symm
    exact hid (by rw [plan_congr (ht.trans hu.symm)])
  have hys : ys ≠ [] := by
    rintro rfl
    exact hxs (List.length_eq_zero_iff.mp hlen)
  rw [if_neg hxs, Prod.mk.injEq] at hgeneric
  rw [if_neg hys, Prod.mk.injEq] at hgeneric'
  refine ⟨fun hempty => ?_, hgeneric.1.trans hgeneric'.1.symm, ?_⟩
  · cases hd : w.declaration? n with
    | none => exact hvalid (by rw [core, ht, underlying_of_undeclared hd])
    | some d => exact typeString_ne_empty hd (hgeneric.1.symm.trans hempty)
  · simp only [Portrait.face, hgeneric.2, hgeneric'.2, hlen]

section Complete

variable (hw : w.Checked rank) (ho : w.Orderly interfaces roots)

section Pointers

variable (hmt : w.Met roots t) (hmu : w.Met roots u) (hpass : w.Passes u v) (hone : w.OneType t v)
  (hends : u = v ∨ ∃ j c, w.Behind j t c)

include hw hpass hone hends

include ho hmt hmu in
theorem recognised_of_text (hid : (w.plan t).id = (w.plan u).id) : w.Recognised interfaces t v := by
  rcases hends with rfl | ⟨j, c, hbehind⟩
  · exact .text .start hid
  · obtain ⟨d, hd⟩ := ho.behind_of_id hbehind hmt hmu hid
    obtain ⟨e, he⟩ := hw.behind_of_oneType hone hbehind
    obtain rfl := hd.eq_of_passes he hpass
    exact .text .start hid

theorem recognised_of_left (h : w.Accepts interfaces roots t u) (ht : w.pointee? t = some a)
    (ih : ∀ b, w.Passes u b → w.OneType a b → (∃ j c, w.Behind j a c) →
      w.Recognised interfaces a b) : w.Recognised interfaces t v := by
  by_cases hend : ∃ j c, w.Behind j t c
  · obtain ⟨j, c, hbehind⟩ := hend
    cases hbehind with
    | bare hnone => cases hnone.symm.trans ht
    | pointer ha' hbehind =>
      cases ht.symm.trans ha'
      obtain ⟨b, hb, hab⟩ := hw.pointee_of_oneType hone ht
      exact .pointer ht hb hbehind (ih b (hpass.pointee hb) hab ⟨_, _, hbehind⟩)
  · obtain rfl := hends.resolve_right hend
    rcases passes_of_endless h fun j c hbehind => hend ⟨j, c, hbehind⟩ with ⟨x, hx, hid⟩ | hres
    · exact .text hx hid
    · exact .unresolved (.inr hres)

end Pointers

section Parts

variable (hone : w.OneType t u)

include hw hone

theorem recognised_of_anyElement (hst : w.stage interfaces t u = .anyElement) :
    w.Recognised interfaces t u := by
  obtain ⟨-, ⟨ht, hu⟩, hknown⟩ := Face.decided_of_stage hst
  cases hw.held_of_oneType hone with
  | yields hr hs =>
    refine .anyElement hr hs ?_
    by_contra hany
    rw [not_or] at hany
    refine hknown ?_
    simp [Portrait.face, portrait_of_yields interfaces hr, portrait_of_yields interfaces hs, known?,
      hany]
  | map hm hm' =>
    refine absurd ?_ hknown
    simp [Portrait.face, portrait_of_map interfaces hm, portrait_of_map interfaces hm']
  | nothing hkind hkind' =>
    simp only [Face.enumerable, Portrait.face, kind_portrait, hkind, hkind', decide_false,
      Bool.false_or] at ht hu
    exact absurd ⟨ht, hu⟩ hknown

theorem recognised_of_elements (huniform : w.Uniform roots) (hmt : w.Met roots t)
    (hmu : w.Met roots u) (hst : w.stage interfaces t u = .elements)
    (ha : (w.portrait interfaces t).element = some a)
    (hb : (w.portrait interfaces u).element = some b)
    (ih : w.OneType a b → w.Recognised interfaces a b) : w.Recognised interfaces t u := by
  obtain ⟨-, -, hkey, hkey'⟩ := Face.decided_of_stage hst
  simp only [Portrait.face, Option.isSome_iff_ne_none, ne_eq, not_not] at hkey hkey'
  cases hw.held_of_oneType hone with
  | yields hr hs hab =>
    obtain ⟨ha', hk⟩ := portrait_of_yields interfaces hr
    obtain ⟨hb', hl⟩ := portrait_of_yields interfaces hs
    cases eq_of_known (ha'.symm.trans ha)
    cases eq_of_known (hb'.symm.trans hb)
    refine .yields hr hs ?_ (ih hab)
    rw [← hk, ← hl, hkey, hkey']
    exact .none
  | map hm => cases hkey.symm.trans (portrait_of_map interfaces hm).2
  | nothing hkind hkind' =>
    obtain ⟨n, xs, ys, ht, hu, hab⟩ :=
      hw.exposed_of_oneType huniform hmt hmu hone ha hb hkind hkind'
    exact .exposed hst ht hu ha hb (ih hab)

theorem recognised_of_keyed (hk : (w.portrait interfaces t).key = some k)
    (hl : (w.portrait interfaces u).key = some l) (hkl : w.SameKey k l)
    (ha : (w.portrait interfaces t).element = some a)
    (hb : (w.portrait interfaces u).element = some b)
    (ih : w.OneType a b → w.Recognised interfaces a b) : w.Recognised interfaces t u := by
  cases hw.held_of_oneType hone with
  | yields hr hs hab =>
    obtain ⟨ha', hk'⟩ := portrait_of_yields interfaces hr
    obtain ⟨hb', hl'⟩ := portrait_of_yields interfaces hs
    cases eq_of_known (ha'.symm.trans ha)
    cases eq_of_known (hb'.symm.trans hb)
    refine .yields hr hs ?_ (ih hab)
    rw [← hk', ← hl', hk, hl]
    exact .some hkl
  | map hm hm' hab =>
    obtain ⟨ha', hk'⟩ := portrait_of_map interfaces hm
    obtain ⟨hb', hl'⟩ := portrait_of_map interfaces hm'
    cases ha'.symm.trans ha
    cases hb'.symm.trans hb
    cases hk'.symm.trans hk
    cases hl'.symm.trans hl
    exact .map hm hm' hkl (ih hab)
  | nothing hkind => cases hk.symm.trans (key_of_plain interfaces hkind.1 hkind.2)

theorem recognised_of_tuple (hst : w.stage interfaces t u = .tuple)
    (ih : ∀ q ∈ (w.portrait interfaces t).tuple.zip (w.portrait interfaces u).tuple,
      w.OneType q.1 q.2 → w.Recognised interfaces q.1 q.2) : w.Recognised interfaces t u := by
  obtain ⟨-, hkind, -⟩ := Face.decided_of_stage hst
  obtain ⟨as, ht⟩ := components_of_kind ((w.kind_portrait t).symm.trans hkind)
  obtain ⟨bs, hu, hall⟩ := (hw.built_of_oneType hone).exists_components ht
  rw [tuple_of_components interfaces ht, tuple_of_components interfaces hu] at ih
  obtain ⟨hlen, hzip⟩ := List.forall₂_iff_zip.mp hall
  exact .components ht hu hlen fun q hq => ih q hq (hzip hq)

theorem recognised_of_generic (hst : w.stage interfaces t u = .generic)
    (ih : ∀ q ∈ (w.portrait interfaces t).typeArgs.zip (w.portrait interfaces u).typeArgs,
      w.OneType q.1 q.2 → w.Recognised interfaces q.1 q.2) : w.Recognised interfaces t u := by
  obtain ⟨hplain, horigin, -⟩ := Face.decided_of_stage hst
  obtain ⟨⟨hres, hres'⟩, -⟩ := plan_of_plain hplain
  obtain ⟨n, xs, ht⟩ := named_of_origin horigin
  obtain ⟨ys, hu, hall⟩ := (ht ▸ hw.built_of_oneType hone).exists_named
  rw [typeArgs_portrait interfaces ht (core_ne_invalid hres),
    typeArgs_portrait interfaces hu (core_ne_invalid hres')] at ih
  obtain ⟨-, hzip⟩ := List.forall₂_iff_zip.mp hall
  exact .arguments hst ht hu fun q hq => ih q hq (hzip hq)

include ho in
/-- Identical types at the end of the order: what yields something or is made of parts has been
compared by that, and instances by their arguments, so interfaces and functions are left. -/
theorem recognised_of_rest (hmt : w.Met roots t) (hmu : w.Met roots u)
    (hst : w.stage interfaces t u = .rest) (hrel : w.Related interfaces roots t u) :
    w.Recognised interfaces t u := by
  obtain ⟨hplain, henumerable, -, htuple, hgeneric⟩ := Face.decided_of_stage hst
  obtain ⟨hres, hid, hnull, -⟩ := plan_of_plain hplain
  cases hw.held_of_oneType hone with
  | yields hr hs _ hkey =>
    refine absurd ⟨enumerable_of_kind (kind_of_yields hr), enumerable_of_kind (kind_of_yields hs),
      ?_⟩ henumerable
    simp only [Portrait.face, portrait_of_yields interfaces hr, portrait_of_yields interfaces hs,
      isSome_eq_of_rel hkey]
  | map hm hm' =>
    refine absurd ⟨enumerable_of_kind (.inr (kind_of_map hm)),
      enumerable_of_kind (.inr (kind_of_map hm')), ?_⟩ henumerable
    simp [Portrait.face, portrait_of_map interfaces hm, portrait_of_map interfaces hm']
  | nothing hkind =>
    have hplain : ∀ r, w.yields? (w.core t) ≠ some r := fun _ hr =>
      (kind_of_yields hr).elim hkind.1 hkind.2
    have hbuilt := hw.built_of_oneType hone
    generalize hT : w.unalias t = T at hbuilt
    generalize hU : w.unalias u = U at hbuilt
    cases hbuilt with
    | same => exact absurd (by rw [plan_congr (hT.trans hU.symm)]) hid
    | @basic x y hxy =>
      have hne : x ≠ y := by
        rintro rfl
        exact hid (by rw [plan_congr (hT.trans hU.symm)])
      obtain ⟨hx, hy⟩ := Basic.kind_of_canonical hxy hne
      refine .numeric ?_ ?_
      · rw [← w.kind_portrait (I := interfaces), portrait_basic hT hx]
      · rw [← w.kind_portrait (I := interfaces), portrait_basic hU hy]
    | named hargs => exact absurd (generic_of_instances hres hid hT hU hargs.length_eq) hgeneric
    | pointer => exact absurd (kind_of_pointee (pointee_of_unalias hT)) hnull
    | item ht =>
      have hcore : w.core t = T := by rw [core, hT, underlying_of_item ht]
      exact absurd (hcore ▸ yields_of_item ht) (hplain _)
    | map => exact absurd (kind_of_map (by rw [core, hT]; rfl)) hkind.2
    | components ht hu =>
      obtain ⟨_, hP⟩ := portrait_components interfaces (hT ▸ ht)
      obtain ⟨_, hQ⟩ := portrait_components interfaces (hU ▸ hu)
      exact absurd ⟨by simp [Portrait.face, hP], by simp [Portrait.face, hQ]⟩ htuple
    | interface => exact .interface hT hU
    | @func ps qs rs ss v v' =>
      refine .listed hT hU ?_ ((related_func ho hmt hmu hT hU).mp hrel)
      cases hr : w.rangeElements (.func ps rs v) with
      | none => rfl
      | some r =>
        have hcore : w.core t = .func ps rs v := by rw [core, hT]; rfl
        exact absurd (hcore ▸ yields_of_rangeElements hr) (hplain r)
    | param | union | tilde =>
      exact absurd (by simp [plan, hT, unnamedPlan, kindOf, Plan.unresolved]) hres.1

end Parts

include hw ho

/-- **What a type accepts is recognised, with pointers taken off as far as it takes.** A pointer is
taken off the left side first, and off the right side when none is left; so the type on the right
side that is identical to the left one may be some pointers further. -/
theorem recognised_of_passes (huniform : w.Uniform roots) (h : w.Accepts interfaces roots t u)
    (hmt : w.Met roots t) (hmu : w.Met roots u) (hpass : w.Passes u v) (hone : w.OneType t v)
    (hends : u = v ∨ ∃ j c, w.Behind j t c) : w.Recognised interfaces t v := by
  have hbare : ∀ {t u v}, (w.portrait interfaces t).face.Plain (w.portrait interfaces u).face →
      w.Passes u v → u = v := fun hplain hpass =>
    hpass.eq_of_bare (pointee_eq_none_of_kind (plan_of_plain hplain).2.2.2)
  induction h generalizing v with
  | @unknown t u hst =>
    have hres := Face.decided_of_stage hst
    simp only [Face.Decided, Portrait.face, kind_portrait] at hres
    refine .unresolved (hres.imp_right fun hu => ?_)
    rwa [← hpass.eq_of_bare (pointee_eq_none_of_kind (by simp [hu]))]
  | identity hst =>
    have hid := Face.decided_of_stage hst
    simp only [Face.Decided, Portrait.face, id_portrait] at hid
    exact recognised_of_text hw ho hmt hmu hpass hone hends hid
  | left hst ha hau ih =>
    have hpointee := (underlying_portrait interfaces _).symm.trans ha
    exact recognised_of_left hw hpass hone hends (.left hst ha hau) hpointee
      fun b hpass hab hends => ih (hmt.pointee hpointee) hmu hpass hab (.inr hends)
  | @right t u b hst hb _ ih =>
    have hkind := (Face.decided_of_stage hst).1
    simp only [Portrait.face, kind_portrait] at hkind
    have hbehind : w.Behind 0 t t := .bare (pointee_eq_none_of_kind hkind)
    obtain ⟨c, hc⟩ := hw.behind_of_oneType hone hbehind
    rw [underlying_portrait] at hb
    rcases hpass.cases_head with rfl | ⟨e, he, hpass⟩
    · cases hc with
      | bare hnone => cases hnone.symm.trans hb
    · cases hb.symm.trans he
      exact ih hmt (hmu.pointee hb) hpass hone (.inr ⟨0, t, hbehind⟩)
  | numeric hst =>
    obtain ⟨hplain, ht, hu⟩ := Face.decided_of_stage hst
    simp only [Portrait.face, kind_portrait] at ht hu
    exact .numeric ht (hbare hplain hpass ▸ hu)
  | anyElement hst =>
    obtain rfl := hbare (Face.decided_of_stage hst).1 hpass
    exact recognised_of_anyElement hw hone hst
  | elements hst ha hb _ ih =>
    obtain rfl := hbare (Face.decided_of_stage hst).1 hpass
    exact recognised_of_elements hw hone huniform hmt hmu hst ha hb fun hab =>
      ih (hmt.element ha) (hmu.element hb) .start hab (.inl rfl)
  | keyed hst hk hl hkl ha hb _ ih =>
    obtain rfl := hbare (Face.decided_of_stage hst).1 hpass
    exact recognised_of_keyed hw hone hk hl hkl ha hb fun hab =>
      ih (hmt.element ha) (hmu.element hb) .start hab (.inl rfl)
  | tuple hst _ ih =>
    obtain rfl := hbare (Face.decided_of_stage hst).1 hpass
    refine recognised_of_tuple hw hone hst fun q hq hab => ?_
    have hmem := List.of_mem_zip hq
    exact ih q hq (hmt.tuple hmem.1) (hmu.tuple hmem.2) .start hab (.inl rfl)
  | generic hst _ ih =>
    obtain rfl := hbare (Face.decided_of_stage hst).1 hpass
    refine recognised_of_generic hw hone hst fun q hq hab => ?_
    have hmem := List.of_mem_zip hq
    exact ih q hq (hmt.argument hmem.1) (hmu.argument hmem.2) .start hab (.inl rfl)
  | rest hst hrel =>
    obtain rfl := hbare (Face.decided_of_stage hst).1 hpass
    exact recognised_of_rest hw ho hone hmt hmu hst hrel

/-- **What identical types have in common by the rules**, they have in common by their parts. -/
theorem recognised_of_accepts (huniform : w.Uniform roots) (h : w.Accepts interfaces roots t u)
    (hmt : w.Met roots t) (hmu : w.Met roots u) (hone : w.OneType t u) :
    w.Recognised interfaces t u :=
  recognised_of_passes hw ho huniform h hmt hmu .start hone (.inl rfl)

/-- **Identical types accept each other exactly if they are recognised.** -/
theorem accepts_iff_recognised (huniform : w.Uniform roots) (hmt : w.Met roots t)
    (hmu : w.Met roots u) (hone : w.OneType t u) :
    w.Accepts interfaces roots t u ↔ w.Recognised interfaces t u :=
  ⟨fun h => recognised_of_accepts hw ho huniform h hmt hmu hone,
    fun h => accepts_of_recognised ho h hmt hmu⟩

end Complete

end World

end EverEqual
