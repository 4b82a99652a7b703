import EverEqual.Proofs.Describe.Web
import EverEqual.Proofs.Types.Shape

/-!
# Portraits of types that are no names

The portrait of a declared type depends on its declaration and its methods. That of any other type
can be read off its shape, behind aliases. Values of a sequence or a channel, and of a function that
can be ranged over, yield elements one by one.

* `World.yields?`, `World.known?`: what values yield, and what is said of it;
* `World.portrait_of_unnamed`: the portrait of a type that is no name;
* `World.portrait_pointer`, `World.portrait_components` and so on: the same, shape by shape.
-/

namespace EverEqual

namespace World

variable {w : World} {interfaces : List Ty} {roots : Set Ty} {t u T a b k : Ty} {r : RangeElements}

/-! ### What values yield -/

/-- What a portrait says of elements of a type: nothing if they could be anything. -/
def known? (w : World) (a : Ty) : Option Ty := if w.isEmptyInterface a then none else some a

/-- What values of a type yield one by one, unless the type is a name or a map. -/
def yields? (w : World) (t : Ty) : Option RangeElements :=
  match t.item? with
  | some a => some ⟨none, a⟩
  | none => w.rangeElements t

theorem eq_of_known (h : w.known? a = some b) : b = a := by
  unfold known? at h
  split at h
  · cases h
  · exact (Option.some.inj h).symm

theorem yields_of_item (h : t.item? = some a) : w.yields? t = some ⟨none, a⟩ := by
  unfold yields?
  rw [h]

theorem yields_of_rangeElements (h : w.rangeElements t = some r) : w.yields? t = some r := by
  cases t with
  | func ps rs v => exact h
  | _ => simp [rangeElements] at h

/-! ### Portraits by shape -/

theorem plan_congr (h : w.unalias t = w.unalias u) : w.plan t = w.plan u := by
  unfold plan
  rw [h]

theorem plan_of_unnamed (hname : ∀ n xs, w.unalias t ≠ .named n xs) :
    w.plan t = w.unnamedPlan (w.unalias t) := by
  unfold plan
  split
  · next n xs ht => exact absurd ht (hname n xs)
  · rfl

theorem portrait_of_unnamed (ht : w.unalias t = T) (hk : w.kindOf T ≠ .unknown) :
    w.portrait interfaces t =
      (w.shapeFeatures T (w.kindOf T)).foldl (Portrait.attach w interfaces)
        { entry := w.entry t, id := (w.plan t).id, kind := w.kindOf T } := by
  have hname : ∀ n xs, w.unalias t ≠ .named n xs := by
    rintro n xs hnamed
    rw [← ht, hnamed] at hk
    exact hk rfl
  unfold portrait entry Portrait.blank
  rw [plan_of_unnamed hname, ht]
  simp only [unnamedPlan, hk, if_false]

theorem portrait_basic {x : Basic} (ht : w.unalias t = .basic x) (hx : x.kind = .numeric) :
    w.portrait interfaces t =
      { entry := w.entry t, id := (w.plan t).id, kind := .numeric
        own := (w.ancestorIds interfaces (.basic x) .numeric).toFinset } := by
  rw [portrait_of_unnamed ht (by simp [kindOf, hx])]
  simp [kindOf, hx, shapeFeatures, partFeatures, Portrait.attach]

theorem portrait_pointer (ht : w.unalias t = .pointer a) :
    w.portrait interfaces t =
      { entry := w.entry t, id := (w.plan t).id, kind := .nullable, underlying := some a } := by
  rw [portrait_of_unnamed ht (by simp [kindOf])]
  simp [kindOf, shapeFeatures, partFeatures, Portrait.attach]

theorem foldl_elementFeatures (P : Portrait Ty) (hP : P.element = none) :
    (w.elementFeatures a).foldl (Portrait.attach w interfaces) P =
      { P with element := w.known? a } := by
  unfold elementFeatures known?
  by_cases ha : w.isEmptyInterface a = true
  · rw [if_pos ha, if_pos ha, ← hP]
    rfl
  · rw [if_neg ha, if_neg ha]
    rfl

theorem portrait_components (interfaces : List Ty) {as : List Ty}
    (ht : (w.unalias t).components? = some as) :
    ∃ bases, w.portrait interfaces t =
      { entry := w.entry t, id := (w.plan t).id, kind := .tuple, tuple := as
        own := (w.ancestorIds interfaces (w.unalias t) .tuple).toFinset, bases } := by
  generalize hT : w.unalias t = T at ht ⊢
  cases T with
  | struct fs =>
    cases ht
    refine ⟨w.embeddedNames (.struct fs), ?_⟩
    rw [portrait_of_unnamed hT (by simp [kindOf])]
    cases hnames : w.embeddedNames (.struct fs) <;>
      simp [kindOf, shapeFeatures, partFeatures, baseFeatures, hnames, Portrait.attach]
  | tuple ts =>
    cases ht
    refine ⟨[], ?_⟩
    rw [portrait_of_unnamed hT (by simp [kindOf])]
    simp [kindOf, shapeFeatures, partFeatures, Portrait.attach]
  | _ => cases ht

theorem tuple_of_components (interfaces : List Ty) {as : List Ty}
    (ht : (w.unalias t).components? = some as) : (w.portrait interfaces t).tuple = as := by
  obtain ⟨_, hP⟩ := portrait_components interfaces ht
  rw [hP]

theorem portrait_interface {f : InterfaceForm} {ms : List (Member Ty)} {es : List Ty}
    (ht : w.unalias t = .interface f ms es) :
    w.portrait interfaces t =
      { entry := w.entry t, id := (w.plan t).id, kind := .interface } := by
  rw [portrait_of_unnamed ht (by simp [kindOf])]
  simp [kindOf, shapeFeatures, partFeatures]

/-- What ranging over a function yields is all that is said of the function. -/
theorem portrait_func {ps rs : List (Member Ty)} {v : Bool} (ht : w.unalias t = .func ps rs v) :
    w.portrait interfaces t =
      { entry := w.entry t, id := (w.plan t).id, kind := w.kindOf (.func ps rs v)
        key := (w.rangeElements (.func ps rs v)).bind (·.key)
        element := (w.rangeElements (.func ps rs v)).bind (w.known? ·.element)
        own :=
          (w.ancestorIds interfaces (.func ps rs v) (w.kindOf (.func ps rs v))).toFinset } := by
  cases hrange : w.rangeElements (.func ps rs v) with
  | none =>
    have hkind : w.kindOf (.func ps rs v) = .userDefined := by simp [kindOf, hrange]
    rw [portrait_of_unnamed ht (by simp [hkind])]
    simp [hkind, hrange, shapeFeatures, partFeatures, Portrait.attach]
  | some r =>
    have hkind : w.kindOf (.func ps rs v) = .collection := by simp [kindOf, hrange]
    rw [portrait_of_unnamed ht (by simp [hkind])]
    cases hkey : r.key <;>
      simp [hkind, hrange, hkey, shapeFeatures, partFeatures, foldl_elementFeatures,
        Portrait.attach]

end World

end EverEqual
