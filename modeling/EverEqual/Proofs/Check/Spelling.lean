import EverEqual.Proofs.Check.Recognised
import EverEqual.Proofs.Check.Registered

/-!
# Identical types that are written differently

Two types that are identical may be written differently: predeclared types have second names,
aliases stand for other types, and parameters have names. A check of two such types should accept
them in both directions. It does so exactly if they are recognised by their parts, in one order and
in the other. Most ways to write a type do no harm, but a second name as the key of a map does, and
so does the name of a parameter.

* `check_identical`: the finding on identical types;
* `check_identical_boxes`: identical types of several shapes that are recognised;
* `check_counts_consumer`: identical types that are reported as never equal.
-/

namespace EverEqual

/-- **Two identical types** are reported as equal in a direction exactly if they are recognised in
that order. -/
theorem check_identical (w : World) {rank : String → Nat} (options : CheckOptions) (p : Operands)
    (t u : Ty) (hleft : p.left = some t) (hright : p.right = some u) (hid : w.Identical t u)
    (hw : w.Checked rank) (huniform : w.Uniform p.roots)
    (h : w.Orderly (p.interfacesFor w) p.roots) (hset : w.Settled (p.interfacesFor w) p.roots) :
    ∃ f, check w options none p = .ok (f, none) ∧
      (f.forward = true ↔ w.Recognised (p.interfacesFor w) t u) ∧
      (f.reverse = true ↔ w.Recognised (p.interfacesFor w) u t) := by
  have hmt : w.Met p.roots t := .root (Or.inl hleft)
  have hmu : w.Met p.roots u := .root (Or.inr hright)
  have hone : w.OneType t u := .identical hid
  obtain ⟨f, hf, hforward, hreverse⟩ := check_iff_accepts options hleft hright h hset
  refine ⟨f, hf, ?_, ?_⟩
  · rw [hforward, World.accepts_iff_recognised hw h huniform hmt hmu hone]
  · rw [hreverse, World.accepts_iff_recognised hw h huniform hmu hmt hone.symm]

/-! ### A world with a generic alias -/

/-- Boxes of any type, which expose what they hold, and an alias for lists of them. -/
def boxes : World where
  packages := [{
    path := "p"
    name := "p"
    declarations :=
      [{ name := "Box"
         params := [⟨"E", .named ⟨"", "any"⟩ []⟩]
         type := .struct [⟨"item", .param ⟨⟨"p", "Box"⟩, none⟩ 0 "E", "p", false, []⟩]
         methods := [.returning "All" false
           (.yielding (.param ⟨⟨"p", "Box"⟩, some "All"⟩ 0 "E"))] },
       { name := "Row"
         params := [⟨"E", .named ⟨"", "any"⟩ []⟩]
         type := .slice (.named ⟨"p", "Box"⟩ [.param ⟨⟨"p", "Row"⟩, none⟩ 0 "E"])
         isAlias := true }] }]
  horizon := 20

namespace boxes

/-- The box of a type. -/
def box (t : Ty) : Ty := .named ⟨"p", "Box"⟩ [t]

/-- The row of a type: an alias for a list of boxes. -/
def row (t : Ty) : Ty := .named ⟨"p", "Row"⟩ [t]

/-- A pointer to a map from texts to a type. -/
def byName (t : Ty) : Ty := .pointer (.map (.basic .string) t)

theorem checked : boxes.Checked fun path => if path = "p" then 1 else 0 :=
  World.checked_of_checks (by decide)

end boxes

/-- The operands `*map[string]Row[byte]` and `*map[string][]Box[uint8]`. -/
def boxesByName : Operands where
  leftText := "l"
  rightText := "r"
  left := some (boxes.byName (boxes.row (.basic .byte)))
  right := some (boxes.byName (.slice (boxes.box (.basic .uint8))))

namespace boxesByName

/-- The types that these operands are made of. -/
def parts : List Ty :=
  let left := boxes.row (.basic .byte)
  let right := Ty.slice (boxes.box (.basic .uint8))
  [boxes.byName left, boxes.byName right, .map (.basic .string) left, .map (.basic .string) right,
    left, right, boxes.box (.basic .byte), boxes.box (.basic .uint8), .basic .string, .basic .byte,
    .basic .uint8]

theorem identical : boxes.Identical (boxes.byName (boxes.row (.basic .byte)))
    (boxes.byName (.slice (boxes.box (.basic .uint8)))) :=
  World.identical_of_add 5 fun _ => rfl

theorem mem_parts : ∀ t ∈ boxesByName.roots, t ∈ parts := by
  rintro t (ht | ht) <;> cases ht <;> decide

theorem closed_parts : ∀ t ∈ parts, ∀ u ∈ (boxes.plan t).types, u ∈ parts := by
  decide

theorem orderly : boxes.Orderly (boxesByName.interfacesFor boxes) boxesByName.roots :=
  World.orderly_of_closed parts mem_parts closed_parts (by decide) (by decide)

theorem settled : boxes.Settled (boxesByName.interfacesFor boxes) boxesByName.roots :=
  World.settled_of_closed parts mem_parts closed_parts String.length (by decide)

theorem firsthand_parts : ∀ t ∈ parts, boxes.Firsthand "All" (boxes.unalias t) := by
  decide

theorem uniform : boxes.Uniform boxesByName.roots :=
  boxes.checked.uniform_of_firsthand fun t _ _ ht hname _ _ =>
    hname ▸ firsthand_parts t (World.mem_of_met mem_parts closed_parts ht)

theorem recognised_boxes :
    boxes.Recognised (boxesByName.interfacesFor boxes) (boxes.box (.basic .byte))
        (boxes.box (.basic .uint8)) ∧
      boxes.Recognised (boxesByName.interfacesFor boxes) (boxes.box (.basic .uint8))
        (boxes.box (.basic .byte)) :=
  ⟨.exposed (a := .basic .byte) (b := .basic .uint8) (by decide) rfl rfl (by decide) (by decide)
      (.numeric rfl rfl),
    .exposed (a := .basic .uint8) (b := .basic .byte) (by decide) rfl rfl (by decide) (by decide)
      (.numeric rfl rfl)⟩

end boxesByName

/-- Boxes of bytes may go by two names where lists of them are held by a map. -/
theorem check_identical_boxes :
    ∃ f, check boxes {} none boxesByName = .ok (f, none) ∧ f.forward = true ∧
      f.reverse = true := by
  obtain ⟨f, hf, hforward, hreverse⟩ := check_identical boxes {} boxesByName _ _ rfl rfl
    boxesByName.identical boxes.checked boxesByName.uniform boxesByName.orderly
    boxesByName.settled
  obtain ⟨hbox, hbox'⟩ := boxesByName.recognised_boxes
  refine ⟨f, hf, hforward.mpr ?_, hreverse.mpr ?_⟩
  · exact .pointer rfl rfl (.bare rfl) (.map rfl rfl (Or.inl rfl) (.yields rfl rfl .none hbox))
  · exact .pointer rfl rfl (.bare rfl) (.map rfl rfl (Or.inl rfl) (.yields rfl rfl .none hbox'))

/-! ### A world without declarations -/

/-- A world without declarations. -/
def undeclared : World where
  horizon := 20

/-- Two types as operands. -/
def Operands.ofTypes (t u : Ty) : Operands where
  leftText := "l"
  rightText := "r"
  left := some t
  right := some u

/-- The type `map[b]int` of a predeclared type `b`. -/
def Ty.counts (b : Basic) : Ty := .map (.basic b) (.basic .int)

/-- The type `func(name int)`. -/
def Ty.consumer (name : String) : Ty :=
  .func [⟨name, .basic .int, "", false, []⟩] [] false

/-- **The second name of a predeclared type as a key and the names of parameters tell identical
types apart**: maps from `byte` and from `uint8`, and functions that only differ in the name of a
parameter, are identical and reported as never equal. -/
theorem check_counts_consumer :
    undeclared.Identical (.counts .byte) (.counts .uint8) ∧
      (check undeclared {} none (.ofTypes (.counts .byte) (.counts .uint8))).toOption.map
        (fun z => (z.1.forward, z.1.reverse, z.1.status)) = some (false, false, .alwaysFails) ∧
      undeclared.Identical (.consumer "a") (.consumer "b") ∧
      (check undeclared {} none (.ofTypes (.consumer "a") (.consumer "b"))).toOption.map
        (fun z => (z.1.forward, z.1.reverse, z.1.status)) = some (false, false, .alwaysFails) :=
  ⟨World.identical_of_add 2 fun _ => rfl, by decide +kernel,
    World.identical_of_add 2 fun _ => rfl, by decide +kernel⟩

end EverEqual
