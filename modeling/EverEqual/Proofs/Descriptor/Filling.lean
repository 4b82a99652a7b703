import EverEqual.Proofs.Descriptor.Reachable

/-!
# What filling in leaves as it was

Attributes say something about the parts, the capabilities and the ancestors of a descriptor. They
do not touch its identity, and none of them completes it: that is left to the very end, when all
attributes have been taken without a defect.

* `Node.AgreesBut`: nothing but ancestors distinguishes two nodes;
* `Node.mem_ancestors_foldl_addBase`: the ancestors that a list of bases adds;
* `Node.attachAll_keeps`: what every attribute leaves as it was, a list of them does;
* `Node.fill_cases`: filling in completes a descriptor, or it comes to a defect;
* `Node.fill_ne_notPending`: never to the defect of a descriptor that does not wait.
-/

namespace EverEqual

namespace Node

variable {g : Graph} {m n : Node}

/-- Nothing but its ancestors distinguishes a node from another one. -/
def AgreesBut (m n : Node) : Prop := ∃ as, m = { n with ancestors := as }

theorem agreesBut_addAncestor (n : Node) (id : Identity) : (n.addAncestor id).AgreesBut n := by
  unfold addAncestor
  split
  · exact ⟨n.ancestors, rfl⟩
  · exact ⟨_, rfl⟩

theorem AgreesBut.trans {l m n : Node} (hlm : l.AgreesBut m) (hmn : m.AgreesBut n) :
    l.AgreesBut n := by
  obtain ⟨as, rfl⟩ := hlm
  obtain ⟨bs, rfl⟩ := hmn
  exact ⟨as, rfl⟩

theorem agreesBut_foldl {α : Type} {f : Node → α → Node} (hf : ∀ n a, (f n a).AgreesBut n)
    (xs : List α) (n : Node) : (xs.foldl f n).AgreesBut n := by
  induction xs generalizing n with
  | nil => exact ⟨n.ancestors, rfl⟩
  | cons x xs ih => exact (ih (f n x)).trans (hf n x)

theorem agreesBut_addBase (n base : Node) : (n.addBase base).AgreesBut n :=
  (agreesBut_foldl agreesBut_addAncestor _ _).trans (agreesBut_addAncestor n base.id)

theorem mem_ancestors_foldl_addBase {a : Identity} (rs : List Ref) (n : Node) :
    a ∈ (rs.foldl (fun n r => n.addBase (g.node r)) n).ancestors ↔
      a ∈ n.ancestors ∨
        (a ≠ n.id ∧ ∃ r ∈ rs, a = (g.node r).id ∨ a ∈ (g.node r).ancestors) := by
  induction rs generalizing n with
  | nil => simp
  | cons r rs ih =>
    have hid : (n.addBase (g.node r)).id = n.id := by
      obtain ⟨as, has⟩ := n.agreesBut_addBase (g.node r)
      rw [has]
    rw [List.foldl_cons, ih, hid, addBase, mem_ancestors_foldl_addAncestor,
      mem_ancestors_addAncestor, id_addAncestor]
    grind

theorem id_completed_attach (n : Node) (a : Attribute) :
    (n.attach g a).1.id = n.id ∧ (n.attach g a).1.completed = n.completed := by
  cases a with
  | element d | key d | underlying d | equatable d => cases d <;> exact ⟨rfl, rfl⟩
  | conversion d kind => cases d <;> exact ⟨rfl, rfl⟩
  | bases ds =>
    obtain ⟨as, has⟩ := agreesBut_foldl (fun n r => n.agreesBut_addBase (g.node r)) (leading ds) n
    simp only [attach, has, and_self]
  | ancestors ids =>
    obtain ⟨as, has⟩ := agreesBut_foldl agreesBut_addAncestor ids n
    simp only [attach, has, and_self]
  | tuple ds | generic origin args => exact ⟨rfl, rfl⟩

theorem attachAll_keeps {α : Type} {field : Node → α}
    (h : ∀ n a, field (n.attach g a).1 = field n) (as : List Attribute) (n : Node) :
    field (n.attachAll g as).1 = field n := by
  induction as generalizing n with
  | nil => rfl
  | cons a as ih =>
    have hfield := h n a
    rw [attachAll]
    split
    · next n' hattach =>
      rw [hattach] at hfield
      rw [ih, hfield]
    · next n' d hattach =>
      rw [hattach] at hfield
      exact hfield

theorem id_attachAll (as : List Attribute) (n : Node) : (n.attachAll g as).1.id = n.id :=
  attachAll_keeps (fun n a => (n.id_completed_attach a).1) as n

theorem completed_attachAll (as : List Attribute) (n : Node) :
    (n.attachAll g as).1.completed = n.completed :=
  attachAll_keeps (fun n a => (n.id_completed_attach a).2) as n

theorem attach_ne_notPending (n : Node) (a : Attribute) (shown : String) :
    (n.attach g a).2 ≠ some (.notPending shown) := by
  have hmissing : ∀ role ds, missingIn role ds ≠ some (.notPending shown) := by
    intro role ds
    unfold missingIn
    split
    · simp
    · simp
  cases a with
  | element d | key d | underlying d | equatable d => cases d <;> simp [attach]
  | conversion d kind => cases d <;> simp [attach]
  | bases ds => exact hmissing .base ds
  | ancestors ids => exact nofun
  | tuple ds => exact hmissing .tupleElement ds
  | generic origin args => exact hmissing .typeArgument args

theorem attachAll_ne_notPending (as : List Attribute) (n : Node) (shown : String) :
    (n.attachAll g as).2 ≠ some (.notPending shown) := by
  induction as generalizing n with
  | nil => exact nofun
  | cons a as ih =>
    have hdefect := n.attach_ne_notPending (g := g) a shown
    rw [attachAll]
    split
    · exact ih _
    · next n' d hattach =>
      rw [hattach] at hdefect
      exact hdefect

/-- **Filling in** completes a descriptor, or it meets a defect and does not. -/
theorem fill_cases {as : List Attribute} {defect : Option Defect}
    (hfill : n.fill g as = (m, defect)) :
    (defect = none ∧ m.Finished) ∨
      (∃ d, defect = some d ∧ (∀ shown, d ≠ .notPending shown) ∧ m.completed = n.completed) := by
  cases defect with
  | none => exact Or.inl ⟨rfl, finished_of_fill hfill⟩
  | some d =>
    have hcompleted := n.completed_attachAll (g := g) as
    have hdefect := n.attachAll_ne_notPending (g := g) as
    unfold fill at hfill
    split at hfill
    · next n' d' hattach =>
      rw [hattach] at hcompleted hdefect
      obtain ⟨rfl, hd⟩ := Prod.mk.inj hfill
      cases hd
      exact Or.inr ⟨d, rfl, fun shown hd => hdefect shown (congrArg some hd), hcompleted⟩
    · next n' hattach =>
      rw [hattach] at hcompleted
      split at hfill
      · next d' hunsound =>
        obtain ⟨rfl, hd⟩ := Prod.mk.inj hfill
        cases hd
        refine Or.inr ⟨d, rfl, ?_, hcompleted⟩
        rintro shown rfl
        unfold unsound at hunsound
        split at hunsound
        · simp at hunsound
        · simp at hunsound
      · simp at hfill

theorem fill_ne_notPending {as : List Attribute} {defect : Option Defect}
    (hfill : n.fill g as = (m, defect)) (shown : String) : defect ≠ some (.notPending shown) := by
  rintro rfl
  rcases fill_cases hfill with ⟨h, -⟩ | ⟨d, h, hne, -⟩
  · cases h
  · exact hne shown (Option.some.inj h).symm

theorem exists_eq_attachAll {as : List Attribute} {defect : Option Defect}
    (hfill : n.fill g as = (m, defect)) :
    ∃ c, m = { (n.attachAll g as).1 with completed := c } := by
  unfold fill at hfill
  split at hfill
  · next n' d hattach =>
    obtain ⟨rfl, -⟩ := Prod.mk.inj hfill
    rw [hattach]
    exact ⟨n'.completed, rfl⟩
  · next n' hattach =>
    rw [hattach]
    split at hfill
    · obtain ⟨rfl, -⟩ := Prod.mk.inj hfill
      exact ⟨n'.completed, rfl⟩
    · obtain ⟨rfl, -⟩ := Prod.mk.inj hfill
      exact ⟨true, rfl⟩

theorem id_fill {as : List Attribute} {defect : Option Defect}
    (hfill : n.fill g as = (m, defect)) : m.id = n.id := by
  obtain ⟨c, rfl⟩ := exists_eq_attachAll hfill
  exact id_attachAll as n

theorem ancestors_fill {as : List Attribute} {defect : Option Defect}
    (hfill : n.fill g as = (m, defect)) : m.ancestors = (n.attachAll g as).1.ancestors := by
  obtain ⟨c, rfl⟩ := exists_eq_attachAll hfill
  rfl

end Node

end EverEqual
