import EverEqual.Proofs.Check.Operands

/-!
# Exchanging the operands

The left operand of a check is described first, so exchanging the operands changes which
descriptors are half finished while others are completed. Two drafts that are faithful to the same
types differ at most in the ancestors they record, and these agree if no ancestor depends on a
circular base. Then the drafts cannot be told apart by the rules, and the directions of the check
trade places.

* `Draft.similarity_of_faithful`: two faithful drafts look the same to the rules;
* `check_swap`: the finding with the operands exchanged;
* `check_embedding`: with a circular base the two findings can differ.
-/

namespace EverEqual

/-! ### Registered interfaces -/

namespace World

variable {w : World} {interfaces interfaces' : List Ty}

theorem mem_ancestorIds {t : Ty} {kind : Kind} {a : Identity}
    (h : ∀ i, i ∈ interfaces ↔ i ∈ interfaces') :
    a ∈ w.ancestorIds interfaces t kind ↔ a ∈ w.ancestorIds interfaces' t kind := by
  cases t <;> simp [ancestorIds, h]

theorem portrait_congr (h : ∀ i, i ∈ interfaces ↔ i ∈ interfaces') (t : Ty) :
    w.portrait interfaces t = w.portrait interfaces' t := by
  have hstep : Portrait.attach w interfaces = Portrait.attach w interfaces' := by
    funext P f
    cases f with
    | ancestors t kind =>
      have hset : (w.ancestorIds interfaces t kind).toFinset =
          (w.ancestorIds interfaces' t kind).toFinset := by
        ext a
        rw [List.mem_toFinset, List.mem_toFinset, mem_ancestorIds h]
      simp only [Portrait.attach, hset]
    | _ => rfl
  unfold portrait
  rw [hstep]

theorem outline_congr (h : ∀ i, i ∈ interfaces ↔ i ∈ interfaces') (t : Ty) :
    w.outline interfaces t = w.outline interfaces' t := by
  unfold outline
  rw [portrait_congr h]

end World

namespace Operands

variable {w : World} {p : Operands}

/-- The operands exchanged. -/
def swap (p : Operands) : Operands where
  leftText := p.rightText
  rightText := p.leftText
  left := p.right
  right := p.left
  interfaces := p.interfaces

theorem roots_swap (p : Operands) : p.swap.roots = p.roots := by
  ext t
  exact or_comm

theorem mem_interfacesFor_swap (i : Ty) :
    i ∈ p.swap.interfacesFor w ↔ i ∈ p.interfacesFor w := by
  rw [mem_interfacesFor, mem_interfacesFor]
  simp only [swap, or_comm]

end Operands

/-! ### Two drafts of the same types -/

namespace Draft

variable {w : World} {interfaces interfaces' : List Ty} {roots : Set Ty} {s s' : Draft}
variable {x y : Ref}

/-- Two descriptors stand for one type, or for missing operands. -/
def Alike (w : World) (roots : Set Ty) (s s' : Draft) (x y : Ref) : Prop :=
  (∃ t, w.Met roots t ∧ s.Remembers (w.entry t) x ∧ s'.Remembers (w.entry t) y) ∨
    (s.graph.node x = .missing ∧ s'.graph.node y = .missing)

theorem Drawn.mem_ancestors_iff {t : Ty} (h : s.Drawn w interfaces roots t x)
    (ht : w.Met roots t) (hset : w.Settled interfaces roots) (a : Identity) :
    a ∈ (s.graph.node x).ancestors ↔
      a ≠ (w.plan t).id ∧ w.Certain interfaces roots (w.entry t) a := by
  constructor
  · intro ha
    obtain ⟨hne, hanc⟩ := h.ancestor a ha
    exact ⟨hne, (hset t ht a hanc).resolve_left hne⟩
  · rintro ⟨hne, hcert⟩
    exact h.certain a hcert hne

/-- **Two faithful drafts look the same to the rules** if no ancestor depends on a circular base. -/
theorem similarity_of_faithful (hset : w.Settled interfaces roots)
    (hout : ∀ t, w.outline interfaces t = w.outline interfaces' t)
    (hs : s.Faithful w interfaces roots []) (hs' : s'.Faithful w interfaces' roots []) :
    Similarity s.graph s'.graph (Alike w roots s s') := by
  rintro x y (⟨t, ht, hx, hy⟩ | ⟨hx, hy⟩)
  · have hdx := hs.drawn t x ht hx List.not_mem_nil
    have hdy := hs'.drawn t y ht hy List.not_mem_nil
    have hdep := hdy.depicts
    rw [← hout] at hdep
    refine (hdx.depicts.toMatch hdep fun a => ?_).imp_of_mem ?_
    · rw [hdx.mem_ancestors_iff ht hset, hdy.mem_ancestors_iff ht (hset.congr hout)]
      exact and_congr_right fun _ =>
        ⟨World.AncestorVia.congr hout, World.AncestorVia.congr fun t => (hout t).symm⟩
    · rintro x - y - ⟨e, hx, hy⟩
      obtain ⟨-, u, hu, rfl⟩ := hs.known e x hx
      exact Or.inl ⟨u, hu, hx, hy⟩
  · rw [hx, hy]
    exact ⟨rfl, rfl, .none, .none, .none, .nil, rfl, .nil, fun _ => rfl, fun _ => rfl,
      fun _ => rfl⟩

theorem Stands.alike {o : Option Ty} (ho : ∀ t, o = some t → w.Met roots t)
    (hx : s.Stands w o x) (hy : s'.Stands w o y) : Alike w roots s s' x y := by
  cases o with
  | some t => exact Or.inl ⟨t, ho t rfl, hx, hy⟩
  | none => exact Or.inr ⟨hx.2.1, hy.2.1⟩

end Draft

/-! ### The finding -/

theorem Finding.report_eq_of_exchanged {f f' : Finding} (hforward : f'.forward = f.reverse)
    (hreverse : f'.reverse = f.forward) (hf : f.directional = false)
    (hf' : f'.directional = false) : f'.mayBeEqual = f.mayBeEqual ∧ f'.status = f.status := by
  have hmay : f'.mayBeEqual = f.mayBeEqual := by
    simp [mayBeEqual, hf, hf', hforward, hreverse, Bool.or_comm]
  refine ⟨hmay, ?_⟩
  unfold status
  rw [hmay, hforward, hreverse]
  simp only [ne_comm]

theorem Draft.Stands.kind_eq {w : World} {interfaces interfaces' : List Ty} {roots : Set Ty}
    {s s' : Draft} {o : Option Ty} {x y : Ref} (hmet : ∀ t, o = some t → w.Met roots t)
    (hs : s.Faithful w interfaces roots []) (hs' : s'.Faithful w interfaces' roots [])
    (hx : s.Stands w o x) (hy : s'.Stands w o y) :
    (s.graph.node x).kind = (s'.graph.node y).kind := by
  cases o with
  | some t =>
    rw [(hs.drawn t x (hmet t rfl) hx List.not_mem_nil).depicts.kind, w.kind_outline,
      (hs'.drawn t y (hmet t rfl) hy List.not_mem_nil).depicts.kind, w.kind_outline]
  | none => rw [hx.2.1, hy.2.1]

/-- **Exchanging the operands** exchanges their kinds, and it exchanges the directions of the check
if no ancestor depends on a circular base. Unless only one direction counts, the equality then may
hold in one order if it may in the other, and it is reported alike. -/
theorem check_swap (w : World) (options : CheckOptions) (p : Operands)
    (h : w.Orderly (p.interfacesFor w) p.roots) :
    ∃ f f', check w options none p = .ok (f, none) ∧
      check w options none p.swap = .ok (f', none) ∧
      f'.leftKind = f.rightKind ∧ f'.rightKind = f.leftKind ∧
      (w.Settled (p.interfacesFor w) p.roots →
        f'.forward = f.reverse ∧ f'.reverse = f.forward ∧
          (options.directional = false →
            f'.mayBeEqual = f.mayBeEqual ∧ f'.status = f.status)) := by
  have hout : ∀ t, w.outline (p.interfacesFor w) t = w.outline (p.swap.interfacesFor w) t :=
    World.outline_congr fun i => (p.mem_interfacesFor_swap i).symm
  have h' : w.Orderly (p.swap.interfacesFor w) p.swap.roots := by
    rw [p.roots_swap]
    exact h.congr hout
  obtain ⟨l, r, s, hdesc, hs, hl, hr⟩ := Operands.exists_describe h
  obtain ⟨r', l', s', hdesc', hs', hr', hl'⟩ := Operands.exists_describe h'
  rw [p.roots_swap] at hs'
  have hmetl : ∀ t, p.left = some t → w.Met p.roots t := fun t ht => .root (Or.inl ht)
  have hmetr : ∀ t, p.right = some t → w.Met p.roots t := fun t ht => .root (Or.inr ht)
  obtain ⟨v, hv⟩ := exists_verdict Rule.defaults (hl.finishedFrom hs) (hr.finishedFrom hs)
  obtain ⟨u, hu⟩ := exists_verdict Rule.defaults (hr.finishedFrom hs) (hl.finishedFrom hs)
  obtain ⟨v', hv'⟩ := exists_verdict Rule.defaults (hr'.finishedFrom hs') (hl'.finishedFrom hs')
  obtain ⟨u', hu'⟩ := exists_verdict Rule.defaults (hl'.finishedFrom hs') (hr'.finishedFrom hs')
  refine ⟨_, _, check_of_describe hdesc hv hu, check_of_describe hdesc' hv' hu', ?_, ?_, ?_⟩
  · exact (hr.kind_eq hmetr hs hs' hr').symm
  · exact (hl.kind_eq hmetl hs hs' hl').symm
  · intro hset
    have hsim := Draft.similarity_of_faithful hset hout hs hs'
    have hvu : v = u' := verdict_eq_of_similarity hsim (hl.alike hmetl hl') (hr.alike hmetr hr')
      hv hu'
    have huv : u = v' := verdict_eq_of_similarity hsim (hr.alike hmetr hr') (hl.alike hmetl hl')
      hu hv'
    subst hvu huv
    refine ⟨rfl, rfl, fun hdir => ?_⟩
    exact Finding.report_eq_of_exchanged rfl rfl hdir hdir

/-! ### Two worlds -/

/-- A declared type of the package `p`. -/
def Ty.declared (name : String) : Ty := .named ⟨"p", name⟩ []

/-- A method of the package `p` that declares an equality toward another of its types. -/
def Method.equalTo (name : String) : Method where
  name := "Equal"
  pointer := false
  signature := .func [⟨"", .declared name, "", false, []⟩] [⟨"", .basic .bool, "", false, []⟩] false

/-- An embedded field that points to a type of the package `p`. -/
def Member.embeddedPointer (name : String) : Member Ty where
  name := name
  type := .pointer (.declared name)
  home := "p"
  embedded := true

/-- `Derived` embeds `Base`, which declares an equality toward `Other`. -/
def promoting : World where
  packages := [{
    path := "p"
    name := "p"
    declarations :=
      [{ name := "Derived", type := .struct [.embeddedPointer "Base"] },
       { name := "Base", type := .struct [], methods := [.equalTo "Other"] },
       { name := "Other", type := .struct [] }] }]
  horizon := 20

/-- The operands `Derived` and `Other`. -/
def derivedAndOther : Operands where
  leftText := "d"
  rightText := "o"
  left := some (.declared "Derived")
  right := some (.declared "Other")

theorem orderly_promoting :
    promoting.Orderly (derivedAndOther.interfacesFor promoting) derivedAndOther.roots := by
  refine World.orderly_of_closed
    [.declared "Derived", .declared "Base", .declared "Other"] ?_ ?_ ?_ ?_
  · rintro t (ht | ht) <;> cases ht <;> decide
  · decide
  · decide
  · decide

theorem settled_promoting :
    promoting.Settled (derivedAndOther.interfacesFor promoting) derivedAndOther.roots := by
  refine World.settled_of_closed [.declared "Derived", .declared "Base", .declared "Other"] ?_ ?_
    (fun e => if e = "p.Derived" then 2 else if e = "p.Base" then 1 else 0) ?_
  · rintro t (ht | ht) <;> cases ht <;> decide
  · decide
  · decide

/-- A promoted equality is seen from either side. -/
theorem check_swap_promoting :
    ∃ f f', check promoting {} none derivedAndOther = .ok (f, none) ∧
      check promoting {} none derivedAndOther.swap = .ok (f', none) ∧
      f'.leftKind = f.rightKind ∧ f'.rightKind = f.leftKind ∧ f'.forward = f.reverse ∧
      f'.reverse = f.forward ∧ f'.mayBeEqual = f.mayBeEqual ∧ f'.status = f.status := by
  obtain ⟨f, f', hf, hf', hleft, hright, h⟩ :=
    check_swap promoting {} derivedAndOther orderly_promoting
  obtain ⟨hforward, hreverse, hreport⟩ := h settled_promoting
  exact ⟨f, f', hf, hf', hleft, hright, hforward, hreverse, hreport rfl⟩

/-- `P` and `Q` embed each other, and `Q` also embeds `Z`, which declares an equality toward `Q`. -/
def embedding : World where
  packages := [{
    path := "p"
    name := "p"
    declarations :=
      [{ name := "Z", type := .struct [], methods := [.equalTo "Q"] },
       { name := "P", type := .struct [.embeddedPointer "Q"] },
       { name := "Q"
         type := .struct [.embeddedPointer "P", ⟨"Z", .declared "Z", "p", true, []⟩] }] }]
  horizon := 20

/-- The operands `P` and `Z`. -/
def lateAndBase : Operands where
  leftText := "p"
  rightText := "z"
  left := some (.declared "P")
  right := some (.declared "Z")

/-- **With a circular base the order of the operands can matter.** Described first, `Z` leads to `Q`
and from there to `P`, which is completed while its base `Q` is blank and so never inherits `Z`. -/
theorem check_embedding :
    (check embedding {} none lateAndBase).toOption.map (fun z => (z.1.forward, z.1.reverse)) =
        some (true, true) ∧
      (check embedding {} none lateAndBase.swap).toOption.map
        (fun z => (z.1.forward, z.1.reverse)) = some (false, false) ∧
      (check embedding {} none lateAndBase).toOption.map (·.1.status) = some .ok ∧
      (check embedding {} none lateAndBase.swap).toOption.map (·.1.status) =
        some .alwaysFails := by
  decide +kernel

end EverEqual
