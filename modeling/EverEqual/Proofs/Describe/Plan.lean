import EverEqual.Describe.Describer

/-!
# The plan of a description

What a describer says about a type can be written down before anything is described: a list of
features that name the types of the parts. Describing a type means to carry out its plan, feature by
feature, with a descriptor in the place of every type.

* `Feature`, `Plan`: what is said about a type, in terms of types;
* `Feature.draw`, `Plan.draw`: the same, carried out on a draft;
* `World.plan`: the plan of a type;
* `World.run_describeIn_of_text`, `World.run_describeIn_of_entry`, `World.run_describeIn_of_fresh`:
  a description either finds a remembered descriptor or carries out the plan.
-/

namespace EverEqual

/-- One thing said about a type, in terms of types. -/
inductive Feature
  | element (t : Ty)
  | key (t : Ty)
  | underlying (t : Ty)
  | bases (ts : List Ty)
  /-- The ancestors of a type of a given kind among the registered interfaces. -/
  | ancestors (t : Ty) (kind : Kind)
  | conversion (t : Ty)
  | equatable (t : Ty)
  | tuple (ts : List Ty)
  | generic (origin : Identity) (args : List Ty)
deriving DecidableEq, Repr, Inhabited

namespace Feature

/-- The types that a feature names. -/
def types : Feature → List Ty
  | element t | key t | underlying t | conversion t | equatable t => [t]
  | bases ts | tuple ts | generic _ ts => ts
  | ancestors _ _ => []

/-- The attribute that a feature becomes, by the descriptors of its types. -/
def toAttribute (w : World) (interfaces : List Ty) (refs : List Ref) : Feature → Attribute
  | element _ => .element refs.head?
  | key _ => .key refs.head?
  | underlying _ => .underlying refs.head?
  | bases _ => .bases (refs.map some)
  | ancestors t kind => .ancestors (w.ancestorIds interfaces t kind)
  | conversion _ => .conversion refs.head? .explicit
  | equatable _ => .equatable refs.head?
  | tuple _ => .tuple (refs.map some)
  | generic origin _ => .generic origin (refs.map some)

/-- The attribute of a feature, with its types described in order. -/
def draw (w : World) (describe : Ty → DraftM Ref) (f : Feature) : DraftM Attribute := do
  let refs ← f.types.mapM describe
  return f.toAttribute w (← get).describer.interfaces refs

/-- What does not depend on the draft can be said without a look at it. -/
@[simp] theorem map_const_get {α : Type} (a : α) :
    (fun _ : Draft => a) <$> (get : DraftM Draft) = pure a := rfl

end Feature

/-- How the descriptor of a type is drawn. -/
structure Plan where
  /-- The text it is remembered by. -/
  entry : Identity
  id : Identity
  kind : Kind
  features : List Feature
deriving DecidableEq, Repr, Inhabited

namespace Plan

/-- The plan of a type that could not be resolved. -/
def unresolved (text : Identity) : Plan :=
  ⟨text, "<error " ++ text ++ ">", .unknown, []⟩

/-- The descriptor of a plan: reserved and remembered first, then filled in. -/
def draw (w : World) (describe : Ty → DraftM Ref) (p : Plan) : DraftM Ref := do
  let r ← Draft.declare p.id p.kind
  Draft.remember p.entry r
  Draft.complete r (← p.features.mapM (Feature.draw w describe))
  return r

/-- The types that a plan names. -/
def types (p : Plan) : List Ty := p.features.flatMap Feature.types

end Plan

theorem Graph.put_add_size (g : Graph) (m n : Node) : (g.add m).1.put g.size n = (g.add n).1 := by
  unfold add put size
  congr 1
  apply Array.ext
  · simp
  · intro i _ _
    grind

namespace Draft

variable {s : Draft}

/-- The draft in which the descriptor of a plan is reserved and remembered. -/
def begin (s : Draft) (p : Plan) : Draft where
  graph := (s.graph.add { kind := p.kind, id := p.id }).1
  describer :=
    { s.describer with
      builder := ⟨s.graph.size :: s.describer.builder.pending⟩
      memo := (p.entry, s.graph.size) :: s.describer.memo }

/-- The draft in which a reserved descriptor is filled in. -/
def finish (s : Draft) (r : Ref) (n : Node) : Draft where
  graph := s.graph.put r n
  describer := { s.describer with builder := ⟨s.describer.builder.pending.erase r⟩ }

theorem size_begin (s : Draft) (p : Plan) : (s.begin p).graph.size = s.graph.size + 1 :=
  s.graph.size_add _

theorem size_finish (s : Draft) (r : Ref) (n : Node) :
    (s.finish r n).graph.size = s.graph.size :=
  s.graph.size_put r n

theorem node_begin (s : Draft) (p : Plan) (r : Ref) :
    (s.begin p).graph.node r =
      if r = s.graph.size then { kind := p.kind, id := p.id } else s.graph.node r :=
  s.graph.node_add _ r

theorem mem_pending_begin (s : Draft) (p : Plan) :
    s.graph.size ∈ (s.begin p).describer.builder.pending :=
  List.mem_cons_self

theorem run_complete {r : Ref} {as : List Attribute} {n : Node}
    (hr : r ∈ s.describer.builder.pending) (hfill : (s.graph.node r).fill s.graph as = (n, none)) :
    (complete r as).run s = .ok ((), s.finish r n) := by
  have hcomplete : s.describer.builder.complete s.graph (some r) as =
      (s.graph.put r n, ⟨s.describer.builder.pending.erase r⟩, none) := by
    simp [Builder.complete, hr, hfill]
  simp only [complete, StateT.run_bind, StateT.run_get, pure_bind, hcomplete]
  rfl

end Draft

namespace World

variable (w : World)

/-! ### Features -/

/-- The element of an enumerable type. -/
def elementFeatures (t : Ty) : List Feature :=
  if w.isEmptyInterface t then [] else [.element t]

/-- The base types of a struct. -/
def baseFeatures (t : Ty) : List Feature :=
  match w.embeddedNames t with
  | [] => []
  | names => [.bases names]

/-- What the parts of a type are. -/
def partFeatures (t : Ty) : List Feature :=
  match t with
  | .pointer e => [.underlying e]
  | .slice e | .array _ e | .chan _ e => w.elementFeatures e
  | .map k e => [.key k, .element e]
  | .func _ _ _ =>
    match w.rangeElements t with
    | none => []
    | some range => range.key.toList.map .key ++ w.elementFeatures range.element
  | .struct fs => .tuple (fs.map (·.type)) :: w.baseFeatures t
  | .tuple ts => [.tuple ts]
  | _ => []

/-- The features of a type that is no name, or of the underlying type of a name. -/
def shapeFeatures (t : Ty) (kind : Kind) : List Feature :=
  w.partFeatures t ++ if kind = .interface || kind = .nullable then [] else [.ancestors t kind]

/-- What one method declares. -/
def methodFeatures (kind : Kind) (name : String) (signature : Ty) : List Feature :=
  match name with
  | "All" =>
    if kind = .array || kind = .collection then []
    else match w.exposedElement? signature with
      | some e => w.elementFeatures e
      | none => []
  | "String" => if isTextMethod signature then [.conversion (.basic .string)] else []
  | _ => (w.equalTargets signature).map .equatable

/-- What the methods of a declared type declare. -/
def capabilityFeatures (t : Ty) (kind : Kind) : List Feature :=
  let receiver := if kind = .interface then t else .pointer t
  ["All", "Equal", "Equals", "String"].flatMap fun name =>
    match w.listedMethod? receiver name with
    | some signature => w.methodFeatures kind name signature
    | none => []

/-- The features of the underlying type of a name. -/
def underlyingFeatures (under : Ty) (kind : Kind) : List Feature :=
  match kind with
  | .numeric | .boolean | .string => [.conversion under]
  | .enumeration | .userDefined => w.baseFeatures under
  | _ => w.shapeFeatures under kind

/-- Of which generic declaration a type is an instance. -/
def instanceFeatures (n : TypeName) (args : List Ty) : List Feature :=
  match args with
  | [] => []
  | _ => [.generic (w.typeString (.named n [])) args]

/-- The features of a declared type. -/
def namedFeatures (n : TypeName) (args : List Ty) (kind : Kind) : List Feature :=
  w.underlyingFeatures (w.underlying (.named n args)) kind ++ w.instanceFeatures n args ++
    w.capabilityFeatures (.named n args) kind ++ [.ancestors (.named n args) kind]

/-- The plan of a declared type. -/
def namedPlan (n : TypeName) (args : List Ty) : Plan :=
  let text := w.typeString (.named n args)
  if w.underlying (.named n args) = .invalid then .unresolved text
  else ⟨text, text, w.kindOfNamed n args, w.namedFeatures n args (w.kindOfNamed n args)⟩

/-- The plan of a type that is no name. All interfaces without methods share one. -/
def unnamedPlan (t : Ty) : Plan :=
  let text := w.typeString t
  let kind := w.kindOf t
  if kind = .unknown then .unresolved text
  else
    let id := if kind = .interface && w.isEmptyInterface t then "any" else text
    ⟨id, id, kind, w.shapeFeatures t kind⟩

/-- The plan of a type. -/
def plan (t : Ty) : Plan :=
  match w.unalias t with
  | .named n args => w.namedPlan n args
  | t => w.unnamedPlan t

/-- The text of a type, behind aliases. -/
def text (t : Ty) : Identity := w.typeString (w.unalias t)

/-! ### Features become attributes -/

section Attributes

variable (describe : Ty → DraftM Ref)

theorem elementAttributes_eq (t : Ty) :
    w.elementAttributes describe t = (w.elementFeatures t).mapM (Feature.draw w describe) := by
  unfold elementAttributes elementFeatures
  split
  · simp
  · simp [Feature.draw, Feature.types, Feature.toAttribute]

theorem baseAttributes_eq (t : Ty) :
    w.baseAttributes describe t = (w.baseFeatures t).mapM (Feature.draw w describe) := by
  unfold baseAttributes baseFeatures
  cases w.embeddedNames t with
  | nil => simp
  | cons x xs => simp [Feature.draw, Feature.types, Feature.toAttribute]

theorem partAttributes_eq (t : Ty) :
    w.partAttributes describe t = (w.partFeatures t).mapM (Feature.draw w describe) := by
  unfold partAttributes partFeatures
  cases t with
  | func ps rs v =>
    cases w.rangeElements (.func ps rs v) with
    | none => simp
    | some range =>
      cases hk : range.key with
      | none => simp [elementAttributes_eq, hk]
      | some k => simp [elementAttributes_eq, Feature.draw, Feature.types, Feature.toAttribute, hk]
  | struct fs =>
    simp [baseAttributes_eq, Feature.draw, Feature.types, Feature.toAttribute, List.mapM_map,
      Function.comp_def]
  | _ => simp [elementAttributes_eq, Feature.draw, Feature.types, Feature.toAttribute]

theorem ancestorAttribute_eq (t : Ty) (kind : Kind) :
    w.ancestorAttribute t kind = Feature.draw w describe (.ancestors t kind) := by
  simp [ancestorAttribute, Feature.draw, Feature.types, Feature.toAttribute]

theorem shapeAttributes_eq (t : Ty) (kind : Kind) :
    w.shapeAttributes describe t kind =
      (w.shapeFeatures t kind).mapM (Feature.draw w describe) := by
  unfold shapeAttributes shapeFeatures
  rw [partAttributes_eq, ancestorAttribute_eq w describe, List.mapM_append]
  split
  · simp
  · simp

theorem methodAttributes_eq (kind : Kind) (name : String) (signature : Ty) :
    w.methodAttributes describe kind name signature =
      (w.methodFeatures kind name signature).mapM (Feature.draw w describe) := by
  unfold methodAttributes methodFeatures
  split
  · split
    · simp
    · cases w.exposedElement? signature with
      | none => simp
      | some e => simp [elementAttributes_eq]
  · split
    · simp [Feature.draw, Feature.types, Feature.toAttribute]
    · simp
  · simp [Feature.draw, Feature.types, Feature.toAttribute, List.mapM_map, Function.comp_def]

theorem mapM_flatten_eq {α β γ : Type} {f : α → DraftM (List β)} {features : α → List γ}
    {draw : γ → DraftM β} (hf : ∀ a, f a = (features a).mapM draw) (xs : List α) :
    (do return (← xs.mapM f).flatten) = (xs.flatMap features).mapM draw := by
  induction xs with
  | nil => simp
  | cons x xs ih =>
    rw [List.flatMap_cons, List.mapM_append, ← ih, ← hf]
    simp

theorem capabilityAttributes_eq (t : Ty) (kind : Kind) :
    w.capabilityAttributes describe t kind =
      (w.capabilityFeatures t kind).mapM (Feature.draw w describe) := by
  refine mapM_flatten_eq (fun name => ?_) _
  cases w.listedMethod? (if kind = .interface then t else .pointer t) name with
  | none => simp
  | some signature => exact w.methodAttributes_eq describe kind name signature

theorem underlyingAttributes_eq (under : Ty) (kind : Kind) :
    w.underlyingAttributes describe under kind =
      (w.underlyingFeatures under kind).mapM (Feature.draw w describe) := by
  unfold underlyingAttributes underlyingFeatures
  cases kind with
  | numeric | boolean | string =>
    simp [Feature.draw, Feature.types, Feature.toAttribute]
  | enumeration | userDefined => exact w.baseAttributes_eq describe under
  | _ => exact w.shapeAttributes_eq describe under _

theorem instanceAttributes_eq (n : TypeName) (args : List Ty) :
    w.instanceAttributes describe n args =
      (w.instanceFeatures n args).mapM (Feature.draw w describe) := by
  unfold instanceAttributes instanceFeatures
  cases args with
  | nil => simp
  | cons x xs => simp [Feature.draw, Feature.types, Feature.toAttribute]

theorem namedFeatures_mapM (n : TypeName) (args : List Ty) (kind : Kind) :
    (w.namedFeatures n args kind).mapM (Feature.draw w describe) = (do
      let shape ← w.underlyingAttributes describe (w.underlying (.named n args)) kind
      let generic ← w.instanceAttributes describe n args
      let capabilities ← w.capabilityAttributes describe (.named n args) kind
      let ancestors ← w.ancestorAttribute (.named n args) kind
      return shape ++ generic ++ capabilities ++ [ancestors]) := by
  rw [underlyingAttributes_eq, instanceAttributes_eq, capabilityAttributes_eq,
    ancestorAttribute_eq w describe]
  simp [namedFeatures, List.mapM_append]

/-! ### Descriptions carry out plans -/

variable {w describe} {s : Draft}

/-- A plan is carried out on the draft in which its descriptor is reserved and remembered. -/
theorem run_draw (p : Plan) :
    (p.draw w describe).run s = (do
      Draft.complete s.graph.size (← p.features.mapM (Feature.draw w describe))
      return s.graph.size).run (s.begin p) := rfl

/-- An unresolved type is drawn in one go, which comes to the same. -/
theorem run_draw_unresolved (text : Identity) :
    ((Plan.unresolved text).draw w describe).run s = (do
      let r ← Draft.construct (.unknown text)
      Draft.remember text r
      return r).run s := by
  have hfill : ((s.begin (.unresolved text)).graph.node s.graph.size).fill
      (s.begin (.unresolved text)).graph [] =
      ({ kind := .unknown, id := "<error " ++ text ++ ">", completed := true }, none) := by
    rw [Draft.node_begin, if_pos rfl]
    rfl
  have hdraft : (s.begin (.unresolved text)).finish s.graph.size
      { kind := .unknown, id := "<error " ++ text ++ ">", completed := true } =
      ⟨(s.graph.add { kind := .unknown, id := "<error " ++ text ++ ">", completed := true }).1,
        { s.describer with memo := (text, s.graph.size) :: s.describer.memo }⟩ := by
    simp [Draft.begin, Draft.finish, Graph.put_add_size, Plan.unresolved]
  have hrun := Draft.run_complete (s.mem_pending_begin (.unresolved text)) hfill
  rw [hdraft] at hrun
  rw [run_draw]
  simp only [Plan.unresolved, List.mapM_nil, pure_bind] at hrun ⊢
  rw [StateT.run_bind, hrun]
  rfl

theorem run_describeNamed {n : TypeName} {args : List Ty} :
    (w.describeNamed describe n args (w.typeString (.named n args))).run s =
      ((w.namedPlan n args).draw w describe).run s := by
  unfold describeNamed namedPlan
  by_cases h : w.underlying (.named n args) = .invalid
  · simp only [h, if_true]
    exact (run_draw_unresolved _).symm
  · simp only [h, if_false]
    simp [Plan.draw, namedFeatures_mapM]

theorem run_describeUnnamed {t : Ty}
    (h : s.describer.memo.lookup (w.unnamedPlan t).entry = none) :
    (w.describeUnnamed describe t (w.typeString t)).run s =
      ((w.unnamedPlan t).draw w describe).run s := by
  unfold describeUnnamed
  unfold unnamedPlan at h ⊢
  by_cases hk : w.kindOf t = .unknown
  · simp only [hk, if_true]
    exact (run_draw_unresolved _).symm
  · simp only [hk, if_false] at h ⊢
    generalize (if w.kindOf t = .interface && w.isEmptyInterface t then "any"
      else w.typeString t) = id at h ⊢
    simp [Plan.draw, shapeAttributes_eq, Draft.memo?, h]

theorem run_describeUnnamed_of_entry (describe : Ty → DraftM Ref) {t : Ty} {r : Ref}
    (htext : s.describer.memo.lookup (w.typeString t) = none)
    (h : s.describer.memo.lookup (w.unnamedPlan t).entry = some r) :
    (w.describeUnnamed describe t (w.typeString t)).run s = .ok (r, s) := by
  unfold describeUnnamed
  unfold unnamedPlan at h
  by_cases hk : w.kindOf t = .unknown
  · simp [hk, Plan.unresolved, htext] at h
  · simp only [hk, if_false] at h ⊢
    generalize (if w.kindOf t = .interface && w.isEmptyInterface t then "any"
      else w.typeString t) = id at h ⊢
    simp only [Draft.memo?, StateT.run_bind, StateT.run_get, pure_bind, h]
    rfl

end Attributes

theorem entry_namedPlan (n : TypeName) (args : List Ty) :
    (w.namedPlan n args).entry = w.typeString (.named n args) := by
  unfold namedPlan
  split <;> rfl

variable {w} {s : Draft} {t : Ty} {r : Ref}

/-- A type whose text is remembered is not described again. -/
theorem run_describeIn_of_text (k : Nat) (h : s.describer.memo.lookup (w.text t) = some r) :
    (w.describeIn (k + 1) t).run s = .ok (r, s) := by
  unfold text at h
  simp only [describeIn, Draft.memo?, StateT.run_bind, StateT.run_get, pure_bind, h]
  rfl

/-- Nor is one whose plan is remembered. -/
theorem run_describeIn_of_entry (k : Nat) (htext : s.describer.memo.lookup (w.text t) = none)
    (h : s.describer.memo.lookup (w.plan t).entry = some r) :
    (w.describeIn (k + 1) t).run s = .ok (r, s) := by
  unfold text at htext
  unfold plan at h
  simp only [describeIn, Draft.memo?, StateT.run_bind, StateT.run_get, pure_bind, htext]
  revert h htext
  generalize w.unalias t = u
  intro htext h
  cases u with
  | named n args =>
    simp only [entry_namedPlan, htext] at h
    cases h
  | _ => exact run_describeUnnamed_of_entry (w.describeIn k) htext h

/-- Any other type has its plan carried out. -/
theorem run_describeIn_of_fresh (k : Nat) (htext : s.describer.memo.lookup (w.text t) = none)
    (h : s.describer.memo.lookup (w.plan t).entry = none) :
    (w.describeIn (k + 1) t).run s = ((w.plan t).draw w (w.describeIn k)).run s := by
  unfold text at htext
  unfold plan at h ⊢
  simp only [describeIn, Draft.memo?, StateT.run_bind, StateT.run_get, pure_bind, htext]
  revert h
  generalize w.unalias t = u
  intro h
  cases u with
  | named n args => exact run_describeNamed
  | _ => exact run_describeUnnamed h

end World

end EverEqual
