import EverEqual.Proofs.Describe.Core
import EverEqual.Proofs.Describe.Complete

/-!
# Where ancestors come from

Every ancestor that a descriptor records has a reason in the types: it is `any`, a declared type that
is embedded at some depth, or what the type or such an embedded one gets on its own: the registered
interfaces that it implements and, if it is an interface itself, the declared types that it embeds.
Bases are looked up by their texts, so what stands for a base may be the descriptor of another type
that is written alike; the reason then is one of that type.

* `World.Embeds`, `World.Grounds`, `World.Reason`: why a type has an ancestor;
* `World.Trace`: how an ancestor has come about, over what stands for the bases;
* `World.Trace.reason`: each trace gives a reason;
* `World.Trace.exact`: where texts tell types apart, what stands for the bases plays no part;
* `Node.lists_of_fill`: what attributes add to the ancestors.
-/

namespace EverEqual

open Relation

namespace World

variable (w : World)

/-- The declared type that the type of an embedded field stands for, behind aliases and pointers. -/
inductive StandsFor : Ty → Ty → Prop
  | declared {t : Ty} {n : TypeName} {xs : List Ty} (h : w.unalias t = .named n xs) :
      StandsFor t (.named n xs)
  | pointer {t e u : Ty} (h : w.unalias t = .pointer e) (hu : StandsFor e u) : StandsFor t u

/-- A type embeds a declared type: it is a struct behind aliases and names, and one of its fields is
embedded and stands for the declared type. -/
def Embeds (t u : Ty) : Prop :=
  ∃ fs f, w.core t = .struct fs ∧ f ∈ fs ∧ f.embedded = true ∧ w.StandsFor f.type u

/-- What a type gets as an ancestor on its own, by itself or by its underlying type: a registered
interface that it implements, if need be by its pointer, and a declared type that it embeds as an
interface. -/
inductive Grounds (I : List Ty) (t : Ty) : Identity → Prop
  | implemented {v i : Ty} (hv : v = w.unalias t ∨ v = w.core t) (hi : i ∈ I)
      (h : w.implements v (w.underlying i) = true ∨
        (w.isInterface v = false ∧ w.implements (.pointer v) (w.underlying i) = true)) :
      Grounds I t (w.typeString i)
  | embedded {v e : Ty} {form : InterfaceForm} {ms : List (Member Ty)} {es : List Ty} {n : TypeName}
      {xs : List Ty} (hv : v = w.unalias t ∨ v = w.core t)
      (h : w.underlying v = .interface form ms es) (he : e ∈ es) (hn : w.unalias e = .named n xs) :
      Grounds I t (w.typeString (.named n xs))

/-- **Why a type has an ancestor**, where a step leads from a type to what it embeds: the ancestor is
`any`, or some steps lead to a type with that identity, or to one that gets it on its own. -/
def Reason (I : List Ty) (step : Ty → Ty → Prop) (t : Ty) (a : Identity) : Prop :=
  a = "any" ∨ (∃ u, TransGen step t u ∧ a = (w.plan u).id) ∨
    ∃ u, ReflTransGen step t u ∧ w.Grounds I u a

/-- How a type has come by an ancestor: it is an own one, or it comes from a base, by way of the type
whose descriptor stands for the base. -/
inductive Trace (I : List Ty) (stands : Ty → Ty → Prop) : Ty → Identity → Prop
  | own {t : Ty} {a : Identity} (h : a ∈ (w.portrait I t).own) : Trace I stands t a
  | base {t u v : Ty} (hu : u ∈ (w.portrait I t).bases) (hv : stands u v) :
      Trace I stands t (w.plan v).id
  | inherited {t u v : Ty} {a : Identity} (hu : u ∈ (w.portrait I t).bases) (hv : stands u v)
      (h : Trace I stands v a) : Trace I stands t a

/-- The descriptor of the second type is found for the first one: it is remembered by the text of the
first one, or by what that is remembered by. -/
def FoundFor (roots : Set Ty) (u v : Ty) : Prop :=
  w.Met roots v ∧ (w.entry v = w.text u ∨ w.entry v = w.entry u)

/-- Types that share a name look the same, ancestors included. -/
def Coherent (I : List Ty) (roots : Set Ty) : Prop :=
  ∀ t u, w.Met roots t → w.Met roots u → ∀ a ∈ w.names t, a ∈ w.names u →
    w.outline I t = w.outline I u

variable {w} {I J : List Ty} {roots : Set Ty} {stands step step' : Ty → Ty → Prop} {t u v : Ty}
variable {a : Identity} {kind : Kind}

/-! ### Own ancestors and bases -/

theorem standsFor_of_embeddedName {k : Nat} (h : w.embeddedName? k t = some u) :
    w.StandsFor t u := by
  induction k generalizing t with
  | zero => cases h
  | succ k ih =>
    unfold embeddedName? at h
    split at h
    next n xs halias =>
      obtain rfl := Option.some.inj h
      exact .declared halias
    next e halias => exact .pointer halias (ih h)
    next => cases h

theorem embeds_of_mem_embeddedNames (h : u ∈ w.embeddedNames (w.core t)) : w.Embeds t u := by
  unfold embeddedNames at h
  split at h
  next fs hcore =>
    obtain ⟨f, hf, hname⟩ := List.mem_filterMap.mp h
    obtain ⟨hmem, hembedded⟩ := List.mem_filter.mp hf
    exact ⟨fs, f, hcore, hmem, hembedded, standsFor_of_embeddedName hname⟩
  next => cases h

/-- What is listed for a type: `any`, or what comes of a registered interface or an embedded one. -/
theorem mem_ancestorIds_iff :
    a ∈ w.ancestorIds I u kind ↔
      ((kind ≠ .interface ∨ w.isEmptyInterface u = false) ∧ a = "any") ∨
        ((∀ ts, u ≠ .tuple ts) ∧
          ((∃ i ∈ I, (w.identical i u = false ∧ w.implementsSomehow u i = true) ∧
            w.typeString i = a) ∨ a ∈ w.embeddedIds u)) := by
  have htop : a ∈ (if kind ≠ .interface || !w.isEmptyInterface u then ["any"] else []) ↔
      (kind ≠ .interface ∨ w.isEmptyInterface u = false) ∧ a = "any" := by
    split
    next h => simpa using fun _ => by simpa using h
    next h => simpa using fun h' => absurd h' (by simpa using h)
  have hrest : a ∈ (I.filter fun i => !w.identical i u && w.implementsSomehow u i).map
      w.typeString ↔ ∃ i ∈ I, (w.identical i u = false ∧ w.implementsSomehow u i = true) ∧
        w.typeString i = a := by
    simp [List.mem_filter, and_assoc]
  unfold ancestorIds
  cases u with
  | tuple ts => simp
  | _ =>
    rw [List.mem_append, List.mem_append, htop, hrest, or_assoc]
    simp

theorem eq_any_or_grounds (hu : u = w.unalias t ∨ u = w.core t)
    (h : a ∈ w.ancestorIds I u kind) : a = "any" ∨ w.Grounds I t a := by
  rcases mem_ancestorIds_iff.mp h with ⟨-, h⟩ | ⟨-, ⟨i, hi, ⟨-, hsome⟩, rfl⟩ | h⟩
  · exact Or.inl h
  · simp only [implementsSomehow, Bool.or_eq_true, Bool.and_eq_true, Bool.not_eq_true'] at hsome
    exact Or.inr (.implemented hu hi hsome)
  · unfold embeddedIds at h
    split at h
    next form ms es hunder =>
      obtain ⟨e, he, hname⟩ := List.mem_filterMap.mp h
      split at hname
      next n xs halias =>
        obtain rfl := Option.some.inj hname
        exact Or.inr (.embedded hu hunder he halias)
      next => cases hname
    next => cases h

theorem ancestors_mem_shapeFeatures {kind' : Kind}
    (h : Feature.ancestors u kind' ∈ w.shapeFeatures t kind) : u = t := by
  unfold shapeFeatures partFeatures elementFeatures baseFeatures at h
  grind

theorem eq_of_ancestors_mem (h : Feature.ancestors u kind ∈ (w.plan t).features) :
    u = w.unalias t ∨ u = w.core t := by
  unfold core
  unfold plan at h
  generalize w.unalias t = v at h ⊢
  have hunnamed : Feature.ancestors u kind ∈ (w.unnamedPlan v).features → u = v := by
    intro h
    unfold unnamedPlan at h
    by_cases hunk : w.kindOf v = .unknown
    · simp only [hunk, if_true] at h
      cases h
    · simp only [hunk, if_false] at h
      exact ancestors_mem_shapeFeatures h
  cases v with
  | named n xs =>
    rcases mem_namedFeatures_cases (mem_features_namedPlan h) with h | h | ⟨e, h | h | h⟩ | h
    · exact Or.inr (ancestors_mem_underlyingFeatures h)
    · cases h
    · cases h
    · cases h
    · cases h
    · exact Or.inl (Feature.ancestors.inj h).1
  | _ => exact Or.inl (hunnamed h)

/-- **Own ancestors have grounds**, unless they are `any`. -/
theorem grounds_of_mem_own (h : a ∈ (w.portrait I t).own) : a = "any" ∨ w.Grounds I t a := by
  rcases Portrait.mem_own_foldl.mp h with h | ⟨u, kind, hf, ha⟩
  · cases h
  · exact eq_any_or_grounds (eq_of_ancestors_mem hf) ha

theorem mem_bases_foldl {fs : List Feature} {P : Portrait Ty} :
    u ∈ (fs.foldl (Portrait.attach w I) P).bases ↔
      u ∈ P.bases ∨ ∃ us, Feature.bases us ∈ fs ∧ u ∈ us := by
  induction fs generalizing P with
  | nil => simp
  | cons f fs ih =>
    rw [List.foldl_cons, ih]
    cases f with
    | bases ts =>
      simp only [Portrait.attach, List.mem_append, List.mem_cons]
      grind
    | _ => simp [Portrait.attach]

theorem embeddedNames_of_bases_mem {us : List Ty} (h : Feature.bases us ∈ (w.plan t).features) :
    us = w.embeddedNames (w.core t) := by
  have hbase : ∀ {v : Ty}, Feature.bases us ∈ w.baseFeatures v → us = w.embeddedNames v := by
    intro v h
    unfold baseFeatures at h
    split at h
    · cases h
    · exact Feature.bases.inj (List.mem_singleton.mp h)
  have hshape : ∀ {v : Ty} {kind : Kind}, Feature.bases us ∈ w.shapeFeatures v kind →
      us = w.embeddedNames v ∧ w.underlying v = v := by
    intro v kind h
    unfold shapeFeatures partFeatures elementFeatures at h
    cases v with
    | struct fs =>
      refine ⟨hbase ?_, rfl⟩
      simp only [List.mem_append, List.mem_cons] at h
      grind
    | _ => grind
  unfold core
  unfold plan at h
  generalize w.unalias t = v at h ⊢
  have hunnamed : Feature.bases us ∈ (w.unnamedPlan v).features →
      us = w.embeddedNames (w.underlying v) := by
    intro h
    unfold unnamedPlan at h
    by_cases hunk : w.kindOf v = .unknown
    · simp only [hunk, if_true] at h
      cases h
    · simp only [hunk, if_false] at h
      obtain ⟨hus, hunder⟩ := hshape h
      rw [hunder, hus]
  cases v with
  | named n xs =>
    rcases mem_namedFeatures_cases (mem_features_namedPlan h) with h | h | ⟨e, h | h | h⟩ | h
    · unfold underlyingFeatures at h
      split at h
      · cases List.mem_singleton.mp h
      · cases List.mem_singleton.mp h
      · cases List.mem_singleton.mp h
      · exact hbase h
      · exact hbase h
      · exact (hshape h).1
    all_goals cases h
  | _ => exact hunnamed h

theorem embeds_of_mem_bases (h : u ∈ (w.portrait I t).bases) : w.Embeds t u := by
  rcases mem_bases_foldl.mp h with h | ⟨us, hf, hu⟩
  · cases h
  · rw [embeddedNames_of_bases_mem hf] at hu
    exact embeds_of_mem_embeddedNames hu

/-! ### Traces -/

theorem Trace.mono (hIJ : I ⊆ J) (h : w.Trace I stands t a) : w.Trace J stands t a := by
  have hids : ∀ {a u kind}, a ∈ w.ancestorIds I u kind → a ∈ w.ancestorIds J u kind := by
    intro a u kind ha
    refine mem_ancestorIds_iff.mpr ((mem_ancestorIds_iff.mp ha).imp_right ?_)
    rintro ⟨htuple, hrest⟩
    exact ⟨htuple, hrest.imp_left fun ⟨i, hi, h⟩ => ⟨i, hIJ hi, h⟩⟩
  have hbases : ∀ {t u}, u ∈ (w.portrait I t).bases → u ∈ (w.portrait J t).bases := fun hu =>
    mem_bases_foldl.mpr (mem_bases_foldl.mp hu)
  induction h with
  | own h =>
    refine .own (Portrait.mem_own_foldl.mpr ?_)
    refine (Portrait.mem_own_foldl.mp h).imp_right ?_
    rintro ⟨u, kind, hf, ha⟩
    exact ⟨u, kind, hf, hids ha⟩
  | base hu hv => exact .base (hbases hu) hv
  | inherited hu hv _ ih => exact .inherited (hbases hu) hv ih

theorem Reason.of_step (hstep : step t u) (h : w.Reason I step u a) : w.Reason I step t a := by
  rcases h with h | ⟨v, huv, h⟩ | ⟨v, huv, h⟩
  · exact Or.inl h
  · exact Or.inr (Or.inl ⟨v, .head hstep huv, h⟩)
  · exact Or.inr (Or.inr ⟨v, .head hstep huv, h⟩)

/-- **A trace gives a reason**, with steps to whatever stands for what is embedded. -/
theorem Trace.reason (h : w.Trace I stands t a) : w.Reason I (Comp w.Embeds stands) t a := by
  induction h with
  | own h =>
    rcases grounds_of_mem_own h with h | h
    · exact Or.inl h
    · exact Or.inr (Or.inr ⟨_, .refl, h⟩)
  | base hu hv => exact Or.inr (Or.inl ⟨_, .single ⟨_, embeds_of_mem_bases hu, hv⟩, rfl⟩)
  | inherited hu hv _ ih => exact ih.of_step ⟨_, embeds_of_mem_bases hu, hv⟩

/-- **Where texts tell types apart**, what stands for the bases of a type may be replaced by the bases
themselves, and the type by one that looks the same. -/
theorem Trace.exact (hc : w.Coherent I roots) (h : w.Trace I (w.FoundFor roots) v a)
    (hv : w.Met roots v) (ht : w.Met roots t) (hsame : w.outline I t = w.outline I v) :
    w.Trace I Eq t a := by
  have hbase : ∀ {t v u x : Ty}, w.Met roots t → w.Met roots v → w.outline I t = w.outline I v →
      u ∈ (w.portrait I v).bases → w.FoundFor roots u x →
      ∃ y ∈ (w.portrait I t).bases, w.Met roots y ∧ w.outline I y = w.outline I x := by
    rintro t v u x ht hv hsame hu ⟨hx, hname⟩
    have hentry : w.entry u ∈ (w.outline I t).bases := by
      rw [hsame]
      exact List.mem_map_of_mem hu
    obtain ⟨y, hy, hye⟩ := List.mem_map.mp hentry
    have hmu : w.Met roots u := .part hv (mem_types_of_mem_bases hu)
    have hmy : w.Met roots y := .part ht (mem_types_of_mem_bases hy)
    refine ⟨y, hy, hmy, ?_⟩
    have hyu := hc y u hmy hmu _ (entry_mem_names y) (hye ▸ entry_mem_names u)
    rcases hname with hname | hname
    · exact hyu.trans (hc u x hmu hx _ (text_mem_names u) (hname ▸ entry_mem_names x))
    · exact hyu.trans (hc u x hmu hx _ (entry_mem_names u) (hname ▸ entry_mem_names x))
  induction h generalizing t with
  | own h =>
    refine .own ?_
    have hown := congrArg Portrait.own hsame
    change (w.portrait I t).own = _ at hown
    rw [hown]
    exact h
  | @base t' u x hu hx =>
    obtain ⟨y, hy, -, hyx⟩ := hbase ht hv hsame hu hx
    have hid : (w.plan y).id = (w.plan x).id := by simpa using congrArg Portrait.id hyx
    rw [← hid]
    exact .base hy rfl
  | inherited hu hx _ ih =>
    obtain ⟨y, hy, hmy, hyx⟩ := hbase ht hv hsame hu hx
    exact .inherited hy rfl (ih hx.1 hmy hyx)

end World

/-! ### What attributes add -/

/-- The ancestors that a feature adds, with descriptors that stand for its types. -/
def Feature.Lists (w : World) (I : List Ty) (g : Graph) (R : Ty → Ref → Prop) (a : Identity) :
    Feature → Prop
  | .ancestors t kind => a ∈ w.ancestorIds I t kind
  | .bases us => ∃ u ∈ us, ∃ x, R u x ∧ (a = (g.node x).id ∨ a ∈ (g.node x).ancestors)
  | _ => False

namespace Node

variable {w : World} {I : List Ty} {g : Graph} {R : Ty → Ref → Prop} {m n : Node} {a : Identity}

theorem lists_of_attach {f : Feature} {b : Attribute} (hb : f.Becomes w I R b)
    (ha : a ∈ (n.attach g b).1.ancestors) :
    a ∈ n.ancestors ∨ (a ≠ n.id ∧ f.Lists w I g R a) := by
  obtain ⟨refs, hrefs, rfl⟩ := hb
  cases f with
  | bases us =>
    simp only [Feature.toAttribute, attach, leading_map_some, mem_ancestors_foldl_addBase] at ha
    refine ha.imp_right ?_
    rintro ⟨hne, x, hx, hax⟩
    obtain ⟨u, hu, hux⟩ := exists_mem_of_forall₂ hrefs.flip hx
    exact ⟨hne, u, hu, x, hux, hax⟩
  | ancestors t kind =>
    simp only [Feature.toAttribute, attach, mem_ancestors_foldl_addAncestor] at ha
    exact ha.symm.imp_right And.symm
  | element t | key t | underlying t | conversion t | equatable t =>
    cases hrefs with
    | cons hx hnil => exact Or.inl ha
  | tuple ts | generic origin args => exact Or.inl ha

/-- **Filling in** adds what the features list, and never the identity of the node itself. -/
theorem lists_of_fill {fs : List Feature} {as : List Attribute}
    (has : List.Forall₂ (Feature.Becomes w I R) fs as) (hfill : n.fill g as = (m, none))
    (hn : n.ancestors = []) (ha : a ∈ m.ancestors) : a ≠ n.id ∧ ∃ f ∈ fs, f.Lists w I g R a := by
  have key : ∀ {fs : List Feature} {as : List Attribute} {n : Node},
      List.Forall₂ (Feature.Becomes w I R) fs as → a ∈ (n.attachAll g as).1.ancestors →
      a ∈ n.ancestors ∨ (a ≠ n.id ∧ ∃ f ∈ fs, f.Lists w I g R a) := by
    intro fs as n has
    induction has generalizing n with
    | nil => exact Or.inl
    | @cons f b fs as hfb _ ih =>
      intro ha
      have hid := (n.id_completed_attach (g := g) b).1
      have hfirst : a ∈ (n.attach g b).1.ancestors →
          a ∈ n.ancestors ∨ (a ≠ n.id ∧ ∃ f' ∈ f :: fs, f'.Lists w I g R a) := fun h =>
        (lists_of_attach hfb h).imp_right fun h => ⟨h.1, f, List.mem_cons_self, h.2⟩
      rw [attachAll] at ha
      split at ha
      next n' hattach =>
        rw [hattach] at hid hfirst
        rcases ih ha with h | ⟨hne, f', hf', h⟩
        · exact hfirst h
        · exact Or.inr ⟨hid ▸ hne, f', List.mem_cons_of_mem _ hf', h⟩
      next n' d hattach =>
        rw [hattach] at hfirst
        exact hfirst ha
  rw [ancestors_fill hfill] at ha
  rcases key has ha with h | h
  · rw [hn] at h
    cases h
  · exact h

end Node

end EverEqual
