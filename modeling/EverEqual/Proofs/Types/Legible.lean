import EverEqual.Types.Printer
import Mathlib.Tactic.Common

/-!
# Texts that begin with a name

A type that cannot be resolved has an identity in angle brackets, so that it is not mistaken for a
type of a program. Only a name could bring such a text about: every other type begins with a sign of
its own, and the one that is an angle bracket is followed by a hyphen.

* `Text.Plain`: texts that do not begin with an angle bracket, that of a channel apart;
* `Ty.BeginsWith`: the name at the beginning of the text of a type;
* `World.plain_typeString`: the text of a type is plain if the name at its beginning is.
-/

namespace EverEqual

/-! ### Plain texts -/

/-- A text that does not begin with an angle bracket, unless a hyphen follows. -/
def Text.Plain (s : String) : Prop :=
  s.toList.head? ≠ some '<' ∨ ∃ cs, s.toList = '<' :: '-' :: cs

namespace Text

variable {s t : String}

/-- What begins with another sign is plain, whatever follows. -/
theorem plain_of_sign (hs : s.toList.head?.any (· ≠ '<') = true) (t : String) : Plain (s ++ t) := by
  left
  rw [String.toList_append]
  cases hlist : s.toList with
  | nil => simp [hlist] at hs
  | cons c cs => simpa [hlist] using hs

theorem Plain.append (hs : Plain s) (ht : Plain t) : Plain (s ++ t) := by
  unfold Plain at hs ht ⊢
  rw [String.toList_append]
  cases hlist : s.toList with
  | nil => simpa using ht
  | cons c cs =>
    rw [hlist] at hs
    rcases hs with hc | ⟨ds, hds⟩
    · left
      simpa using hc
    · right
      exact ⟨ds ++ t.toList, by rw [hds]; rfl⟩

theorem Plain.ne_error (hs : Plain s) (text : String) : s ≠ "<error " ++ text ++ ">" := by
  rintro rfl
  unfold Plain at hs
  have hlist : ("<error " ++ text ++ ">").toList =
      '<' :: 'e' :: ("rror ".toList ++ text.toList ++ ">".toList) := by
    simp [String.toList_append]
  rw [hlist] at hs
  simp at hs

end Text

/-! ### Types -/

namespace Ty

/-- The name at the beginning of the text of a type. -/
inductive BeginsWith : Ty → String → Prop
  | named (n : TypeName) (args : List Ty) :
      BeginsWith (.named n args) (World.qualified n.path n.name)
  | param (b : Binder) (i : Nat) (label : String) : BeginsWith (.param b i label) label
  | implicit {a : Ty} {name : String} (ha : BeginsWith a name) :
      BeginsWith (.interface .implicit [] [a]) name
  | union {a : Ty} {terms : List Ty} {name : String} (ha : BeginsWith a name) :
      BeginsWith (.union (a :: terms)) name

end Ty

namespace World

open Text

variable {w : World}

theorem plain_empty : Plain "" := Or.inl (by simp)

theorem plain_parameterList (qualify : TypeName → String) (n : TypeName) :
    Plain (w.parameterList qualify n) := by
  unfold parameterList
  split
  · exact plain_empty
  · split
    · exact plain_empty
    · rw [String.append_assoc]
      exact plain_of_sign rfl _

theorem plain_parameterName {label : String} (h : Plain label) : Plain (parameterName label) := by
  unfold parameterName
  split
  · exact h.append (Or.inl (by decide))
  · exact h

theorem plain_intercalate {x : String} (xs : List String) (hx : Plain x) :
    Plain (" | ".intercalate (x :: xs)) := by
  cases xs with
  | nil =>
    have hone : " | ".intercalate [x] = x := by simp
    rwa [hone]
  | cons y ys =>
    have hmore : " | ".intercalate (x :: y :: ys) =
        x ++ (" | " ++ " | ".intercalate (y :: ys)) := by
      apply String.toList_injective
      simp [String.toList_intercalate, List.intercalate]
    rw [hmore]
    exact hx.append (plain_of_sign rfl _)

/-- **The text of a type is plain** if the name at its beginning is. The recursion follows what the
text begins with. -/
theorem plain_render {style : NameStyle} (hparams : ∀ n, Plain (style.parameters n))
    (hqualify : ∀ n, style.qualify n = qualified n.path n.name) :
    ∀ t : Ty, (∀ name, t.BeginsWith name → Plain name) → Plain (t.render style)
  | .basic b, _ => by
    rw [Ty.render]
    exact Or.inl (by cases b <;> decide)
  | .named n [], h => by
    rw [Ty.render, hqualify]
    exact (h _ (.named n [])).append (hparams n)
  | .named n (x :: xs), h => by
    rw [Ty.render, hqualify, String.append_assoc, String.append_assoc]
    exact (h _ (.named n (x :: xs))).append (plain_of_sign rfl _)
  | .param b i label, h => by
    rw [Ty.render]
    exact plain_parameterName (h _ (.param b i label))
  | .pointer a, _ => by
    rw [Ty.render]
    exact plain_of_sign rfl _
  | .slice a, _ => by
    rw [Ty.render]
    exact plain_of_sign rfl _
  | .array n a, _ => by
    rw [Ty.render, String.append_assoc, String.append_assoc]
    exact plain_of_sign rfl _
  | .map k a, _ => by
    rw [Ty.render, String.append_assoc, String.append_assoc]
    exact plain_of_sign rfl _
  | .chan .both a, _ => by
    rw [Ty.render]
    split
    · rw [String.append_assoc]
      exact plain_of_sign rfl _
    · exact plain_of_sign rfl _
  | .chan .send a, _ => by
    rw [Ty.render]
    exact plain_of_sign rfl _
  | .chan .receive a, _ => by
    rw [Ty.render]
    exact Or.inr ⟨_, by rw [String.toList_append]; rfl⟩
  | .func ps rs v, _ => by
    rw [Ty.render, String.append_assoc, String.append_assoc]
    exact plain_of_sign rfl _
  | .struct fs, _ => by
    rw [Ty.render, String.append_assoc]
    exact plain_of_sign rfl _
  | .tuple xs, _ => by
    rw [Ty.render, String.append_assoc]
    exact plain_of_sign rfl _
  | .interface form ms es, h => by
    by_cases hone : form = .implicit ∧ ms = [] ∧ ∃ a, es = [a]
    · obtain ⟨rfl, rfl, a, rfl⟩ := hone
      rw [Ty.render]
      exact plain_render hparams hqualify a fun name ha => h name (.implicit ha)
    · rw [Ty.render]
      · split
        · rw [String.append_assoc, String.append_assoc]
          exact plain_of_sign rfl _
        · rw [String.append_assoc, String.append_assoc, String.empty_append]
          exact plain_of_sign rfl _
      · rintro a rfl rfl rfl
        exact hone ⟨rfl, rfl, a, rfl⟩
  | .union [], _ => by
    rw [Ty.render, Ty.renderAll]
    exact Or.inl (by decide)
  | .union (a :: terms), h => by
    rw [Ty.render, Ty.renderAll]
    exact plain_intercalate _ (plain_render hparams hqualify a fun name ha => h name (.union ha))
  | .tilde a, _ => by
    rw [Ty.render]
    exact plain_of_sign rfl _

theorem plain_typeString {t : Ty} (h : ∀ name, t.BeginsWith name → Plain name) :
    Plain (w.typeString t) := by
  have hparams : ∀ n, Plain (w.parameterList (fun n => qualified n.path n.name) n) :=
    fun n => plain_parameterList _ n
  exact @plain_render ⟨_, _⟩ hparams (fun _ => rfl) t h

end World

end EverEqual
