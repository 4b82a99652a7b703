import EverEqual.Text.Integer
import Mathlib.Tactic.Common

/-!
# Whole numbers that were written

A whole number that is written in decimal digits, without a sign and without leading zeros, is read
again as the same number if it fits. What is read is never too large for 64 bits.

* `Text.readDigits_decimal`: decimal digits add up;
* `Text.readInt_toString`: a number that is written is read again;
* `Text.lt_of_readInt`: what is read fits.
-/

namespace EverEqual.Text

variable {c : Char} {n acc : Nat}

theorem signedBound_le_wordBound : signedBound ≤ wordBound := by decide

theorem digitValue?_of_isDigit (hc : c.isDigit = true) :
    digitValue? c = some (c.toNat - '0'.toNat) ∧ c.toNat - '0'.toNat < 10 ∧ c ≠ '_' := by
  obtain ⟨hlow, hhigh⟩ : '0' ≤ c ∧ c ≤ '9' := by
    simpa [Char.isDigit, Char.le_def] using hc
  have hvalue : c.toNat ≤ '9'.toNat := hhigh
  refine ⟨by simp [digitValue?, hlow, hhigh], ?_, ?_⟩
  · have h0 : '0'.toNat = 48 := rfl
    have h9 : '9'.toNat = 57 := rfl
    omega
  · rintro rfl
    exact absurd hhigh (by decide)

theorem ofDigitChars_cons_eq (c : Char) (cs : List Char) (acc : Nat) :
    Nat.ofDigitChars 10 (c :: cs) acc =
      Nat.ofDigitChars 10 cs (acc * 10 + (c.toNat - '0'.toNat)) := by
  rw [Nat.ofDigitChars_cons, Nat.mul_comm]

theorem le_ofDigitChars (cs : List Char) (acc : Nat) : acc ≤ Nat.ofDigitChars 10 cs acc := by
  induction cs generalizing acc with
  | nil => simp
  | cons c cs ih =>
    rw [ofDigitChars_cons_eq]
    have hrest := ih (acc * 10 + (c.toNat - '0'.toNat))
    omega

/-- **Decimal digits add up**, as long as the number fits. -/
theorem readDigits_decimal {cs : List Char} (hcs : ∀ c ∈ cs, c.isDigit = true)
    (hfits : Nat.ofDigitChars 10 cs acc < wordBound) :
    readDigits 10 acc cs = .ok (Nat.ofDigitChars 10 cs acc) := by
  induction cs generalizing acc with
  | nil => simp [readDigits]
  | cons c cs ih =>
    obtain ⟨hvalue, hlt, hsep⟩ := digitValue?_of_isDigit (hcs c List.mem_cons_self)
    rw [ofDigitChars_cons_eq] at hfits ⊢
    have hbound : acc * 10 + (c.toNat - '0'.toNat) < wordBound :=
      Nat.lt_of_le_of_lt (le_ofDigitChars cs _) hfits
    rw [readDigits.eq_3 _ _ _ _ hsep, hvalue]
    simp only [Nat.not_le_of_lt hlt, Nat.not_le_of_lt hbound, if_false]
    exact ih (fun d hd => hcs d (List.mem_cons_of_mem _ hd)) hfits

theorem head?_toDigits_ne (hn : n ≠ 0) : (Nat.toDigits 10 n).head? ≠ some '0' := by
  induction n using Nat.strongRecOn with
  | ind n ih =>
    rw [Nat.toDigits_eq_if (by decide)]
    split
    next hlt =>
      have hsmall : ∀ m, m < 10 → m ≠ 0 → m.digitChar ≠ '0' := by decide
      rw [List.head?_cons]
      exact fun h => hsmall n hlt hn (Option.some.inj h)
    next hge =>
      have hdiv : n / 10 ≠ 0 := by omega
      cases hlist : Nat.toDigits 10 (n / 10) with
      | nil => exact absurd hlist Nat.toDigits_ne_nil
      | cons c cs =>
        have hhead := ih (n / 10) (by omega) hdiv
        rw [hlist] at hhead
        exact hhead

/-- The digits of a number are read without regard to the base that they could announce. -/
theorem readNat_toDigits (hfits : n < wordBound) : readNat (Nat.toDigits 10 n) = .ok n := by
  by_cases hn : n = 0
  · subst hn
    decide
  have hdigits : ∀ c ∈ Nat.toDigits 10 n, c.isDigit = true := fun c hc =>
    Nat.isDigit_of_mem_toDigits (by decide) (by decide) hc
  have hvalue : Nat.ofDigitChars 10 (Nat.toDigits 10 n) 0 = n :=
    Nat.ofDigitChars_toDigits (by decide) (by decide)
  have hread : readDigits 10 0 (Nat.toDigits 10 n) = .ok n := by
    rw [readDigits_decimal hdigits (by rwa [hvalue]), hvalue]
  have hplain : '_' ∉ Nat.toDigits 10 n := fun h => absurd (hdigits '_' h) (by decide)
  have hbase : splitBase (Nat.toDigits 10 n) = (10, Nat.toDigits 10 n) := by
    have hhead := head?_toDigits_ne hn
    unfold splitBase
    split
    · next h => rw [h] at hhead; simp at hhead
    · next h => rw [h] at hhead; simp at hhead
    · rfl
  cases hlist : Nat.toDigits 10 n with
  | nil => exact absurd hlist Nat.toDigits_ne_nil
  | cons c cs =>
    rw [hlist] at hread hplain hbase
    simp only [readNat, hbase, hread, bind, Except.bind, List.contains_eq_mem, hplain, decide_false,
      Bool.false_and, Bool.false_eq_true, if_false]

/-- **A number that is written is read again**, if it fits. -/
theorem readInt_toString (hfits : n < signedBound) :
    readInt (toString (n : Int)) = .ok (n : Int) := by
  have hlist : (toString (n : Int)).toList = Nat.toDigits 10 n := by
    change (toString n).toList = _
    rw [Nat.toString_eq_repr, Nat.toList_repr]
  have hread := readNat_toDigits (Nat.lt_of_lt_of_le hfits signedBound_le_wordBound)
  have hdigits : ∀ c ∈ Nat.toDigits 10 n, c.isDigit = true := fun c hc =>
    Nat.isDigit_of_mem_toDigits (by decide) (by decide) hc
  unfold readInt
  rw [hlist]
  split
  next negative cs h =>
    split at h
    · next hminus => exact absurd (hdigits '-' (hminus ▸ List.mem_cons_self)) (by decide)
    · next hplus => exact absurd (hdigits '+' (hplus ▸ List.mem_cons_self)) (by decide)
    · obtain ⟨rfl, rfl⟩ := Prod.mk.inj h
      simp [hread, bind, Except.bind, Nat.not_le_of_lt hfits]

/-- **What is read fits.** -/
theorem lt_of_readInt {s : String} {i : Int} (h : readInt s = .ok i) : i < signedBound := by
  unfold readInt at h
  split at h
  next negative cs _ =>
    cases hread : readNat cs with
    | error e =>
      rw [hread] at h
      cases h
    | ok n =>
      simp only [hread, bind, Except.bind] at h
      have hpos : (0 : Int) < signedBound := by decide
      split_ifs at h <;> cases h <;> omega

end EverEqual.Text
