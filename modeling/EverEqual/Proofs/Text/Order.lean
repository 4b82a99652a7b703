import EverEqual.Text.Utf8
import Mathlib.Data.String.Basic

/-!
# The order of texts

Texts are ordered by their characters, and so are their bytes: the first byte of a character says
how many follow it and brings the highest bits of the code point, and each byte that follows brings
the next six bits. So of two different characters, the one with the smaller code point has the
smaller byte at the first place where their bytes differ, and there is such a place.

* `utf8EncodeChar_append_lt`: two different characters, whatever follows them;
* `bytesOf_le_bytesOf_iff`: the order of texts is the order of their bytes.
-/

namespace EverEqual.Text

open String (utf8EncodeChar)

/-- The first byte decides, and if both are the same, then what follows. -/
theorem ofNat_cons_lt_ofNat_cons {m n : Nat} {x y : List UInt8} (hn : n < 256) (hmn : m ≤ n)
    (h : m = n → x < y) : UInt8.ofNat m :: x < UInt8.ofNat n :: y := by
  rw [List.cons_lt_cons_iff]
  rcases hmn.lt_or_eq with hlt | rfl
  · left
    rw [UInt8.lt_iff_toNat_lt, UInt8.toNat_ofNat', UInt8.toNat_ofNat', Nat.mod_eq_of_lt hn,
      Nat.mod_eq_of_lt (hlt.trans hn)]
    exact hlt
  · exact Or.inr ⟨rfl, h rfl⟩

/-- **Of two characters, the smaller one has the smaller bytes**, whatever follows them. -/
theorem utf8EncodeChar_append_lt {c d : Char} (h : c < d) (x y : List UInt8) :
    utf8EncodeChar c ++ x < utf8EncodeChar d ++ y := by
  have hlt : c.val.toNat < d.val.toNat := UInt32.lt_iff_toNat_lt.mp h
  have hd : d.val.toNat < 0x110000 := by
    rcases d.valid with hd | hd
    · exact hd.trans (by decide)
    · exact hd.2
  unfold utf8EncodeChar
  generalize c.val.toNat = m at hlt
  generalize d.val.toNat = n at hlt hd
  dsimp only
  -- by the number of bytes; if it is not the same, the first byte decides
  split
  · split
    · exact ofNat_cons_lt_ofNat_cons (by omega) (by omega) (by omega)
    · split
      · exact ofNat_cons_lt_ofNat_cons (by omega) (by omega) (by omega)
      · split
        · exact ofNat_cons_lt_ofNat_cons (by omega) (by omega) (by omega)
        · exact ofNat_cons_lt_ofNat_cons (by omega) (by omega) (by omega)
  rw [if_neg (by omega : ¬ n ≤ 127)]
  split
  · split
    · refine ofNat_cons_lt_ofNat_cons (by omega) (by omega) fun h₁ => ?_
      exact ofNat_cons_lt_ofNat_cons (by omega) (by omega) (by omega)
    · split
      · exact ofNat_cons_lt_ofNat_cons (by omega) (by omega) (by omega)
      · exact ofNat_cons_lt_ofNat_cons (by omega) (by omega) (by omega)
  rw [if_neg (by omega : ¬ n ≤ 2047)]
  split
  · split
    · refine ofNat_cons_lt_ofNat_cons (by omega) (by omega) fun h₁ => ?_
      refine ofNat_cons_lt_ofNat_cons (by omega) (by omega) fun h₂ => ?_
      exact ofNat_cons_lt_ofNat_cons (by omega) (by omega) (by omega)
    · exact ofNat_cons_lt_ofNat_cons (by omega) (by omega) (by omega)
  rw [if_neg (by omega : ¬ n ≤ 65535)]
  refine ofNat_cons_lt_ofNat_cons (by omega) (by omega) fun h₁ => ?_
  refine ofNat_cons_lt_ofNat_cons (by omega) (by omega) fun h₂ => ?_
  refine ofNat_cons_lt_ofNat_cons (by omega) (by omega) fun h₃ => ?_
  exact ofNat_cons_lt_ofNat_cons (by omega) (by omega) (by omega)

theorem flatMap_utf8EncodeChar_lt {cs ds : List Char} (h : cs < ds) :
    cs.flatMap utf8EncodeChar < ds.flatMap utf8EncodeChar := by
  induction h with
  | @nil d ds =>
    rw [List.flatMap_nil, List.flatMap_cons]
    obtain ⟨b, bs, hb⟩ := List.exists_cons_of_ne_nil (String.utf8EncodeChar_ne_nil (c := d))
    rw [hb]
    exact List.nil_lt_cons _ _
  | rel hcd =>
    rw [List.flatMap_cons, List.flatMap_cons]
    exact utf8EncodeChar_append_lt hcd _ _
  | cons _ ih =>
    rw [List.flatMap_cons, List.flatMap_cons]
    exact List.append_left_lt ih

theorem toList_eq_toList_data (bytes : ByteArray) : bytes.toList = bytes.data.toList := by
  have hloop : ∀ i acc, ByteArray.toList.loop bytes i acc =
      acc.reverse ++ bytes.data.toList.drop i := by
    intro i acc
    fun_induction ByteArray.toList.loop bytes i acc with
    | case1 i acc hi ih =>
      have hlength : i < bytes.data.toList.length := hi
      have hget : bytes.get! i = bytes.data.toList[i] := by
        rw [Array.getElem_toList]
        exact getElem!_pos bytes.data i hi
      rw [ih, List.drop_eq_getElem_cons hlength, hget]
      simp
    | case2 i acc hi =>
      rw [List.drop_eq_nil_of_le (Nat.le_of_not_lt hi), List.append_nil]
  rw [ByteArray.toList, hloop]
  simp

theorem bytesOf_eq_flatMap (s : String) : bytesOf s = s.toList.flatMap utf8EncodeChar := by
  conv => lhs; rw [← String.ofList_toList (s := s)]
  rw [bytesOf, toList_eq_toList_data]
  exact List.toList_data_toByteArray

theorem bytesOf_lt_bytesOf {s t : String} (h : s < t) : bytesOf s < bytesOf t := by
  rw [bytesOf_eq_flatMap, bytesOf_eq_flatMap]
  exact flatMap_utf8EncodeChar_lt (String.lt_iff_toList_lt.mp h)

/-- **The order of texts is the order of their bytes.** -/
theorem bytesOf_le_bytesOf_iff {s t : String} : bytesOf s ≤ bytesOf t ↔ s ≤ t := by
  refine ⟨fun h => ?_, fun h => ?_⟩
  · by_contra hts
    exact h (bytesOf_lt_bytesOf (not_le.mp hts))
  · rcases h.lt_or_eq with hlt | rfl
    · exact List.le_of_lt (bytesOf_lt_bytesOf hlt)
    · exact List.le_refl _

end EverEqual.Text
