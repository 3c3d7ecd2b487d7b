import Mathlib.Data.List.Lex

/-!
# Texts by their bytes

Texts are compared by characters here, and by the bytes of their UTF-8 form elsewhere.  Both orders
are the same: of two characters the smaller has the smaller bytes, and they differ already at a
place that both have.

* `utf8Bytes`: the bytes of a text.
* `PartBelow`: two lists of bytes that differ at a place that both have, the smaller byte first.
* `utf8Bytes_lt_of_lt`: texts in order have their bytes in order.
-/

namespace Leasehold

/-- The bytes of a text in UTF-8. -/
def utf8Bytes (text : String) : List UInt8 := text.toUTF8.data.toList

theorem utf8Bytes_eq_flatMap (text : String) :
    utf8Bytes text = text.toList.flatMap String.utf8EncodeChar := by
  have hBytes : text.toByteArray = text.toList.utf8Encode := by
    rw [← String.toByteArray_ofList, String.ofList_toList]
  rw [utf8Bytes, String.toUTF8, hBytes, List.utf8Encode, List.data_toByteArray]

/-- Two lists of bytes differ first at a place that both have, and there the byte of the first is
smaller. -/
def PartBelow (a b : List UInt8) : Prop :=
  ∃ common x y as bs, a = common ++ x :: as ∧ b = common ++ y :: bs ∧ x < y

/-- What follows does not matter. -/
theorem PartBelow.append_lt {a b : List UInt8} (h : PartBelow a b) (c d : List UInt8) :
    a ++ c < b ++ d := by
  obtain ⟨common, x, y, as, bs, rfl, rfl, hLess⟩ := h
  rw [List.append_assoc, List.append_assoc]
  exact List.append_left_lt (List.cons_lt_cons_iff.mpr (.inl hLess))

/-- Bytes given as numbers are in order if the numbers are. -/
theorem ofNat_lt_ofNat {m n : Nat} (h : m < n) (hn : n < 256) : UInt8.ofNat m < UInt8.ofNat n := by
  rw [UInt8.lt_iff_toNat_lt, UInt8.toNat_ofNat', UInt8.toNat_ofNat']
  omega

theorem partBelow_of_head {m n : Nat} (as bs : List UInt8) (h : m < n) (hn : n < 256) :
    PartBelow (UInt8.ofNat m :: as) (UInt8.ofNat n :: bs) :=
  ⟨[], _, _, as, bs, rfl, rfl, ofNat_lt_ofNat h hn⟩

/-- Where the first bytes may be the same, the later ones decide. -/
theorem partBelow_of_tail {m n : Nat} {as bs : List UInt8} (h : m ≤ n) (hn : n < 256)
    (hTail : m = n → PartBelow as bs) : PartBelow (UInt8.ofNat m :: as) (UInt8.ofNat n :: bs) := by
  rcases Nat.lt_or_eq_of_le h with hLess | rfl
  · exact partBelow_of_head _ _ hLess hn
  · obtain ⟨common, x, y, as, bs, rfl, rfl, hByte⟩ := hTail rfl
    exact ⟨UInt8.ofNat m :: common, x, y, as, bs, rfl, rfl, hByte⟩

/-- **Characters in order have their bytes in order.**  A character of more bytes begins with a
larger one; between two of the same number of bytes their digits in base 64 decide. -/
theorem partBelow_of_lt {c d : Char} (h : c < d) :
    PartBelow (String.utf8EncodeChar c) (String.utf8EncodeChar d) := by
  have hLess : c.val.toNat < d.val.toNat := h
  have hMax : d.val.toNat < 1114112 := by
    rcases d.valid with hLow | ⟨-, hHigh⟩
    · exact Nat.lt_trans hLow (by decide)
    · exact hHigh
  unfold String.utf8EncodeChar
  simp only
  generalize c.val.toNat = m at hLess
  generalize d.val.toNat = n at hLess hMax
  by_cases hOne : n ≤ 127
  · rw [if_pos hOne, if_pos (show m ≤ 127 by omega)]
    exact partBelow_of_head _ _ hLess (by omega)
  rw [if_neg hOne]
  by_cases hTwo : n ≤ 2047
  · rw [if_pos hTwo]
    by_cases hFewer : m ≤ 127
    · rw [if_pos hFewer]
      exact partBelow_of_head _ _ (by omega) (by omega)
    · rw [if_neg hFewer, if_pos (show m ≤ 2047 by omega)]
      refine partBelow_of_tail (by omega) (by omega) fun hFirst => ?_
      exact partBelow_of_head _ _ (by omega) (by omega)
  rw [if_neg hTwo]
  by_cases hThree : n ≤ 65535
  · rw [if_pos hThree]
    by_cases hFewest : m ≤ 127
    · rw [if_pos hFewest]
      exact partBelow_of_head _ _ (by omega) (by omega)
    rw [if_neg hFewest]
    by_cases hFewer : m ≤ 2047
    · rw [if_pos hFewer]
      exact partBelow_of_head _ _ (by omega) (by omega)
    · rw [if_neg hFewer, if_pos (show m ≤ 65535 by omega)]
      refine partBelow_of_tail (by omega) (by omega) fun hFirst => ?_
      refine partBelow_of_tail (by omega) (by omega) fun hSecond => ?_
      exact partBelow_of_head _ _ (by omega) (by omega)
  · rw [if_neg hThree]
    by_cases hFewest : m ≤ 127
    · rw [if_pos hFewest]
      exact partBelow_of_head _ _ (by omega) (by omega)
    rw [if_neg hFewest]
    by_cases hFew : m ≤ 2047
    · rw [if_pos hFew]
      exact partBelow_of_head _ _ (by omega) (by omega)
    rw [if_neg hFew]
    by_cases hFewer : m ≤ 65535
    · rw [if_pos hFewer]
      exact partBelow_of_head _ _ (by omega) (by omega)
    · rw [if_neg hFewer]
      refine partBelow_of_tail (by omega) (by omega) fun hFirst => ?_
      refine partBelow_of_tail (by omega) (by omega) fun hSecond => ?_
      refine partBelow_of_tail (by omega) (by omega) fun hThird => ?_
      exact partBelow_of_head _ _ (by omega) (by omega)

/-- No character is without bytes. -/
theorem utf8EncodeChar_ne_nil (c : Char) : String.utf8EncodeChar c ≠ [] := by
  have hLength := String.length_utf8EncodeChar c
  intro hNil
  rw [hNil] at hLength
  exact absurd hLength (Nat.ne_of_lt c.utf8Size_pos)

/-- **Texts in order have their bytes in order.** -/
theorem utf8Bytes_lt_of_lt {a b : String} (h : a < b) : utf8Bytes a < utf8Bytes b := by
  rw [utf8Bytes_eq_flatMap, utf8Bytes_eq_flatMap]
  have hChars : a.toList < b.toList := String.lt_iff.mp h
  generalize a.toList = first at hChars
  generalize b.toList = second at hChars
  induction first generalizing second with
  | nil =>
      cases second with
      | nil => cases hChars
      | cons d rest =>
          obtain ⟨byte, more, hBytes⟩ := List.exists_cons_of_ne_nil (utf8EncodeChar_ne_nil d)
          rw [List.flatMap_cons, hBytes]
          exact List.nil_lt_cons _ _
  | cons c rest ih =>
      cases second with
      | nil => cases hChars
      | cons d others =>
          rw [List.flatMap_cons, List.flatMap_cons]
          rcases List.cons_lt_cons_iff.mp hChars with hLess | ⟨rfl, hRest⟩
          · exact (partBelow_of_lt hLess).append_lt _ _
          · exact List.append_left_lt (ih _ hRest)

end Leasehold
