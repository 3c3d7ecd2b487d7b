import Mathlib.Data.List.Basic

/-!
# Selected entries of a list

A list is filtered by a test.  An entry that passes has a place in the list and another one in
the filtered list, and what is done to the list at the one place is done to the filtered list at
the other.

* `rank`, `place?`: the place of an entry in the filtered list.
* `getElem?_rank`, `filter_set_of_pos`, `filter_eraseIdx_of_pos`: an entry that passes is read,
  replaced or removed at its rank.
* `filter_set_of_neg`, `filter_eraseIdx_of_neg`: an entry that does not pass is not in the way.
-/

namespace Leasehold

variable {α : Type} {p : α → Bool} {l : List α} {i : Nat} {a b : α}

/-- How many entries before a place pass a test. -/
def rank (p : α → Bool) (l : List α) (i : Nat) : Nat := ((l.take i).filter p).length

/-- The place of an entry among those that pass a test, if it passes. -/
def place? (p : α → Bool) (l : List α) (i : Nat) : Option Nat :=
  l[i]?.bind fun a => if p a then some (rank p l i) else none

theorem place?_of_pos (h : l[i]? = some a) (ha : p a = true) :
    place? p l i = some (rank p l i) := by
  simp only [place?, h, Option.bind_some, ha, if_true]

theorem place?_of_neg (h : l[i]? = some a) (ha : p a = false) : place? p l i = none := by
  simp only [place?, h, Option.bind_some, ha, Bool.false_eq_true, if_false]

/-- A list around one of its entries. -/
theorem eq_take_append_cons_drop (h : l[i]? = some a) : l = l.take i ++ a :: l.drop (i + 1) := by
  obtain ⟨hBound, rfl⟩ := List.getElem?_eq_some_iff.mp h
  rw [← List.drop_eq_getElem_cons hBound, List.take_append_drop]

theorem filter_eq_of_pos (h : l[i]? = some a) (ha : p a = true) :
    l.filter p = (l.take i).filter p ++ a :: (l.drop (i + 1)).filter p := by
  conv_lhs => rw [eq_take_append_cons_drop h, List.filter_append, List.filter_cons_of_pos ha]

theorem filter_eq_of_neg (h : l[i]? = some a) (ha : p a = false) :
    l.filter p = (l.take i).filter p ++ (l.drop (i + 1)).filter p := by
  conv_lhs =>
    rw [eq_take_append_cons_drop h, List.filter_append,
      List.filter_cons_of_neg (Bool.eq_false_iff.mp ha)]

/-- An entry that passes is found at its rank. -/
theorem getElem?_rank (h : l[i]? = some a) (ha : p a = true) :
    (l.filter p)[rank p l i]? = some a := by
  rw [filter_eq_of_pos h ha, rank, List.getElem?_append_right (Nat.le_refl _), Nat.sub_self]
  rfl

theorem set_eq_of_getElem? (h : l[i]? = some a) (b : α) :
    l.set i b = l.take i ++ b :: l.drop (i + 1) := by
  obtain ⟨hBound, -⟩ := List.getElem?_eq_some_iff.mp h
  exact List.set_eq_take_cons_drop b hBound

/-- What an entry is replaced by can be read off the list. -/
theorem eq_of_set_eq {c : α} (h : l[i]? = some a) (hSet : l.set i b = l.set i c) : b = c := by
  obtain ⟨hBound, -⟩ := List.getElem?_eq_some_iff.mp h
  have hSame := congrArg (·[i]?) hSet
  simp only [List.getElem?_set_self hBound, Option.some.injEq] at hSame
  exact hSame

/-- An entry that passes is replaced at its rank, -/
theorem filter_set_of_pos (h : l[i]? = some a) (ha : p a = true) (hb : p b = true) :
    (l.set i b).filter p = (l.filter p).set (rank p l i) b := by
  rw [set_eq_of_getElem? h, filter_eq_of_pos h ha, List.filter_append,
    List.filter_cons_of_pos hb, rank, List.set_append_right _ _ (Nat.le_refl _), Nat.sub_self]
  rfl

/-- and removed there. -/
theorem filter_eraseIdx_of_pos (h : l[i]? = some a) (ha : p a = true) :
    (l.eraseIdx i).filter p = (l.filter p).eraseIdx (rank p l i) := by
  rw [List.eraseIdx_eq_take_drop_succ, List.filter_append, filter_eq_of_pos h ha, rank,
    List.eraseIdx_append_of_length_le (Nat.le_refl _), Nat.sub_self]
  rfl

/-- An entry that does not pass can be replaced by another one, -/
theorem filter_set_of_neg (h : l[i]? = some a) (ha : p a = false) (hb : p b = false) :
    (l.set i b).filter p = l.filter p := by
  rw [set_eq_of_getElem? h, filter_eq_of_neg h ha, List.filter_append,
    List.filter_cons_of_neg (Bool.eq_false_iff.mp hb)]

/-- or removed. -/
theorem filter_eraseIdx_of_neg (h : l[i]? = some a) (ha : p a = false) :
    (l.eraseIdx i).filter p = l.filter p := by
  rw [List.eraseIdx_eq_take_drop_succ, List.filter_append, ← filter_eq_of_neg h ha]

end Leasehold
