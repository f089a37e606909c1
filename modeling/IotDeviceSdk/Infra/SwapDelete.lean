import Mathlib.Data.List.Basic
import Mathlib.Data.List.Perm.Basic

/-!
# Deletion that puts the last element into the gap

A list that is kept in an array, and whose order does not matter, is shortened in constant time: the
last element goes to the place of the one that is deleted.

* `swapDelete` deletes one element.
* `swapFilter` tests the elements from the last to the first and deletes those that meet a predicate.
-/

namespace IotDeviceSdk.Infra

variable {α : Type*}

/-- A list is what is before an index, the element there, and what is behind. -/
theorem exists_eq_append_cons {l : List α} {i : Nat} (h : i < l.length) :
    ∃ left a right, l = left ++ a :: right ∧ left.length = i :=
  ⟨l.take i, l[i], l.drop (i + 1), by rw [List.getElem_cons_drop, List.take_append_drop],
    List.length_take_of_le (Nat.le_of_lt h)⟩

/-- The last element becomes the first. -/
def lastToFront (l : List α) : List α :=
  match l.getLast? with
  | none => []
  | some z => z :: l.dropLast

@[simp] theorem lastToFront_nil : lastToFront ([] : List α) = [] := rfl

@[simp] theorem lastToFront_concat (l : List α) (z : α) : lastToFront (l ++ [z]) = z :: l := by
  simp [lastToFront]

theorem lastToFront_perm (l : List α) : (lastToFront l).Perm l := by
  rcases List.eq_nil_or_concat l with rfl | ⟨l, z, rfl⟩
  · rfl
  · rw [List.concat_eq_append, lastToFront_concat]
    exact (List.perm_append_singleton z l).symm

/-- The element at `i` is deleted, and the last one takes its place. -/
def swapDelete (l : List α) (i : Nat) : List α := l.take i ++ lastToFront (l.drop (i + 1))

/-- Behind the end there is nothing to delete. -/
theorem swapDelete_of_le {l : List α} {i : Nat} (h : l.length ≤ i) : swapDelete l i = l := by
  rw [swapDelete, List.take_of_length_le h, List.drop_eq_nil_of_le (by omega), lastToFront_nil,
    List.append_nil]

theorem swapDelete_append_cons (l r : List α) (a : α) :
    swapDelete (l ++ a :: r) l.length = l ++ lastToFront r := by
  rw [swapDelete, List.take_left, ← List.drop_drop, List.drop_left, List.drop_one, List.tail_cons]

/-- One occurrence of the element goes. -/
theorem swapDelete_perm {l : List α} {i : Nat} {a : α} (h : l[i]? = some a) :
    l.Perm (a :: swapDelete l i) := by
  obtain ⟨hi, rfl⟩ := List.getElem?_eq_some_iff.1 h
  have hsplit : l = l.take i ++ l[i] :: l.drop (i + 1) := by
    rw [List.getElem_cons_drop, List.take_append_drop]
  have hfront : (l.take i ++ l[i] :: l.drop (i + 1)).Perm (l[i] :: (l.take i ++ l.drop (i + 1))) :=
    List.perm_middle
  have hlast : (l.take i ++ l.drop (i + 1)).Perm (swapDelete l i) :=
    (lastToFront_perm _).symm.append_left _
  exact (List.Perm.of_eq hsplit).trans (hfront.trans (hlast.cons _))

theorem length_swapDelete {l : List α} {i : Nat} (h : i < l.length) :
    (swapDelete l i).length + 1 = l.length :=
  (swapDelete_perm (List.getElem?_eq_getElem h)).length_eq.symm

/-- What is where after a deletion: the last element at the place of the deleted one, everything else
where it was. -/
theorem getElem?_swapDelete {l : List α} {i : Nat} (h : i < l.length) (j : Nat) :
    (swapDelete l i)[j]? =
      if j + 1 < l.length then (if j = i then l[l.length - 1]? else l[j]?) else none := by
  obtain ⟨left, a, right, rfl, rfl⟩ := exists_eq_append_cons h
  rw [swapDelete_append_cons]
  rcases List.eq_nil_or_concat right with rfl | ⟨r, z, rfl⟩
  · rw [lastToFront_nil, List.append_nil, List.length_append, List.length_singleton]
    by_cases hj : j < left.length
    · rw [if_pos (by omega), if_neg (by omega), List.getElem?_append_left hj]
    · rw [if_neg (by omega), List.getElem?_eq_none (by omega)]
  · rw [List.concat_eq_append, lastToFront_concat]
    have hlength : (left ++ a :: (r ++ [z])).length = left.length + r.length + 2 := by
      simp only [List.length_append, List.length_cons, List.length_nil]
      omega
    rw [hlength]
    by_cases hj : j < left.length
    · rw [if_pos (by omega), if_neg (by omega), List.getElem?_append_left hj,
        List.getElem?_append_left hj]
    · obtain ⟨k, rfl⟩ := Nat.exists_eq_add_of_le (Nat.not_lt.1 hj)
      rw [List.getElem?_append_right (by omega), Nat.add_sub_cancel_left]
      cases k with
      | zero =>
        have hlast : left.length + r.length + 2 - 1 = left.length + (r.length + 1) := by omega
        rw [if_pos (by omega), if_pos (by omega), hlast, List.getElem?_append_right (by omega)]
        simp
      | succ k =>
        rw [if_neg (show left.length + (k + 1) ≠ left.length by omega), List.getElem?_cons_succ]
        by_cases hk : k < r.length
        · rw [if_pos (by omega), List.getElem?_append_right (by omega), Nat.add_sub_cancel_left,
            List.getElem?_cons_succ, List.getElem?_append_left hk]
        · rw [if_neg (by omega), List.getElem?_eq_none (by omega)]

/-- From the last element to the first, those that meet the predicate are deleted. -/
def swapFilter (p : α → Bool) (l : List α) : List α :=
  l.foldr (fun a r => if p a then lastToFront r else a :: r) []

/-- Up to the order, what stays is what does not meet the predicate. -/
theorem swapFilter_perm (p : α → Bool) (l : List α) :
    (swapFilter p l).Perm (l.filter fun a => !p a) := by
  induction l with
  | nil => exact .refl _
  | cons a l ih =>
    have hcons : swapFilter p (a :: l) = if p a then lastToFront (swapFilter p l)
      else a :: swapFilter p l := rfl
    rw [hcons]
    cases hp : p a with
    | true => simpa [hp] using (lastToFront_perm _).trans ih
    | false => simpa [hp] using ih

end IotDeviceSdk.Infra
