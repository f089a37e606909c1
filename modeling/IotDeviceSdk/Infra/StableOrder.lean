import Mathlib.Data.List.DropRight
import Mathlib.Data.List.Pairwise
import Mathlib.Order.Lattice

/-!
# Putting one element in its place in a sorted list

An element sinks past the elements just below it with a larger key, or rises past those just above
it with a smaller key. Neither step changes the order of the others, so that elements of equal
keys keep the order in which they came.

* `sink_perm`, `rise_perm` — the elements stay the same
* `sorted_insert` — the result is sorted, when what was passed and what was not are on the right side
-/

namespace IotDeviceSdk.Infra

variable {α β : Type*} [LinearOrder β] {t : α → β} {L R P S : List α} {e x : α} {b : β}

/-! ## The elements stay the same -/

theorem sink_perm (p : α → Bool) :
    (L.rdropWhile p ++ e :: (L.rtakeWhile p ++ R)).Perm (L ++ e :: R) :=
  calc (L.rdropWhile p ++ e :: (L.rtakeWhile p ++ R)).Perm
        (e :: (L.rdropWhile p ++ (L.rtakeWhile p ++ R))) := List.perm_middle
    _ = e :: (L ++ R) := by rw [← List.append_assoc, List.rdropWhile_append_rtakeWhile]
    List.Perm _ (L ++ e :: R) := List.perm_middle.symm

theorem rise_perm (p : α → Bool) :
    (L ++ R.takeWhile p ++ e :: R.dropWhile p).Perm (L ++ e :: R) :=
  calc (L ++ R.takeWhile p ++ e :: R.dropWhile p).Perm
        (e :: (L ++ R.takeWhile p ++ R.dropWhile p)) := List.perm_middle
    _ = e :: (L ++ R) := by rw [List.append_assoc, List.takeWhile_append_dropWhile]
    List.Perm _ (L ++ e :: R) := List.perm_middle.symm

/-! ## What is passed and what is not -/

theorem le_of_mem_rdropWhile (hs : L.Pairwise fun a b => t a ≤ t b)
    (hx : x ∈ L.rdropWhile fun y => b < t y) : t x ≤ b := by
  have hne : L.rdropWhile (fun y => decide (b < t y)) ≠ [] := List.ne_nil_of_mem hx
  have hlast : t ((L.rdropWhile fun y => decide (b < t y)).getLast hne) ≤ b := by
    have := List.rdropWhile_last_not (fun y => decide (b < t y)) L hne
    simpa using this
  have hsorted : (L.rdropWhile fun y => decide (b < t y)).Pairwise fun a b => t a ≤ t b :=
    hs.sublist (List.rdropWhile_prefix _ _).sublist
  have hxlast : t x ≤ t ((L.rdropWhile fun y => decide (b < t y)).getLast hne) :=
    hsorted.rel_getLast hx
  exact hxlast.trans hlast

theorem lt_of_mem_rtakeWhile (hx : x ∈ L.rtakeWhile fun y => b < t y) : b < t x := by
  simpa using List.mem_rtakeWhile_imp hx

theorem lt_of_mem_takeWhile (hx : x ∈ R.takeWhile fun y => t y < b) : t x < b := by
  simpa using List.mem_takeWhile_imp hx

theorem le_of_mem_dropWhile : ∀ {R : List α}, (R.Pairwise fun a b => t a ≤ t b) →
    x ∈ R.dropWhile (fun y => t y < b) → b ≤ t x
  | [], _, hx => by simp at hx
  | a :: R, hs, hx => by
    rw [List.pairwise_cons] at hs
    by_cases ha : t a < b
    · rw [List.dropWhile_cons_of_pos (by simpa using ha)] at hx
      exact le_of_mem_dropWhile hs.2 hx
    · rw [List.dropWhile_cons_of_neg (by simpa using ha)] at hx
      rcases List.mem_cons.mp hx with rfl | hx
      · exact not_lt.mp ha
      · exact (not_lt.mp ha).trans (hs.1 x hx)

theorem sorted_insert (hs : (P ++ S).Pairwise fun a b => t a ≤ t b)
    (hP : ∀ x ∈ P, t x ≤ t e) (hS : ∀ x ∈ S, t e ≤ t x) :
    (P ++ e :: S).Pairwise fun a b => t a ≤ t b := by
  rw [List.pairwise_append] at hs ⊢
  refine ⟨hs.1, List.pairwise_cons.mpr ⟨hS, hs.2.1⟩, ?_⟩
  intro a ha b hb
  rcases List.mem_cons.mp hb with rfl | hb
  · exact hP a ha
  · exact hs.2.2 a ha b hb

end IotDeviceSdk.Infra
