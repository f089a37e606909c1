import Mathlib.Data.Nat.Bitwise

/-!
# The highest bit of a number

A number is smeared to the right when each bit that is set is copied to all lower places. This is done
with shifts of 1, 2, 4, and so on; from the result the highest bit is found by one more shift.
-/

namespace IotDeviceSdk.Infra

/-- Each bit of `v` has been copied to the `n - 1` places below it. -/
def Smeared (n v u : Nat) : Prop := ∀ i, u.testBit i = true ↔ ∃ j, j < n ∧ v.testBit (i + j) = true

namespace Smeared

variable {n v u : Nat}

theorem one (v : Nat) : Smeared 1 v v := fun i => by
  constructor
  · intro h
    exact ⟨0, Nat.one_pos, h⟩
  · rintro ⟨j, hj, h⟩
    obtain rfl := Nat.lt_one_iff.mp hj
    exact h

/-- One step: the places are doubled. -/
theorem double (h : Smeared n v u) : Smeared (2 * n) v (u ||| u >>> n) := fun i => by
  rw [Nat.testBit_or, Nat.testBit_shiftRight, Bool.or_eq_true, h i, h (n + i)]
  constructor
  · rintro (⟨j, hj, hv⟩ | ⟨j, hj, hv⟩)
    · exact ⟨j, by omega, hv⟩
    · refine ⟨n + j, by omega, ?_⟩
      rwa [← Nat.add_assoc, Nat.add_comm i n]
  · rintro ⟨j, hj, hv⟩
    by_cases hlt : j < n
    · exact .inl ⟨j, hlt, hv⟩
    · refine .inr ⟨j - n, by omega, ?_⟩
      rwa [show n + i + (j - n) = i + j by omega]

/-- All places below the highest bit are set. -/
theorem testBit (h : Smeared n v u) (hv : v < 2 ^ n) (hne : v ≠ 0) (i : Nat) :
    u.testBit i = decide (i ≤ v.log2) := by
  rw [Bool.eq_iff_iff, h i, decide_eq_true_iff]
  constructor
  · rintro ⟨j, -, hj⟩
    by_contra hlt
    have hzero : v.testBit (i + j) = false := by
      refine Nat.testBit_lt_two_pow (Nat.lt_of_lt_of_le Nat.lt_log2_self ?_)
      exact Nat.pow_le_pow_right (by decide) (by omega)
    rw [hj] at hzero
    cases hzero
  · intro hi
    refine ⟨v.log2 - i, ?_, ?_⟩
    · have hlog : v.log2 < n := (Nat.log2_lt hne).mpr hv
      omega
    · rw [Nat.add_sub_cancel' hi]
      exact Nat.testBit_log2 hne

/-- **The highest bit** is the one that is set and has none above it. -/
theorem highestBit (h : Smeared n v u) (hv : v < 2 ^ n) (hne : v ≠ 0) {w : Nat}
    (hw : ∀ i, w.testBit i = (u.testBit i && !u.testBit (i + 1))) : w = 2 ^ v.log2 := by
  refine Nat.eq_of_testBit_eq fun i => ?_
  rw [hw, h.testBit hv hne, h.testBit hv hne, Nat.testBit_two_pow, ← decide_not, ← Bool.decide_and,
    decide_eq_decide]
  omega

end Smeared

end IotDeviceSdk.Infra
