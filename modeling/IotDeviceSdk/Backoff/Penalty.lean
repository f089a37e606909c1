import IotDeviceSdk.Backoff.Status
import Mathlib.Algebra.Group.Nat.Defs
import Mathlib.Algebra.Order.Group.Abs
import Mathlib.Algebra.Order.Group.Int
import Mathlib.Data.List.GetD

/-!
# The jitter of a penalty (`iotc_get_backoff_penalty`)

With `p` the value before that at the index, the penalty is the value at the index plus a number from
0 to `p`, less half of `p`. For an odd `p` the half is rounded down, and the number `p` takes the penalty
to one more than half of `p` above the value.
-/

namespace IotDeviceSdk.Backoff

variable {lut : List UInt32} {i : Int8} {rng : UInt32}

/-- A table of a backoff: it does not decrease, and its values are below `2 ^ 30`. -/
structure Sloped (lut : List UInt32) : Prop where
  pairwise : lut.Pairwise (· ≤ ·)
  lt : ∀ v ∈ lut, v.toNat < 2 ^ 30

/-- The index that the jitter is taken from. -/
def prevIndex (i : Int8) : Nat := i.toInt.toNat - 1

/-- The value at an index of the table. -/
def value (lut : List UInt32) (i : Nat) : Nat := (lut.getD i 0).toNat

/-- **What is claimed of a penalty**: it is computed, and it is at least the first value of the table and
within the window that the tests check. -/
def InWindow (lut : List UInt32) (i : Int8) (rng : UInt32) : Prop :=
  ∃ penalty, getBackoffPenalty lut i rng = some penalty ∧ value lut 0 ≤ penalty.toNat ∧
    |(penalty.toNat : Int) - value lut i.toInt.toNat| ≤ max ((value lut (prevIndex i) / 2 : Nat) : Int) 1

/-- The random number takes the penalty out of the window. -/
def Overshoots (lut : List UInt32) (i : Int8) (rng : UInt32) : Prop :=
  0 < i.toInt ∧ value lut (prevIndex i) % 2 = 1 ∧ 3 ≤ value lut (prevIndex i) ∧
    rng.toNat % (value lut (prevIndex i) + 1) = value lut (prevIndex i)

instance (lut : List UInt32) (i : Int8) (rng : UInt32) : Decidable (Overshoots lut i rng) :=
  inferInstanceAs (Decidable (_ ∧ _))

/-! ## Values of 32 bits -/

theorem toInt32_toInt {v : UInt32} (h : v.toNat < 2 ^ 31) : v.toInt32.toInt = v.toNat := by
  rw [UInt32.toInt32, Int32.toInt]
  change v.toBitVec.toInt = _
  rw [BitVec.toInt_eq_toNat_of_lt]
  · rfl
  · change 2 * v.toNat < 2 ^ 32
    omega

theorem ofInt_toNat {n : Int} (h0 : 0 ≤ n) (h : n < 2 ^ 32) : ((UInt32.ofInt n).toNat : Int) = n := by
  rw [UInt32.ofInt, Int.emod_eq_of_lt h0 h, UInt32.toNat_ofNat', Nat.mod_eq_of_lt (by omega)]
  exact Int.toNat_of_nonneg h0

theorem int32_eq {n : Int} (h0 : -2 ^ 31 ≤ n) (h : n < 2 ^ 31) : int32 n = some n :=
  if_pos ⟨h0, h⟩

/-- An index that is not negative is the number in the table. -/
theorem entry_eq (lut : List UInt32) {n : Int} (h0 : 0 ≤ n) (h : n < lut.length) :
    ∃ v, entry lut n = some v ∧ v ∈ lut ∧ v.toNat = value lut n.toNat := by
  have hlt : n.toNat < lut.length := by omega
  refine ⟨lut[n.toNat], ?_, List.getElem_mem hlt, ?_⟩
  · rw [entry, if_pos h0, List.getElem?_eq_getElem hlt]
  · rw [value, List.getD_eq_getElem _ _ hlt]

theorem Sloped.value_lt (hs : Sloped lut) {k : Nat} (hk : k < lut.length) :
    value lut k < 2 ^ 30 := by
  rw [value, List.getD_eq_getElem _ _ hk]
  exact hs.lt _ (List.getElem_mem hk)

theorem Sloped.value_mono (hs : Sloped lut) {j k : Nat} (hjk : j ≤ k) (hk : k < lut.length) :
    value lut j ≤ value lut k := by
  have hj : j < lut.length := Nat.lt_of_le_of_lt hjk hk
  rw [value, value, List.getD_eq_getElem _ _ hj, List.getD_eq_getElem _ _ hk]
  rcases Nat.lt_or_eq_of_le hjk with hlt | rfl
  · exact UInt32.le_iff_toNat_le.mp (List.pairwise_iff_getElem.mp hs.pairwise j k hj hk hlt)
  · exact Nat.le_refl _

/-! ## The penalty as a number -/

/-- The range of the random number. -/
def fullRange (lut : List UInt32) (i : Int8) : Nat :=
  if i.toInt = 0 then 0 else value lut (prevIndex i)

/-- **The penalty is computed without overflow**, and is this number. -/
theorem getBackoffPenalty_eq (rng : UInt32) (hs : Sloped lut) (h0 : 0 ≤ i.toInt) (hi : i.toInt < lut.length) :
    ∃ penalty, getBackoffPenalty lut i rng = some penalty ∧
      (penalty.toNat : Int) =
        max ((value lut i.toInt.toNat : Int) + (rng.toNat % (fullRange lut i + 1) : Nat) -
          max ((fullRange lut i / 2 : Nat) : Int) 1) (value lut 0) := by
  have hlt : i.toInt < 2 ^ 7 := Int8.toInt_lt i
  have hprev : (Int8.ofInt (max (i.toInt - 1) 0)).toInt = max (i.toInt - 1) 0 :=
    Int8.toInt_ofInt_of_le (by omega) (by omega)
  have hindex : (max (i.toInt - 1) 0).toNat = prevIndex i := by
    unfold prevIndex
    omega
  have hk : i.toInt.toNat < lut.length := by omega
  have hpk : prevIndex i ≤ i.toInt.toNat := Nat.sub_le ..
  have hpos : 0 ≤ max (i.toInt - 1) 0 := Int.le_max_right ..
  obtain ⟨p, hp, hpm, hpv⟩ := entry_eq lut hpos (by omega)
  obtain ⟨b, hb, hbm, hbv⟩ := entry_eq lut h0 hi
  obtain ⟨f, hf, hfm, hfv⟩ := entry_eq lut (Int.le_refl 0) (by omega)
  have hplt := hs.lt p hpm
  have hblt := hs.lt b hbm
  have hflt := hs.lt f hfm
  rw [hindex] at hpv
  have hzero : i = 0 ↔ i.toInt = 0 := by
    rw [← Int8.toInt_inj]
    rfl
  have hrange : (if i = 0 then 0 else p.toInt32.toInt) = (fullRange lut i : Int) := by
    rw [toInt32_toInt (by omega), hpv, fullRange]
    by_cases h : i.toInt = 0
    · rw [if_pos (hzero.mpr h), if_pos h]
      rfl
    · rw [if_neg fun h' => h (hzero.mp h'), if_neg h]
  have hfull : fullRange lut i < 2 ^ 30 := by
    unfold fullRange
    split
    · decide
    · omega
  have hmod : (UInt32.ofInt ((fullRange lut i : Int) + 1)).toNat = fullRange lut i + 1 := by
    have := ofInt_toNat (n := (fullRange lut i : Int) + 1) (by omega) (by omega)
    omega
  have hne : UInt32.ofInt ((fullRange lut i : Int) + 1) ≠ 0 := fun h => by
    rw [h] at hmod
    cases hmod
  have hr : (rng % UInt32.ofInt ((fullRange lut i : Int) + 1)).toNat =
      rng.toNat % (fullRange lut i + 1) := by
    rw [UInt32.toNat_mod, hmod]
  have hrlt : rng.toNat % (fullRange lut i + 1) < fullRange lut i + 1 := Nat.mod_lt _ (by omega)
  have hhalf : Int.tdiv (fullRange lut i : Int) 2 = (fullRange lut i / 2 : Nat) := rfl
  have hvalue := hs.value_mono (Nat.zero_le i.toInt.toNat) hk
  refine ⟨UInt32.ofInt (max ((value lut i.toInt.toNat : Int) +
    (rng.toNat % (fullRange lut i + 1) : Nat) - max ((fullRange lut i / 2 : Nat) : Int) 1) (value lut 0)),
    ?_, ?_⟩
  · unfold getBackoffPenalty
    simp only [hprev, hp, hb, hf, hrange, hhalf, Option.bind_eq_bind, Option.bind_some]
    rw [int32_eq (by omega) (by omega), Option.bind_some, if_neg hne,
      toInt32_toInt (by omega : b.toNat < 2 ^ 31), toInt32_toInt (by omega : f.toNat < 2 ^ 31),
      toInt32_toInt (by omega), hr, hbv, hfv, int32_eq (by omega) (by omega), Option.bind_some,
      int32_eq (by omega) (by omega), Option.bind_some]
    rfl
  · exact ofInt_toNat (by omega) (by omega)

/-! ## The window -/

/-- **The window of the penalty**: for each table, each index into it and each random number, the penalty
is in the window exactly if the number does not take it out of that. -/
theorem penalty_inWindow_iff (lut : List UInt32) (i : Int8) (rng : UInt32) (hs : Sloped lut)
    (h0 : 0 ≤ i.toInt) (hi : i.toInt < lut.length) :
    InWindow lut i rng ↔ ¬Overshoots lut i rng := by
  obtain ⟨penalty, hpenalty, heq⟩ := getBackoffPenalty_eq rng hs h0 hi
  have hk : i.toInt.toNat < lut.length := by omega
  have hfirst := hs.value_mono (Nat.zero_le i.toInt.toNat) hk
  have hprev := hs.value_mono (j := prevIndex i) (Nat.sub_le ..) hk
  have hrlt : rng.toNat % (fullRange lut i + 1) < fullRange lut i + 1 := Nat.mod_lt _ (by omega)
  have hwindow : InWindow lut i rng ↔
      |(penalty.toNat : Int) - value lut i.toInt.toNat| ≤
        max ((value lut (prevIndex i) / 2 : Nat) : Int) 1 := by
    constructor
    · rintro ⟨q, hq, -, h⟩
      obtain rfl := Option.some.inj (hpenalty.symm.trans hq)
      exact h
    · intro h
      exact ⟨penalty, hpenalty, by omega, h⟩
  rw [hwindow, abs_le, Overshoots]
  by_cases hzero : i.toInt = 0
  · -- the penalty at index 0 is the first value
    have hfull : fullRange lut i = 0 := if_pos hzero
    simp only [hfull] at heq hrlt
    have hsame : i.toInt.toNat = 0 := by omega
    rw [hsame] at heq ⊢
    omega
  · have hfull : fullRange lut i = value lut (prevIndex i) := if_neg hzero
    rw [hfull] at heq hrlt
    generalize hr : rng.toNat % (value lut (prevIndex i) + 1) = r at heq hrlt ⊢
    omega

/-- The second value of a table of two. -/
theorem penalty_inWindow_iff_even : InWindow [4, 8] 1 9 :=
  (penalty_inWindow_iff [4, 8] 1 9 ⟨by decide, by simp⟩ (by decide) (by decide)).mpr (by decide)

/-- **An odd value before the index.** With 3 the penalty can be 2 above the value, where the half of 3
is 1. -/
theorem penalty_inWindow_iff_fails :
    Sloped [3, 5] ∧ getBackoffPenalty [3, 5] 1 3 = some 7 ∧ ¬InWindow [3, 5] 1 3 := by
  refine ⟨⟨by decide, by simp⟩, by decide, ?_⟩
  rintro ⟨penalty, hpenalty, -, h⟩
  obtain rfl : 7 = penalty := Option.some.inj hpenalty
  exact absurd h (by decide)

end IotDeviceSdk.Backoff
