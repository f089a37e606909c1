import IotDeviceSdk.Datastructures.Vector

/-!
# The vector with its cells (`iotc_vector.c`)

`iotc_vector_remove_if` with the whole array, of which the first `elem_no` cells are live. A failing
assertion and an access outside of the array have no result; neither have more tests of the loop than it
may make.

`removeIf_toVector` says that the live cells are the vector of `IotcVector`.
-/

namespace IotDeviceSdk.Datastructures

open Infra

open IotcVector (toIndexType)

/-- `iotc_vector_t` -/
structure VectorCells (α : Type*) where
  array : List α
  elemNo : Int
  capacity : Int
  memoryType : MemoryType
  deriving DecidableEq, Repr

namespace VectorCells

variable {α : Type*}

/-- `vector->array[i]` -/
def get (v : VectorCells α) (i : Int) : Option α := if 0 ≤ i then v.array[i.toNat]? else none

/-- `vector->array[i] = value` -/
def set (v : VectorCells α) (i : Int) (value : α) : Option (VectorCells α) :=
  if 0 ≤ i ∧ i < v.array.length then some { v with array := v.array.set i.toNat value } else none

/-- `iotc_vector_swap_elems` -/
def swapElems (v : VectorCells α) (i0 i1 : Int) : Option (VectorCells α) :=
  if 0 ≤ i0 ∧ 0 ≤ i1 ∧ i0 ≤ v.elemNo - 1 ∧ i1 ≤ v.elemNo - 1 then do
    let tmpValue ← v.get i0
    let value ← v.get i1
    let v ← v.set i0 value
    v.set i1 tmpValue
  else none

/-- `iotc_vector_del`. `zero` is the value of a cell that `memset` has cleared. -/
def del (zero : α) (v : VectorCells α) (index : Int) : Option (VectorCells α) :=
  if 0 ≤ index ∧ 0 < v.elemNo ∧ index < v.elemNo then
    (if index ≠ v.elemNo - 1 then v.swapElems index (toIndexType (v.elemNo - 1)) else some v).bind
      fun v => { v with elemNo := toIndexType (v.elemNo - 1) }.set (toIndexType (v.elemNo - 1)) zero
  else none

/-- The loop of `iotc_vector_remove_if` from `i` on, with the elements that the predicate is evaluated
on. -/
def removeIfFrom (zero : α) (funPred : α → Int) : Nat → VectorCells α → Int →
    Option (VectorCells α × List α)
  | 0, _, _ => none
  | fuel + 1, v, i =>
    if 0 ≤ i then
      (v.get i).bind fun elem =>
        (if funPred elem = 1 then v.del zero i else some v).bind fun v =>
          (removeIfFrom zero funPred fuel v (toIndexType (i - 1))).map fun w => (w.1, elem :: w.2)
    else some (v, [])

/-- `iotc_vector_remove_if` -/
def removeIf (zero : α) (fuel : Nat) (v : VectorCells α) (funPred : α → Int) :
    Option (VectorCells α × List α) :=
  removeIfFrom zero funPred fuel v (toIndexType (v.elemNo - 1))

/-! ## Live cells -/

/-- The elements of the vector. -/
def live (v : VectorCells α) : List α := v.array.take v.elemNo.toNat

/-- The vector without the cells behind its elements. -/
def toVector (v : VectorCells α) : IotcVector α :=
  { array := v.live, capacity := v.capacity, memoryType := v.memoryType }

/-- The sizes that an index type admits: there are as many cells as `capacity` says, and the elements are
in them. -/
structure Admitted (v : VectorCells α) : Prop where
  elemNo_nonneg : 0 ≤ v.elemNo
  elemNo_le : v.elemNo ≤ v.capacity
  capacity_le : v.capacity ≤ 127
  length_array : v.array.length = v.capacity

variable {v w : VectorCells α} {a : α} {l r : List α}

theorem Admitted.length_live (h : v.Admitted) : (v.live.length : Int) = v.elemNo := by
  have h0 := h.elemNo_nonneg
  have hle := h.elemNo_le
  have hlength := h.length_array
  rw [live, List.length_take]
  omega

/-- A number of 8 bits stays as it is. -/
theorem toIndexType_of_le {n : Int} (hlo : -128 ≤ n) (hhi : n ≤ 127) : toIndexType n = n := by
  unfold toIndexType
  rw [Int.bmod_def]
  split <;> omega

theorem getElem?_live (v : VectorCells α) (j : Nat) :
    v.live[j]? = if (j : Int) < v.elemNo then v.array[j]? else none := by
  rw [live, List.getElem?_take]
  by_cases hj : (j : Int) < v.elemNo
  · rw [if_pos (by omega), if_pos hj]
  · rw [if_neg (by omega), if_neg hj]

/-- What the two vectors share when one has been made from the other. -/
structure Keeps (v w : VectorCells α) : Prop where
  capacity : w.capacity = v.capacity
  memoryType : w.memoryType = v.memoryType
  behind : ∀ j : Nat, v.elemNo ≤ j → w.array[j]? = v.array[j]?

theorem Keeps.refl (v : VectorCells α) : v.Keeps v := ⟨rfl, rfl, fun _ _ => rfl⟩

theorem Keeps.trans {u : VectorCells α} (h : v.Keeps w) (hle : w.elemNo ≤ v.elemNo) (h' : w.Keeps u) :
    v.Keeps u :=
  ⟨h'.capacity.trans h.capacity, h'.memoryType.trans h.memoryType,
    fun j hj => (h'.behind j (Int.le_trans hle hj)).trans (h.behind j hj)⟩

/-! ## Swapping and deleting -/

theorem get_natCast (v : VectorCells α) (i : Nat) : v.get i = v.array[i]? := by
  rw [get, if_pos (Int.natCast_nonneg i), Int.toNat_natCast]

theorem set_natCast {i : Nat} (hi : i < v.array.length) (value : α) :
    v.set i value = some { v with array := v.array.set i value } := by
  rw [set, if_pos ⟨Int.natCast_nonneg i, Int.ofNat_lt.2 hi⟩, Int.toNat_natCast]

/-- Two elements change their places. -/
theorem swapElems_eq (h : v.Admitted) {i j : Nat} (hi : (i : Int) < v.elemNo)
    (hj : (j : Int) < v.elemNo) :
    ∃ array, v.swapElems i j = some { v with array } ∧ array.length = v.array.length ∧
      ∀ k, array[k]? = if k = j then v.array[i]? else if k = i then v.array[j]? else v.array[k]? := by
  have hle := h.elemNo_le
  have hlength := h.length_array
  have hi' : i < v.array.length := by omega
  have hj' : j < v.array.length := by omega
  refine ⟨(v.array.set i v.array[j]).set j v.array[i], ?_, by simp, fun k => ?_⟩
  · rw [swapElems, if_pos (by omega), get_natCast, get_natCast, List.getElem?_eq_getElem hi',
      List.getElem?_eq_getElem hj']
    show (v.set i v.array[j]).bind (fun v' => v'.set j v.array[i]) = _
    rw [set_natCast hi', Option.bind_some, set_natCast (by simpa using hj')]
  · by_cases hkj : k = j
    · subst hkj
      rw [if_pos rfl, List.getElem?_set_self (by simpa using hj'), List.getElem?_eq_getElem hi']
    · rw [if_neg hkj, List.getElem?_set_ne (Ne.symm hkj)]
      by_cases hki : k = i
      · subst hki
        rw [if_pos rfl, List.getElem?_set_self hi', List.getElem?_eq_getElem hj']
      · rw [if_neg hki, List.getElem?_set_ne (Ne.symm hki)]

/-- The last element is at the place of the deleted one, and its cell is cleared. -/
theorem del_eq (zero : α) (h : v.Admitted) {i : Nat} (hi : (i : Int) < v.elemNo) :
    ∃ w, v.del zero i = some w ∧ w.Admitted ∧ w.live = swapDelete v.live i ∧ w.elemNo = v.elemNo - 1 ∧
      v.Keeps w := by
  have hle := h.elemNo_le
  have hcapacity := h.capacity_le
  have hlength := h.length_array
  obtain ⟨n, hn⟩ : ∃ n : Nat, v.elemNo = n + 1 := ⟨v.elemNo.toNat - 1, by omega⟩
  have hlast : v.elemNo - 1 = n := by omega
  have hindex : toIndexType (v.elemNo - 1) = n := by
    rw [hlast]
    exact toIndexType_of_le (by omega) (by omega)
  -- the array after the swap, which is not needed for the last element
  obtain ⟨array, hswap, harray, hget⟩ : ∃ array,
      (if (i : Int) ≠ v.elemNo - 1 then v.swapElems i n else some v) = some { v with array } ∧
        array.length = v.array.length ∧
        ∀ k, array[k]? = if k = n then v.array[i]? else if k = i then v.array[n]? else v.array[k]? := by
    split
    · exact swapElems_eq h hi (by omega)
    · refine ⟨v.array, rfl, rfl, fun k => ?_⟩
      have hin : i = n := by omega
      subst hin
      split
      · next hk => rw [hk]
      · rfl
  refine ⟨{ v with array := array.set n zero, elemNo := n }, ?_, ?_, ?_, hlast.symm, rfl, rfl, ?_⟩
  · rw [del, if_pos (by omega), hindex, hswap, Option.bind_some]
    show VectorCells.set { v with array, elemNo := toIndexType (v.elemNo - 1) }
      (toIndexType (v.elemNo - 1)) zero = _
    rw [hindex]
    exact set_natCast (v := { v with array, elemNo := n }) (by simp only [harray]; omega) zero
  · refine ⟨Int.natCast_nonneg n, ?_, hcapacity, ?_⟩
    · show (n : Int) ≤ v.capacity
      omega
    · show ((array.set n zero).length : Int) = v.capacity
      rw [List.length_set, harray, hlength]
  · refine List.ext_getElem? fun k => ?_
    have hlive := h.length_live
    rw [getElem?_swapDelete (by omega), getElem?_live, getElem?_live, getElem?_live]
    show (if (k : Int) < n then (array.set n zero)[k]? else none) = _
    by_cases hk : k < n
    · have hlen : v.live.length - 1 = n := by omega
      have hbelow : (n : Int) < v.elemNo ∧ (k : Int) < v.elemNo := by omega
      rw [if_pos (by omega), if_pos (by omega), List.getElem?_set_ne (by omega), hget, if_neg (by omega),
        hlen, if_pos hbelow.1, if_pos hbelow.2]
    · rw [if_neg (by omega), if_neg (by omega)]
  · intro j hj
    rw [List.getElem?_set_ne (by omega), hget, if_neg (by omega), if_neg (by omega)]

/-! ## Removing -/

/-- **The elements below an index are tested from the last to the first**, with what has already been
tested behind them. -/
theorem removeIfFrom_eq (zero : α) (funPred : α → Int) (l : List α) :
    ∀ {v : VectorCells α} {r : List α} {fuel : Nat}, v.Admitted → v.live = l ++ r → l.length < fuel →
      ∃ w, removeIfFrom zero funPred fuel v ((l.length : Int) - 1) = some (w, l.reverse) ∧ w.Admitted ∧
        w.live = l.foldr (fun a r => if funPred a = 1 then lastToFront r else a :: r) r ∧
        w.elemNo ≤ v.elemNo ∧ v.Keeps w := by
  induction l using List.reverseRecOn with
  | nil =>
    intro v r fuel h hlive hfuel
    obtain ⟨fuel, rfl⟩ := Nat.exists_eq_add_of_lt hfuel
    refine ⟨v, ?_, h, hlive, Int.le_refl _, .refl v⟩
    rw [List.length_nil, Nat.zero_add, removeIfFrom, if_neg (by omega)]
    rfl
  | append_singleton l a ih =>
    intro v r fuel h hlive hfuel
    rw [List.length_append, List.length_singleton] at hfuel
    obtain ⟨fuel, rfl⟩ : ∃ n, fuel = n + 1 := ⟨fuel - 1, by omega⟩
    have hsplit : v.live = l ++ a :: r := by rw [hlive, List.append_assoc, List.singleton_append]
    have hrest : l.length < fuel := by omega
    have hindex : ((l ++ [a]).length : Int) - 1 = (l.length : Nat) := by simp
    have hlength := h.length_live
    have hsize : l.length < v.live.length := by
      rw [hsplit, List.length_append, List.length_cons]
      omega
    have hget : v.get (l.length : Nat) = some a := by
      have hlt : ((l.length : Nat) : Int) < v.elemNo := by omega
      have hcell := getElem?_live v l.length
      rw [if_pos hlt, hsplit, List.getElem?_append_right (Nat.le_refl _), Nat.sub_self] at hcell
      rw [get_natCast, ← hcell]
      rfl
    have hnext : toIndexType ((l.length : Nat) - 1) = (l.length : Int) - 1 := by
      have hle := h.elemNo_le
      have hcapacity := h.capacity_le
      exact toIndexType_of_le (by omega) (by omega)
    rw [hindex, removeIfFrom, if_pos (Int.natCast_nonneg _), hget, List.foldr_append, List.foldr_cons,
      List.foldr_nil, List.reverse_append, Option.bind_some, hnext]
    split
    · next hpred =>
      obtain ⟨w, hdel, hw, hwlive, hwelemNo, hkeeps⟩ := del_eq zero h (i := l.length) (by omega)
      rw [hsplit, swapDelete_append_cons] at hwlive
      obtain ⟨u, hrun, hu, hulive, hle, hukeeps⟩ := ih hw hwlive hrest
      refine ⟨u, ?_, hu, hulive, by omega, ?_⟩
      · rw [hdel, Option.bind_some, hrun]
        rfl
      · exact hkeeps.trans (by omega) hukeeps
    · next hpred =>
      obtain ⟨u, hrun, hu, hulive, hle, hukeeps⟩ := ih h hsplit hrest
      refine ⟨u, ?_, hu, hulive, hle, hukeeps⟩
      rw [Option.bind_some, hrun]
      rfl

/-- The live cells are the vector, and the loop is that of the vector. -/
theorem removeIf_toVector (zero : α) (h : v.Admitted) (funPred : α → Int) {fuel : Nat}
    (hfuel : v.elemNo < fuel) :
    ∃ w, v.removeIf zero fuel funPred = some (w, v.live.reverse) ∧ w.Admitted ∧ w.elemNo ≤ v.elemNo ∧
      w.toVector = v.toVector.removeIf funPred ∧ v.Keeps w := by
  have hlength := h.length_live
  have hle := h.elemNo_le
  have hcapacity := h.capacity_le
  have hfuel' : v.live.length < fuel := by omega
  obtain ⟨w, hrun, hw, hlive, hwle, hkeeps⟩ :=
    removeIfFrom_eq zero funPred v.live h (List.append_nil v.live).symm hfuel'
  refine ⟨w, ?_, hw, hwle, ?_, hkeeps⟩
  · have hstart : toIndexType (v.elemNo - 1) = (v.live.length : Int) - 1 := by
      rw [hlength]
      exact toIndexType_of_le (by omega) (by omega)
    rw [removeIf, hstart, hrun]
  · rw [IotcVector.removeIf_eq, toVector, hlive, hkeeps.capacity, hkeeps.memoryType]
    simp [toVector, swapFilter]

/-- **`iotc_vector_remove_if` removes what satisfies the predicate**: it ends, inside of the array, has
evaluated the predicate once on each element, and the others are still there. -/
theorem removeIf_removes (zero : α) (h : v.Admitted) (funPred : α → Int) {fuel : Nat}
    (hfuel : v.elemNo < fuel) :
    ∃ w evaluated, v.removeIf zero fuel funPred = some (w, evaluated) ∧ evaluated = v.live.reverse ∧
      w.live.Perm (v.live.filter fun a => funPred a ≠ 1) ∧ w.Admitted ∧ w.elemNo ≤ v.elemNo ∧
      v.Keeps w := by
  obtain ⟨w, hrun, hw, hwle, hvector, hkeeps⟩ := removeIf_toVector zero h funPred hfuel
  refine ⟨w, _, hrun, rfl, ?_, hw, hwle, hkeeps⟩
  have hlive : w.live = swapFilter (fun a => funPred a = 1) v.live := by
    rw [IotcVector.removeIf_eq] at hvector
    exact congrArg IotcVector.array hvector
  rw [hlive]
  simpa using swapFilter_perm (fun a => decide (funPred a = 1)) v.live

/-- Of five elements in six cells the odd ones are removed. -/
theorem removeIf_removes_odd :
    ∃ w evaluated,
      (VectorCells.mk [1, 2, 3, 4, 5, 0] 5 6 .managed : VectorCells Int).removeIf 0 6 (· % 2) =
        some (w, evaluated) ∧
      evaluated = [5, 4, 3, 2, 1] ∧ w.live.Perm [2, 4] ∧ w.Admitted ∧ w.elemNo ≤ 5 ∧
      (VectorCells.mk [1, 2, 3, 4, 5, 0] 5 6 .managed : VectorCells Int).Keeps w :=
  removeIf_removes 0 ⟨by decide, by decide, by decide, rfl⟩ _ (by decide)

end VectorCells

end IotDeviceSdk.Datastructures
