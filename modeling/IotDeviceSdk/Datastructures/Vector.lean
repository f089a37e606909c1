import Mathlib.Data.Int.Basic
import Mathlib.Data.List.Induction
import IotDeviceSdk.Infra.SwapDelete

/-!
# The vector (`iotc_vector.c`)

A growable array whose indices are `int8_t`. `array` is the live prefix, so `elem_no` is its
length. A push that finds the array full asks for twice the capacity; the request passes through
`int8_t`, so from 64 elements on it is negative and cannot be met.
-/

namespace IotDeviceSdk.Datastructures

open Infra

/-- `iotc_memory_type_t` -/
inductive MemoryType where
  | unknown
  | managed
  | unmanaged
  deriving DecidableEq, Repr

/-- `iotc_vector_t` -/
structure IotcVector (α : Type*) where
  array : List α
  capacity : Int
  memoryType : MemoryType
  deriving DecidableEq, Repr

namespace IotcVector

variable {α : Type*}

/-- `vector->elem_no` -/
def elemNo (v : IotcVector α) : Nat := v.array.length

/-- The conversion of an `int` to `iotc_vector_index_type_t`. -/
def toIndexType (n : Int) : Int := Int.bmod n 256

/-- `IOTC_VECTOR_DEFAULT_CAPACITY` -/
def defaultCapacity : Int := 2

/-- What `iotc_vector_create` returns when its allocations succeed. -/
def create : IotcVector α := { array := [], capacity := defaultCapacity, memoryType := .managed }

/-- What `iotc_vector_create_from` returns when its allocation succeeds. The length is a `size_t`, and
is converted for the capacity and for `elem_no`; of a negative `elem_no` no element is live. -/
def createFrom (array : List α) (memoryType : MemoryType) : IotcVector α :=
  { array := array.take (toIndexType array.length).toNat, capacity := toIndexType array.length,
    memoryType }

/--
`iotc_vector_realloc`. `mem` is the answer of the allocator.

A negative `new_size` becomes, as a `size_t`, more bytes than there are, so that the allocator
has no block for it whatever `mem` says.
-/
def realloc (v : IotcVector α) (newSize : Int) (mem : Bool) : Option (IotcVector α) :=
  if v.memoryType ≠ .managed then none
  else if newSize < 0 then none
  else if mem then some { v with capacity := newSize }
  else none

/-- The start of `iotc_vector_reserve`: the number of elements is trimmed to the new size. -/
def trim (v : IotcVector α) (n : Int) : IotcVector α :=
  if (v.elemNo : Int) > n then { v with array := v.array.take n.toNat } else v

/-- `iotc_vector_reserve`, for a size above 0, with what it returns. -/
def reserve (v : IotcVector α) (n : Int) (mem : Bool) : Bool × IotcVector α :=
  if n = v.capacity then (true, v)
  else
    match (v.trim n).realloc n mem with
    | none => (false, v.trim n)
    | some w => (true, w)

/-- `iotc_vector_push`. `none` is the `NULL` that a failed growth returns. -/
def push (v : IotcVector α) (value : α) (mem : Bool) : Option (IotcVector α) :=
  if (v.elemNo : Int) + 1 > v.capacity then
    (v.realloc (toIndexType (v.capacity * 2)) mem).map fun w =>
      { w with array := w.array ++ [value] }
  else some { v with array := v.array ++ [value] }

/-- `iotc_vector_swap_elems`, for indices inside the vector. -/
def swapElems (v : IotcVector α) (i0 i1 : Nat) : IotcVector α :=
  match v.array[i0]?, v.array[i1]? with
  | some e0, some e1 => { v with array := (v.array.set i0 e1).set i1 e0 }
  | _, _ => v

/-- `iotc_vector_del` -/
def del (v : IotcVector α) (index : Nat) : IotcVector α :=
  if index < v.elemNo then
    let w := if index ≠ v.elemNo - 1 then v.swapElems index (v.elemNo - 1) else v
    { w with array := w.array.dropLast }
  else v

/-- `iotc_vector_find`. `none` is -1. -/
def find (v : IotcVector α) (value : α) (funCmp : α → α → Int) : Option Nat :=
  v.array.findIdx? fun e => funCmp e value = 0

/-- The iterations of `iotc_vector_remove_if` below an index. -/
def removeIfBelow (funPred : α → Int) : Nat → IotcVector α → IotcVector α
  | 0, v => v
  | i + 1, v =>
    removeIfBelow funPred i <|
      match v.array[i]? with
      | some e => if funPred e = 1 then v.del i else v
      | none => v

/-- `iotc_vector_remove_if` -/
def removeIf (v : IotcVector α) (funPred : α → Int) : IotcVector α :=
  removeIfBelow funPred v.elemNo v

/-- A capacity that can be doubled is below 64. -/
theorem toIndexType_double {n : Int} (hpos : 0 < n) (hle : n ≤ 127)
    (h : 0 ≤ toIndexType (n * 2)) : toIndexType (n * 2) = n * 2 ∧ n < 64 := by
  unfold toIndexType at h ⊢
  rw [Int.bmod_def] at h ⊢
  split at h <;> split <;> omega

/-! ## What the operations do to the live prefix -/

/-- A failed push is `none`, so the caller still has the vector it had; a push that succeeds
appends. -/
theorem push_eq_some {v w : IotcVector α} {value : α} {mem : Bool}
    (h : v.push value mem = some w) :
    w.array = v.array ++ [value] ∧ w.memoryType = v.memoryType := by
  unfold push at h
  split at h
  · obtain ⟨u, hu, rfl⟩ := Option.map_eq_some_iff.mp h
    unfold realloc at hu
    split at hu
    · simp at hu
    · split at hu
      · simp at hu
      · split at hu
        · rw [← Option.some.inj hu]
          exact ⟨rfl, rfl⟩
        · simp at hu
  · rw [← Option.some.inj h]
    exact ⟨rfl, rfl⟩

/-- A push finds a place: there is one, or the array can grow and the allocator has memory for it. -/
def HasPlace (v : IotcVector α) (mem : Bool) : Prop :=
  (v.elemNo : Int) + 1 ≤ v.capacity ∨
    v.memoryType = .managed ∧ 0 ≤ toIndexType (v.capacity * 2) ∧ mem = true

instance (v : IotcVector α) (mem : Bool) : Decidable (v.HasPlace mem) :=
  inferInstanceAs (Decidable (_ ∨ _))

/-- A push with a place does not fail. -/
theorem HasPlace.push {v : IotcVector α} {mem : Bool} (h : v.HasPlace mem) (value : α) :
    ∃ w, v.push value mem = some w := by
  unfold IotcVector.push
  split
  · next hfull =>
    obtain ⟨hmanaged, hfits, hmem⟩ := h.resolve_left (by omega)
    rw [realloc, if_neg (by simp [hmanaged]), if_neg (by omega), if_pos hmem]
    exact ⟨_, rfl⟩
  · exact ⟨_, rfl⟩

/-- Without a place a push fails. -/
theorem push_eq_none {v : IotcVector α} {mem : Bool} (h : ¬ v.HasPlace mem) (value : α) :
    v.push value mem = none := by
  unfold HasPlace at h
  unfold IotcVector.push realloc
  rw [if_pos (by omega)]
  split
  · rfl
  · next hmanaged =>
    split
    · rfl
    · next hfits =>
      have hmem : ¬ mem = true := fun hmem =>
        h (.inr ⟨Decidable.of_not_not hmanaged, Int.not_lt.1 hfits, hmem⟩)
      rw [if_neg hmem, Option.map_none]

/-- Swapping neighbours. -/
theorem swapElems_adjacent {v : IotcVector α} {L R : List α} {a b : α}
    (h : v.array = L ++ a :: b :: R) :
    v.swapElems L.length (L.length + 1) = { v with array := L ++ b :: a :: R } := by
  have h0 : v.array[L.length]? = some a := by simp [h]
  have h1 : v.array[L.length + 1]? = some b := by simp [h]
  simp only [swapElems, h0, h1]
  congr 1
  simp [h]

/-- Swapping neighbours, the higher index first. -/
theorem swapElems_adjacent' {v : IotcVector α} {L R : List α} {a b : α}
    (h : v.array = L ++ a :: b :: R) :
    v.swapElems (L.length + 1) L.length = { v with array := L ++ b :: a :: R } := by
  have h0 : v.array[L.length]? = some a := by simp [h]
  have h1 : v.array[L.length + 1]? = some b := by simp [h]
  simp only [swapElems, h0, h1]
  congr 1
  simp [h]

/-- A deletion is one of the list: the last element takes the place of the deleted one. -/
theorem del_eq (v : IotcVector α) (index : Nat) :
    v.del index = { v with array := swapDelete v.array index } := by
  by_cases hlt : index < v.elemNo
  · obtain ⟨l, a, r, hv, rfl⟩ := exists_eq_append_cons hlt
    rw [del, if_pos hlt, hv, swapDelete_append_cons]
    rcases List.eq_nil_or_concat r with rfl | ⟨m, z, rfl⟩
    · have hn : v.elemNo - 1 = l.length := by simp [elemNo, hv]
      simp [hn, hv]
    · rw [List.concat_eq_append] at hv ⊢
      have hlast : l.length + m.length + 1 - l.length = m.length + 1 := by omega
      have hn : v.elemNo - 1 = l.length + m.length + 1 := by
        simp only [elemNo, hv, List.length_append, List.length_cons, List.length_nil]
        omega
      have h0 : v.array[l.length]? = some a := by simp [hv]
      have h1 : v.array[l.length + m.length + 1]? = some z := by
        rw [hv, List.getElem?_append_right (by omega), hlast]
        simp
      have hset : (l ++ a :: (m ++ [z])).set l.length z = l ++ z :: (m ++ [z]) := by simp
      rw [hn, if_pos (by omega), lastToFront_concat]
      simp only [swapElems, h0, h1]
      rw [hv, hset, List.set_append_right _ _ (by omega), hlast, List.set_cons_succ,
        List.set_append_right _ _ (by omega), Nat.sub_self, ← List.cons_append, ← List.append_assoc]
      exact congrArg (fun array => { v with array }) List.dropLast_concat
  · rw [del, if_neg hlt, swapDelete_of_le (Nat.not_lt.1 hlt)]

/-- A deletion brings in no element. -/
theorem mem_of_mem_del {v : IotcVector α} {index : Nat} {a : α} (h : a ∈ (v.del index).array) :
    a ∈ v.array := by
  rw [del_eq] at h
  by_cases hlt : index < v.array.length
  · exact (swapDelete_perm (List.getElem?_eq_getElem hlt)).symm.subset (List.mem_cons_of_mem _ h)
  · rwa [swapDelete_of_le (Nat.not_lt.1 hlt)] at h

/-- Deleting the last element. -/
theorem del_last {v : IotcVector α} :
    v.del (v.elemNo - 1) = { v with array := v.array.dropLast } := by
  rw [del_eq]
  rcases List.eq_nil_or_concat v.array with h | ⟨l, a, h⟩
  · simp [swapDelete, h]
  · rw [List.concat_eq_append] at h
    have hn : v.elemNo - 1 = l.length := by simp [elemNo, h]
    rw [hn, h, swapDelete_append_cons, lastToFront_nil, List.append_nil, List.dropLast_concat]

/-- Deleting an element puts the last one in its place. -/
theorem del_middle {v : IotcVector α} {L M : List α} {a z : α}
    (h : v.array = L ++ a :: (M ++ [z])) : (v.del L.length).array = L ++ z :: M := by
  rw [del_eq, h, swapDelete_append_cons, lastToFront_concat]

theorem del_end {v : IotcVector α} {L : List α} {a : α} (h : v.array = L ++ [a]) :
    (v.del L.length).array = L := by
  rw [del_eq, h, swapDelete_append_cons, lastToFront_nil, List.append_nil]

/-- The elements below an index are tested from the last to the first. -/
theorem removeIfBelow_eq (funPred : α → Int) (l : List α) :
    ∀ {v : IotcVector α} {r : List α}, v.array = l ++ r →
      removeIfBelow funPred l.length v = { v with
        array := l.foldr (fun a r => if funPred a = 1 then lastToFront r else a :: r) r } := by
  induction l using List.reverseRecOn with
  | nil =>
    intro v r hv
    rw [List.nil_append] at hv
    rw [List.foldr_nil, ← hv]
    rfl
  | append_singleton l a ih =>
    intro v r hv
    rw [List.append_assoc, List.singleton_append] at hv
    have hget : v.array[l.length]? = some a := by simp [hv]
    rw [List.length_append, List.length_singleton, removeIfBelow, hget, List.foldr_append,
      List.foldr_cons, List.foldr_nil]
    simp only
    split
    · rw [del_eq, hv, swapDelete_append_cons]
      exact ih rfl
    · exact ih hv

theorem removeIf_eq (v : IotcVector α) (funPred : α → Int) :
    v.removeIf funPred = { v with array := swapFilter (fun a => funPred a = 1) v.array } := by
  have h := removeIfBelow_eq funPred v.array (List.append_nil v.array).symm
  simpa [removeIf, elemNo, swapFilter] using h

end IotcVector

end IotDeviceSdk.Datastructures
