import IotDeviceSdk.Datastructures.Vector
import IotDeviceSdk.Infra.Run

/-!
# Runs of a vector

The operations of `iotc_vector.c` on one vector, each with the answer of the allocator, beside the
list that they are to build. The vector stays inside its bounds whatever happens. It leaves the list
in one operation: a reservation of fewer places than there are elements cuts the elements off, and
only then finds out that there is no new array for it.
-/

namespace IotDeviceSdk.Datastructures

open Infra

namespace IotcVector

variable {α : Type*}

/-- The vectors that there are at first. -/
inductive Start (α : Type*) where
  | create
  | createFrom (array : List α) (nonempty : array ≠ []) (memoryType : MemoryType)

/-- The vector that was created. -/
def Start.vector : Start α → IotcVector α
  | .create => .create
  | .createFrom array _ memoryType => .createFrom array memoryType

/-- The list that it is to hold. -/
def Start.list : Start α → List α
  | .create => []
  | .createFrom array _ _ => array

/-- The length of an array that was handed over is an index. -/
def Start.Fits : Start α → Prop
  | .create => True
  | .createFrom array _ _ => array.length ≤ 127

/-- An operation on a vector. What it asserts of its parameters comes with them. -/
inductive Op (α : Type*) where
  | push (value : α) (mem : Bool)
  | del (index : Nat)
  | reserve (n : Int) (positive : 0 < n) (isIndex : n ≤ 127) (mem : Bool)
  | find (value : α) (funCmp : α → α → Int)
  | removeIf (funPred : α → Int)

/-- What an operation does to the vector. -/
def apply (v : IotcVector α) : Op α → IotcVector α
  | .push value mem => (v.push value mem).getD v
  | .del index => v.del index
  | .reserve n _ _ mem => (v.reserve n mem).2
  | .find _ _ => v
  | .removeIf funPred => v.removeIf funPred

/-- The operation reports a failure. -/
def fails (v : IotcVector α) : Op α → Bool
  | .push value mem => (v.push value mem).isNone
  | .reserve n _ _ mem => !(v.reserve n mem).1
  | .del _ | .find _ _ | .removeIf _ => false

/-- What an operation that does not fail is to do to the list. -/
def Op.onList (l : List α) : Op α → List α
  | .push value _ => l ++ [value]
  | .del index => swapDelete l index
  | .reserve n _ _ _ => l.take n.toNat
  | .find _ _ => l
  | .removeIf funPred => swapFilter (fun a => funPred a = 1) l

/-- One step. -/
def step (v : IotcVector α) (op : Op α) : Option (IotcVector α) := some (v.apply op)

/-- A vector beside the list that it is to hold, which a failure leaves alone. -/
def stepWithList : IotcVector α × List α → Op α → Option (IotcVector α × List α) :=
  observed step fun v op _ l => if v.fails op then l else op.onList l

/-- The live prefix is the list, and the number of elements is between 0 and the capacity. -/
structure Agrees (s : IotcVector α × List α) : Prop where
  array_eq : s.1.array = s.2
  elemNo_nonneg : (0 : Int) ≤ s.1.elemNo
  elemNo_le : (s.1.elemNo : Int) ≤ s.1.capacity

/-- A reservation of fewer places than there are elements gets its array. -/
def Spared (v : IotcVector α) : Op α → Prop
  | .reserve n _ _ mem => n < v.elemNo → v.memoryType = .managed ∧ mem = true
  | _ => True

instance (v : IotcVector α) (op : Op α) : Decidable (v.Spared op) := by
  unfold Spared
  split <;> infer_instance

/-! ## Bounds -/

/-- The elements are inside the capacity, and the capacity is an index. -/
structure Bounded (v : IotcVector α) : Prop where
  elemNo_le : (v.elemNo : Int) ≤ v.capacity
  capacity_pos : 0 < v.capacity
  capacity_le : v.capacity ≤ 127

variable {v w : IotcVector α}

/-- A new array has the capacity that was asked for. -/
theorem realloc_eq_some {n : Int} {mem : Bool} (h : v.realloc n mem = some w) :
    w = { v with capacity := n } ∧ v.memoryType = .managed ∧ 0 ≤ n ∧ mem = true := by
  unfold realloc at h
  split at h
  · cases h
  · next hmanaged =>
    split at h
    · cases h
    · next hn =>
      split at h
      · next hmem => exact ⟨(Option.some.inj h).symm, by simpa using hmanaged, by omega, hmem⟩
      · cases h

/-- A push that grows the vector doubles the capacity, and this is an index. -/
theorem Bounded.push {value : α} {mem : Bool} (hv : v.Bounded) (h : v.push value mem = some w) :
    w.Bounded := by
  have hle := hv.elemNo_le
  have hpos := hv.capacity_pos
  have hcapacity := hv.capacity_le
  unfold IotcVector.push at h
  split at h
  · obtain ⟨u, hu, rfl⟩ := Option.map_eq_some_iff.1 h
    obtain ⟨rfl, -, hfits, -⟩ := realloc_eq_some hu
    obtain ⟨hdouble, hlt⟩ := toIndexType_double hpos hcapacity hfits
    rw [hdouble]
    refine ⟨?_, ?_, ?_⟩
    · simp only [elemNo, List.length_append, List.length_singleton] at hle ⊢
      omega
    · show 0 < v.capacity * 2
      omega
    · show v.capacity * 2 ≤ 127
      omega
  · obtain rfl := Option.some.inj h
    refine ⟨?_, hpos, hcapacity⟩
    simp only [elemNo, List.length_append, List.length_singleton] at *
    omega

/-- Fewer elements in the same array. -/
theorem Bounded.shrink (hv : v.Bounded) {array : List α} (h : array.length ≤ v.elemNo) :
    Bounded { v with array } :=
  ⟨Int.le_trans (Int.ofNat_le.2 h) hv.elemNo_le, hv.capacity_pos, hv.capacity_le⟩

@[simp] theorem trim_capacity (v : IotcVector α) (n : Int) : (v.trim n).capacity = v.capacity := by
  unfold trim
  split <;> rfl

@[simp] theorem trim_memoryType (v : IotcVector α) (n : Int) :
    (v.trim n).memoryType = v.memoryType := by
  unfold trim
  split <;> rfl

theorem trim_array (v : IotcVector α) {n : Int} (hn : 0 < n) :
    (v.trim n).array = v.array.take n.toNat := by
  unfold trim
  split
  · rfl
  · next hfew =>
    unfold elemNo at hfew
    exact (List.take_of_length_le (by omega)).symm

/-- What a reservation does: nothing, if the capacity is the one that is asked for; and otherwise it
trims the vector, and has an array with this capacity if it succeeds. -/
theorem reserve_cases (v : IotcVector α) {n : Int} (hn : 0 < n) (mem : Bool) :
    n = v.capacity ∧ v.reserve n mem = (true, v) ∨
      (v.memoryType = .managed ∧ mem = true) ∧
        v.reserve n mem = (true, { v.trim n with capacity := n }) ∨
      ¬ (v.memoryType = .managed ∧ mem = true) ∧ v.reserve n mem = (false, v.trim n) := by
  unfold reserve
  split
  · next h => exact .inl ⟨h, rfl⟩
  · refine .inr ?_
    cases h : (v.trim n).realloc n mem with
    | some w =>
      obtain ⟨rfl, hmanaged, -, hmem⟩ := realloc_eq_some h
      rw [trim_memoryType] at hmanaged
      exact .inl ⟨⟨hmanaged, hmem⟩, rfl⟩
    | none =>
      refine .inr ⟨?_, rfl⟩
      rintro ⟨hmanaged, rfl⟩
      rw [realloc, trim_memoryType, if_neg (by simp [hmanaged]), if_neg (by omega), if_pos rfl] at h
      cases h

/-- A reservation cuts off what it has no place for, whether it fails or not. -/
theorem Bounded.reserve_array (hv : v.Bounded) {n : Int} (hn : 0 < n) (mem : Bool) :
    (v.reserve n mem).2.array = v.array.take n.toNat := by
  have hle := hv.elemNo_le
  unfold elemNo at hle
  rcases reserve_cases v hn mem with ⟨heq, h⟩ | ⟨-, h⟩ | ⟨-, h⟩
  · rw [h]
    show v.array = v.array.take n.toNat
    exact (List.take_of_length_le (by omega)).symm
  · rw [h]
    exact trim_array v hn
  · rw [h]
    exact trim_array v hn

theorem Bounded.reserve {n : Int} (hv : v.Bounded) (hpos : 0 < n) (hn : n ≤ 127) (mem : Bool) :
    (v.reserve n mem).2.Bounded := by
  have hlength := congrArg List.length (hv.reserve_array hpos mem)
  rw [List.length_take] at hlength
  have hle := hv.elemNo_le
  have hcapacity : (v.reserve n mem).2.capacity = n ∨
      (v.reserve n mem).2.capacity = v.capacity := by
    rcases reserve_cases v hpos mem with ⟨-, h⟩ | ⟨-, h⟩ | ⟨-, h⟩
    · exact .inr (by rw [h])
    · exact .inl (by rw [h])
    · exact .inr (by rw [h, trim_capacity])
  have hpos' := hv.capacity_pos
  have hle' := hv.capacity_le
  unfold elemNo at hle
  refine ⟨?_, ?_, ?_⟩ <;> unfold elemNo at * <;> omega

/-- Every operation keeps the bounds. -/
theorem Bounded.apply (hv : v.Bounded) (op : Op α) : (v.apply op).Bounded := by
  cases op with
  | push value mem =>
    show ((v.push value mem).getD v).Bounded
    cases h : v.push value mem with
    | none => exact hv
    | some w => exact hv.push h
  | del index =>
    show (v.del index).Bounded
    rw [del_eq]
    refine hv.shrink ?_
    by_cases hlt : index < v.array.length
    · have := length_swapDelete hlt
      unfold elemNo
      omega
    · rw [swapDelete_of_le (Nat.not_lt.1 hlt)]
      exact Nat.le_refl _
  | reserve n positive isIndex mem => exact hv.reserve positive isIndex mem
  | find value funCmp => exact hv
  | removeIf funPred =>
    show (v.removeIf funPred).Bounded
    rw [removeIf_eq]
    refine hv.shrink ?_
    rw [(swapFilter_perm _ _).length_eq]
    exact List.length_filter_le _ _

/-! ## The list -/

/-- **An operation that is spared does to the live prefix what it is to do to the list, and leaves it
alone if it fails. Of the others this is false.** -/
theorem apply_array (hv : v.Bounded) (op : Op α) :
    (v.apply op).array = (if v.fails op then v.array else op.onList v.array) ↔ v.Spared op := by
  cases op with
  | push value mem =>
    refine iff_of_true ?_ trivial
    cases h : v.push value mem with
    | none => simp [apply, fails, h]
    | some w => simpa [apply, fails, Op.onList, h] using (push_eq_some h).1
  | del index => exact iff_of_true (congrArg array (del_eq v index)) trivial
  | find value funCmp => exact iff_of_true rfl trivial
  | removeIf funPred => exact iff_of_true (congrArg array (removeIf_eq v funPred)) trivial
  | reserve n positive isIndex mem =>
    have hle := hv.elemNo_le
    have harray : (v.apply (.reserve n positive isIndex mem)).array = v.array.take n.toNat :=
      hv.reserve_array positive mem
    rw [harray]
    rcases reserve_cases v positive mem with ⟨heq, h⟩ | ⟨hyes, h⟩ | ⟨hnot, h⟩
    · refine iff_of_true (by simp [fails, Op.onList, h]) fun hlt => ?_
      omega
    · exact iff_of_true (by simp [fails, Op.onList, h]) fun _ => hyes
    · have hfails : v.fails (.reserve n positive isIndex mem) = true := by simp [fails, h]
      rw [if_pos hfails]
      constructor
      · intro hall hlt
        have hlength := congrArg List.length hall
        rw [List.length_take] at hlength
        unfold elemNo at hlt
        omega
      · intro hspared
        refine List.take_of_length_le (Nat.le_of_not_lt fun hlt => hnot (hspared ?_))
        unfold elemNo
        omega

/-- A vector that was created over an array with an index for its length holds the array. -/
theorem Start.agrees_iff (start : Start α) : Agrees (start.vector, start.list) ↔ start.Fits := by
  cases start with
  | create =>
    refine iff_of_true ⟨rfl, Int.natCast_nonneg _, ?_⟩ trivial
    simp [Start.vector, IotcVector.create, elemNo, defaultCapacity]
  | createFrom array nonempty memoryType =>
    have hpos := List.length_pos_of_ne_nil nonempty
    simp only [Start.vector, Start.list, Start.Fits]
    constructor
    · rintro ⟨harray, -, -⟩
      have hlength := congrArg List.length harray
      simp only [IotcVector.createFrom, List.length_take, toIndexType, Int.bmod_def] at hlength
      split at hlength <;> omega
    · intro hfits
      have hindex : toIndexType array.length = array.length := by
        unfold toIndexType
        rw [Int.bmod_def]
        split <;> omega
      have hvector : IotcVector.createFrom array memoryType =
          { array, capacity := array.length, memoryType } := by
        rw [IotcVector.createFrom, hindex, Int.toNat_natCast, List.take_length]
      rw [hvector]
      exact ⟨rfl, Int.natCast_nonneg _, Int.le_refl _⟩

theorem Start.bounded {start : Start α} (h : start.Fits) : start.vector.Bounded := by
  have hagrees := start.agrees_iff.2 h
  refine ⟨hagrees.elemNo_le, ?_, ?_⟩
  · cases start with
    | create => simp [Start.vector, IotcVector.create, defaultCapacity]
    | createFrom array nonempty memoryType =>
      have hpos := List.length_pos_of_ne_nil nonempty
      have hle := hagrees.elemNo_le
      have hlength := congrArg List.length hagrees.array_eq
      simp only [Start.list, elemNo] at hle hlength ⊢
      omega
  · cases start with
    | create => simp [Start.vector, IotcVector.create, defaultCapacity]
    | createFrom array nonempty memoryType =>
      simp only [Start.vector, IotcVector.createFrom, toIndexType, Int.bmod_def]
      split <;> omega

/-- A step keeps the bounds, and it keeps the agreement exactly when it is spared. -/
theorem stepWithList_iff {s s' : IotcVector α × List α} {op : Op α} (hv : s.1.Bounded)
    (hagrees : Agrees s) (h : stepWithList s op = some s') :
    s'.1.Bounded ∧ (Agrees s' ↔ s.1.Spared op) := by
  obtain ⟨v, l⟩ := s
  obtain rfl : v.array = l := hagrees.array_eq
  obtain rfl := Option.some.inj h
  have hv' := hv.apply op
  refine ⟨hv', fun h' => (apply_array hv op).1 h'.array_eq, fun hspared => ?_⟩
  exact ⟨(apply_array hv op).2 hspared, Int.natCast_nonneg _, hv'.elemNo_le⟩

/-- **In a run that starts with a vector, the vector agrees with its list after every operation
exactly when the array it was created over is not too long and every operation is spared.** -/
theorem agrees_throughout_iff (start : Start α) (ops : List (Op α)) :
    (∀ fs, fs <+: ops → ∀ s, run stepWithList (start.vector, start.list) fs = some s → Agrees s) ↔
      start.Fits ∧ AllSteps step Spared start.vector ops := by
  by_cases hfits : start.Fits
  · have hrest := @forall_prefix_iff _ _ stepWithList (fun s op => Spared s.1 op)
      (fun s => Bounded s.1) Agrees (fun _ _ _ => stepWithList_iff) (fun _ _ => ⟨_, rfl⟩) ops
      (start.vector, start.list) (Start.bounded hfits) (start.agrees_iff.2 hfits)
    rw [hrest, stepWithList, allSteps_observed, and_iff_right hfits]
  · refine iff_of_false (fun h => hfits ?_) (fun h => hfits h.1)
    exact start.agrees_iff.1 (h [] ops.nil_prefix _ rfl)

/-- Two elements, and a reservation of one place that there is no memory for: the reservation reports
the failure, and the second element is gone. -/
theorem agrees_throughout_fails :
    ¬ ∀ fs, fs <+: [Op.push 1 true, .push 2 true, .reserve 1 (by decide) (by decide) false] →
      ∀ s, run stepWithList ((Start.create : Start Nat).vector, Start.create.list) fs = some s →
        Agrees s := by
  intro h
  have hlast := (h _ (List.prefix_refl _) _ rfl).array_eq
  exact absurd hlast (by decide)

end IotcVector

end IotDeviceSdk.Datastructures
