import Mathlib.Data.List.Perm.Basic
import IotDeviceSdk.Base
import IotDeviceSdk.Datastructures.Vector

/-!
# Handles (`iotc_handle.c`)

A vector of pointers, some of them `NULL`. The handle of an object is its index. A registration
fills the first `NULL` slot, and only when there is none does it push; it does not look at what the
push returned, so that a push without memory leaves the object without a handle.
-/

namespace IotDeviceSdk.Datastructures

/-- A vector of pointers, where `none` is `NULL`. -/
abbrev Handles (α : Type) := IotcVector (Option α)

namespace Handles

variable {α : Type}

/-- The objects that have a handle. -/
def objects (v : Handles α) : List α := v.array.filterMap id

theorem mem_objects {v : Handles α} {object : α} : object ∈ v.objects ↔ some object ∈ v.array := by
  simp [objects]

/-- `iotc_vector_get` -/
def get (v : Handles α) (index : Int) : Option α :=
  if index < 0 then none else v.array[index.toNat]?.join

/-- `iotc_object_for_handle`. A handle is wider than an index, and is converted to one. -/
def objectForHandle (v : Handles α) (handle : Int) : Option α :=
  v.get (IotcVector.toIndexType handle)

theorem get_mem {v : Handles α} {index : Int} {object : α} (h : v.get index = some object) :
    some object ∈ v.array := by
  unfold get at h
  split at h
  · cases h
  · exact List.mem_of_getElem? (Option.join_eq_some_iff.1 h)

theorem objectForHandle_mem {v : Handles α} {handle : Int} {object : α}
    (h : v.objectForHandle handle = some object) : some object ∈ v.array := get_mem h

/-- One slot has another entry. -/
theorem get_replace {v v' : Handles α} {l r : List (Option α)} {a b : Option α}
    (hv : v.array = l ++ a :: r) (hv' : v'.array = l ++ b :: r) (h : Int) :
    v'.get h = if h = l.length then b else v.get h := by
  unfold get
  rw [hv, hv']
  split
  · rw [if_neg (by omega)]
  · next hpos =>
    split
    · next heq => simp [heq]
    · next hne =>
      have hne' : h.toNat ≠ l.length := by omega
      rcases Nat.lt_or_gt_of_ne hne' with hlt | hgt
      · rw [List.getElem?_append_left hlt, List.getElem?_append_left hlt]
      · obtain ⟨k, hk⟩ : ∃ k, h.toNat - l.length = k + 1 := ⟨h.toNat - l.length - 1, by omega⟩
        rw [List.getElem?_append_right (by omega), List.getElem?_append_right (by omega), hk,
          List.getElem?_cons_succ, List.getElem?_cons_succ]

/-- There is one more slot. -/
theorem get_push {v v' : Handles α} {b : Option α} (hv : v'.array = v.array ++ [b])
    (h : Int) :
    v'.get h = if h = v.array.length then b else v.get h := by
  unfold get
  rw [hv]
  split
  · rw [if_neg (by omega)]
  · next hpos =>
    split
    · next heq => simp [heq]
    · next hne =>
      have hne' : h.toNat ≠ v.array.length := by omega
      rcases Nat.lt_or_gt_of_ne hne' with hlt | hgt
      · rw [List.getElem?_append_left hlt]
      · rw [List.getElem?_eq_none (by simp; omega), List.getElem?_eq_none (by omega)]

/-- A push would ask the allocator for a new array, and for one that can be had. -/
def grows (v : Handles α) : Bool :=
  v.capacity < v.elemNo + 1 && 0 ≤ IotcVector.toIndexType (v.capacity * 2)

/-! ## Growth -/

/-- A vector that grows by itself: its capacity is an index, and its elements are inside. -/
structure Sized (v : Handles α) : Prop where
  managed : v.memoryType = .managed
  elemNo_le : (v.elemNo : Int) ≤ v.capacity
  capacity_pos : 0 < v.capacity
  capacity_le : v.capacity ≤ 127

theorem sized_create : Sized (.create : Handles α) :=
  ⟨rfl, by simp [IotcVector.create, IotcVector.elemNo, IotcVector.defaultCapacity],
    by simp [IotcVector.create, IotcVector.defaultCapacity],
    by simp [IotcVector.create, IotcVector.defaultCapacity]⟩

/-- The indices of a vector are in the range of their type. -/
theorem objectForHandle_of_get {v : Handles α} {handle : Int} {object : α} (hv : v.Sized)
    (h : v.get handle = some object) : v.objectForHandle handle = some object := by
  have hle := hv.elemNo_le
  have hcapacity := hv.capacity_le
  have hbounds : 0 ≤ handle ∧ handle.toNat < v.array.length := by
    unfold get at h
    split at h
    · cases h
    · next hpos =>
      obtain ⟨hlt, -⟩ := List.getElem?_eq_some_iff.1 (Option.join_eq_some_iff.1 h)
      exact ⟨by omega, hlt⟩
  have hindex : IotcVector.toIndexType handle = handle := by
    unfold IotcVector.elemNo at hle
    unfold IotcVector.toIndexType
    rw [Int.bmod_def]
    split <;> omega
  rw [objectForHandle, hindex, h]

/-- With room, and memory where it is needed, a push appends. -/
theorem push_spec {v : Handles α} {object : Option α} {mem : Bool} (hv : v.Sized)
    (hplace : (v.elemNo : Int) + 1 ≤ v.capacity ∨ 0 ≤ IotcVector.toIndexType (v.capacity * 2))
    (hmem : v.grows → mem = true) :
    ∃ v', v.push object mem = some v' ∧ v'.array = v.array ++ [object] ∧ Sized v' := by
  have hle := hv.elemNo_le
  have hpos := hv.capacity_pos
  have hcapacity := hv.capacity_le
  unfold IotcVector.push
  by_cases hfull : (v.elemNo : Int) + 1 > v.capacity
  · have hfits : 0 ≤ IotcVector.toIndexType (v.capacity * 2) := hplace.resolve_left (by omega)
    obtain ⟨hdouble, hlt⟩ := IotcVector.toIndexType_double hpos hcapacity hfits
    have hgrows : v.grows = true := by
      simp only [grows, Bool.and_eq_true, decide_eq_true_eq]
      exact ⟨hfull, hfits⟩
    rw [if_pos hfull, IotcVector.realloc, if_neg (by simp [hv.managed]), if_neg (by omega),
      if_pos (hmem hgrows), Option.map_some, hdouble]
    refine ⟨_, rfl, rfl, hv.managed, ?_, ?_, ?_⟩
    · simp only [IotcVector.elemNo, List.length_append, List.length_singleton] at hle ⊢
      omega
    · show 0 < v.capacity * 2
      omega
    · show v.capacity * 2 ≤ 127
      omega
  · rw [if_neg hfull]
    refine ⟨_, rfl, rfl, hv.managed, ?_, hpos, hcapacity⟩
    simp only [IotcVector.elemNo, List.length_append, List.length_singleton] at hfull ⊢
    omega

variable [DecidableEq α]

/-! ## Handles of objects -/

/-- `iotc_vector_find` with `iotc_compare_context_pointers` -/
def find (v : Handles α) (object : Option α) : Option Nat :=
  v.array.findIdx? fun e => e = object

/-- `iotc_find_handle_for_object`. `none` is `IOTC_ELEMENT_NOT_FOUND`. -/
def findHandleForObject (v : Handles α) (object : α) : Option Nat := v.find (some object)

/-- `iotc_delete_handle_for_object`. `none` is `IOTC_ELEMENT_NOT_FOUND`. -/
def deleteHandleForObject (v : Handles α) (object : α) : Option (Handles α) :=
  (v.find (some object)).map fun index => { v with array := v.array.set index none }

/-- `iotc_register_handle_for_object`. `mem` is the answer of the allocator to the growth of the
vector; `none` is `IOTC_NO_MORE_RESOURCE_AVAILABLE`. -/
def registerHandleForObject (v : Handles α) (maxObjectCnt : Int) (object : α) (mem : Bool) :
    Option (Handles α) :=
  match v.find none with
  | some index => some { v with array := v.array.set index (some object) }
  | none =>
    if (v.elemNo : Int) ≥ maxObjectCnt then none
    else some ((v.push (some object) mem).getD v)

/-! ## Finding -/

theorem find_eq_some {v : Handles α} {object : Option α} {i : Nat} (h : v.find object = some i) :
    ∃ l r, v.array = l ++ object :: r ∧ l.length = i ∧ object ∉ l := by
  obtain ⟨hi, heq, hbefore⟩ := List.findIdx?_eq_some_iff_getElem.1 h
  have hobject : v.array[i] = object := by simpa using heq
  refine ⟨v.array.take i, v.array.drop (i + 1), ?_, List.length_take_of_le (Nat.le_of_lt hi), ?_⟩
  · rw [← hobject, List.getElem_cons_drop, List.take_append_drop]
  · intro hmem
    obtain ⟨j, hj, hget⟩ := List.getElem_of_mem hmem
    rw [List.length_take] at hj
    have := hbefore j (by omega)
    rw [List.getElem_take] at hget
    simp [hget] at this

theorem find_eq_none {v : Handles α} {object : Option α} :
    v.find object = none ↔ object ∉ v.array := by
  rw [find, List.findIdx?_eq_none_iff]
  constructor
  · intro h hmem
    simpa using h object hmem
  · intro h e he
    have hne : e ≠ object := fun heq => h (heq ▸ he)
    simpa using hne

/-- The slot that is found holds the object. -/
theorem get_find {v : Handles α} {object : α} {i : Nat}
    (h : v.find (some object) = some i) : v.get i = some object := by
  obtain ⟨l, r, harray, rfl, -⟩ := find_eq_some h
  simp [get, harray]

/-- The only slot of an object is found. -/
theorem find_eq_handle {v : Handles α} {object : α} {handle : Int}
    (h : v.get handle = some object)
    (hunique : ∀ k, v.get k = some object → k = handle) :
    ∃ i : Nat, v.find (some object) = some i ∧ (i : Int) = handle := by
  cases hfind : v.find (some object) with
  | none => exact absurd (get_mem h) (find_eq_none.1 hfind)
  | some i => exact ⟨i, rfl, hunique i (get_find hfind)⟩

/-! ## What the operations do to the objects -/

/-- A deletion takes one entry of the object away, and fails only where there is none. -/
theorem deleteHandleForObject_spec {v : Handles α} {object : α} (h : object ∈ v.objects) :
    ∃ v', v.deleteHandleForObject object = some v' ∧ v.objects.Perm (object :: v'.objects) := by
  cases hfind : v.find (some object) with
  | none => exact absurd (mem_objects.1 h) (find_eq_none.1 hfind)
  | some i =>
    obtain ⟨l, r, harray, rfl, -⟩ := find_eq_some hfind
    refine ⟨{ v with array := l ++ none :: r }, ?_, ?_⟩
    · simp [deleteHandleForObject, hfind, harray]
    · simp [objects, harray]

/-- The deletion of an object with one handle frees this handle, and leaves the others. -/
theorem deleteHandleForObject_handle {v : Handles α} {object : α} {handle : Int}
    (h : v.get handle = some object)
    (hunique : ∀ k, v.get k = some object → k = handle) :
    ∃ v', v.deleteHandleForObject object = some v' ∧
      ∀ k, v'.get k = if k = handle then none else v.get k := by
  obtain ⟨i, hfind, rfl⟩ := find_eq_handle h hunique
  obtain ⟨l, r, harray, rfl, -⟩ := find_eq_some hfind
  exact ⟨{ v with array := l ++ none :: r }, by simp [deleteHandleForObject, hfind, harray],
    get_replace harray rfl⟩

/-- A deletion leaves the handles of the other objects. -/
theorem objectForHandle_of_delete {v v' : Handles α} {object other : α} {handle : Int}
    (h : v.deleteHandleForObject object = some v') (hne : other ≠ object)
    (hother : v.objectForHandle handle = some other) : v'.objectForHandle handle = some other := by
  obtain ⟨i, hfind, rfl⟩ := Option.map_eq_some_iff.1 h
  obtain ⟨l, r, harray, rfl, -⟩ := find_eq_some hfind
  have harray' : (v.array.set l.length none) = l ++ none :: r := by simp [harray]
  unfold objectForHandle at hother ⊢
  rw [get_replace harray harray', if_neg, hother]
  intro heq
  rw [heq, get_find hfind] at hother
  exact hne (Option.some.inj hother).symm

theorem deleteHandleForObject_eq_none {v : Handles α} {object : α} (h : object ∉ v.objects) :
    v.deleteHandleForObject object = none := by
  rw [deleteHandleForObject, find_eq_none.2 fun hmem => h (mem_objects.2 hmem), Option.map_none]

/-- There is a slot for one more object: a `NULL`, or a place behind the last one. -/
def Room (v : Handles α) (maxObjectCnt : Int) : Prop :=
  none ∈ v.array ∨
    (v.elemNo : Int) < maxObjectCnt ∧
      ((v.elemNo : Int) + 1 ≤ v.capacity ∨ 0 ≤ IotcVector.toIndexType (v.capacity * 2))

instance (v : Handles α) (maxObjectCnt : Int) : Decidable (v.Room maxObjectCnt) :=
  inferInstanceAs (Decidable (_ ∨ _))

/-- A registration that does not fail fills a `NULL` slot, or pushes, or, without memory, does
nothing. -/
theorem registerHandleForObject_eq_some {v v' : Handles α} {maxObjectCnt : Int} {object : α}
    {mem : Bool} (h : v.registerHandleForObject maxObjectCnt object mem = some v') :
    v'.array = v.array ∨
      (∃ l r, v.array = l ++ none :: r ∧ v'.array = l ++ some object :: r) ∨
        v'.array = v.array ++ [some object] := by
  unfold registerHandleForObject at h
  cases hfind : v.find none with
  | some i =>
    obtain ⟨l, r, harray, rfl, -⟩ := find_eq_some hfind
    simp only [hfind, Option.some.injEq] at h
    exact .inr (.inl ⟨l, r, harray, by simp [← h, harray]⟩)
  | none =>
    simp only [hfind] at h
    split at h
    · cases h
    · obtain rfl := Option.some.inj h
      cases hpush : v.push (some object) mem with
      | none => exact .inl rfl
      | some v' => exact .inr (.inr (IotcVector.push_eq_some hpush).1)

/-- With room, and memory where it is needed, a registration puts the object into a `NULL` slot or
behind the last one. -/
theorem registerHandleForObject_cases {v : Handles α} {maxObjectCnt : Int} {mem : Bool} (object : α)
    (hv : v.Sized) (hroom : v.Room maxObjectCnt) (hmem : none ∉ v.array → v.grows → mem = true) :
    ∃ v', v.registerHandleForObject maxObjectCnt object mem = some v' ∧ Sized v' ∧
      ((∃ l r, v.array = l ++ none :: r ∧ v'.array = l ++ some object :: r) ∨
        v'.array = v.array ++ [some object]) := by
  unfold registerHandleForObject
  cases hfind : v.find none with
  | some i =>
    obtain ⟨l, r, harray, rfl, -⟩ := find_eq_some hfind
    refine ⟨{ v with array := l ++ some object :: r }, by simp [harray],
      ⟨hv.managed, ?_, hv.capacity_pos, hv.capacity_le⟩, .inl ⟨l, r, harray, rfl⟩⟩
    have hle := hv.elemNo_le
    simp only [IotcVector.elemNo, harray, List.length_append, List.length_cons] at hle ⊢
    exact hle
  | none =>
    have hfull := find_eq_none.1 hfind
    obtain ⟨hmax, hplace⟩ := hroom.resolve_left hfull
    obtain ⟨v', hpush, harray, hv'⟩ := @push_spec _ v (some object) mem hv hplace (hmem hfull)
    refine ⟨v', ?_, hv', .inr harray⟩
    simp only
    rw [if_neg (by omega), hpush, Option.getD_some]

/-- What a registration does to the objects. -/
theorem registerHandleForObject_spec {v : Handles α} {maxObjectCnt : Int} {mem : Bool} (object : α)
    (hv : v.Sized) (hroom : v.Room maxObjectCnt) (hmem : none ∉ v.array → v.grows → mem = true) :
    ∃ v', v.registerHandleForObject maxObjectCnt object mem = some v' ∧
      v'.objects.Perm (object :: v.objects) ∧ Sized v' := by
  obtain ⟨v', h, hv', ⟨l, r, harray, harray'⟩ | harray⟩ :=
    registerHandleForObject_cases object hv hroom hmem
  · exact ⟨v', h, by simp [objects, harray, harray'], hv'⟩
  · refine ⟨v', h, ?_, hv'⟩
    simp only [objects, harray, List.filterMap_append]
    exact List.perm_append_singleton _ _

/-- A registration gives the object a slot that was free, and leaves the others. -/
theorem registerHandleForObject_handle {v : Handles α} {maxObjectCnt : Int} {mem : Bool} (object : α)
    (hv : v.Sized) (hroom : v.Room maxObjectCnt) (hmem : none ∉ v.array → v.grows → mem = true) :
    ∃ v' handle, v.registerHandleForObject maxObjectCnt object mem = some v' ∧ Sized v' ∧
      v.get handle = none ∧ ∀ h, v'.get h = if h = handle then some object else v.get h := by
  obtain ⟨v', h, hv', ⟨l, r, harray, harray'⟩ | harray⟩ :=
    registerHandleForObject_cases object hv hroom hmem
  · exact ⟨v', l.length, h, hv', by simp [get, harray], get_replace harray harray'⟩
  · exact ⟨v', v.array.length, h, hv', by simp [get], get_push harray⟩

/-- A deletion keeps the size. -/
theorem Sized.deleteHandleForObject {v v' : Handles α} {object : α} (hv : v.Sized)
    (h : v.deleteHandleForObject object = some v') : v'.Sized := by
  obtain ⟨i, -, rfl⟩ := Option.map_eq_some_iff.1 h
  refine ⟨hv.managed, ?_, hv.capacity_pos, hv.capacity_le⟩
  have hle := hv.elemNo_le
  simp only [IotcVector.elemNo, List.length_set] at hle ⊢
  exact hle

end Handles

end IotDeviceSdk.Datastructures
