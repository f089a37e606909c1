import IotDeviceSdk.Base
import IotDeviceSdk.Datastructures.Vector
import IotDeviceSdk.Infra.HighestBit
import IotDeviceSdk.Infra.Blocks

/-!
# The data descriptor (`iotc_data_desc.c`)

A buffer with a capacity and a length of 32 bits, that an append enlarges to a power of two. The sum
of the old length and the new bytes is a `size_t`, and is cut to 32 bits for the request; the power of
two is made by a shift in 32 bits, which is 0 for requests above `2 ^ 31`.

A failing assertion, and an access outside of a block, have no result.
-/

namespace IotDeviceSdk.Datastructures

open Infra

/-- `size_t` -/
inductive SizeT where
  | bits32
  | bits64
  deriving DecidableEq, Repr

/-- The first number that is too large. -/
def SizeT.size : SizeT → Nat
  | .bits32 => 2 ^ 32
  | .bits64 => 2 ^ 64

theorem SizeT.le_size (σ : SizeT) : 2 ^ 32 ≤ σ.size := by
  cases σ <;> decide

/-- `iotc_data_desc_t`. `dataPtr` is the address of a block. -/
structure DataDesc where
  dataPtr : Ptr
  capacity : UInt32
  length : UInt32
  memoryType : MemoryType
  deriving DecidableEq, Repr

/-! ## Capacities -/

/-- `iotc_highest_bit_filter` -/
def highestBitFilter (value : UInt32) : UInt32 :=
  let value := value ||| value >>> 1
  let value := value ||| value >>> 2
  let value := value ||| value >>> 4
  let value := value ||| value >>> 8
  let value := value ||| value >>> 16
  value &&& ~~~(value >>> 1)

/-- `iotc_data_desc_find_pow2_capacity` -/
def findPow2Capacity (original desire : UInt32) : UInt32 :=
  if desire ≤ original then original
  else
    let tmp := highestBitFilter desire
    if tmp < desire then tmp <<< 1 else tmp

/-- `iotc_data_desc_pow2_realloc_strategy` -/
def pow2ReallocStrategy (original desired : UInt32) : UInt32 := findPow2Capacity original desired

theorem toNat_not_testBit (a : UInt32) (i : Nat) :
    (~~~a).toNat.testBit i = (decide (i < 32) && !a.toNat.testBit i) := by
  have h := a.toNat_lt
  rw [UInt32.toNat_not, show UInt32.size - 1 - a.toNat = 2 ^ 32 - (a.toNat + 1) by
    rw [show UInt32.size = 2 ^ 32 from rfl]; omega]
  exact Nat.testBit_two_pow_sub_succ h i

theorem highestBitFilter_toNat {v : UInt32} (hv : v ≠ 0) :
    (highestBitFilter v).toNat = 2 ^ v.toNat.log2 := by
  have hne : v.toNat ≠ 0 := fun h => hv (UInt32.toNat_inj.mp h)
  have hsmeared := (Smeared.one v.toNat).double.double.double.double.double
  -- the filter of a number that has been smeared
  have hfilter (u : UInt32) (i : Nat) : (u &&& ~~~(u >>> 1)).toNat.testBit i =
      (u.toNat.testBit i && !u.toNat.testBit (i + 1)) := by
    rw [UInt32.toNat_and, Nat.testBit_and, toNat_not_testBit, UInt32.toNat_shiftRight,
      Nat.testBit_shiftRight, Nat.add_comm _ i]
    by_cases hi : i < 32
    · simp [hi]
    · have hzero : u.toNat.testBit i = false :=
        Nat.testBit_lt_two_pow (Nat.lt_of_lt_of_le u.toNat_lt
          (Nat.pow_le_pow_right (by decide) (Nat.not_lt.mp hi)))
      simp [hzero]
  refine hsmeared.highestBit v.toNat_lt hne fun i => ?_
  refine (hfilter _ i).trans ?_
  simp only [UInt32.toNat_or, UInt32.toNat_shiftRight]
  rfl

/-- **The capacity for a request** that is larger than the buffer: a power of two, or 0 if that has no
place in 32 bits. -/
theorem findPow2Capacity_toNat {original desire : UInt32} (h : original < desire) :
    (desire.toNat ≤ 2 ^ 31 → desire ≤ findPow2Capacity original desire) ∧
      (2 ^ 31 < desire.toNat → findPow2Capacity original desire = 0) := by
  have hne : desire ≠ 0 := fun h0 => by
    rw [h0] at h
    exact absurd h UInt32.not_lt_zero
  have hpos : desire.toNat ≠ 0 := fun h0 => hne (UInt32.toNat_inj.mp h0)
  have hfilter := highestBitFilter_toNat hne
  have hlow := Nat.log2_self_le hpos
  have hhigh : desire.toNat < 2 ^ (desire.toNat.log2 + 1) := Nat.lt_log2_self
  have hlog : desire.toNat.log2 < 32 := (Nat.log2_lt hpos).mpr desire.toNat_lt
  have hshift : (highestBitFilter desire <<< 1).toNat = 2 ^ (desire.toNat.log2 + 1) % 2 ^ 32 := by
    rw [UInt32.toNat_shiftLeft, hfilter, Nat.shiftLeft_eq, Nat.pow_succ]
    rfl
  unfold findPow2Capacity
  rw [if_neg (UInt32.not_le.mpr h)]
  dsimp only
  constructor
  · intro hle
    split
    · next hlt =>
      rw [UInt32.le_iff_toNat_le, hshift, Nat.mod_eq_of_lt]
      · exact Nat.le_of_lt hhigh
      · refine Nat.pow_lt_pow_right (by decide) ?_
        rw [UInt32.lt_iff_toNat_lt, hfilter] at hlt
        have hlog' : desire.toNat.log2 < 31 :=
          (Nat.pow_lt_pow_iff_right (by decide)).mp (Nat.lt_of_lt_of_le hlt hle)
        omega
    · next hge => exact UInt32.not_lt.mp hge
  · intro hlt
    have heq : desire.toNat.log2 = 31 := by
      have hge : 31 ≤ desire.toNat.log2 := (Nat.le_log2 hpos).mpr (Nat.le_of_lt hlt)
      omega
    have hsmall : highestBitFilter desire < desire := by
      rw [UInt32.lt_iff_toNat_lt, hfilter, heq]
      exact hlt
    rw [if_pos hsmall, ← UInt32.toNat_inj, hshift, heq]
    rfl

/-- No power of two is larger than `2 ^ 31`. -/
theorem findPow2Capacity_le {original desire : UInt32} (h : original < desire) :
    (findPow2Capacity original desire).toNat ≤ 2 ^ 31 := by
  have hne : desire ≠ 0 := fun h0 => by
    rw [h0] at h
    exact absurd h UInt32.not_lt_zero
  have hpos : desire.toNat ≠ 0 := fun h0 => hne (UInt32.toNat_inj.mp h0)
  have hfilter := highestBitFilter_toNat hne
  have hlog : desire.toNat.log2 < 32 := (Nat.log2_lt hpos).mpr desire.toNat_lt
  have hshift : (highestBitFilter desire <<< 1).toNat = 2 ^ (desire.toNat.log2 + 1) % 2 ^ 32 := by
    rw [UInt32.toNat_shiftLeft, hfilter, Nat.shiftLeft_eq, Nat.pow_succ]
    rfl
  unfold findPow2Capacity
  rw [if_neg (UInt32.not_le.mpr h)]
  dsimp only
  split
  · rw [hshift]
    by_cases hlast : desire.toNat.log2 = 31
    · rw [hlast]
      decide
    · refine Nat.le_trans (Nat.mod_le ..) (Nat.pow_le_pow_right (by decide) ?_)
      omega
  · rw [hfilter]
    exact Nat.pow_le_pow_right (by decide) (Nat.le_of_lt_succ hlog)

/-- **The strategy grants a request** exactly if it is small enough. -/
theorem le_pow2ReallocStrategy_iff (original desired : UInt32) :
    desired ≤ pow2ReallocStrategy original desired ↔ desired ≤ original ∨ desired.toNat ≤ 2 ^ 31 := by
  unfold pow2ReallocStrategy
  by_cases h : desired ≤ original
  · rw [findPow2Capacity, if_pos h]
    exact iff_of_true h (.inl h)
  · obtain ⟨hgrants, hzero⟩ := findPow2Capacity_toNat (UInt32.not_le.mp h)
    constructor
    · intro hle
      refine .inr (Nat.not_lt.mp fun hlt => ?_)
      rw [hzero hlt] at hle
      exact h (UInt32.le_trans hle UInt32.zero_le)
    · intro hor
      exact hgrants (hor.resolve_left h)

/-! ## Making descriptors -/

namespace DataDesc

/-- `iotc_make_empty_desc_alloc`. The answers of the allocator are for the descriptor and for its
buffer; without one of them there is no descriptor. The capacity is cut to 32 bits, the block is not. -/
def makeEmptyDescAlloc (m : Blocks UInt8) (capacity : Nat) (descMem bufferMem : Bool) :
    Option (Blocks UInt8 × Option DataDesc) :=
  if capacity = 0 then none
  else if descMem && bufferMem then
    some ((m.alloc (List.replicate capacity 0)).2, some ⟨m.next, .ofNat capacity, 0, .managed⟩)
  else some (m, none)

/-- `iotc_make_desc_from_buffer_share`. The buffer is the block of somebody else, which begins to count
here. -/
def makeDescFromBufferShare (m : Blocks UInt8) (buffer : Option Bytes) (mem : Bool) :
    Option (Blocks UInt8 × Option DataDesc) :=
  buffer.map fun buffer =>
    if mem then
      ((m.alloc buffer).2, some ⟨m.next, .ofNat buffer.length, .ofNat buffer.length, .unmanaged⟩)
    else (m, none)

/-! ## Appending -/

/-- `IOTC_BUFFER_OVERFLOW` -/
def bufferOverflow : IotcState := .other 50

/-- `iotc_data_desc_will_it_fit` -/
def willItFit (σ : SizeT) (desc : DataDesc) (len : Nat) : Bool :=
  !(desc.capacity.toNat < (desc.length.toNat + len) % σ.size)

/-- `iotc_data_desc_realloc`. `mem` is the answer of the allocator. -/
def realloc (m : Blocks UInt8) (desc : DataDesc) (newCapacity : UInt32)
    (strategy : Option (UInt32 → UInt32 → UInt32)) (mem : Bool) :
    Option (Blocks UInt8 × DataDesc × IotcState) :=
  if desc.memoryType = .unknown then none
  else
    match strategy with
    | none => some (m, desc, .invalidParameter)
    | some strategy =>
      let calculatedCapacity := strategy desc.capacity newCapacity
      if mem then do
        let (newBuf, m) := m.alloc (List.replicate calculatedCapacity.toNat 0)
        let m ← m.copy newBuf desc.dataPtr desc.capacity.toNat
        let m ← if desc.memoryType = .managed then m.free desc.dataPtr else some m
        some (m, { desc with dataPtr := newBuf, capacity := calculatedCapacity,
                             memoryType := .managed }, .ok)
      else some (m, desc, .outOfMemory)

/-- `iotc_data_desc_assure_buf_len`. The new length is cut to 32 bits for `iotc_data_desc_realloc`. -/
def assureBufLen (σ : SizeT) (m : Blocks UInt8) (out : DataDesc) (len : Nat) (mem : Bool) :
    Option (Blocks UInt8 × DataDesc × IotcState) :=
  if out.willItFit σ len then some (m, out, .ok)
  else realloc m out (.ofNat ((out.length.toNat + len) % σ.size)) (some pow2ReallocStrategy) mem

/-- `iotc_data_desc_append_data_resize`. The bytes of `data` are not those of the buffer itself. -/
def appendDataResize (σ : SizeT) (m : Blocks UInt8) (out : Option DataDesc) (data : Option Bytes)
    (mem : Bool) : Option (Blocks UInt8 × Option DataDesc × IotcState) :=
  match out, data with
  | some out, some data => do
    let (m, out, state) ← assureBufLen σ m out data.length mem
    if state ≠ .ok then some (m, some out, state)
    else
      let m ← m.store out.dataPtr out.length.toNat data
      some (m, some { out with length := out.length + .ofNat data.length }, .ok)
  | out, _ => some (m, out, .invalidParameter)

/-- `iotc_data_desc_append_bytes` -/
def appendBytes (σ : SizeT) (m : Blocks UInt8) (out : Option DataDesc) (bytes : Option Bytes) :
    Option (Blocks UInt8 × Option DataDesc × IotcState) :=
  match out, bytes with
  | some out, some bytes =>
    if out.willItFit σ bytes.length then
      (m.store out.dataPtr out.length.toNat bytes).map fun m =>
        (m, some { out with length := out.length + .ofNat bytes.length }, .ok)
    else some (m, some out, bufferOverflow)
  | out, _ => some (m, out, .invalidParameter)

end DataDesc

end IotDeviceSdk.Datastructures
