import Mathlib.Algebra.GroupWithZero.Nat
import Mathlib.Algebra.Ring.Int.Defs
import IotDeviceSdk.Base
import IotDeviceSdk.Infra.Linked

/-!
# The memory limiter (`iotc_memory_limiter.c`)

Every block that the limiter hands out has an entry in front of it, which records its size. A
`size_t` is a natural number below `2 ^ 64`; an `int` has 32 bits. The platform's allocator answers
with the address of an entry, or with `none` for `NULL`.

A call is `none` where C does not say what happens: an entry that is not in memory is read or
written, an `int` overflows, an assertion does not hold.
-/

namespace IotDeviceSdk.MemoryLimiter

open Infra

abbrev Ptr := Nat

/-- `iotc_memory_limiter_allocation_type_t` -/
inductive AllocationType where
  | application
  | system
  deriving DecidableEq, Repr

/-- What the build fixes: the limits, `sizeof(iotc_memory_limiter_entry_t)` and
`IOTC_DEBUG_EXTRA_INFO`. -/
structure Config where
  applicationMemoryLimit : Nat
  systemMemoryLimit : Nat
  entrySize : Nat
  debugExtraInfo : Bool
  limits_lt : applicationMemoryLimit + systemMemoryLimit < 2 ^ 63

/-- The limits and the total, and the entries of the live blocks with their list. The value of a
cell is the `size` of an entry; without `IOTC_DEBUG_EXTRA_INFO` the list is not used. -/
structure Limiter where
  applicationLimit : Nat
  totalLimit : Nat
  allocated : Nat
  entries : Infra.Memory Ptr Nat
  deriving DecidableEq, Repr

/-! ## Integers -/

/-- The conversion to `size_t`. -/
def toSize (n : Int) : Nat := (n % 2 ^ 64).toNat

/-- The conversion to `long long`. -/
def toLongLong (n : Int) : Int := n.bmod (2 ^ 64)

/-- The conversion to `int`. -/
def toInt (n : Int) : Int := n.bmod (2 ^ 32)

def isInt (n : Int) : Bool := -2 ^ 31 ≤ n && n < 2 ^ 31

/-! ## The limits -/

namespace Limiter

/-- The static initialisers. -/
def init (c : Config) : Limiter where
  applicationLimit := c.applicationMemoryLimit
  totalLimit := c.applicationMemoryLimit + c.systemMemoryLimit
  allocated := 0
  entries := ⟨none, []⟩

/-- `iotc_memory_limiter_get_capacity` -/
def getCapacity (w : Limiter) : AllocationType → Nat
  | .application => w.applicationLimit
  | .system => w.totalLimit

/-- `iotc_memory_limiter_will_allocation_fit` -/
def willAllocationFit (w : Limiter) (memoryType : AllocationType) (sizeToAlloc : Nat) :
    IotcState :=
  if toSize (w.allocated + sizeToAlloc) > w.getCapacity memoryType then .outOfMemory else .ok

/-- `iotc_memory_limiter_set_limit` -/
def setLimit (c : Config) (w : Limiter) (newMemoryLimit : Nat) : IotcState × Limiter :=
  if newMemoryLimit < toSize (w.allocated + c.systemMemoryLimit) then (.outOfMemory, w)
  else (.ok, { w with
    totalLimit := newMemoryLimit
    applicationLimit := toSize ((newMemoryLimit : Int) - c.systemMemoryLimit) })

/-! ## Blocks -/

/-- `get_ptr_from_entry` -/
def getPtrFromEntry (c : Config) (entry : Ptr) : Ptr := entry + c.entrySize

/-- `get_entry_from_ptr` -/
def getEntryFromPtr (c : Config) (ptr : Ptr) : Ptr := ptr - c.entrySize

/-- The end of an allocation and of a reallocation: the entry becomes the head of the list and gets
the size of its block. -/
def setEntry (c : Config) (m : Infra.Memory Ptr Nat) (entry : Ptr) (size : Nat) :
    Option (Infra.Memory Ptr Nat) :=
  (if c.debugExtraInfo then m.pushFront entry else some m).bind fun m =>
    m.write entry fun e => { e with value := size }

/-- `iotc_memory_limiter_alloc` -/
def alloc (c : Config) (w : Limiter) (limitType : AllocationType) (sizeToAlloc : Nat)
    (answer : Option Ptr) : Option (Option Ptr × Limiter) :=
  let realSizeToAlloc := toSize (sizeToAlloc + c.entrySize)
  if w.willAllocationFit limitType realSizeToAlloc ≠ .ok then some (none, w)
  else match answer with
    | none => some (none, w)
    | some entry =>
      -- `memset(entry, 0, sizeof(iotc_memory_limiter_entry_t))`
      if realSizeToAlloc < c.entrySize then none
      else
        let m := { w.entries with cells := ⟨entry, none, none, 0⟩ :: w.entries.cells }
        (setEntry c m entry realSizeToAlloc).map fun m =>
          (some (getPtrFromEntry c entry),
            { w with entries := m, allocated := toSize (w.allocated + realSizeToAlloc) })

/-- `iotc_memory_limiter_calloc` -/
def calloc (c : Config) (w : Limiter) (limitType : AllocationType) (num sizeToAlloc : Nat)
    (answer : Option Ptr) : Option (Option Ptr × Limiter) :=
  w.alloc c limitType (toSize (num * sizeToAlloc)) answer

/-- The entry leaves its list. -/
def unlinkEntry (c : Config) (m : Infra.Memory Ptr Nat) (e : Cell Ptr Nat) :
    Option (Infra.Memory Ptr Nat) :=
  if c.debugExtraInfo then m.unlink e else some m

/-- `real_diff` of a reallocation. -/
def realDiff (c : Config) (e : Cell Ptr Nat) (sizeToAlloc : Nat) : Int :=
  toLongLong (toSize (sizeToAlloc + c.entrySize) - e.value)

/-- `iotc_memory_limiter_realloc`. The platform's `realloc` moves the entry with its links. -/
def realloc (c : Config) (w : Limiter) (limitType : AllocationType) (ptr : Option Ptr)
    (sizeToAlloc : Nat) (answer : Option Ptr) : Option (Option Ptr × Limiter) :=
  match ptr with
  | none => some (none, w)
  | some ptr =>
    (w.entries.read (getEntryFromPtr c ptr)).bind fun e =>
      let realSizeToAlloc := toSize (sizeToAlloc + c.entrySize)
      let realDiff := realDiff c e sizeToAlloc
      if w.willAllocationFit limitType (toSize (max realDiff 0)) ≠ .ok then some (none, w)
      else (unlinkEntry c w.entries e).bind fun m =>
        match answer with
        | none => some (none, { w with entries := m })
        | some entry =>
          if realSizeToAlloc < c.entrySize then none
          else (m.move e.address entry).bind fun m =>
            (setEntry c m entry realSizeToAlloc).map fun m =>
              (some (getPtrFromEntry c entry),
                { w with entries := m, allocated := toSize (w.allocated + realDiff) })

/-- The assertions of `iotc_memory_limiter_free`: the total covers the block, and the list has its
entry. A list that goes on after as many cells as there are is a cycle. -/
def freeAsserts (c : Config) (w : Limiter) (e : Cell Ptr Nat) : Bool :=
  w.allocated ≥ e.value &&
    (!c.debugExtraInfo ||
      w.entries.find e.address w.entries.cells.length w.entries.head = some (some e.address))

/-- `iotc_memory_limiter_free` -/
def free (c : Config) (w : Limiter) (ptr : Option Ptr) : Option Limiter :=
  match ptr with
  | none => some w
  | some ptr =>
    (w.entries.read (getEntryFromPtr c ptr)).bind fun e =>
      if !w.freeAsserts c e then none
      else (unlinkEntry c w.entries e).bind fun m =>
        let remaining := toInt w.allocated - toInt e.value
        if isInt remaining then
          some { w with
            entries := m.release e.address
            allocated := toSize (max remaining 0) }
        else none

/-! ## Garbage collection -/

/-- The end of the list that goes on with `tmp`, after at most `fuel` entries. -/
def lastFrom (m : Infra.Memory Ptr Nat) : Nat → Ptr → Option Ptr
  | 0, _ => none
  | fuel + 1, tmp =>
    (m.read tmp).bind fun e =>
      match e.next with
      | none => some tmp
      | some next => lastFrom m fuel next

/-- The list is freed from `tmp` upwards, at most `fuel` entries of it. -/
def freeUpwards (c : Config) : Nat → Limiter → Option Ptr → Option Limiter
  | _, w, none => some w
  | 0, _, some _ => none
  | fuel + 1, w, some tmp =>
    (w.entries.read tmp).bind fun e =>
      (w.free c (some (getPtrFromEntry c tmp))).bind fun w => freeUpwards c fuel w e.prev

/-- `iotc_memory_limiter_gc`, and whether it returns with the critical section locked. A walk over
more entries than there are does not end. -/
def gc (c : Config) (w : Limiter) : Option (Limiter × Bool) :=
  match w.entries.head with
  | none => some (w, true)
  | some tmp =>
    (lastFrom w.entries w.entries.cells.length tmp).bind fun last =>
      (freeUpwards c w.entries.cells.length w (some last)).map fun w => (w, false)

/-! ## What a call that succeeds went through -/

variable {c : Config} {w w' : Limiter} {t : AllocationType} {n : Nat} {answer : Option Ptr} {p : Ptr}

theorem alloc_eq_some (h : w.alloc c t n answer = some (some p, w')) :
    ∃ entry, answer = some entry ∧ p = getPtrFromEntry c entry ∧
      setEntry c { w.entries with cells := ⟨entry, none, none, 0⟩ :: w.entries.cells } entry
        (toSize (n + c.entrySize)) = some w'.entries := by
  unfold alloc at h
  simp only at h
  split at h
  · cases h
  · cases answer with
    | none => cases h
    | some entry =>
      simp only at h
      split at h
      · cases h
      · obtain ⟨m, hm, h⟩ := Option.map_eq_some_iff.1 h
        obtain ⟨hp, rfl⟩ := Prod.mk.inj h
        exact ⟨entry, rfl, (Option.some.inj hp).symm, hm⟩

theorem realloc_eq_some {ptr : Ptr} (h : w.realloc c t (some ptr) n answer = some (some p, w')) :
    ∃ e m m' entry, w.entries.read (getEntryFromPtr c ptr) = some e ∧
      w.willAllocationFit t (toSize (max (realDiff c e n) 0)) = .ok ∧
      unlinkEntry c w.entries e = some m ∧ answer = some entry ∧ p = getPtrFromEntry c entry ∧
      m.move e.address entry = some m' ∧
      setEntry c m' entry (toSize (n + c.entrySize)) = some w'.entries := by
  obtain ⟨e, he, h⟩ := Option.bind_eq_some_iff.1 h
  simp only at h
  split at h
  · cases h
  · next hfit =>
    obtain ⟨m, hm, h⟩ := Option.bind_eq_some_iff.1 h
    cases answer with
    | none => cases h
    | some entry =>
      simp only at h
      split at h
      · cases h
      · obtain ⟨m', hm', h⟩ := Option.bind_eq_some_iff.1 h
        obtain ⟨m'', hm'', h⟩ := Option.map_eq_some_iff.1 h
        obtain ⟨hp, rfl⟩ := Prod.mk.inj h
        exact ⟨e, m, m', entry, he, Decidable.of_not_not hfit, hm, rfl, (Option.some.inj hp).symm,
          hm', hm''⟩

theorem free_eq_some {ptr : Ptr} (h : w.free c (some ptr) = some w') :
    ∃ e m, w.entries.read (getEntryFromPtr c ptr) = some e ∧
      unlinkEntry c w.entries e = some m ∧ w'.entries = m.release e.address := by
  obtain ⟨e, he, h⟩ := Option.bind_eq_some_iff.1 h
  split at h
  · cases h
  · obtain ⟨m, hm, h⟩ := Option.bind_eq_some_iff.1 h
    simp only at h
    split at h
    · exact ⟨e, m, he, hm, by rw [← Option.some.inj h]⟩
    · cases h

end Limiter

/-! ## Calls -/

/-- A call of the limiter. The last argument of an allocation is what the platform answers if it is
asked. -/
inductive Call where
  | alloc (limitType : AllocationType) (sizeToAlloc : Nat) (answer : Option Ptr)
  | calloc (limitType : AllocationType) (num sizeToAlloc : Nat) (answer : Option Ptr)
  | realloc (limitType : AllocationType) (ptr : Option Ptr) (sizeToAlloc : Nat)
      (answer : Option Ptr)
  | free (ptr : Option Ptr)
  | setLimit (newMemoryLimit : Nat)
  deriving DecidableEq, Repr

/-- The pointer that the call returns, `none` for `NULL`, and what it leaves. -/
def call (c : Config) (w : Limiter) : Call → Option (Option Ptr × Limiter)
  | .alloc limitType sizeToAlloc answer => w.alloc c limitType sizeToAlloc answer
  | .calloc limitType num sizeToAlloc answer => w.calloc c limitType num sizeToAlloc answer
  | .realloc limitType ptr sizeToAlloc answer => w.realloc c limitType ptr sizeToAlloc answer
  | .free ptr => (w.free c ptr).map fun w => (none, w)
  | .setLimit newMemoryLimit => some (none, (w.setLimit c newMemoryLimit).2)

end IotDeviceSdk.MemoryLimiter
