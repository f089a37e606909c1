import IotDeviceSdk.Base
import IotDeviceSdk.Datastructures.DataDesc
import IotDeviceSdk.Infra.Run

/-!
# The file system in memory (`iotc_fs_memory.c`)

The files are compiled in. A handle is the index of a file in the database, and `-1` is the handle of
none. `iotc_fs_read` and `iotc_fs_close` check a handle themselves: they let the one after the last
index pass, and the ones below `-1`, and then look at the database there.

An access outside of the database, a failing assertion and a `NULL` that is read from have no result.
-/

namespace IotDeviceSdk.Fs

open Datastructures Infra

/-- `IOTC_FS_RESOURCE_NOT_AVAILABLE` -/
def resourceNotAvailable : IotcState := .other 56

/-- `IOTC_FS_ERROR` -/
def fsError : IotcState := .other 57

/-! ## The database -/

/-- `iotc_fs_memory_resource_state_t` -/
inductive ResourceState where
  | closed
  | opened
  deriving DecidableEq, Repr

/-- `iotc_fs_memory_database_t`. `content` is the array that the handlers of the file are about, and
`memoryPtr` is the one that the file has been opened with. -/
structure Entry where
  fileName : Bytes
  content : Bytes
  memoryPtr : Option Bytes
  openCounter : Nat
  resourceState : ResourceState
  deriving DecidableEq, Repr

/-- `size_t`, and `iotc_fs_buffer_size`. -/
structure Config where
  sizeT : SizeT
  bufferSize : Nat
  bufferSize_pos : 0 < bufferSize

/-- A file that has not been opened. -/
def Entry.unopened (fileName content : Bytes) : Entry := ⟨fileName, content, none, 0, .closed⟩

/-- `IOTC_FS_MEMORY_DATABASE`, with the files and their contents. -/
def database (files : List (Bytes × Bytes)) : List Entry := files.map fun f => .unopened f.1 f.2

/-- `IOTC_FS_INVALID_RESOURCE_HANDLE` -/
def invalidHandle : Int := -1

/-- `IOTC_FS_MEMORY_DATABASE[resource_handle]` -/
def entryAt (db : List Entry) (resourceHandle : Int) : Option Entry :=
  if 0 ≤ resourceHandle then db[resourceHandle.toNat]? else none

/-- The test of a handle in `iotc_fs_read` and `iotc_fs_close`. -/
def isRefused (db : List Entry) (resourceHandle : Int) : Bool :=
  resourceHandle = invalidHandle || resourceHandle > db.length

/-! ## The operations -/

/-- `iotc_fs_memory_find_entry` -/
def findEntry (db : List Entry) (resourceName : Bytes) : Int × IotcState :=
  match db.findIdx? fun entry => resourceName = entry.fileName with
  | some i => (i, .ok)
  | none => (invalidHandle, resourceNotAvailable)

/-- `iotc_fs_memory_stat_builtin_cert` -/
def Entry.stat (entry : Entry) : Nat := entry.content.length

/-- `iotc_fs_memory_open_builtin_cert` -/
def Entry.openHandler (entry : Entry) : Entry := { entry with memoryPtr := some entry.content }

/-- What a call returns: the state, and what it writes to `*resource_handle` or `*buffer`. -/
structure Answer where
  state : IotcState
  resourceHandle : Option Int := none
  buffer : Option Bytes := none
  deriving DecidableEq, Repr

/-- `iotc_fs_open`. `resourceHandle` says whether there is a place for the handle. -/
def fsOpen (c : Config) (db : List Entry) (resourceName : Option Bytes) (openFlags : Nat)
    (resourceHandle : Bool) : Option (List Entry × Answer) :=
  match resourceName, resourceHandle with
  | some resourceName, true =>
    if openFlags &&& 2 = 2 ∨ openFlags &&& 4 = 4 then some (db, { state := fsError })
    else
      let (handle, res) := findEntry db resourceName
      if res = .ok then do
        let entry ← entryAt db handle
        let entry := { entry with
          resourceState := .opened
          openCounter := (entry.openCounter + 1) % c.sizeT.size }
        some (db.set handle.toNat entry.openHandler, { state := .ok, resourceHandle := some handle })
      else some (db, { state := res, resourceHandle := some handle })
  | _, _ => some (db, { state := .invalidParameter })

/-- `iotc_fs_read`. `buffer` is `none` for `NULL`, and else what `*buffer` is; `bufferSize` says whether
there is a place for the size. The bytes of the answer are those from `*buffer` on. -/
def fsRead (c : Config) (db : List Entry) (resourceHandle : Int) (offset : Nat)
    (buffer : Option (Option Bytes)) (bufferSize : Bool) : Option Answer :=
  if isRefused db resourceHandle then some { state := .invalidParameter }
  else do
    let entry ← entryAt db resourceHandle
    if entry.resourceState ≠ .opened then some { state := fsError }
    else
      match buffer, bufferSize with
      | some none, true => do
        let resourceSize := entry.stat
        let realOffset := min offset resourceSize
        let memory ← entry.memoryPtr
        let size := min (resourceSize - realOffset) c.bufferSize
        if realOffset + size ≤ memory.length then
          some { state := .ok, buffer := some ((memory.drop realOffset).take size) }
        else none
      | _, _ => some { state := .invalidParameter }

/-- `iotc_fs_close` -/
def fsClose (c : Config) (db : List Entry) (resourceHandle : Int) : Option (List Entry × Answer) :=
  if isRefused db resourceHandle then some (db, { state := .invalidParameter })
  else do
    let entry ← entryAt db resourceHandle
    if entry.resourceState ≠ .opened then some (db, { state := fsError })
    else
      let openCounter := (entry.openCounter + c.sizeT.size - 1) % c.sizeT.size
      let entry := { entry with openCounter }
      let entry := if openCounter = 0 then { entry with memoryPtr := none, resourceState := .closed }
        else entry
      some (db.set resourceHandle.toNat entry, { state := .ok })

/-- A call. -/
inductive Call where
  | fsOpen (resourceName : Option Bytes) (openFlags : Nat) (resourceHandle : Bool)
  | fsRead (resourceHandle : Int) (offset : Nat) (buffer : Option (Option Bytes)) (bufferSize : Bool)
  | fsClose (resourceHandle : Int)
  deriving DecidableEq, Repr

def call (c : Config) (db : List Entry) : Call → Option (List Entry × Answer)
  | .fsOpen resourceName openFlags resourceHandle => fsOpen c db resourceName openFlags resourceHandle
  | .fsRead resourceHandle offset buffer bufferSize =>
    (fsRead c db resourceHandle offset buffer bufferSize).map (db, ·)
  | .fsClose resourceHandle => fsClose c db resourceHandle

def step (c : Config) (db : List Entry) (e : Call) : Option (List Entry) := (call c db e).map Prod.fst

/-- Successive reads, each from where the one before has ended. -/
def readChunks (c : Config) (db : List Entry) (resourceHandle : Int) : Nat → Nat → Option Bytes
  | 0, _ => some []
  | k + 1, offset => do
    let answer ← fsRead c db resourceHandle offset (some none) true
    let chunk ← answer.buffer
    let rest ← readChunks c db resourceHandle k (offset + chunk.length)
    some (chunk ++ rest)

/-! ## What is claimed -/

/-- The handle of a file that is open. -/
def IsOpen (db : List Entry) (resourceHandle : Int) : Prop :=
  ∃ entry, entryAt db resourceHandle = some entry ∧ entry.resourceState = .opened

/-- **What is claimed of a state**: a file is open if its counter is positive, and the reads of an open file
return its content. -/
structure Holds (c : Config) (db : List Entry) : Prop where
  state : ∀ entry ∈ db, entry.resourceState = .opened ↔ 0 < entry.openCounter
  content : ∀ handle entry, entryAt db handle = some entry → entry.resourceState = .opened →
    ∀ k, entry.content.length ≤ k * c.bufferSize → readChunks c db handle k 0 = some entry.content

/-- The handle that a call is given. -/
def Call.handle : Call → Option Int
  | .fsOpen .. => none
  | .fsRead resourceHandle .. => some resourceHandle
  | .fsClose resourceHandle => some resourceHandle

/-- **What is claimed of a call**: it returns, it refuses a handle that is not that of an open file and
changes nothing then, and the next state is as claimed. -/
def Sound (c : Config) (db : List Entry) (e : Call) : Prop :=
  ∃ db' answer, call c db e = some (db', answer) ∧ Holds c db' ∧
    ∀ handle ∈ e.handle, ¬IsOpen db handle → answer.state ≠ .ok ∧ db' = db

/-- The file that a call is going to open. -/
def toOpen (db : List Entry) : Call → Option Entry
  | .fsOpen (some resourceName) openFlags true =>
    if openFlags &&& 2 = 2 ∨ openFlags &&& 4 = 4 then none
    else entryAt db (findEntry db resourceName).1
  | _ => none

/-- **The condition**: the handle is `-1`, an index, or more than the number of files; and a file that is
opened is not open as often as a `size_t` can count. -/
def Within (c : Config) (db : List Entry) (e : Call) : Prop :=
  (∀ handle ∈ e.handle, handle ≠ db.length ∧ (handle < 0 → handle = invalidHandle)) ∧
    ∀ entry ∈ toOpen db e, entry.openCounter + 1 < c.sizeT.size

/-! ## Entries -/

variable {c : Config} {db db' : List Entry} {entry : Entry} {handle : Int}

theorem entryAt_mem (h : entryAt db handle = some entry) :
    entry ∈ db ∧ db[handle.toNat]? = some entry ∧ 0 ≤ handle := by
  unfold entryAt at h
  split at h
  · next h0 => exact ⟨List.mem_of_getElem? h, h, h0⟩
  · cases h

theorem exists_entryAt (h0 : 0 ≤ handle) (h : handle < db.length) : ∃ entry, entryAt db handle = some entry := by
  have hlt : handle.toNat < db.length := by omega
  exact ⟨db[handle.toNat], by rw [entryAt, if_pos h0, List.getElem?_eq_getElem hlt]⟩

theorem entryAt_eq_none (h : handle < 0 ∨ handle = db.length) : entryAt db handle = none := by
  unfold entryAt
  split
  · next h0 =>
    rw [List.getElem?_eq_none_iff]
    omega
  · rfl

/-- What a search returns is in the database. -/
theorem findEntry_cases (db : List Entry) (resourceName : Bytes) :
    (∃ entry, entryAt db (findEntry db resourceName).1 = some entry ∧
        (findEntry db resourceName).2 = .ok) ∨
      findEntry db resourceName = (invalidHandle, resourceNotAvailable) := by
  cases hfind : db.findIdx? fun entry => resourceName = entry.fileName with
  | none => exact .inr (by rw [findEntry, hfind])
  | some i =>
    have hlt : i < db.length := (List.findIdx?_eq_some_iff_findIdx_eq.mp hfind).1
    refine .inl ?_
    rw [findEntry, hfind]
    obtain ⟨entry, hentry⟩ := exists_entryAt (Int.natCast_nonneg i) (Int.ofNat_lt.mpr hlt)
    exact ⟨entry, hentry, rfl⟩

/-! ## The invariant -/

/-- **The invariant of a file.** -/
structure Entry.Kept (c : Config) (entry : Entry) : Prop where
  opened_iff : entry.resourceState = .opened ↔ 0 < entry.openCounter
  bounded : entry.openCounter < c.sizeT.size
  memory : entry.resourceState = .opened → entry.memoryPtr = some entry.content

/-- Every file keeps the invariant. -/
def Kept (c : Config) (db : List Entry) : Prop := ∀ entry ∈ db, entry.Kept c

theorem Kept.set (h : Kept c db) (hentry : entry.Kept c) (i : Nat) : Kept c (db.set i entry) := by
  intro x hx
  rcases List.mem_or_eq_of_mem_set hx with hmem | rfl
  · exact h x hmem
  · exact hentry

theorem database_kept (c : Config) (files : List (Bytes × Bytes)) : Kept c (database files) := by
  intro entry hentry
  obtain ⟨f, -, rfl⟩ := List.mem_map.mp hentry
  have hpos : 0 < c.sizeT.size := Nat.lt_of_lt_of_le (by decide) c.sizeT.le_size
  exact ⟨⟨fun h => ResourceState.noConfusion h, fun h => absurd h (Nat.lt_irrefl 0)⟩, hpos,
    fun h => ResourceState.noConfusion h⟩

/-! ## Reading -/

/-- A read of an open file. -/
theorem fsRead_opened (hkept : Kept c db) (hentry : entryAt db handle = some entry)
    (hopen : entry.resourceState = .opened) {offset : Nat} (hoffset : offset ≤ entry.content.length) :
    fsRead c db handle offset (some none) true = some
      { state := .ok, buffer := some ((entry.content.drop offset).take c.bufferSize) } := by
  obtain ⟨hmem, hget, h0⟩ := entryAt_mem hentry
  have hlt : handle.toNat < db.length := (List.getElem?_eq_some_iff.mp hget).1
  have hpass : isRefused db handle = false := by
    rw [isRefused, Bool.or_eq_false_iff, decide_eq_false_iff_not, decide_eq_false_iff_not]
    unfold invalidHandle
    constructor <;> omega
  have hmin : min offset entry.stat = offset := Nat.min_eq_left hoffset
  have htake : (entry.content.drop offset).take (min (entry.stat - offset) c.bufferSize) =
      (entry.content.drop offset).take c.bufferSize := by
    have hlen : (entry.content.drop offset).length = entry.stat - offset := List.length_drop
    rw [← hlen, ← List.take_take]
    exact List.take_of_length_le (List.length_take_le' ..)
  have hfits : offset + min (entry.stat - offset) c.bufferSize ≤ entry.content.length := by
    unfold Entry.stat
    omega
  unfold fsRead
  simp [hpass, hentry, hopen, (hkept entry hmem).memory hopen, hmin, hfits, htake]

/-- **Successive reads** return what follows the offset, up to the size of that many chunks. -/
theorem readChunks_eq (hkept : Kept c db) (hentry : entryAt db handle = some entry)
    (hopen : entry.resourceState = .opened) (k : Nat) {offset : Nat}
    (hoffset : offset ≤ entry.content.length) :
    readChunks c db handle k offset = some ((entry.content.drop offset).take (k * c.bufferSize)) := by
  induction k generalizing offset with
  | zero => rw [readChunks, Nat.zero_mul, List.take_zero]
  | succ k ih =>
    have hread := fsRead_opened hkept hentry hopen hoffset
    have hchunk : ((entry.content.drop offset).take c.bufferSize).length =
        min c.bufferSize (entry.content.length - offset) := by
      rw [List.length_take, List.length_drop]
    have hnext := ih (show offset + ((entry.content.drop offset).take c.bufferSize).length ≤ _ by omega)
    simp only [readChunks, hread, hnext, Option.bind_eq_bind, Option.bind_some]
    refine congrArg some ?_
    by_cases hlast : entry.content.length - offset ≤ c.bufferSize
    · -- the chunk is all that is left
      have hall : (entry.content.drop offset).length ≤ c.bufferSize := by
        rw [List.length_drop]
        exact hlast
      have hall' : (entry.content.drop offset).length ≤ (k + 1) * c.bufferSize :=
        Nat.le_trans hall (Nat.le_mul_of_pos_left _ (Nat.succ_pos k))
      rw [List.take_of_length_le hall, List.take_of_length_le hall', List.length_drop,
        Nat.add_sub_of_le hoffset, List.drop_length, List.take_nil, List.append_nil]
    · have hfull : ((entry.content.drop offset).take c.bufferSize).length = c.bufferSize := by
        omega
      rw [hfull, ← List.drop_drop, ← List.take_add, Nat.succ_mul, Nat.add_comm]

theorem Kept.holds (h : Kept c db) : Holds c db where
  state entry hentry := (h entry hentry).opened_iff
  content handle entry hentry hopen k hk := by
    rw [readChunks_eq h hentry hopen k (Nat.zero_le _), List.drop_zero, List.take_of_length_le hk]

/-! ## Steps -/

/-- A handle that is refused is not that of a file. -/
theorem not_isOpen_of_refused (h : isRefused db handle = true) : ¬IsOpen db handle := by
  rintro ⟨entry, hentry, -⟩
  obtain ⟨-, hget, h0⟩ := entryAt_mem hentry
  have hlt : handle.toNat < db.length := (List.getElem?_eq_some_iff.mp hget).1
  rw [isRefused, Bool.or_eq_true, decide_eq_true_eq, decide_eq_true_eq] at h
  unfold invalidHandle at h
  omega

/-- A handle that passes the test is an index, if it meets the condition. -/
theorem exists_entry_of_passed (hpass : isRefused db handle = false)
    (hwithin : handle ≠ db.length ∧ (handle < 0 → handle = invalidHandle)) :
    ∃ entry, entryAt db handle = some entry := by
  rw [isRefused, Bool.or_eq_false_iff, decide_eq_false_iff_not, decide_eq_false_iff_not] at hpass
  refine exists_entryAt ?_ (by omega)
  by_contra hneg
  exact hpass.1 (hwithin.2 (by omega))

/-- A handle that does not is let pass, and there is no file. -/
theorem passed_of_not_within
    (h : ¬(handle ≠ db.length ∧ (handle < 0 → handle = invalidHandle))) :
    isRefused db handle = false ∧ entryAt db handle = none := by
  rw [isRefused, Bool.or_eq_false_iff, decide_eq_false_iff_not, decide_eq_false_iff_not]
  by_cases hlast : handle = db.length
  · refine ⟨⟨?_, ?_⟩, entryAt_eq_none (.inr hlast)⟩
    · unfold invalidHandle
      omega
    · omega
  · obtain ⟨hneg, hne⟩ := Classical.not_imp.mp fun himp => h ⟨hlast, himp⟩
    exact ⟨⟨hne, by omega⟩, entryAt_eq_none (.inl hneg)⟩

theorem fsRead_sound (hkept : Kept c db) (offset : Nat) (buffer : Option (Option Bytes)) (size : Bool)
    (hwithin : handle ≠ db.length ∧ (handle < 0 → handle = invalidHandle)) :
    ∃ answer, fsRead c db handle offset buffer size = some answer ∧
      (¬IsOpen db handle → answer.state ≠ .ok) := by
  unfold fsRead
  by_cases hpass : isRefused db handle = true
  · rw [if_pos hpass]
    exact ⟨_, rfl, fun _ => IotcState.noConfusion⟩
  rw [if_neg hpass]
  obtain ⟨entry, hentry⟩ := exists_entry_of_passed (Bool.eq_false_iff.mpr hpass) hwithin
  rw [hentry, Option.bind_eq_bind, Option.bind_some]
  by_cases hopen : entry.resourceState = .opened
  · rw [if_neg (not_not.mpr hopen)]
    have hisOpen : IsOpen db handle := ⟨entry, hentry, hopen⟩
    split
    · have hmemory := (hkept entry (entryAt_mem hentry).1).memory hopen
      have hfits : min offset entry.stat + min (entry.stat - min offset entry.stat) c.bufferSize ≤
          entry.content.length := by
        unfold Entry.stat
        omega
      rw [hmemory]
      simp only [Option.bind_eq_bind, Option.bind_some]
      rw [if_pos hfits]
      exact ⟨_, rfl, fun h => absurd hisOpen h⟩
    · exact ⟨_, rfl, fun h => absurd hisOpen h⟩
  · rw [if_pos hopen]
    exact ⟨_, rfl, fun _ => IotcState.noConfusion⟩

theorem fsClose_sound (hkept : Kept c db)
    (hwithin : handle ≠ db.length ∧ (handle < 0 → handle = invalidHandle)) :
    ∃ db' answer, fsClose c db handle = some (db', answer) ∧ Kept c db' ∧
      (¬IsOpen db handle → answer.state ≠ .ok ∧ db' = db) := by
  unfold fsClose
  by_cases hpass : isRefused db handle = true
  · rw [if_pos hpass]
    exact ⟨db, _, rfl, hkept, fun _ => ⟨IotcState.noConfusion, rfl⟩⟩
  rw [if_neg hpass]
  obtain ⟨entry, hentry⟩ := exists_entry_of_passed (Bool.eq_false_iff.mpr hpass) hwithin
  rw [hentry, Option.bind_eq_bind, Option.bind_some]
  by_cases hopen : entry.resourceState = .opened
  · rw [if_neg (not_not.mpr hopen)]
    have hentryKept := hkept entry (entryAt_mem hentry).1
    have hpos := hentryKept.opened_iff.mp hopen
    have hbounded := hentryKept.bounded
    have hcounter : (entry.openCounter + c.sizeT.size - 1) % c.sizeT.size = entry.openCounter - 1 := by
      rw [show entry.openCounter + c.sizeT.size - 1 = entry.openCounter - 1 + c.sizeT.size by omega,
        Nat.add_mod_right, Nat.mod_eq_of_lt (by omega)]
    refine ⟨_, _, rfl, hkept.set ?_ _, fun h => absurd ⟨entry, hentry, hopen⟩ h⟩
    rw [hcounter]
    split
    · next hzero =>
      exact ⟨⟨fun h => ResourceState.noConfusion h, fun h => absurd hzero (Nat.ne_of_gt h)⟩,
        Nat.lt_of_le_of_lt (Nat.sub_le ..) hbounded, fun h => ResourceState.noConfusion h⟩
    · next hne =>
      exact ⟨⟨fun _ => Nat.pos_of_ne_zero hne, fun _ => hopen⟩,
        Nat.lt_of_le_of_lt (Nat.sub_le ..) hbounded, hentryKept.memory⟩
  · rw [if_pos hopen]
    exact ⟨db, _, rfl, hkept, fun _ => ⟨IotcState.noConfusion, rfl⟩⟩

/-- The file that is opened, as it is after that. -/
def Entry.reopened (c : Config) (entry : Entry) : Entry :=
  { entry with
    resourceState := .opened
    openCounter := (entry.openCounter + 1) % c.sizeT.size
    memoryPtr := some entry.content }

/-- **`iotc_fs_open`** changes the file that it opens, and nothing if there is none. -/
theorem fsOpen_cases (c : Config) (db : List Entry) (resourceName : Option Bytes) (openFlags : Nat)
    (resourceHandle : Bool) :
    ∃ db' answer, fsOpen c db resourceName openFlags resourceHandle = some (db', answer) ∧
      ((toOpen db (.fsOpen resourceName openFlags resourceHandle) = none ∧ db' = db) ∨
        ∃ handle entry, toOpen db (.fsOpen resourceName openFlags resourceHandle) = some entry ∧
          entryAt db handle = some entry ∧ db' = db.set handle.toNat (entry.reopened c)) := by
  unfold fsOpen
  split
  · next name =>
    by_cases hwrite : openFlags &&& 2 = 2 ∨ openFlags &&& 4 = 4
    · rw [if_pos hwrite]
      exact ⟨db, _, rfl, .inl ⟨if_pos hwrite, rfl⟩⟩
    rw [if_neg hwrite]
    rcases findEntry_cases db name with ⟨entry, hentry, hok⟩ | hnone
    · simp only [hok, hentry, if_pos, Option.bind_eq_bind, Option.bind_some]
      refine ⟨_, _, rfl, .inr ⟨_, entry, ?_, hentry, rfl⟩⟩
      rw [toOpen, if_neg hwrite, hentry]
    · simp only [hnone]
      refine ⟨db, _, rfl, .inl ⟨?_, rfl⟩⟩
      rw [toOpen, if_neg hwrite, hnone]
      exact entryAt_eq_none (.inl (by decide))
  · next h =>
    refine ⟨db, _, rfl, .inl ⟨?_, rfl⟩⟩
    unfold toOpen
    split
    · next heq =>
      obtain ⟨rfl, rfl, rfl⟩ := Call.fsOpen.inj heq
      exact absurd rfl (h _ rfl)
    · rfl

theorem Entry.reopened_kept (hlt : entry.openCounter + 1 < c.sizeT.size) :
    (entry.reopened c).Kept c := by
  have hcounter : (entry.openCounter + 1) % c.sizeT.size = entry.openCounter + 1 := Nat.mod_eq_of_lt hlt
  refine ⟨⟨fun _ => ?_, fun _ => rfl⟩, ?_, fun _ => rfl⟩
  · change 0 < (entry.openCounter + 1) % c.sizeT.size
    rw [hcounter]
    exact Nat.succ_pos _
  · change (entry.openCounter + 1) % c.sizeT.size < c.sizeT.size
    rwa [hcounter]

/-- **A call that meets the condition** returns, and keeps the invariant. -/
theorem Kept.call (h : Kept c db) {e : Call} (hwithin : Within c db e) :
    ∃ db' answer, call c db e = some (db', answer) ∧ Kept c db' ∧
      ∀ handle ∈ e.handle, ¬IsOpen db handle → answer.state ≠ .ok ∧ db' = db := by
  cases e with
  | fsOpen resourceName openFlags resourceHandle =>
    obtain ⟨db', answer, hcall, hcases⟩ := fsOpen_cases c db resourceName openFlags resourceHandle
    refine ⟨db', answer, hcall, ?_, fun handle hhandle => by cases hhandle⟩
    rcases hcases with ⟨-, rfl⟩ | ⟨handle, entry, hopen, hentry, rfl⟩
    · exact h
    · exact h.set (Entry.reopened_kept (hwithin.2 entry hopen)) _
  | fsRead resourceHandle offset buffer bufferSize =>
    obtain ⟨answer, hread, hrefused⟩ :=
      fsRead_sound h offset buffer bufferSize (hwithin.1 _ rfl)
    refine ⟨db, answer, ?_, h, ?_⟩
    · rw [Fs.call, hread]
      rfl
    · rintro handle ⟨⟩ hno
      exact ⟨hrefused hno, rfl⟩
  | fsClose resourceHandle =>
    obtain ⟨db', answer, hclose, hkept, hrefused⟩ := fsClose_sound h (hwithin.1 _ rfl)
    refine ⟨db', answer, hclose, hkept, ?_⟩
    rintro handle ⟨⟩ hno
    exact hrefused hno

/-- **The condition is exact.** -/
theorem Kept.sound_iff (h : Kept c db) (e : Call) : Sound c db e ↔ Within c db e := by
  constructor
  · rintro ⟨db', answer, hcall, hholds, -⟩
    cases e with
    | fsOpen resourceName openFlags resourceHandle =>
      refine ⟨nofun, fun entry hentry => ?_⟩
      obtain ⟨db₁, answer₁, hopen, hcases⟩ := fsOpen_cases c db resourceName openFlags resourceHandle
      have heq : (db₁, answer₁) = (db', answer) := Option.some.inj (hopen.symm.trans hcall)
      obtain ⟨rfl, rfl⟩ := Prod.mk.inj heq
      rcases hcases with ⟨hnone, -⟩ | ⟨handle, entry', hsome, hat, rfl⟩
      · rw [hnone] at hentry
        cases hentry
      obtain rfl : entry' = entry := Option.some.inj (hsome.symm.trans hentry)
      obtain ⟨hmem, hget, -⟩ := entryAt_mem hat
      have hlt : handle.toNat < db.length := (List.getElem?_eq_some_iff.mp hget).1
      have hopened := (hholds.state _ (List.mem_set hlt (entry'.reopened c))).mp rfl
      have hbounded := (h entry' hmem).bounded
      -- the counter would be 0
      by_contra hno
      have hfull : entry'.openCounter + 1 = c.sizeT.size := by omega
      change 0 < (entry'.openCounter + 1) % c.sizeT.size at hopened
      rw [hfull, Nat.mod_self] at hopened
      exact Nat.lt_irrefl 0 hopened
    | fsRead resourceHandle offset buffer bufferSize =>
      refine ⟨?_, fun entry hentry => by cases hentry⟩
      rintro handle ⟨⟩
      by_contra hno
      obtain ⟨hpass, hnone⟩ := passed_of_not_within hno
      have hread : fsRead c db resourceHandle offset buffer bufferSize = none := by
        simp [fsRead, hpass, hnone]
      rw [Fs.call, hread] at hcall
      cases hcall
    | fsClose resourceHandle =>
      refine ⟨?_, fun entry hentry => by cases hentry⟩
      rintro handle ⟨⟩
      by_contra hno
      obtain ⟨hpass, hnone⟩ := passed_of_not_within hno
      have hclose : fsClose c db resourceHandle = none := by
        simp [fsClose, hpass, hnone]
      rw [Fs.call, hclose] at hcall
      cases hcall
  · intro hwithin
    obtain ⟨db', answer, hcall, hkept, hrefused⟩ := h.call hwithin
    exact ⟨db', answer, hcall, hkept.holds, hrefused⟩

theorem Kept.step (h : Kept c db) {e : Call} (hwithin : Within c db e) (hstep : step c db e = some db') :
    Kept c db' := by
  obtain ⟨db₁, answer, hcall, hkept, -⟩ := h.call hwithin
  rw [Fs.step, hcall, Option.map_some] at hstep
  exact Option.some.inj hstep ▸ hkept

/-! ## Runs -/

/-- **The calls on the file system are as claimed, if and only if each one meets the condition.** -/
theorem fsMemory_sound_iff (c : Config) (files : List (Bytes × Bytes)) (es : List Call) :
    Holds c (database files) ∧ AllSteps (step c) (Sound c) (database files) es ↔
      AllSteps (step c) (Within c) (database files) es := by
  have hkept := database_kept c files
  refine (and_iff_right hkept.holds).trans ?_
  exact allSteps_iff (fun _ _ _ h => h.step) (fun _ e h => h.sound_iff e) hkept

/-- Chunks of two bytes. -/
def twoBytes : Config := ⟨.bits64, 2, by decide⟩

/-- A file of three bytes is opened, read and closed. -/
theorem fsMemory_sound_iff_read :
    Holds twoBytes (database [([0x61], [1, 2, 3])]) ∧
      AllSteps (step twoBytes) (Sound twoBytes) (database [([0x61], [1, 2, 3])])
        [.fsOpen (some [0x61]) 1 true, .fsRead 0 2 (some none) true, .fsClose 0] := by
  refine (fsMemory_sound_iff twoBytes [([0x61], [1, 2, 3])] _).mpr ?_
  refine .cons ⟨by rintro _ ⟨⟩, ?_⟩ rfl (.cons ⟨?_, by rintro _ ⟨⟩⟩ rfl (.cons ⟨?_, by rintro _ ⟨⟩⟩ rfl trivial))
  · rintro _ ⟨⟩
    decide
  · rintro _ ⟨⟩
    decide
  · rintro _ ⟨⟩
    decide

/-- **The handle after the last index** is let pass, and the database is read there. -/
theorem fsMemory_sound_iff_fails :
    call twoBytes (database [([0x61], [1, 2, 3])]) (.fsRead 1 0 (some none) true) = none ∧
      ¬AllSteps (step twoBytes) (Sound twoBytes) (database [([0x61], [1, 2, 3])])
        [.fsRead 1 0 (some none) true] := by
  refine ⟨rfl, ?_⟩
  rintro ⟨⟨db', answer, hcall, -⟩, -⟩
  cases hcall

end IotDeviceSdk.Fs
