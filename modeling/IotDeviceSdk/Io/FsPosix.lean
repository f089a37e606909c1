import IotDeviceSdk.Datastructures.DataDesc
import IotDeviceSdk.Infra.Heap
import IotDeviceSdk.Infra.Run

/-!
# Files on POSIX (`bsp/platform/posix/iotc_bsp_io_fs_posix.c`)

The open files are in a list, whose elements hold the descriptor and the buffer of the last read. The
macros of the list act as operations on a sequence, and are these operations here.

A call comes with what the POSIX functions answer and with the `errno` that is there if it asks for it.
A `NULL` that is read from or written to, a failing assertion and the release of a block that is not
allocated have no result.
-/

namespace IotDeviceSdk.FsPosix

open Datastructures Infra

/-! ## States and numbers -/

/-- `iotc_bsp_io_fs_state_t`, as far as the functions return it. -/
inductive BspState where
  | ok
  | error
  | invalidParameter
  | resourceNotAvailable
  | outOfMemory
  deriving DecidableEq, Repr

/-- The values of `errno` that are told apart. -/
inductive Errno where
  | ebadf
  | eacces
  | efault
  | enoent
  | enotdir
  | eloop
  | eoverflow
  | enametoolong
  | enomem
  | other (value : Int)
  deriving DecidableEq, Repr

/-- `iotc_bsp_io_fs_posix_errno_2_iotc_bsp_io_fs_state` -/
def errno2State : Errno → BspState
  | .ebadf | .eacces | .efault | .enoent | .enotdir => .resourceNotAvailable
  | .eloop | .eoverflow => .error
  | .enametoolong => .invalidParameter
  | .enomem => .outOfMemory
  | .other _ => .error

/-- No value of `errno` stands for success. -/
theorem errno2State_ne_ok (errno : Errno) : errno2State errno ≠ .ok := by
  cases errno <;> simp [errno2State]

/-- The answer of a POSIX function: `-1`, or a number. -/
inductive PosixResult where
  | failed
  | returned (n : Nat)
  deriving DecidableEq, Repr

def PosixResult.value : PosixResult → Int
  | .failed => -1
  | .returned n => n

/-- The conversion to `int`. -/
def toInt (n : Int) : Int := Int.bmod n 4294967296

/-- The conversion to `size_t`. -/
def toSizeT (c : SizeT) (n : Int) : Nat := (n % c.size).toNat

/-- `IOTC_BSP_IO_FS_INVALID_RESOURCE_HANDLE` -/
def invalidHandle : Int := -1

/-- `iotc_bsp_io_fs_buffer_size` -/
def bufferSize : Nat := 1024

/-- `IOTC_BSP_IO_FS_OPEN_APPEND` -/
def openAppend : Nat := 4

/-! ## The list of open files -/

/-- A buffer for reads. -/
structure MemoryBuffer where
  ptr : Ptr
  bytes : Bytes
  deriving DecidableEq, Repr

/-- `iotc_bsp_io_fs_posix_file_handle_container_t`, at its address. -/
structure Container where
  address : Ptr
  posixFd : Int
  memoryBuffer : Option MemoryBuffer
  deriving DecidableEq, Repr

/-- The blocks of an element, in the order in which they are released. -/
def Container.blocks (x : Container) : List Ptr :=
  (x.memoryBuffer.map MemoryBuffer.ptr).toList ++ [x.address]

/-- `files` is `iotc_bsp_io_fs_posix_files_container`. -/
structure State where
  files : List Container
  heap : Heap
  deriving DecidableEq, Repr

/-- What a call returns, and what it writes to the places it is given. -/
structure Answer where
  state : BspState
  resourceHandle : Option Int := none
  buffer : Option (Option MemoryBuffer) := none
  bufferSize : Option Nat := none
  bytesWritten : Option Nat := none
  deriving DecidableEq, Repr

/-- `IOTC_LIST_FIND` with `iotc_bsp_io_fs_posix_file_list_cnd`, which asserts that the descriptor is not
negative. -/
def findFile (files : List Container) (fd : Int) : Option (Option Container) :=
  if files ≠ [] ∧ fd < 0 then none else some (files.find? fun x => x.posixFd = fd)

/-- `elem->memory_buffer = buffer` -/
def setBuffer (files : List Container) (elem : Container) (buffer : Option MemoryBuffer) :
    List Container :=
  files.map fun x => if x.address = elem.address then { x with memoryBuffer := buffer } else x

/-! ## The functions -/

/-- `iotc_bsp_io_fs_open`. `resourceName` and `resourceHandleOut` say whether these are not `NULL`. -/
def bspOpen (s : State) (resourceName resourceHandleOut : Bool) (openFlags : Nat) (result : PosixResult)
    (errno : Errno) : Option (State × Answer) :=
  if ¬resourceName ∨ ¬resourceHandleOut then some (s, { state := .invalidParameter })
  else if openFlags &&& openAppend = openAppend then some (s, { state := .invalidParameter })
  else
    let fd := toInt result.value
    if fd < 0 then
      -- there is no entry to release, and `close` is called with the negative descriptor
      some (s, { state := errno2State errno, resourceHandle := some invalidHandle })
    else
      match s.heap.alloc with
      | (none, _) => none
      | (some address, heap) =>
        some (⟨s.files ++ [⟨address, fd, none⟩], heap⟩, { state := .ok, resourceHandle := some fd })

/-- The check of what `lseek` has returned. -/
def seekFails (seek : PosixResult) (offset : Nat) : Bool :=
  toInt seek.value < 0 || toInt seek.value ≠ offset

/-- What `read` returns, for the bytes that it has read. -/
def readResult (data : Option Bytes) : PosixResult :=
  match data with
  | none => .failed
  | some bytes => .returned bytes.length

/-- The buffer of an element, which its first read allocates. -/
def Container.withBuffer (x : Container) (heap : Heap) : Option (MemoryBuffer × Heap) :=
  match x.memoryBuffer with
  | some buffer => some (buffer, heap)
  | none =>
    match heap.alloc with
    | (none, _) => none
    | (some ptr, heap) => some (⟨ptr, List.replicate FsPosix.bufferSize 0⟩, heap)

/-- `err_handling` in `iotc_bsp_io_fs_read`, for an element that has been found. -/
def readError (files : List Container) (elem : Container) (buffer : MemoryBuffer) (heap : Heap)
    (errno : Errno) : Option (State × Answer) :=
  (heap.release buffer.ptr).map fun heap =>
    (⟨setBuffer files elem none, heap⟩,
      { state := errno2State errno, buffer := some none, bufferSize := some 0 })

/-- `iotc_bsp_io_fs_read`. `buffer` is `none` for `NULL`, and else what `*buffer` is; `size` says whether
there is a place for the size. `data` is what `read` brings, and `none` its failure. -/
def bspRead (c : SizeT) (s : State) (resourceHandle : Int) (offset : Nat)
    (buffer : Option (Option MemoryBuffer)) (size : Bool) (seek : PosixResult) (data : Option Bytes)
    (errno : Errno) : Option (State × Answer) :=
  if buffer ≠ some none ∨ ¬size ∨ resourceHandle = invalidHandle then
    some (s, { state := .invalidParameter })
  else
    (findFile s.files (toInt resourceHandle)).bind fun elem =>
      -- without an element `err_handling` reads from `NULL`
      elem.bind fun elem => (elem.withBuffer s.heap).bind fun (block, heap) =>
        if seekFails seek offset then readError s.files elem block heap errno
        else
          let fopRet := toInt (readResult data).value
          if fopRet = 0 then readError s.files elem block heap errno
          else
            let bytes := data.getD []
            let block := { block with bytes := bytes ++ block.bytes.drop bytes.length }
            some (⟨setBuffer s.files elem (some block), heap⟩,
              { state := .ok, buffer := some (some block), bufferSize := some (toSizeT c fopRet) })

/-- `iotc_bsp_io_fs_write`. `buffer` and `bytesWritten` say whether these are not `NULL`. -/
def bspWrite (c : SizeT) (s : State) (resourceHandle : Int) (buffer : Bool) (size offset : Nat)
    (bytesWritten : Bool) (seek write : PosixResult) (errno : Errno) : Option (State × Answer) :=
  if ¬buffer ∨ size = 0 ∨ resourceHandle = invalidHandle then some (s, { state := .invalidParameter })
  else
    (findFile s.files (toInt resourceHandle)).bind fun elem =>
      if elem = none then some (s, { state := .resourceNotAvailable })
      else if seekFails seek offset then some (s, { state := errno2State errno })
      else if ¬bytesWritten then none
      else if size ≠ toSizeT c write.value then
        some (s, { state := errno2State errno, bytesWritten := some (toSizeT c write.value) })
      else some (s, { state := .ok, bytesWritten := some (toSizeT c write.value) })

/-- `iotc_bsp_io_fs_close`. The element leaves the list before the file is closed, and its blocks are
released whatever `close` returns. -/
def bspClose (s : State) (resourceHandle : Int) (close : PosixResult) (errno : Errno) :
    Option (State × Answer) :=
  if resourceHandle = invalidHandle then some (s, { state := .invalidParameter })
  else
    (findFile s.files (toInt resourceHandle)).bind fun elem =>
      match elem with
      | none => some (s, { state := .resourceNotAvailable })
      | some elem =>
        (s.heap.releaseAll elem.blocks).map fun heap =>
          (⟨s.files.eraseP fun x => x.address = elem.address, heap⟩,
            { state := if toInt close.value ≠ 0 then errno2State errno else .ok })

/-- A call, with the answers to what it asks for. -/
inductive Call where
  | bspOpen (resourceName resourceHandleOut : Bool) (openFlags : Nat) (result : PosixResult)
    (errno : Errno)
  | bspRead (resourceHandle : Int) (offset : Nat) (buffer : Option (Option MemoryBuffer)) (size : Bool)
    (seek : PosixResult) (data : Option Bytes) (errno : Errno)
  | bspWrite (resourceHandle : Int) (buffer : Bool) (size offset : Nat) (bytesWritten : Bool)
    (seek write : PosixResult) (errno : Errno)
  | bspClose (resourceHandle : Int) (close : PosixResult) (errno : Errno)
  deriving DecidableEq, Repr

def call (c : SizeT) (s : State) : Call → Option (State × Answer)
  | .bspOpen resourceName resourceHandleOut openFlags result errno =>
    bspOpen s resourceName resourceHandleOut openFlags result errno
  | .bspRead resourceHandle offset buffer size seek data errno =>
    bspRead c s resourceHandle offset buffer size seek data errno
  | .bspWrite resourceHandle buffer size offset bytesWritten seek write errno =>
    bspWrite c s resourceHandle buffer size offset bytesWritten seek write errno
  | .bspClose resourceHandle close errno => bspClose s resourceHandle close errno

def step (c : SizeT) (s : State) (e : Call) : Option State := (call c s e).map Prod.fst

/-! ## What is claimed -/

/-- A handle of an open file. -/
def Listed (s : State) (resourceHandle : Int) : Prop := ∃ x ∈ s.files, x.posixFd = resourceHandle

/-- The elements of the list, without their buffers. -/
def entries (s : State) : List (Ptr × Int) := s.files.map fun x => (x.address, x.posixFd)

/-- The parameters are refused before anything is asked for: a `NULL`, the flag for appending, or the
value that is the handle of no file. -/
def Call.refused : Call → Bool
  | .bspOpen resourceName resourceHandleOut openFlags _ _ =>
    !resourceName || !resourceHandleOut || openFlags &&& openAppend = openAppend
  | .bspRead resourceHandle _ buffer size _ _ _ =>
    buffer ≠ some none || !size || resourceHandle = invalidHandle
  | .bspWrite resourceHandle buffer size _ _ _ _ _ =>
    !buffer || size = 0 || resourceHandle = invalidHandle
  | .bspClose resourceHandle _ _ => resourceHandle = invalidHandle

/-- The handle that a call is given. -/
def Call.handle : Call → Option Int
  | .bspOpen .. => none
  | .bspRead resourceHandle .. => some resourceHandle
  | .bspWrite resourceHandle .. => some resourceHandle
  | .bspClose resourceHandle .. => some resourceHandle

/-- `open` fails. -/
def Call.openFails : Call → Bool
  | .bspOpen _ _ _ result _ => result = .failed
  | _ => false

/-- `lseek`, `read` or `write` fails. -/
def Call.ioFails : Call → Bool
  | .bspRead _ _ _ _ seek data _ => seek = .failed || data = none
  | .bspWrite _ _ _ _ _ seek write _ => seek = .failed || write = .failed
  | _ => false

/-- A call of `iotc_bsp_io_fs_close`. -/
def Call.isClose : Call → Bool
  | .bspClose .. => true
  | _ => false

/-- **What is claimed of a call that returns.** -/
structure Answered (s : State) (e : Call) (s' : State) (answer : Answer) : Prop where
  /-- Refused parameters are reported. -/
  refused : e.refused = true → answer.state = .invalidParameter ∧ s' = s
  /-- A handle that is not in the list is reported, and the list is the same. -/
  unlisted : ∀ handle ∈ e.handle, e.refused = false → ¬Listed s handle →
    answer.state = .resourceNotAvailable ∧ s'.files = s.files
  /-- A failing `open` leaves the list as it is. -/
  openFails : e.openFails = true → answer.state ≠ .ok ∧ s'.files = s.files
  /-- A failing `read` or `write` is not reported as success, and the element stays. -/
  ioFails : ∀ handle ∈ e.handle, Listed s handle → e.ioFails = true →
    answer.state ≠ .ok ∧ entries s' = entries s
  /-- A closed file is no longer in the list, and exactly its blocks have been released. -/
  closed : ∀ handle ∈ e.handle, e.isClose = true → Listed s handle →
    ∃ before x behind, s.files = before ++ x :: behind ∧ x.posixFd = handle ∧
      (∀ y ∈ before, y.posixFd ≠ handle) ∧ s'.files = before ++ behind ∧
      s.heap.blocks.Perm (x.blocks ++ s'.heap.blocks)

/-- **What is claimed of a call**: it returns, and what it returns is as claimed. -/
def Sound (c : SizeT) (s : State) (e : Call) : Prop :=
  ∃ s' answer, call c s e = some (s', answer) ∧ Answered s e s' answer

/-! ## The condition -/

/-- The element for a handle, found by the bits of it that are an `int`. -/
def found (s : State) (resourceHandle : Int) : Option Container :=
  s.files.find? fun x => x.posixFd = toInt resourceHandle

/-- A search asserts that the descriptor is not negative, if there is an element to compare it with. -/
def Searchable (s : State) (resourceHandle : Int) : Prop := s.files ≠ [] → 0 ≤ toInt resourceHandle

/-- Of a read: there is an element, and memory for its buffer, and `read` does not fail. An element with
a descriptor that is not the whole handle is taken for that of the handle, which is not noticed only if
the read fails and `errno` stands for a file that is not available. -/
def ReadWithin (s : State) (resourceHandle : Int) (offset : Nat) (seek : PosixResult)
    (data : Option Bytes) (errno : Errno) : Prop :=
  ∃ x ∈ found s resourceHandle, (x.memoryBuffer = none → s.heap.Granted 1) ∧
    (x.posixFd = resourceHandle → seekFails seek offset = true ∨ data ≠ none) ∧
    (x.posixFd ≠ resourceHandle → (seekFails seek offset = true ∨ toInt (readResult data).value = 0) ∧
      errno2State errno = .resourceNotAvailable ∧ x.memoryBuffer = none)

/-- Of a write: there is a place for the count, and not as many bytes to write as the `-1` of a failure
is as a `size_t`. -/
def WriteWithin (c : SizeT) (s : State) (resourceHandle : Int) (size offset : Nat) (bytesWritten : Bool)
    (seek write : PosixResult) (errno : Errno) : Prop :=
  Searchable s resourceHandle ∧ ∀ x ∈ found s resourceHandle,
    (seekFails seek offset = true ∨ bytesWritten = true) ∧
    (x.posixFd = resourceHandle →
      seekFails seek offset = true ∨ write ≠ .failed ∨ size ≠ toSizeT c PosixResult.failed.value) ∧
    (x.posixFd ≠ resourceHandle → (seekFails seek offset = true ∨ size ≠ toSizeT c write.value) ∧
      errno2State errno = .resourceNotAvailable)

/-- Of a close: no other handle is taken for that of an open file. -/
def CloseWithin (s : State) (resourceHandle : Int) : Prop :=
  Searchable s resourceHandle ∧ ∀ x ∈ found s resourceHandle, x.posixFd = resourceHandle

/-- **The condition** on a call whose parameters are not refused. -/
def Within (c : SizeT) (s : State) : Call → Prop
  | .bspOpen _ _ _ result _ => 0 ≤ toInt result.value → s.heap.Granted 1
  | .bspRead resourceHandle offset _ _ seek data errno =>
    ReadWithin s resourceHandle offset seek data errno
  | .bspWrite resourceHandle _ size offset bytesWritten seek write errno =>
    WriteWithin c s resourceHandle size offset bytesWritten seek write errno
  | .bspClose resourceHandle _ _ => CloseWithin s resourceHandle

end IotDeviceSdk.FsPosix
