import IotDeviceSdk.Datastructures.DataDesc
import IotDeviceSdk.Infra.Run

/-!
# The resource manager (`iotc_resource_manager.c`)

The manager opens, reads and closes a resource with the functions of a file system, one operation at a
time. An operation is a coroutine on the event dispatcher: it registers the descriptor of the resource,
calls the file system, yields as long as that answers `WANT_READ`, and unregisters the descriptor. At its
end it hands a callback to the dispatcher, or invokes it itself when it leaves for `err_handling`.

* `Answers` is what the file system and the allocator answer while a coroutine goes on.
* `World` is the context of the manager with the part of the dispatcher that it uses.
* A body of a coroutine ends with an `Exit`; `conclude` is the part that the three of them share.

A failing assertion has no result.
-/

namespace IotDeviceSdk.ResourceManager

open Datastructures Infra

/-- The coroutines. -/
inductive Coroutine where
  | openCoroutine
  | readCoroutine
  | closeCoroutine
  deriving DecidableEq, Repr

/-- `cs`: the value of a new context, those that `IOTC_CR_EXIT` and `IOTC_CR_RESET` leave, and the lines
of the four yields. -/
inductive Cs where
  | fresh
  | exited
  | reset
  | statYield
  | openYield
  | readYield
  | closeYield
  deriving DecidableEq, Repr

/-- The line of a yield. -/
def Cs.IsYield (cs : Cs) : Prop :=
  cs = .statYield ∨ cs = .openYield ∨ cs = .readYield ∨ cs = .closeYield

instance (cs : Cs) : Decidable cs.IsYield := inferInstanceAs (Decidable (_ ∨ _))

/-- An event handle that takes a state as its third argument, with what it has there. -/
structure Callback where
  id : Nat
  state : IotcState
  deriving DecidableEq, Repr

/-- `iotc_resource_manager_set_callback_state`. A state that is not `OK` stays. -/
def Callback.setCallbackState (callback : Callback) (state : IotcState) : Callback :=
  if callback.state = .ok then { callback with state } else callback

/-- `iotc_resource_manager_context_t`. A callback that is disposed is `none`. -/
structure Context where
  dataBuffer : Option DataDesc
  callback : Option Callback
  resourceSize : Nat
  resourceHandle : Int
  dataOffset : Nat
  cs : Cs
  deriving DecidableEq, Repr

/-- A handle in the queue of the dispatcher. -/
inductive Pending where
  | coroutine (c : Coroutine)
  | callback (callback : Callback)
  deriving DecidableEq, Repr

/-- The context, the memory, the files that are registered at the dispatcher and the queue of the
dispatcher; the callbacks that have been invoked; and the operation that has begun and not ended, which
the manager does not keep itself. -/
structure World where
  ctx : Context
  memory : Blocks UInt8
  files : List (Int × Coroutine)
  queue : List Pending
  log : List Callback
  operation : Option Coroutine

/-- Bytes of which a `size_t` can say how many they are. -/
structure Chunk (σ : SizeT) where
  bytes : Bytes
  length_lt : bytes.length < σ.size

/-- What is answered to a coroutine until it returns: by the file system, by the dispatcher (`register`
for the first file, `registerOpen` for the second one of `open`, `execute`) and by the allocator. A
`buffer` that the file system has not set stays `NULL`. -/
structure Answers (σ : SizeT) where
  register : Bool := true
  statState : IotcState := .ok
  resourceSize : Nat := 0
  registerOpen : Bool := true
  openState : IotcState := .ok
  resourceHandle : Int := 0
  readState : IotcState := .ok
  buffer : Option (Chunk σ) := none
  descMem : Bool := true
  bufferMem : Bool := true
  appendMem : Bool := true
  closeState : IotcState := .ok
  execute : Bool := true

/-- How the body of a coroutine ends: with a yield, at `err_handling` with the value of `ret_state`, or
at the invocation of the callback. -/
inductive Exit where
  | yields (cs : Cs)
  | errHandling (retState : IotcState)
  | invokeCallback
  deriving DecidableEq, Repr

variable {σ : SizeT}

/-- The bytes that the file system has delivered. -/
def Answers.bytes (a : Answers σ) : Option Bytes := a.buffer.map Chunk.bytes

/-- `buffer_size` -/
def Answers.bufferSize (a : Answers σ) : Nat := (a.bytes.getD []).length

namespace World

/-! ## `IOTC_RESOURCE_MANAGER_YIELD_FROM` -/

/-- The registration of the descriptor, before the loop. A descriptor that is registered already fails an
assertion of the dispatcher. -/
def yieldFrom (w : World) (c : Coroutine) (mem : Bool) (loop : World → Option (World × Exit)) :
    Option (World × Exit) :=
  if w.files.any fun file => file.1 = w.ctx.resourceHandle then none
  else if mem then loop { w with files := w.files ++ [(w.ctx.resourceHandle, c)] }
  else some (w, .errHandling .outOfMemory)

/-- `iotc_evtd_unregister_file_fd` for the descriptor of the resource. -/
def unregister (w : World) : World :=
  { w with files := w.files.eraseP fun file => file.1 = w.ctx.resourceHandle }

/-- The end of the loop, with the state that the file system has answered, and what comes after it. -/
def yieldUntil (w : World) (state : IotcState) (cs : Cs) (next : World → Option (World × Exit)) :
    Option (World × Exit) :=
  if state = .wantRead then some (w, .yields cs)
  else if state = .ok then next w.unregister
  else some (w.unregister, .errHandling state)

/-! ## `iotc_resource_manager_open_coroutine` -/

/-- The loop around `open_resource`. -/
def openLoop (a : Answers σ) (w : World) : Option (World × Exit) :=
  w.yieldUntil a.openState .openYield fun w =>
    some ({ w with ctx := { w.ctx with resourceHandle := a.resourceHandle } }, .invokeCallback)

/-- The loop around `stat_resource`. -/
def statLoop (a : Answers σ) (w : World) : Option (World × Exit) :=
  { w with ctx := { w.ctx with resourceSize := a.resourceSize % σ.size } : World }.yieldUntil a.statState
    .statYield fun w => w.yieldFrom .openCoroutine a.registerOpen (openLoop a)

/-- The body, from where `cs` says. -/
def openBody (a : Answers σ) (w : World) : Option (World × Exit) :=
  match w.ctx.cs with
  | .statYield => statLoop a w
  | .openYield => openLoop a w
  | _ => w.yieldFrom .openCoroutine a.register (statLoop a)

/-! ## `iotc_resource_manager_read_coroutine` -/

/-- The data buffer takes the bytes. The second component is the state with which the coroutine goes to
`err_handling`; that is not always the state of what has failed. -/
def accumulate (a : Answers σ) (retState : IotcState) (w : World) :
    Option (World × Option IotcState) :=
  match w.ctx.dataBuffer with
  | none =>
    if retState = .ok then
      (DataDesc.makeDescFromBufferShare w.memory a.bytes a.descMem).map fun r =>
        ({ w with memory := r.1, ctx := { w.ctx with dataBuffer := r.2 } },
          if r.2.isNone then some .outOfMemory else none)
    else if retState = .wantRead then
      (DataDesc.makeEmptyDescAlloc w.memory w.ctx.resourceSize a.descMem a.bufferMem).bind fun r =>
        if r.2.isNone then
          some ({ w with memory := r.1, ctx := { w.ctx with dataBuffer := r.2 } }, some .outOfMemory)
        else
          -- the first chunk
          (DataDesc.appendBytes σ r.1 r.2 a.bytes).map fun t =>
            ({ w with memory := t.1, ctx := { w.ctx with dataBuffer := t.2.1 } },
              if t.2.2 = .ok then none else some retState)
    else some (w, none)
  | some dataBuffer =>
    if retState = .wantRead ∨ retState = .ok then
      (DataDesc.appendDataResize σ w.memory (some dataBuffer) a.bytes a.appendMem).map fun t =>
        ({ w with memory := t.1, ctx := { w.ctx with dataBuffer := t.2.1 } },
          if t.2.2 = .ok then none else some retState)
    else some (w, none)

/-- The offset after a call of `read_resource`. -/
def advance (a : Answers σ) (w : World) : World :=
  { w with ctx := { w.ctx with dataOffset := (w.ctx.dataOffset + a.bufferSize) % σ.size } }

/-- `OK` before the end of the file counts as `WANT_READ`. -/
def retState (a : Answers σ) (w : World) : IotcState :=
  if a.readState = .ok ∧ w.ctx.dataOffset ≠ w.ctx.resourceSize then .wantRead else a.readState

/-- The loop around `read_resource`. -/
def readLoop (a : Answers σ) (w : World) : Option (World × Exit) :=
  (accumulate a ((w.advance a).retState a) (w.advance a)).bind fun r =>
    match r.2 with
    | some retState => some (r.1, .errHandling retState)
    | none =>
      r.1.yieldUntil (if r.1.ctx.dataOffset < r.1.ctx.resourceSize then .wantRead
        else (w.advance a).retState a) .readYield fun w =>
          if w.ctx.dataBuffer.isNone then none else some (w, .invokeCallback)

/-- The body, from where `cs` says. -/
def readBody (a : Answers σ) (w : World) : Option (World × Exit) :=
  match w.ctx.cs with
  | .readYield => readLoop a w
  | _ => { w with ctx := { w.ctx with dataOffset := 0 } : World }.yieldFrom .readCoroutine a.register
      (readLoop a)

/-! ## `iotc_resource_manager_close_coroutine` -/

/-- The loop around `close_resource`. -/
def closeLoop (a : Answers σ) (w : World) : Option (World × Exit) :=
  w.yieldUntil a.closeState .closeYield fun w =>
    if w.ctx.dataBuffer.isNone then none
    else some ({ w with ctx := { w.ctx with resourceHandle := -1 } }, .invokeCallback)

/-- The body, from where `cs` says. -/
def closeBody (a : Answers σ) (w : World) : Option (World × Exit) :=
  match w.ctx.cs with
  | .closeYield => closeLoop a w
  | _ => w.yieldFrom .closeCoroutine a.register (closeLoop a)

/-! ## What the coroutines share -/

/-- The block `err_handling`, which invokes the callback at once. Only the one of `open` resets `cs`. -/
def errHandling (w : World) (c : Coroutine) (retState : IotcState) : World :=
  { w with
    ctx := { w.ctx with callback := none, cs := if c = .openCoroutine then .reset else w.ctx.cs }
    log := w.log ++ (w.ctx.callback.map (·.setCallbackState retState)).toList
    operation := none }

/-- `IOTC_RESOURCE_MANGER_INVOKE_CALLBACK` and `IOTC_CR_EXIT`, with `ret_state` being `OK`. A handle that
is disposed has no place for a state. -/
def invokeCallback (w : World) (c : Coroutine) (execute : Bool) : World :=
  match w.ctx.callback with
  | none => w.errHandling c .ok
  | some callback =>
    if execute then
      { w with
        ctx := { w.ctx with callback := none, cs := .exited }
        queue := w.queue ++ [.callback (callback.setCallbackState .ok)]
        operation := none }
    else w.errHandling c .outOfMemory

/-- What follows the body. -/
def conclude (c : Coroutine) (execute : Bool) (r : World × Exit) : World :=
  match r.2 with
  | .yields cs => { r.1 with ctx := { r.1.ctx with cs } }
  | .errHandling retState => r.1.errHandling c retState
  | .invokeCallback => r.1.invokeCallback c execute

/-- The body of a coroutine. -/
def body (a : Answers σ) : Coroutine → World → Option (World × Exit)
  | .openCoroutine => openBody a
  | .readCoroutine => readBody a
  | .closeCoroutine => closeBody a

/-- A coroutine runs until it returns. -/
def resume (a : Answers σ) (c : Coroutine) (w : World) : Option World :=
  (body a c w).map (conclude c a.execute)

/-! ## The entry points -/

/-- `IOTC_INVALID_PARAMETER`: an operation is not over, or the resource is open already, or not open. -/
def Refuses (w : World) (c : Coroutine) : Prop :=
  w.ctx.callback.isSome ∨ (c = .openCoroutine ↔ 0 ≤ w.ctx.resourceHandle)

instance (w : World) (c : Coroutine) : Decidable (w.Refuses c) := inferInstanceAs (Decidable (_ ∨ _))

/-- `iotc_resource_manager_open`, `_read` and `_close`. Without memory for the queue of the dispatcher
the callback stays where it has been put. -/
def call (w : World) (c : Coroutine) (callback : Callback) (mem : Bool) : World :=
  if w.Refuses c then w
  else if mem then
    { w with
      ctx := { w.ctx with callback := some callback }
      queue := w.queue ++ [.coroutine c]
      operation := some c }
  else { w with ctx := { w.ctx with callback := some callback } }

end World

/-! ## Runs -/

/-- `iotc_resource_manager_make_context`, with `data_buffer` and the descriptor that the counter has
given. -/
def makeContext (dataBuffer : Option DataDesc) (uniqueFd : Int) : Context :=
  ⟨dataBuffer, none, 0, uniqueFd, 0, .fresh⟩

/-- A new context. -/
def World.create (memory : Blocks UInt8) (dataBuffer : Option DataDesc) (uniqueFd : Int) : World :=
  ⟨makeContext dataBuffer uniqueFd, memory, [], [], [], none⟩

/-- A call of the manager, the dispatcher taking the first handle of its queue, or the dispatcher running
the handle of a file. -/
inductive Event (σ : SizeT) where
  | call (c : Coroutine) (callback : Callback) (mem : Bool)
  | dispatch (a : Answers σ)
  | ready (fd : Int) (a : Answers σ)

/-- One step. -/
def step (w : World) : Event σ → Option World
  | .call c callback mem => some (w.call c callback mem)
  | .dispatch a =>
    match w.queue with
    | [] => some w
    | .callback callback :: queue => some { w with queue, log := w.log ++ [callback] }
    | .coroutine c :: queue => World.resume a c { w with queue }
  | .ready fd a =>
    match w.files.find? fun file => file.1 = fd with
    | none => some w
    | some file => World.resume a file.2 w

end IotDeviceSdk.ResourceManager
