import IotDeviceSdk.Base
import IotDeviceSdk.EventDispatcher.Sockets

/-!
# The network layer (`iotc_io_net_layer.c`)

Reading and writing on one socket, from the time it is connected. A call that finds the socket busy
registers itself with its buffer, and goes on when the dispatcher runs what is registered.

Buffers have numbers. The world records those that were pushed and what was reported of them, and
those that were allocated for reading and delivered to the layer above; and those that were freed.
-/

namespace IotDeviceSdk.Io

open EventDispatcher Datastructures

/-- The number of a buffer. -/
abbrev BufferId := Nat

/-- `iotc_data_desc_t` of a buffer to write. -/
structure DataDesc where
  id : BufferId
  capacity : Nat
  currPos : Nat
  deriving DecidableEq, Repr

/-- The handles that the layer registers, with their data. -/
inductive Handle where
  | pull (data : Option BufferId)
  | push (buffer : DataDesc)
  deriving DecidableEq, Repr

/-- A result of `iotc_bsp_io_net_write` or `iotc_bsp_io_net_read`, `ok` with the length. -/
inductive BspResult where
  | ok (len : Int)
  | busy
  | connectionReset
  | error
  deriving DecidableEq, Repr

/-- The layer, its socket (`none` without layer data) and what became of the buffers. -/
structure World where
  layerState : LayerState
  socket : Option Fd
  sockets : Sockets Handle
  nextBuffer : BufferId
  pushed : List BufferId
  reported : List (BufferId × IotcState)
  writesFreed : List BufferId
  allocated : List BufferId
  delivered : List BufferId
  readsFreed : List BufferId
  deriving DecidableEq, Repr

namespace World

/-- `IOTC_PROCESS_CLOSE_EXTERNALLY_ON_THIS_LAYER`, which changes the state at once and leaves the
call to the dispatcher. -/
def closing (w : World) : World := { w with layerState := .closed }

def freeWrite (w : World) (id : BufferId) : World :=
  { w with writesFreed := w.writesFreed ++ [id] }

def freeRead (w : World) (id : BufferId) : World := { w with readsFreed := w.readsFreed ++ [id] }

/-- Whether the layer has been disconnected. -/
def disconnected (w : World) : Bool := w.layerState.notOperational || w.socket.isNone

end World

/-! ## push -/

/-- How the writes of one call end. -/
inductive WriteOutcome where
  | written
  | busy (currPos : Nat)
  | connectionReset
  | error
  deriving DecidableEq, Repr

/-- The loop of `iotc_io_net_layer_push`. After the results that are given the socket is busy; a
write takes at most what it is offered. -/
def writeLoop (capacity : Nat) : Nat → List BspResult → WriteOutcome
  | currPos, [] => .busy currPos
  | currPos, r :: rs =>
    match r with
    | .ok len =>
      if len < 0 then .error
      else if capacity - (currPos + len.toNat) > 0 then writeLoop capacity (currPos + len.toNat) rs
      else .written
    | .busy => .busy currPos
    | .connectionReset => .connectionReset
    | .error => .error

/-- `iotc_io_net_layer_push` -/
def push (w : World) (buffer : DataDesc) (results : List BspResult) : World :=
  match w.socket with
  | none => w.freeWrite buffer.id
  | some socket =>
    if w.layerState.notOperational then w.freeWrite buffer.id
    else
      match if buffer.capacity > 0 then writeLoop buffer.capacity buffer.currPos results
        else .written with
      | .written =>
        { w.freeWrite buffer.id with reported := w.reported ++ [(buffer.id, .written)] }
      | .busy currPos =>
        match w.sockets.continueWhenEvtOnSocket .wantWrite
            (.push { buffer with currPos := currPos }) socket with
        | some sockets => { w with sockets := sockets }
        | none => w.closing
      | .connectionReset => (w.freeWrite buffer.id).closing
      | .error => (w.freeWrite buffer.id).closing

/-! ## pull -/

/-- `iotc_io_net_layer_pull` with a buffer. -/
def read (w : World) (socket : Fd) (buffer : BufferId) (result : BspResult) : World :=
  match result with
  | .ok _ => { w with delivered := w.delivered ++ [buffer] }
  | .busy =>
    match w.sockets.continueWhenEvtOnSocket .wantRead (.pull (some buffer)) socket with
    | some sockets => { w with sockets := sockets }
    | none => w
  | .connectionReset => (w.freeRead buffer).closing
  | .error => (w.freeRead buffer).closing

/-- `iotc_io_net_layer_pull`. `mem` is the answer of the allocator. -/
def pull (w : World) (data : Option BufferId) (mem : Bool) (result : BspResult) : World :=
  match w.socket with
  | none => data.elim w w.freeRead
  | some socket =>
    if w.layerState.notOperational then data.elim w w.freeRead
    else match data with
      | some buffer => read w socket buffer result
      | none =>
        if mem then
          let w' := { w with
            nextBuffer := w.nextBuffer + 1
            allocated := w.allocated ++ [w.nextBuffer] }
          read w' socket w.nextBuffer result
        else w.closing

/-! ## close -/

/-- `iotc_io_net_layer_close` -/
def close (w : World) : World := w.closing

/-- `iotc_io_net_layer_close_externally` -/
def closeExternally (w : World) : World :=
  match w.socket with
  | none => w
  | some socket => { w with socket := none, sockets := w.sockets.unregister socket }

/-! ## Runs -/

inductive Event where
  /-- the layer above pushes a buffer -/
  | push (capacity : Nat) (results : List BspResult)
  /-- the layer above pulls -/
  | pull (mem : Bool) (result : BspResult)
  /-- the socket is ready: the dispatcher executes the handle that is registered -/
  | ready (mem : Bool) (results : List BspResult)
  | close
  | closeExternally
  deriving DecidableEq, Repr

/-- The execution of a handle. A read gets the first result. -/
def World.execute (w : World) (mem : Bool) (results : List BspResult) : Handle → World
  | .pull data => pull w data mem (results.headD .busy)
  | .push buffer => push w buffer results

/-- A push to a layer that is disconnected frees the buffer at once and is not recorded. -/
def step (w : World) : Event → World
  | .push capacity results =>
    if w.disconnected then w
    else
      let w' := { w with nextBuffer := w.nextBuffer + 1, pushed := w.pushed ++ [w.nextBuffer] }
      push w' ⟨w.nextBuffer, capacity, 0⟩ results
  | .pull mem result => pull w none mem result
  | .ready mem results =>
    match w.socket.bind w.sockets.updateEvent with
    | some (handle, sockets) => { w with sockets := sockets }.execute mem results handle
    | none => w
  | .close => close w
  | .closeExternally => closeExternally w

/-- The layer when its socket has just been connected and registered. -/
def connectedWorld (socket : Fd) : World where
  layerState := .connected
  socket := some socket
  sockets := ⟨[⟨socket, .pull none, .pull none, .wantRead⟩], IotcVector.defaultCapacity, .managed⟩
  nextBuffer := 0
  pushed := []
  reported := []
  writesFreed := []
  allocated := []
  delivered := []
  readsFreed := []

end IotDeviceSdk.Io
