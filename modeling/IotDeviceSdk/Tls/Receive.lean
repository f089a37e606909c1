import IotDeviceSdk.Tls.Layer

/-!
# The receive side of the TLS layer (`iotc_tls_layer.c`)

A buffer that comes from the layer below goes to the end of a list. The TLS library reads from the list
through a callback, and `recv_handler` passes what the library makes of the bytes to the layer above.

* The library is a parameter: a `BspRead` is what one call of `iotc_bsp_tls_connect` or
  `iotc_bsp_tls_read` does, and it writes at most as many bytes as it is given room for.
* The layer is modelled from the end of `init` on, when it has no resource manager any more.
* The coroutines of the two handlers try again when they are resumed, so that their states make no
  difference.
* A failed assertion is `none`.
-/

namespace IotDeviceSdk.Tls.Receive

/-- `iotc_data_desc_t` of a buffer that has been received. `id` names it. -/
structure RawBuffer where
  id : Nat
  dataPtr : Bytes
  currPos : Nat
  deriving DecidableEq, Repr

/-- What `iotc_tls_layer_state_t` holds for receiving. `connected` says that `recv_handler` is the logic
receive handler, which is `connect_handler` before. -/
structure TlsLayerState where
  rawBuffer : List RawBuffer
  decodedBuffer : Option Bytes
  connected : Bool
  deriving DecidableEq, Repr

/-- A call of the callback: the size that is asked for, the state and `bytes_read`. -/
structure CallbackRead where
  sz : Nat
  state : BspTlsState
  bytesRead : Nat
  deriving DecidableEq, Repr

/-- The layer, and what it has done: the buffers are numbered as they come in, `received` are their bytes,
`handed` those that the library got, `plaintext` those that
`iotc_bsp_tls_read` returned, `passed` the buffers that went to the layer above, and `pulls` counts the
pulls on this layer that were queued. -/
structure World where
  layerState : LayerState
  userData : Option TlsLayerState
  nextBuffer : Nat
  received : Bytes
  handed : Bytes
  callbacks : List CallbackRead
  freed : List Nat
  plaintext : Bytes
  passed : List Bytes
  pulls : Nat
  deriving DecidableEq, Repr

/-- One call of the library: the sizes that it asks the callback for, the state that it returns, the
plaintext, and whether `iotc_bsp_tls_pending` is positive then. -/
structure BspRead where
  reads : List Nat
  state : BspTlsState
  bytes : Bytes
  pending : Bool
  deriving DecidableEq, Repr

/-- The answers of the allocator: for the decoded buffer, and for the calls that are queued: of `pull` on
this layer, of the layer above and of `close` on this layer. -/
structure Memory where
  buffer : Bool
  pull : Bool
  next : Bool
  close : Bool
  deriving DecidableEq, Repr

namespace World

def freeDesc (w : World) (id : Nat) : World := { w with freed := w.freed ++ [id] }

/-- `IOTC_PROCESS_CLOSE_ON_THIS_LAYER` -/
def closeOnThisLayer (w : World) (mem : Memory) : World :=
  if mem.close then { w with layerState := w.layerState.afterClose } else w

/-- `IOTC_PROCESS_PULL_ON_THIS_LAYER`, if there is raw data or plaintext. -/
def pullAgain (w : World) (d : TlsLayerState) (bsp : BspRead) (mem : Memory) : World :=
  if (d.rawBuffer ≠ [] ∨ bsp.pending = true) ∧ mem.pull = true then { w with pulls := w.pulls + 1 } else w

end World

/-! ## The callback -/

/-- `iotc_bsp_tls_recv_callback` -/
def recvCallback (w : World) (d : TlsLayerState) (sz : Nat) : Option (World × TlsLayerState) :=
  match d.rawBuffer with
  | [] => some ({ w with callbacks := w.callbacks ++ [⟨sz, .wantRead, 0⟩] }, d)
  | recvd :: rest =>
    let recvdDataLengthAvailable := recvd.dataPtr.length - recvd.currPos
    if recvdDataLengthAvailable = 0 then none
    else
      let bytesToCopy := min sz recvdDataLengthAvailable
      let w := { w with
        handed := w.handed ++ (recvd.dataPtr.drop recvd.currPos).take bytesToCopy
        callbacks := w.callbacks ++ [⟨sz, .ok, bytesToCopy⟩] }
      let recvd := { recvd with currPos := recvd.currPos + bytesToCopy }
      if recvd.currPos = recvd.dataPtr.length then
        some (w.freeDesc recvd.id, { d with rawBuffer := rest })
      else some (w, { d with rawBuffer := recvd :: rest })

/-- The calls of the callback, one after the other. -/
def recvCallbacks (w : World) (d : TlsLayerState) : List Nat → Option (World × TlsLayerState)
  | [] => some (w, d)
  | sz :: szs => (recvCallback w d sz).bind fun r => recvCallbacks r.1 r.2 szs

/-! ## The handlers -/

/-- `connect_handler` -/
def connectHandler (w : World) (d : TlsLayerState) (bsp : BspRead) (mem : Memory) : Option World :=
  (recvCallbacks w d bsp.reads).map fun r =>
    match bsp.state with
    | .wantRead | .wantWrite => { r.1 with userData := some r.2 }
    | .ok =>
      let d := { r.2 with connected := true }
      { r.1.pullAgain d bsp mem with
        userData := some d
        layerState := if mem.next then .connected else r.1.layerState }
    | _ => { r.1 with userData := some r.2 }.closeOnThisLayer mem

/-- `recv_handler`. `size` is `IOTC_IO_BUFFER_SIZE`. -/
def recvHandler (size : Nat) (w : World) (d : TlsLayerState) (bsp : BspRead) (mem : Memory) :
    Option World :=
  if d.decodedBuffer = none ∧ mem.buffer = false then
    some ({ w with userData := some d }.closeOnThisLayer mem)
  else
    let decodedBuffer := d.decodedBuffer.getD []
    let sizeLeft := size - decodedBuffer.length
    if sizeLeft = 0 then none
    else (recvCallbacks w d bsp.reads).map fun r =>
      let bytes := bsp.bytes.take sizeLeft
      let decodedBuffer := decodedBuffer ++ bytes
      let w := { r.1 with plaintext := r.1.plaintext ++ bytes }
      match bsp.state with
      | .wantRead => { w with userData := some { r.2 with decodedBuffer := some decodedBuffer } }
      | .ok =>
        let d := { r.2 with decodedBuffer := none }
        { w.pullAgain d bsp mem with
          userData := some d
          passed := if mem.next then w.passed ++ [decodedBuffer] else w.passed }
      | _ => { w with userData := some { r.2 with decodedBuffer := none } }.closeOnThisLayer mem

/-- `tls_layer_logic_recv_handler` -/
def logicRecvHandler (size : Nat) (w : World) (d : TlsLayerState) (bsp : BspRead) (mem : Memory) :
    Option World :=
  if d.connected then recvHandler size w d bsp mem else connectHandler w d bsp mem

/-- `iotc_tls_layer_pull`, with a buffer and `IOTC_STATE_OK`, or without one. -/
def pull (size : Nat) (w : World) (data : Option RawBuffer) (bsp : BspRead) (mem : Memory) :
    Option World :=
  match w.userData with
  | none => some ((data.elim w fun desc => w.freeDesc desc.id).closeOnThisLayer mem)
  | some d =>
    if w.layerState.notOperational then
      some ((data.elim w fun desc => w.freeDesc desc.id).closeOnThisLayer mem)
    else
      match data with
      | some desc =>
        if desc.dataPtr.length - desc.currPos = 0 then none
        else logicRecvHandler size w { d with rawBuffer := d.rawBuffer ++ [desc] } bsp mem
      | none => logicRecvHandler size w d bsp mem

/-- The library reads while it writes: `send_handler` does nothing on a layer that is not operational. -/
def write (w : World) (reads : List Nat) : Option World :=
  match w.userData with
  | none => some w
  | some d =>
    if w.layerState.notOperational then some w
    else (recvCallbacks w d reads).map fun r => { r.1 with userData := some r.2 }

/-- `iotc_tls_layer_close`, which goes on to the layer below. -/
def close (w : World) (mem : Memory) : World := w.closeOnThisLayer mem

/-- `iotc_tls_layer_close_externally` -/
def closeExternally (w : World) : World :=
  match w.userData with
  | none => { w with layerState := .closed }
  | some d =>
    { w with
      layerState := .closed
      userData := none
      freed := w.freed ++ d.rawBuffer.map RawBuffer.id }

/-! ## Runs -/

inductive Event where
  /-- a buffer comes from the layer below -/
  | receive (buffer : Bytes) (bsp : BspRead) (mem : Memory)
  /-- a pull without a buffer, or another call of the handler while the layer connects -/
  | pull (bsp : BspRead) (mem : Memory)
  /-- the library reads while it writes -/
  | write (reads : List Nat)
  | close (mem : Memory)
  | closeExternally
  deriving DecidableEq, Repr

def step (size : Nat) (w : World) : Event → Option World
  | .receive buffer bsp mem =>
    let w' := { w with nextBuffer := w.nextBuffer + 1, received := w.received ++ buffer }
    Receive.pull size w' (some ⟨w.nextBuffer, buffer, 0⟩) bsp mem
  | .pull bsp mem => Receive.pull size w none bsp mem
  | .write reads => Receive.write w reads
  | .close mem => some (Receive.close w mem)
  | .closeExternally => some (Receive.closeExternally w)

/-- The layer at the end of `init`. -/
def initialised : World where
  layerState := .connecting
  userData := some ⟨[], none, false⟩
  nextBuffer := 0
  received := []
  handed := []
  callbacks := []
  freed := []
  plaintext := []
  passed := []
  pulls := 0

end IotDeviceSdk.Tls.Receive
