import IotDeviceSdk.Base

/-!
# The send side of the TLS layer (`iotc_tls_layer.c`)

The layer hands the bytes of one buffer to the TLS library, the library hands what it makes of them
to the layer below through a callback. Both are coroutines: the callback waits for the layer below,
the send handler waits while the library does.

* The library is a parameter: a `BspWrite` is what one call of `iotc_bsp_tls_write` does.
* The layer is modelled from `connect` on, when its send handler is `send_handler`.
* A failed assertion, or a buffer that is not there, is `none`.
-/

namespace IotDeviceSdk.Tls

/-- `iotc_bsp_tls_state_t` -/
inductive BspTlsState where
  | ok
  | initError
  | certError
  | connectError
  | wantRead
  | wantWrite
  | readError
  | writeError
  deriving DecidableEq, Repr

/-- `iotc_tls_layer_data_write_state_t` -/
inductive DataWriteState where
  | none
  | writing
  | written
  deriving DecidableEq, Repr

/-- `iotc_data_desc_t` of a buffer that is full. -/
structure DataDesc where
  dataPtr : Bytes
  currPos : Nat
  deriving DecidableEq, Repr

/-- What `iotc_tls_layer_state_t` holds for sending. A coroutine is running (`true`) or not. -/
structure TlsLayerState where
  toWriteBuffer : Option DataDesc
  tlsLibHandlerSendingCs : Bool
  tlsLayerSendCs : Bool
  tlsLayerWriteState : DataWriteState
  deriving DecidableEq, Repr

/-- The layer. It has its data until it is closed externally. -/
structure Layer where
  layerState : LayerState
  userData : Option TlsLayerState
  deriving DecidableEq, Repr

/-- The data of a layer that has just been connected. -/
def TlsLayerState.connected : TlsLayerState := ⟨none, false, false, .none⟩

/-! ## The library -/

/-- One call of `iotc_bsp_tls_write`: the calls of the send callback that it makes, each with the
answer of the allocator, and what it returns. -/
structure BspWrite where
  sends : List Bool
  state : BspTlsState
  bytesWritten : Nat
  deriving DecidableEq, Repr

/-- `iotc_bsp_tls_write` over mbed TLS, where `mbedtls_ssl_write` returned `ret`, which is
`wantWrite` for `MBEDTLS_ERR_SSL_WANT_WRITE`. -/
def mbedtlsWrite (sends : List Bool) (wantWrite ret : Int) : BspWrite :=
  if ret > 0 then ⟨sends, .ok, ret.toNat⟩
  else if ret = wantWrite then ⟨sends, .wantWrite, 0⟩
  else ⟨sends, .writeError, 0⟩

/-- What calls of the send callback leave: the data, the buffers that went to the layer below and
what the last call returned. -/
structure Callbacks where
  data : TlsLayerState
  pushed : Nat
  result : Option BspTlsState
  deriving DecidableEq, Repr

/-- `iotc_bsp_tls_send_callback` -/
def sendCallback (d : TlsLayerState) (mem : Bool) : Option Callbacks :=
  if d.tlsLibHandlerSendingCs then
    match d.tlsLayerWriteState with
    | .none => none
    | .writing => some ⟨d, 0, some .wantWrite⟩
    | .written =>
      some ⟨{ d with tlsLayerWriteState := .none, tlsLibHandlerSendingCs := false }, 0, some .ok⟩
  else if d.tlsLayerWriteState ≠ .none then none
  else if mem then
    some ⟨{ d with tlsLayerWriteState := .writing, tlsLibHandlerSendingCs := true }, 1,
      some .wantWrite⟩
  else some ⟨{ d with tlsLayerWriteState := .writing }, 0, some .writeError⟩

/-- The calls of the send callback, one after the other. -/
def sendCallbacks (d : TlsLayerState) : List Bool → Option Callbacks
  | [] => some ⟨d, 0, none⟩
  | mem :: mems =>
    (sendCallback d mem).bind fun r =>
      (sendCallbacks r.data mems).map fun s => ⟨s.data, r.pushed + s.pushed, s.result.or r.result⟩

/-! ## The layer -/

/-- What a call leaves: the layer, the bytes the library accepted, the buffers that went to the
layer below, and what was reported to the layer above. -/
structure PushResult where
  layer : Layer
  accepted : Bytes
  pushed : Nat
  report : Option IotcState
  deriving DecidableEq, Repr

/-- `send_handler`. A coroutine that is resumed tries again with what is left by then. -/
def sendHandler (l : LayerState) (d : TlsLayerState) (bsp : BspWrite) : Option PushResult :=
  match d.toWriteBuffer with
  | none => none
  | some buffer =>
    let offset := buffer.currPos
    let sizeLeft := buffer.dataPtr.length - buffer.currPos
    if sizeLeft = 0 then none
    else (sendCallbacks d bsp.sends).map fun r =>
      let accepted := (buffer.dataPtr.drop offset).take bsp.bytesWritten
      match bsp.state with
      | .wantWrite =>
        let buffer := { buffer with currPos := offset + bsp.bytesWritten }
        ⟨⟨l, some { r.data with toWriteBuffer := some buffer, tlsLayerSendCs := true }⟩, accepted,
          r.pushed, none⟩
      | .ok =>
        ⟨⟨l, some { r.data with toWriteBuffer := none, tlsLayerSendCs := false }⟩, accepted,
          r.pushed, some .written⟩
      | _ =>
        ⟨⟨l, some { r.data with toWriteBuffer := none, tlsLayerSendCs := false }⟩, accepted,
          r.pushed, some .failedWriting⟩

/-- `iotc_tls_layer_push`. A state that is none of these goes to the layer below. -/
def push (l : Layer) (buffer : Option Bytes) (inOutState : IotcState) (bsp : BspWrite) :
    Option PushResult :=
  match l.userData with
  | none => some ⟨l, [], 0, none⟩
  | some d =>
    if l.layerState.notOperational then some ⟨l, [], 0, none⟩
    else match inOutState with
      | .written =>
        if d.tlsLayerWriteState ≠ .writing then none
        else sendHandler l.layerState { d with tlsLayerWriteState := .written } bsp
      | .ok | .wantWrite =>
        if d.toWriteBuffer.isSome || d.tlsLayerSendCs || d.tlsLibHandlerSendingCs then none
        else sendHandler l.layerState { d with toWriteBuffer := buffer.map fun b => ⟨b, 0⟩ } bsp
      | _ => some ⟨l, [], 1, none⟩

/-- The calls of the send callback while the library reads. -/
def pull (l : Layer) (sends : List Bool) : Option PushResult :=
  match l.userData with
  | none => some ⟨l, [], 0, none⟩
  | some d =>
    if l.layerState.notOperational then some ⟨l, [], 0, none⟩
    else (sendCallbacks d sends).map fun r => ⟨⟨l.layerState, some r.data⟩, [], r.pushed, none⟩

/-- `iotc_tls_layer_close`, which goes on to the layer below. -/
def close (l : Layer) : Layer := { l with layerState := l.layerState.afterClose }

/-- `iotc_tls_layer_close_externally` once the certificate is closed. -/
def closeExternally (_ : Layer) : Layer := ⟨.closed, none⟩

end IotDeviceSdk.Tls
