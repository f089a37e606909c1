import IotDeviceSdk.Io.NetLayer
import IotDeviceSdk.Mqtt.Logic.Layer
import IotDeviceSdk.ResourceManager.Manager
import IotDeviceSdk.Tls.Layer

/-!
# The chain of layers (`iotc_layer_stack.h`, `iotc_layer_api.c`)

A connection is set up and torn down by calls that the layers make on each other: `init` goes down,
`connect` goes up, `close` goes down and `close_externally` up again. A call is a handle in the queue of
the dispatcher. Here the five layers of `IOTC_DEFAULT_LAYER_CHAIN` are put together.

* The logic layer is the one of `Mqtt.Logic`. What it hands to its neighbours is taken from its trace.
* The TLS layer reads the certificate with the manager of `ResourceManager`.
* Of the other layers there is what the setup and the teardown depend on. The data that they pass on are
  those of `Io`, `Tls` and `Mqtt.Codec`; here they come as events, in any order.
* `Answers` is what the libraries, the parser and the allocator answer in a step.

A failing assertion has no result, and freeing a context of the resource manager that has a coroutine to
run has none either.
-/

namespace IotDeviceSdk.IotcState

/-! ## States (`iotc_error.h`) -/

/-- `IOTC_SOCKET_GETSOCKOPT_ERROR` -/
abbrev socketGetsockoptError : IotcState := .other 10

/-- `IOTC_SOCKET_CONNECTION_ERROR` -/
abbrev socketConnectionError : IotcState := .other 12

/-- `IOTC_SOCKET_WRITE_ERROR` -/
abbrev socketWriteError : IotcState := .other 14

/-- `IOTC_SOCKET_READ_ERROR` -/
abbrev socketReadError : IotcState := .other 15

/-- `IOTC_TLS_INITALIZATION_ERROR` -/
abbrev tlsInitalizationError : IotcState := .other 19

/-- `IOTC_TLS_FAILED_LOADING_CERTIFICATE` -/
abbrev tlsFailedLoadingCertificate : IotcState := .other 20

/-- `IOTC_TLS_CONNECT_ERROR` -/
abbrev tlsConnectError : IotcState := .other 21

/-- `IOTC_TLS_READ_ERROR` -/
abbrev tlsReadError : IotcState := .other 23

/-- `IOTC_INTERNAL_ERROR` -/
abbrev internalError : IotcState := .other 40

/-- `IOTC_TLS_FAILED_CERT_ERROR` -/
abbrev tlsFailedCertError : IotcState := .other 62

end IotDeviceSdk.IotcState

namespace IotDeviceSdk.Chain

open Datastructures Mqtt.Logic Tls

/-! ## Layers and calls -/

/-- `iotc_layer_stack_order_e` -/
inductive LayerId where
  | io
  | tls
  | mqttCodec
  | mqttLogic
  | controlTopic
  deriving DecidableEq, Repr

/-- `layer_connection.next` -/
def LayerId.next : LayerId → Option LayerId
  | io => some tls
  | tls => some mqttCodec
  | mqttCodec => some mqttLogic
  | mqttLogic => some controlTopic
  | controlTopic => none

/-- `layer_connection.prev` -/
def LayerId.prev : LayerId → Option LayerId
  | io => none
  | tls => some io
  | mqttCodec => some tls
  | mqttLogic => some mqttCodec
  | controlTopic => some mqttLogic

/-- The functions of `iotc_layer_interface_t`, without `push`. -/
inductive LayerFunc where
  | pull
  | close
  | closeExternally
  | init
  | connect
  | postConnect
  deriving DecidableEq, Repr

/-- A handle with a function of a layer. -/
structure Call where
  layer : LayerId
  func : LayerFunc
  state : IotcState
  deriving DecidableEq, Repr

/-- `get_next_layer_state` -/
def getNextLayerState (func : LayerFunc) (fromState : LayerState) (s : IotcState) : LayerState :=
  match func with
  | .close => fromState.afterClose
  | .closeExternally => .closed
  | .connect => Context.afterConnect s
  | .init => .connecting
  | .pull | .postConnect => fromState

/-! ## The world -/

/-- The data of the network layer: whether `layer_connect_cs` is at the yield, whether the socket is
registered, and whether it waits for its connection. -/
structure IoNetData where
  connectCs : Bool := false
  registered : Bool := false
  wantConnect : Bool := false
  deriving DecidableEq, Repr

/-- `tls_layer_conn_cs`: the lines of the three yields of `init`, that of the one of `connect_handler`,
and what is none of them. -/
inductive ConnCs where
  | start
  | openYield
  | readYield
  | closeYield
  | connectYield
  deriving DecidableEq, Repr

/-- `tls_layer_logic_recv_handler` and `tls_layer_logic_send_handler` -/
inductive Handlers where
  | unset
  | connectHandler
  | data
  deriving DecidableEq, Repr

/-- The data of the TLS layer. `decodedBuffer` says that there is one. -/
structure TlsData where
  connCs : ConnCs := .start
  handlers : Handlers := .unset
  rmContext : Option ResourceManager.World := none
  decodedBuffer : Bool := false

/-- What happens to the connections of an application: `iotc_connect_to` has accepted one, which
`iotc_shutdown_connection` has cancelled before its start, or which has been started; and the callback of
the connection is handed to the dispatcher. -/
inductive Note where
  | accepted
  | cancelled
  | started
  | told (connectionState : ConnectionState) (s : IotcState)
  deriving DecidableEq, Repr

/-- The layers with the queue of the dispatcher. `connectHandler` says that a connection is to be started,
`layerState` is that of each layer but the logic layer. -/
structure World where
  io : Option IoNetData := none
  tls : Option TlsData := none
  mqttCodec : Bool := false
  logic : Mqtt.Logic.World := {}
  layerState : LayerId → LayerState := fun _ => .none
  connectHandler : Bool := false
  queue : List Call := []
  notes : List Note := []
  mem : List Bool := []

/-- What is answered in one step: by the allocator, by the resource manager, by the TLS library
(`bspInit`, `bspConnect`, `bspRead`, and `pending` for a buffer or bytes that wait), by the socket and by
the parser. -/
structure Answers (σ : SizeT) where
  mem : List Bool := []
  logic : Mqtt.Logic.World.Oracle := {}
  resource : ResourceManager.Answers σ := {}
  uniqueFd : Nat := 0
  bspInit : BspTlsState := .ok
  bspConnect : BspTlsState := .ok
  bspRead : BspTlsState := .ok
  pending : Bool := false
  bspConnected : Bool := true
  parse : IotcState := .ok

namespace World

variable {σ : SizeT}

/-- The next allocation. -/
def alloc (w : World) : Bool × World := (w.mem.headD true, { w with mem := w.mem.tail })

/-- The connection data are those that the logic layer uses. -/
def connectionState (w : World) : ConnectionState := w.logic.context.connection.connectionState

/-! ## `iotc_layer_api.c` -/

/-- `iotc_layer_continue_with_impl`. A layer that is not there is not called. -/
def continueWith (w : World) (caller : LayerId) (callee : Option LayerId) (func : LayerFunc)
    (s : IotcState) : World :=
  match callee with
  | none => w
  | some callee =>
    let (queued, w) := w.alloc
    if queued then
      { w with
        queue := w.queue ++ [⟨callee, func, s⟩]
        layerState := Function.update w.layerState caller
          (getNextLayerState func (w.layerState caller) s) }
    else w

/-- `IOTC_PROCESS_…_ON_THIS_LAYER` -/
def processOnThis (w : World) (l : LayerId) (func : LayerFunc) (s : IotcState) : World :=
  w.continueWith l (some l) func s

/-- `IOTC_PROCESS_…_ON_NEXT_LAYER` -/
def processOnNext (w : World) (l : LayerId) (func : LayerFunc) (s : IotcState) : World :=
  w.continueWith l l.next func s

/-- `IOTC_PROCESS_…_ON_PREV_LAYER` -/
def processOnPrev (w : World) (l : LayerId) (func : LayerFunc) (s : IotcState) : World :=
  w.continueWith l l.prev func s

/-- `IOTC_THIS_LAYER_NOT_OPERATIONAL` of a layer, or it has no data. -/
def stopped (w : World) (l : LayerId) (data : Bool) : Bool := (w.layerState l).notOperational || !data

/-! ## The network layer (`iotc_io_net_layer.c`) -/

/-- `iotc_io_net_layer_init`, which leaves a layer with data as it is. -/
def ioInit (w : World) : World :=
  if w.io.isSome then w
  else
    let (data, w) := w.alloc
    if data then { w with io := some {} }.processOnThis .io .connect .ok
    else w.processOnThis .io .connect .outOfMemory

/-- `iotc_io_net_layer_connect` -/
def ioConnect (w : World) (s : IotcState) (connected : Bool) : World :=
  if s ≠ .ok then w.processOnNext .io .connect s
  else
    match w.io with
    | none => w.processOnNext .io .connect .internalError
    | some d =>
      if d.connectCs then
        { w with io := some { d with connectCs := false } }.processOnNext .io .connect
          (if connected then .ok else .socketGetsockoptError)
      else if connected then
        -- without memory the socket is not registered, and nothing calls the layer again
        let (registered, w) := w.alloc
        { w with io := some ⟨true, registered, registered⟩ }
      else w.processOnNext .io .connect .socketConnectionError

/-- `iotc_io_net_layer_close` -/
def ioClose (w : World) (s : IotcState) : World := w.processOnThis .io .closeExternally s

/-- `iotc_io_net_layer_close_externally` -/
def ioCloseExternally (w : World) (s : IotcState) : World :=
  { w with io := none }.processOnNext .io .closeExternally s

/-- The dispatcher finds the socket connected, which waits for that. -/
def socketConnected (w : World) (connected : Bool) : World :=
  match w.io with
  | none => w
  | some d =>
    if d.wantConnect then
      { w with io := some { d with wantConnect := false } }.ioConnect .ok connected
    else w

/-- `iotc_io_net_layer_pull`, which the dispatcher calls for a registered socket. -/
def ioPull (w : World) (result : Io.BspResult) : World :=
  if w.stopped .io w.io.isSome || !w.io.any (·.registered) then w
  else
    let (buffer, w) := w.alloc
    if buffer then
      match result with
      | .ok _ => w.processOnNext .io .pull .ok
      | .busy => w
      | .connectionReset => w.processOnThis .io .closeExternally .connectionResetByPeerError
      | .error => w.processOnThis .io .closeExternally .socketReadError
    else w.processOnThis .io .closeExternally .outOfMemory

/-- `iotc_io_net_layer_push` with what becomes of the bytes. -/
def ioPush (w : World) (outcome : Io.WriteOutcome) : World :=
  if w.stopped .io w.io.isSome then w
  else
    match outcome with
    | .written => w
    | .busy _ =>
      if w.io.any (·.registered) then w else w.processOnThis .io .closeExternally .internalError
    | .connectionReset => w.processOnThis .io .closeExternally .connectionResetByPeerError
    | .error => w.processOnThis .io .closeExternally .socketWriteError

/-! ## The TLS layer (`iotc_tls_layer.c`) -/

def modifyTls (w : World) (f : TlsData → TlsData) : World := { w with tls := w.tls.map f }

/-- The context of the resource manager. -/
def rmContext (w : World) : Option ResourceManager.World := w.tls.bind (·.rmContext)

/-- The callbacks that the layer gives the resource manager, `init` and `close_externally`. -/
def initCallback (s : IotcState) : ResourceManager.Callback := ⟨0, s⟩

def closeExternallyCallback (s : IotcState) : ResourceManager.Callback := ⟨1, s⟩

/-- The call that a callback is. -/
def callOf (callback : ResourceManager.Callback) : Call :=
  ⟨.tls, if callback.id = 0 then .init else .closeExternally, callback.state⟩

/-- `iotc_resource_manager_open`, `_read` and `_close`, and whether they return `OK`. -/
def resourceManager (w : World) (c : ResourceManager.Coroutine) (callback : ResourceManager.Callback) :
    Bool × World :=
  match w.rmContext with
  | none => (false, w)
  | some rm =>
    if rm.Refuses c then (false, w)
    else
      let (mem, w) := w.alloc
      (mem, w.modifyTls fun d => { d with rmContext := some (rm.call c callback mem) })

/-- No coroutine of the context is going to run. -/
def Unused (rm : ResourceManager.World) : Prop := rm.queue = [] ∧ rm.files = []

instance : DecidablePred Unused := fun _ => inferInstanceAs (Decidable (_ ∧ _))

/-- `err_handling` of `iotc_tls_layer_init` -/
def tlsInitErrHandling (w : World) (s : IotcState) : World :=
  (w.modifyTls fun d => { d with connCs := .start }).processOnThis .tls .connect s

/-- A call of the resource manager with the yield after it. -/
def tlsInitYield (w : World) (c : ResourceManager.Coroutine) (cs : ConnCs) : World :=
  let (started, w) := w.resourceManager c (initCallback .ok)
  if started then w.modifyTls fun d => { d with connCs := cs }
  else w.tlsInitErrHandling .tlsFailedLoadingCertificate

/-- `iotc_tls_layer_init` up to its first yield. There is no context yet. -/
def tlsInitOpen (w : World) (a : Answers σ) : World :=
  if w.rmContext.isSome then w.tlsInitErrHandling .tlsFailedLoadingCertificate
  else
    let (context, w) := w.alloc
    if context then
      (w.modifyTls fun d =>
        { d with rmContext := some (.create .empty none (Int.negSucc a.uniqueFd)) }).tlsInitYield
          .openCoroutine .openYield
    else w.tlsInitErrHandling .tlsFailedLoadingCertificate

/-- `iotc_tls_layer_init` once the certificate has been read. What closing it returns is lost. -/
def tlsInitLibrary (w : World) (a : Answers σ) : Option World :=
  match w.rmContext.bind (·.ctx.dataBuffer) with
  | none => none
  | some dataBuffer =>
    if dataBuffer.length = 0 then none
    else
      match a.bspInit with
      | .ok =>
        some ((w.resourceManager .closeCoroutine (initCallback .ok)).2.modifyTls fun d =>
          { d with connCs := .closeYield })
      | .certError => some (w.tlsInitErrHandling .tlsFailedLoadingCertificate)
      | _ => some (w.tlsInitErrHandling .tlsInitalizationError)

/-- `iotc_tls_layer_init` once the certificate is closed. `connCs` stays, since it is another coroutine
that `IOTC_CR_EXIT` ends. -/
def tlsInitExit (w : World) : Option World :=
  if ∀ rm ∈ w.rmContext, Unused rm then
    some ((w.modifyTls fun d =>
      { d with rmContext := none, handlers := .connectHandler }).processOnPrev .tls .init .ok)
  else none

/-- `iotc_tls_layer_init` with data, from where `connCs` says. -/
def tlsInitFrom (w : World) (cs : ConnCs) (s : IotcState) (a : Answers σ) : Option World :=
  match cs with
  | .openYield =>
    if s ≠ .ok then some (w.tlsInitErrHandling .tlsFailedLoadingCertificate)
    else some (w.tlsInitYield .readCoroutine .readYield)
  | .readYield =>
    if s ≠ .ok then some (w.tlsInitErrHandling .tlsFailedLoadingCertificate) else w.tlsInitLibrary a
  | .closeYield =>
    if s ≠ .ok then some (w.tlsInitErrHandling .tlsFailedLoadingCertificate) else w.tlsInitExit
  | _ => some (w.tlsInitOpen a)

/-- `iotc_tls_layer_init` -/
def tlsInit (w : World) (s : IotcState) (a : Answers σ) : Option World :=
  match w.tls with
  | some d => w.tlsInitFrom d.connCs s a
  | none =>
    let (data, w) := w.alloc
    if data then { w with tls := some {} }.tlsInitFrom .start s a
    else some (w.processOnThis .tls .connect .outOfMemory)

/-- `connect_handler` -/
def connectHandlerStep (w : World) (a : Answers σ) : World :=
  if w.stopped .tls w.tls.isSome then w
  else
    match a.bspConnect with
    | .wantRead | .wantWrite => w.modifyTls fun d => { d with connCs := .connectYield }
    | .ok =>
      let w := w.modifyTls fun d => { d with connCs := .start, handlers := .data }
      (if a.pending then w.processOnThis .tls .pull .wantRead else w).processOnNext .tls .connect .ok
    | .certError =>
      (w.modifyTls fun d => { d with connCs := .start }).processOnThis .tls .close .tlsFailedCertError
    | _ => (w.modifyTls fun d => { d with connCs := .start }).processOnThis .tls .close .tlsConnectError

/-- `recv_handler` -/
def recvHandler (w : World) (a : Answers σ) : World :=
  let (buffer, w) := if w.tls.any (·.decodedBuffer) then (true, w) else w.alloc
  if buffer then
    match a.bspRead with
    | .wantRead => w.modifyTls fun d => { d with decodedBuffer := true }
    | .ok =>
      let w := w.modifyTls fun d => { d with decodedBuffer := false }
      (if a.pending then w.processOnThis .tls .pull .wantRead else w).processOnNext .tls .pull .ok
    | _ =>
      (w.modifyTls fun d => { d with decodedBuffer := false }).processOnThis .tls .close .tlsReadError
  else w.processOnThis .tls .close .outOfMemory

/-- `iotc_tls_layer_pull` -/
def tlsPull (w : World) (s : IotcState) (a : Answers σ) : Option World :=
  match w.tls with
  | none => some (w.processOnThis .tls .close s)
  | some d =>
    if (w.layerState .tls).notOperational then some (w.processOnThis .tls .close s)
    else
      match d.handlers with
      | .unset => none
      | .connectHandler => some (w.connectHandlerStep a)
      | .data => some (w.recvHandler a)

/-- `iotc_tls_layer_push`. The handler for sending hands nothing over that is modelled here. -/
def tlsPush (w : World) (a : Answers σ) : Option World :=
  match w.tls with
  | none => some w
  | some d =>
    if (w.layerState .tls).notOperational then some w
    else
      match d.handlers with
      | .unset => none
      | .connectHandler => some (w.connectHandlerStep a)
      | .data => some w

/-- `iotc_tls_layer_connect` -/
def tlsConnect (w : World) (s : IotcState) (a : Answers σ) : World :=
  if w.stopped .tls w.tls.isSome || s ≠ .ok then w.processOnNext .tls .connect s
  else w.connectHandlerStep a

/-- `iotc_tls_layer_close` -/
def tlsClose (w : World) (s : IotcState) : World :=
  if w.tls.isNone then w.processOnThis .tls .closeExternally s else w.processOnPrev .tls .close s

/-- `iotc_tls_layer_close_externally` once the certificate is closed. A layer that is connecting tells the
layer above first. -/
def tlsFree (w : World) (s : IotcState) : Option World :=
  if ∀ rm ∈ w.rmContext, Unused rm then
    let w := { w with tls := none }
    if s ≠ .ok ∧ w.layerState .tls = .connecting then some (w.processOnThis .tls .connect s)
    else some (w.processOnNext .tls .closeExternally s)
  else none

/-- `iotc_tls_layer_close_externally`, which closes a certificate that is open. -/
def tlsCloseExternally (w : World) (s : IotcState) : Option World :=
  if w.rmContext.any (0 ≤ ·.ctx.resourceHandle) then
    let (closing, w) := w.resourceManager .closeCoroutine (closeExternallyCallback s)
    if closing then some w else w.tlsFree s
  else w.tlsFree s

/-! ## The MQTT codec layer (`iotc_mqtt_codec_layer.c`) -/

/-- `iotc_mqtt_codec_layer_init` -/
def mqttCodecInit (w : World) (s : IotcState) : Option World :=
  if w.mqttCodec then none
  else
    let (data, w) := w.alloc
    if data then some ({ w with mqttCodec := true }.processOnPrev .mqttCodec .init s)
    else some (w.processOnPrev .mqttCodec .init .outOfMemory)

/-- `iotc_mqtt_codec_layer_pull`, where the parser leaves the state `parse`. -/
def mqttCodecPull (w : World) (s : IotcState) (a : Answers σ) : World :=
  if w.stopped .mqttCodec w.mqttCodec then w
  else if s ≠ .ok ∨ (a.parse ≠ .ok ∧ a.parse ≠ .wantRead) then
    w.processOnPrev .mqttCodec .close (s.max a.parse)
  else w

/-- `iotc_mqtt_codec_layer_connect` -/
def mqttCodecConnect (w : World) (s : IotcState) : World := w.processOnNext .mqttCodec .connect s

/-- `iotc_mqtt_codec_layer_close` -/
def mqttCodecClose (w : World) (s : IotcState) : World :=
  if w.mqttCodec then w.processOnPrev .mqttCodec .close s
  else w.processOnThis .mqttCodec .closeExternally s

/-- `iotc_mqtt_codec_layer_close_externally` -/
def mqttCodecCloseExternally (w : World) (s : IotcState) : World :=
  { w with mqttCodec := false }.processOnNext .mqttCodec .closeExternally s

/-! ## The MQTT logic layer (`iotc_mqtt_logic_layer.c`) -/

/-- The call on another layer that the logic layer has handed to the dispatcher. -/
def callOfOutput : Output → Option Call
  | .initOnPrev s => some ⟨.mqttCodec, .init, s⟩
  | .connectOnNext s => some ⟨.controlTopic, .connect, s⟩
  | .connectOnThis s => some ⟨.mqttLogic, .connect, s⟩
  | .postConnectOnPrev s => some ⟨.mqttCodec, .postConnect, s⟩
  | .closeOnThis s => some ⟨.mqttLogic, .close, s⟩
  | .closeOnPrev s => some ⟨.mqttCodec, .close, s⟩
  | .closeExternallyOnThis s => some ⟨.mqttLogic, .closeExternally, s⟩
  | .closeExternallyOnNext s => some ⟨.controlTopic, .closeExternally, s⟩
  | _ => none

/-- A call on the logic layer. -/
def mqttLogic (w : World) (e : Mqtt.Logic.World.Event) (oracle : Mqtt.Logic.World.Oracle) : Option World :=
  (w.logic.step (e, oracle)).map fun logic =>
    { w with
      logic
      queue := w.queue ++
        (logic.context.out.drop w.logic.context.out.length).filterMap callOfOutput }

/-! ## The control topic layer (`iotc_control_topic_layer.c`) -/

/-- `iotc_control_topic_connection_state_changed` -/
def connectionStateChanged (w : World) (s : IotcState) : World :=
  let (queued, w) := w.alloc
  let w := if queued then { w with notes := w.notes ++ [.told w.connectionState s] } else w
  if s = .ok ∧ w.connectionState = .opened then w.processOnThis .controlTopic .postConnect s else w

/-- `iotc_control_topic_layer_connect` -/
def controlTopicConnect (w : World) (s : IotcState) : World :=
  if s = .ok then w.connectionStateChanged s else w.processOnPrev .controlTopic .close s

/-- `iotc_control_topic_layer_close` -/
def controlTopicClose (w : World) (s : IotcState) : Option World :=
  (w.mqttLogic .closing {}).map fun w => w.processOnPrev .controlTopic .close s

/-- `iotc_control_topic_layer_close_externally` -/
def controlTopicCloseExternally (w : World) (s : IotcState) : Option World :=
  (w.mqttLogic .closed {}).map fun w => w.connectionStateChanged s

/-! ## Steps -/

/-- A call is made. The `post_connect` of every layer but the logic layer is
`iotc_layer_default_post_connect`, which goes on if the layer has data; the control topic layer has none.
-/
def perform (w : World) (c : Call) (a : Answers σ) : Option World :=
  match c.layer, c.func with
  | .io, .init => some w.ioInit
  | .io, .connect => some (w.ioConnect c.state a.bspConnected)
  | .io, .close => some (w.ioClose c.state)
  | .io, .closeExternally => some (w.ioCloseExternally c.state)
  | .io, .pull => some w
  | .io, .postConnect => some (if w.io.isSome then w.processOnPrev .io .postConnect c.state else w)
  | .tls, .init => w.tlsInit c.state a
  | .tls, .connect => some (w.tlsConnect c.state a)
  | .tls, .close => some (w.tlsClose c.state)
  | .tls, .closeExternally => w.tlsCloseExternally c.state
  | .tls, .pull => w.tlsPull c.state a
  | .tls, .postConnect => some (if w.tls.isSome then w.processOnPrev .tls .postConnect c.state else w)
  | .mqttCodec, .init => w.mqttCodecInit c.state
  | .mqttCodec, .connect => some (w.mqttCodecConnect c.state)
  | .mqttCodec, .close => some (w.mqttCodecClose c.state)
  | .mqttCodec, .closeExternally => some (w.mqttCodecCloseExternally c.state)
  | .mqttCodec, .pull => some (w.mqttCodecPull c.state a)
  | .mqttCodec, .postConnect =>
    some (if w.mqttCodec then w.processOnPrev .mqttCodec .postConnect c.state else w)
  | .mqttLogic, .init => w.mqttLogic (.init c.state) a.logic
  | .mqttLogic, .connect => w.mqttLogic (.connect c.state) a.logic
  | .mqttLogic, .close => w.mqttLogic (.close c.state) a.logic
  | .mqttLogic, .closeExternally => w.mqttLogic (.closeExternally c.state) a.logic
  | .mqttLogic, .pull => some w
  | .mqttLogic, .postConnect => w.mqttLogic (.postConnect c.state) a.logic
  | .controlTopic, .init => some (w.processOnPrev .controlTopic .init c.state)
  | .controlTopic, .connect => some (w.controlTopicConnect c.state)
  | .controlTopic, .close => w.controlTopicClose c.state
  | .controlTopic, .closeExternally => w.controlTopicCloseExternally c.state
  | .controlTopic, .pull => some w
  | .controlTopic, .postConnect => some w

/-- `iotc_connect_to`, which refuses while a connection is to be started or is under way. -/
def connectTo (w : World) (d : ConnectionData) : Option World :=
  if w.connectHandler ∨ ¬w.connectionState.final then some w
  else
    let (data, w) := w.alloc
    if data then
      (w.mqttLogic (.connectTo d) {}).map fun w =>
        let (event, w) := w.alloc
        if event then
          let (grown, w) := w.alloc
          if grown then { w with connectHandler := true, notes := w.notes ++ [.accepted] } else w
        else w
    else some w

/-- `iotc_shutdown_connection` for a connection that has not been started. For one that has, it makes the
task that comes to the logic layer. -/
def shutdownConnection (w : World) : World :=
  if w.connectHandler then { w with connectHandler := false, notes := w.notes ++ [.cancelled] } else w

/-- The time event of a connection runs. -/
def startConnection (w : World) (a : Answers σ) : Option World :=
  if w.connectHandler then
    { w with connectHandler := false, notes := w.notes ++ [Note.started] }.perform
      ⟨.controlTopic, .init, .ok⟩ a
  else some w

/-- The dispatcher takes the first call of its queue. -/
def dispatch (w : World) (a : Answers σ) : Option World :=
  match w.queue with
  | [] => some w
  | c :: queue => { w with queue }.perform c a

/-- The callbacks that the resource manager has handed to the dispatcher. -/
def handed (rm : ResourceManager.World) : List ResourceManager.Callback :=
  rm.queue.filterMap fun
    | .coroutine _ => none
    | .callback callback => some callback

/-- The resource manager without the callbacks that it has handed over or invoked. -/
def collect (rm : ResourceManager.World) : ResourceManager.World :=
  { rm with
    queue := rm.queue.filter fun
      | .coroutine _ => true
      | .callback _ => false
    log := [] }

/-- The callbacks that have been handed over are in the queue. -/
def takeOver (w : World) (d : TlsData) (rm : ResourceManager.World) : World :=
  { w with
    tls := some { d with rmContext := some (collect rm) }
    queue := w.queue ++ (handed rm).map callOf }

/-- The callbacks that the resource manager has handed over go to the queue, and those that it has invoked
are performed. -/
def resourceManaged (w : World) (d : TlsData) (rm : ResourceManager.World) (a : Answers σ) :
    Option World :=
  rm.log.foldlM (fun w callback => w.perform (callOf callback) a) (w.takeOver d rm)

/-- A coroutine of the resource manager runs: the first of the queue, or that of a file. -/
def resource (w : World) (fd : Option Int) (a : Answers σ) : Option World :=
  match w.tls with
  | none => some w
  | some d =>
    match d.rmContext with
    | none => some w
    | some rm =>
      (ResourceManager.step rm (fd.elim (.dispatch a.resource) (.ready · a.resource))).bind
        (w.resourceManaged d · a)

/-- A call of the logic layer by a user, by the codec layer or by a time event. -/
def fromOutside : Mqtt.Logic.World.Event → Bool
  | .submit _ | .written .. | .pull .. | .fire _ | .keepalive => true
  | _ => false

/-- What can happen, in any order. -/
inductive Event where
  | connectTo (d : ConnectionData)
  | shutdownConnection
  | startConnection
  | dispatch
  | resource (fd : Option Int)
  | socketConnected
  | ioPull (result : Io.BspResult)
  | ioPush (outcome : Io.WriteOutcome)
  | tlsPush
  | mqttLogic (e : Mqtt.Logic.World.Event)
  deriving DecidableEq

/-- One step, once the answers of the allocator are there. -/
def stepWith (w : World) (a : Answers σ) : Event → Option World
  | .connectTo d => w.connectTo d
  | .shutdownConnection => some w.shutdownConnection
  | .startConnection => w.startConnection a
  | .dispatch => w.dispatch a
  | .resource fd => w.resource fd a
  | .socketConnected => some (w.socketConnected a.bspConnected)
  | .ioPull result => some (w.ioPull result)
  | .ioPush outcome => some (w.ioPush outcome)
  | .tlsPush => w.tlsPush a
  | .mqttLogic e => if fromOutside e then w.mqttLogic e a.logic else some w

/-- One step. -/
def step (w : World) (e : Event × Answers σ) : Option World :=
  { w with mem := e.2.mem }.stepWith e.2 e.1

end World

end IotDeviceSdk.Chain
