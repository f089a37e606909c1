import IotDeviceSdk.Mqtt.Parser

/-!
# The codec layer and its pull side (`iotc_mqtt_codec_layer.c`)

The layer below delivers buffers, the layer above gets messages. A call of a neighbour is put into
the queue of the dispatcher; here the calls are the result, in their order.

* `pull_cs` and `layer_data->msg` are one field: there is a message exactly while a packet is
  being parsed, which is what the assertion at the start of a packet says.
* The layer has its data from `init` until it is closed.
-/

namespace IotDeviceSdk.Mqtt.Codec

/-- `pull_cs`. The values 0, 1 and 2 all start a new packet. -/
inductive PullCs where
  | idle
  | parsing (msg : Message)

/-- `push_cs`. The values 0, 1 and 2 all start a new message. -/
inductive PushCs where
  | idle
  /-- the header is being written, or the whole message when there is no payload -/
  | header
  /-- the payload of a PUBLISH is being written -/
  | payload
  deriving DecidableEq, Repr

/-- `iotc_mqtt_codec_layer_task_t` -/
structure CodecTask where
  msg : Option Message
  msgId : Nat
  msgType : MqttType
  deriving DecidableEq, Repr

/-- `iotc_mqtt_written_data_t`: id and type of a message. -/
structure WrittenData where
  msgId : Nat
  msgType : MqttType
  deriving DecidableEq, Repr

/-- `iotc_mqtt_codec_layer_data_t` -/
structure LayerData where
  taskQueue : List CodecTask
  parser : Parser
  localState : IotcState
  msgId : Nat
  msgType : MqttType
  pullCs : PullCs
  pushCs : PushCs

/-- The data after `iotc_mqtt_codec_layer_init`, which clears it. -/
def layerDataInit : LayerData where
  taskQueue := []
  parser := parserInit
  localState := .ok
  msgId := 0
  msgType := .none
  pullCs := .idle
  pushCs := .idle

/-- What is passed up with `push`: the tuple of a written message or, by the error handler of the
push side, the pointer it was called with. -/
inductive UpData where
  | null
  | written (w : WrittenData)
  | message (m : Message)
  deriving DecidableEq, Repr

/-- The calls of the neighbouring layers. -/
inductive LayerCall where
  | pullNext (m : Message) (state : IotcState)
  | pushNext (data : UpData) (state : IotcState)
  | pushPrev (desc : Bytes) (state : IotcState)
  | closePrev (state : IotcState)
  deriving DecidableEq, Repr

/-- The layer: its state and its data. -/
structure Layer where
  layerState : LayerState
  data : LayerData

/-- The layer when it has just been connected. -/
def connectedLayer : Layer := ⟨.connected, layerDataInit⟩

/-- `clear_task_queue`: every task is reported as not written. `mem` are the answers of the
allocator, all of them positive where the list ends. -/
def clearTaskQueue : List CodecTask → List Bool → List LayerCall
  | [], _ => []
  | t :: ts, mem =>
    .pushNext (if mem.headD true then .written ⟨t.msgId, t.msgType⟩ else .null) .failedWriting ::
      clearTaskQueue ts mem.tail

/-! ## pull -/

/-- What a call of pull leaves: the layer, the static state of the parser, the calls it made, and
how often it freed the buffer. -/
structure PullResult where
  layer : Layer
  localState : IotcState
  calls : List LayerCall
  freed : Nat

/-- The error handler of `iotc_mqtt_codec_layer_pull`. -/
def pullErrHandling (c : Layer) (ls inOutState : IotcState) : PullResult where
  layer :=
    { layerState := c.layerState.afterClose
      data := { c.data with pullCs := .idle, taskQueue := [] } }
  localState := ls
  calls := clearTaskQueue c.data.taskQueue [] ++
    [.closePrev (inOutState.max c.data.localState)]
  freed := 1

/-- `iotc_mqtt_parser_execute` as pull calls it, with a new message when there is none. -/
def parse (d : LayerData) (ls : IotcState) (buffer : Bytes) : Outcome :=
  match d.pullCs with
  | .idle => execute parserInit {} buffer ls
  | .parsing msg => execute d.parser msg buffer ls

/-- The layer after a call of the parser, with its coroutine at `cs`. -/
def Layer.parsed (c : Layer) (o : Outcome) (cs : PullCs) : Layer :=
  { c with data := { c.data with parser := o.parser, localState := o.state, pullCs := cs } }

/-- `iotc_mqtt_codec_layer_pull`, with a bound on how often it calls itself. -/
def pullFuel : Nat → Layer → IotcState → Bytes → IotcState → PullResult
  | 0, c, ls, _, _ => ⟨c, ls, [], 0⟩
  | n + 1, c, ls, buffer, inOutState =>
    if c.layerState.notOperational then ⟨c, ls, [], 1⟩
    else if inOutState ≠ .ok then pullErrHandling c ls inOutState
    else
      let o := parse c.data ls buffer
      match o.state with
      | .wantRead => ⟨c.parsed o (.parsing o.message), o.localState, [], 1⟩
      | .ok =>
        if o.src = [] then ⟨c.parsed o .idle, o.localState, [.pullNext o.message .ok], 1⟩
        else
          let r := pullFuel n (c.parsed o .idle) o.localState o.src inOutState
          { r with calls := .pullNext o.message .ok :: r.calls }
      | _ => pullErrHandling (c.parsed o .idle) o.localState inOutState

/-- `iotc_mqtt_codec_layer_pull`. Every call of itself but the first has at least one byte less. -/
def pull (c : Layer) (ls : IotcState) (buffer : Bytes) (inOutState : IotcState) : PullResult :=
  pullFuel (buffer.length + 2) c ls buffer inOutState

end IotDeviceSdk.Mqtt.Codec
