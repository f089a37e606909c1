import IotDeviceSdk.Mqtt.Message

/-!
# Tasks of the MQTT logic layer (`iotc_mqtt_logic_layer_data.h`)

A task is known by the `id` of its allocation. Its time event handle is not a field here: the
pending time events are those of the dispatcher, and the handle of a task is the event with its
`id`.

`scenario` and `data_u` are one field, so that a task has no data of another scenario.
-/

namespace IotDeviceSdk

/-! ## States that the logic layer tells apart -/

namespace IotcState

/-- `IOTC_BACKOFF_TERMINAL` -/
abbrev backoffTerminal : IotcState := .other 6

/-- `IOTC_CONNECTION_RESET_BY_PEER_ERROR` -/
abbrev connectionResetByPeerError : IotcState := .other 17

/-- `IOTC_MQTT_UNKNOWN_MESSAGE_ID` -/
abbrev mqttUnknownMessageId : IotcState := .other 26

/-- `IOTC_MQTT_LOGIC_UNKNOWN_TASK_ID` -/
abbrev mqttLogicUnknownTaskId : IotcState := .other 27

/-- `IOTC_MQTT_LOGIC_WRONG_SCENARIO_TYPE` -/
abbrev mqttLogicWrongScenarioType : IotcState := .other 28

/-- `IOTC_MQTT_LOGIC_WRONG_MESSAGE_RECEIVED` -/
abbrev mqttLogicWrongMessageReceived : IotcState := .other 29

/-- `IOTC_MQTT_UNACCEPTABLE_PROTOCOL_VERSION` -/
abbrev mqttUnacceptableProtocolVersion : IotcState := .other 30

/-- `IOTC_MQTT_IDENTIFIER_REJECTED` -/
abbrev mqttIdentifierRejected : IotcState := .other 31

/-- `IOTC_MQTT_SERVER_UNAVAILIBLE` -/
abbrev mqttServerUnavailable : IotcState := .other 32

/-- `IOTC_MQTT_BAD_USERNAME_OR_PASSWORD` -/
abbrev mqttBadUsernameOrPassword : IotcState := .other 33

/-- `IOTC_MQTT_NOT_AUTHORIZED` -/
abbrev mqttNotAuthorized : IotcState := .other 34

/-- `IOTC_MQTT_CONNECT_UNKNOWN_RETURN_CODE` -/
abbrev mqttConnectUnknownReturnCode : IotcState := .other 35

/-- `IOTC_MQTT_MESSAGE_CLASS_UNKNOWN_ERROR` -/
abbrev mqttMessageClassUnknownError : IotcState := .other 36

/-- `IOTC_MQTT_PAYLOAD_SIZE_TOO_LARGE` -/
abbrev mqttPayloadSizeTooLarge : IotcState := .other 37

/-- `IOTC_MQTT_SUBSCRIPTION_FAILED` -/
abbrev mqttSubscriptionFailed : IotcState := .other 38

/-- `IOTC_MQTT_SUBSCRIPTION_SUCCESSFULL` -/
abbrev mqttSubscriptionSuccessful : IotcState := .other 39

/-- `IOTC_UNSET_HANDLER_ERROR` -/
abbrev unsetHandlerError : IotcState := .other 45

/-- `IOTC_NULL_WILL_TOPIC` -/
abbrev nullWillTopic : IotcState := .other 53

/-- `IOTC_NULL_WILL_MESSAGE` -/
abbrev nullWillMessage : IotcState := .other 54

/-- `IOTC_NULL_CLIENT_ID_ERROR` -/
abbrev nullClientIdError : IotcState := .other 76

/-- `iotc_backoff_classify_state` gives `IOTC_BACKOFF_CLASS_TERMINAL`. -/
def isTerminal (s : IotcState) : Bool :=
  s = connectionResetByPeerError || s = mqttUnacceptableProtocolVersion ||
    s = mqttIdentifierRejected || s = mqttBadUsernameOrPassword || s = mqttNotAuthorized

end IotcState

namespace Mqtt.Logic

/-! ## Tasks -/

/-- `iotc_mqtt_qos_t` -/
inductive Qos where
  | atMostOnce
  | atLeastOnce
  | exactlyOnce
  deriving DecidableEq, Repr

/-- The two bits of the QoS. -/
def Qos.bits : Qos → Nat
  | .atMostOnce => 0
  | .atLeastOnce => 1
  | .exactlyOnce => 2

/-- The event handle of a user's callback. -/
abbrev UserHandle := Nat

/-- `data_t_publish_t`, without `dup`, which nothing reads. `topic` is `none` when there was no memory
for the copy of it. -/
structure PublishData where
  topic : Option Bytes
  data : Bytes
  retain : Bool
  deriving DecidableEq, Repr

/-- `data_t_subscribe_t` -/
structure SubscribeData where
  topic : Bytes
  handler : UserHandle
  qos : Qos
  deriving DecidableEq, Repr

/-- `iotc_scenario_t` with the `data_u` of the task, `none` for `NULL` -/
inductive Scenario where
  | connect
  | publish (data : Option PublishData)
  | puback
  | subscribe (data : Option SubscribeData)
  | keepalive
  | shutdown
  deriving DecidableEq, Repr

/-- `iotc_mqtt_logic_task_priority_t` -/
inductive Priority where
  | normal
  | immediate
  deriving DecidableEq, Repr

/-- `iotc_mqtt_logic_task_session_state_t` -/
inductive SessionState where
  | unset
  | doNotStore
  | store
  deriving DecidableEq, Repr

/-- The `cs` of a coroutine: not run yet, left by `IOTC_CR_EXIT` or `IOTC_CR_RESET`, or the line
that it yielded at. Each of the first three starts it anew. -/
inductive Cs where
  | fresh
  | exit
  | reset
  /-- the message has been handed over and is not yet written -/
  | sent
  /-- the message has been written and is not yet answered -/
  | answer
  /-- `do_mqtt_subscribe` waits before it sends again -/
  | resending
  deriving DecidableEq, Repr

/-- A message that the layer has received, known by the number of its allocation. -/
structure Received where
  object : Nat
  message : Message
  deriving DecidableEq, Repr

/-- The arguments of the `logic` handle that are not fixed: `context` is whether `a1` is set, then
`a3` and `a4`. -/
structure Args where
  context : Bool
  state : IotcState
  message : Option Received
  deriving DecidableEq, Repr

/-- `iotc_mqtt_logic_task_t`. `logic` is `none` while the handle is unset; its function is that of
the scenario. `callback` is `none` when disposed. -/
structure Task where
  id : Nat
  logic : Option Args := none
  callback : Option UserHandle := none
  scenario : Scenario
  qos : Qos
  priority : Priority := .normal
  sessionState : SessionState := .unset
  cs : Cs := .fresh
  msgId : Nat := 0
  deriving DecidableEq, Repr

/-- `iotc_mqtt_logic_free_task_data` -/
def Task.freeData (t : Task) : Task :=
  { t with
    scenario := match t.scenario with
      | .publish _ => .publish none
      | .subscribe _ => .subscribe none
      | s => s }

/-- The data of a PUBLISH. -/
def Task.publishData (t : Task) : Option PublishData :=
  match t.scenario with
  | .publish data => data
  | _ => none

/-- The data of a SUBSCRIBE. -/
def Task.subscribeData (t : Task) : Option SubscribeData :=
  match t.scenario with
  | .subscribe data => data
  | _ => none

/-- An element of `handlers_for_topics`. `task` allocated the data. -/
structure TopicHandler where
  task : Nat
  data : SubscribeData
  deriving DecidableEq, Repr

/-! ## The connection -/

/-- `iotc_connection_state_t` -/
inductive ConnectionState where
  | uninitialized
  | opening
  | opened
  | closing
  | closed
  | openFailed
  deriving DecidableEq, Repr

/-- `iotc_connect_to` accepts a connection in this state. -/
def ConnectionState.final : ConnectionState → Bool
  | .uninitialized | .closed | .openFailed => true
  | _ => false

/-- `iotc_session_type_t` -/
inductive SessionType where
  | clean
  | continued
  deriving DecidableEq, Repr

/-- `iotc_connection_data_t`, without the host and the port -/
structure ConnectionData where
  username : Option Bytes := none
  password : Option Bytes := none
  clientId : Option Bytes := none
  connectionTimeout : Nat := 0
  keepaliveTimeout : Nat := 0
  connectionState : ConnectionState := .uninitialized
  sessionType : SessionType := .clean
  willTopic : Option Bytes := none
  willMessage : Option Bytes := none
  willQos : Qos := .atMostOnce
  willRetain : Bool := false
  deriving DecidableEq, Repr

end Mqtt.Logic

end IotDeviceSdk
