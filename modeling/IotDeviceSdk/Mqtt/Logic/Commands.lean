import IotDeviceSdk.Mqtt.Logic.Context

/-!
# Coroutines of the tasks (`iotc_mqtt_logic_layer_…_command.h`, `…_handler.h`)

A coroutine is resumed with the `cs` of its task, a state and a message. Each is one function for
every place that it can be resumed at, and one for all of them.

A coroutine keeps its task, or finalises it as its last step. `do_mqtt_subscribe` writes the `cs` of
its task after finalising it in `err_handling`.
-/

namespace IotDeviceSdk.Mqtt.Logic

/-- How a coroutine returns: with the state `s`; after finalising its task, with `s` or with what
`finalize_task` returns; or after finalising its task and then resetting its `cs`. -/
inductive Exit where
  | keep (s : IotcState)
  | finalize (s : Option IotcState)
  | finalizeThenReset (s : IotcState)
  deriving DecidableEq, Repr

/-- The same with `OK` returned. -/
def Exit.ok : Exit → Exit
  | keep _ => keep .ok
  | finalize _ => finalize (some .ok)
  | finalizeThenReset _ => finalizeThenReset .ok

structure CoResult where
  context : Context
  task : Task
  exit : Exit

/-- A message is handed over to the layer below, and the coroutine yields until it is written. -/
def sendAndYield (c : Context) (t : Task) (m : Message) : CoResult :=
  let (ret, c) := c.pushOnPrev t.id m
  ⟨c, { t with cs := .sent }, .keep ret⟩

/-! ## `do_mqtt_publish_q0` -/

/-- The user's callback and the end of the task. -/
def publishQ0Exit (c : Context) (t : Task) (s : IotcState) : Option CoResult :=
  match t.publishData with
  | none => none
  | some _ => some ⟨c.deferUsersCallback t s, { t.freeData with cs := .exit }, .finalize none⟩

def doMqttPublishQ0 (c : Context) (t : Task) (a : Args) : Option CoResult :=
  if a.message.isSome then none
  else if c.stopped then some ⟨c, t, .keep .ok⟩
  else
    match t.cs with
    | .sent => publishQ0Exit c t (if a.state = .written then .ok else a.state)
    | _ =>
      match t.publishData with
      | none => none
      | some d =>
        match c.build (fillWithPublishData d.topic d.data .atMostOnce d.retain false 0) with
        | (.ok m, c) => some (sendAndYield c t m)
        | (.error e, c) => publishQ0Exit c t e

/-! ## `do_mqtt_publish_q1` -/

/-- `err_handling` -/
def publishQ1Err (c : Context) (t : Task) (s : IotcState) (msg : Option Received) : CoResult :=
  ⟨(c.deferUsersCallback t s).freeMessage msg, { t.freeData with cs := .reset }, .finalize (some s)⟩

/-- A round of the loop, up to where it waits for the write. -/
def publishQ1Send (c : Context) (t : Task) (s : IotcState) : Option CoResult :=
  match t.publishData with
  | none => none
  | some d =>
    match c.build (fillWithPublishData d.topic d.data .atLeastOnce d.retain (s = .resend) t.msgId) with
    | (.ok m, c) => some (sendAndYield c t m)
    | (.error e, c) => some (publishQ1Err c t e none)

/-- `session_state` once the message has been written -/
def SessionState.afterWrite : SessionState → SessionState
  | .unset => .store
  | s => s

/-- What follows the write. Every state but `WRITTEN` sends again. -/
def publishQ1Sent (c : Context) (t : Task) (s : IotcState) (msg : Option Received) :
    Option CoResult :=
  if s = .written then
    let t := { t with sessionState := t.sessionState.afterWrite }
    if c.armed t.id then none
    else if c.connection.keepaliveTimeout > 0 then
      match c.executeTaskIn t.id (.resume .timeout) with
      | none => none
      | some (.ok, c) => some ⟨c, { t with cs := .answer }, .keep .ok⟩
      | some (e, c) => some (publishQ1Err c t e msg)
    else some ⟨c, { t with cs := .answer }, .keep .ok⟩
  else publishQ1Send c t .resend

/-- What follows the answer or its timeout. -/
def publishQ1Answer (c : Context) (t : Task) (s : IotcState) (msg : Option Received) :
    Option CoResult :=
  if s = .timeout then
    if c.armed t.id then none else publishQ1Send c t .resend
  else
    let c := c.cancelTaskTimeout t.id
    if s = .resend then publishQ1Send c t s
    else if s ≠ .ok then some (publishQ1Err c t s msg)
    else
      match msg with
      | none => none
      | some m =>
        if m.message.type ≠ .puback then
          some (publishQ1Err c t .mqttLogicWrongMessageReceived (some m))
        else
          match t.publishData with
          | none => none
          | some _ =>
            some ⟨(c.deferUsersCallback t s).freeMessage (some m), { t.freeData with cs := .exit },
              .finalize none⟩

def doMqttPublishQ1 (c : Context) (t : Task) (a : Args) : Option CoResult :=
  if c.stopped then
    some ⟨(c.cancelTaskTimeout t.id).freeMessage a.message, { t with cs := .reset }, .keep .ok⟩
  else
    match t.cs with
    | .sent => publishQ1Sent c t a.state a.message
    | .answer => publishQ1Answer c t a.state a.message
    | _ => if c.armed t.id then none else publishQ1Send c t a.state

/-! ## `do_mqtt_subscribe` -/

/-- `err_handling`. The task is finalised before its `cs` is reset. -/
def subscribeErr (c : Context) (t : Task) (s : IotcState) (msg : Option Received) : CoResult :=
  ⟨c.freeMessage msg, t, .finalizeThenReset s⟩

/-- A round of the loop, up to where it waits for the write. -/
def subscribeSend (c : Context) (t : Task) (s : IotcState) : Option CoResult :=
  match t.subscribeData with
  | none => none
  | some d =>
    match c.build (.ok (fillWithSubscribeData d.topic t.msgId d.qos (s = .resend))) with
    | (.ok m, c) => some (sendAndYield c t m)
    | (.error e, c) => some (subscribeErr c t e none)

/-- What follows the write. Every state but `WRITTEN` waits a second and sends again. -/
def subscribeSent (c : Context) (t : Task) (s : IotcState) (msg : Option Received) :
    Option CoResult :=
  if c.armed t.id then none
  else if s = .written then
    let t := { t with sessionState := t.sessionState.afterWrite }
    if c.connection.keepaliveTimeout > 0 then
      match c.executeTaskIn t.id (.resume .timeout) with
      | none => none
      | some (.ok, c) => some ⟨c, { t with cs := .answer }, .keep .ok⟩
      | some (_, c) => some (subscribeErr c t s msg)
    else some ⟨c, { t with cs := .answer }, .keep .ok⟩
  else
    match c.executeTaskIn t.id (.resume .resend) with
    | none => none
    | some (.ok, c) => some ⟨c, { t with cs := .resending }, .keep .ok⟩
    | some (_, c) => some (subscribeErr c t s msg)

/-- The status of a SUBACK for the callback: the data of a granted subscription go to
`handlers_for_topics` first. -/
def subscribeSuback (c : Context) (t : Task) (d : SubscribeData) (status : UInt8) : CoResult :=
  let granted := status ≠ 0x80
  let (pushed, c) := if granted then c.alloc else (true, c)
  if pushed then
    let c := if granted then
        { c with handlersForTopics := c.handlersForTopics ++ [⟨t.id, d⟩] }
      else c
    let s := if granted then IotcState.mqttSubscriptionSuccessful else .mqttSubscriptionFailed
    match c.queue (.subscribed t.id d.handler status s) with
    | (true, c) => ⟨c, { t.freeData with cs := .exit }, .finalize none⟩
    | (false, c) => subscribeErr c t .outOfMemory none
  else subscribeErr c t .outOfMemory none

/-- What follows the answer or its timeout. -/
def subscribeAnswer (c : Context) (t : Task) (s : IotcState) (msg : Option Received) :
    Option CoResult :=
  if s = .timeout then
    if c.armed t.id then none else subscribeSend c t .resend
  else
    let c := c.cancelTaskTimeout t.id
    if s = .resend then subscribeSend c t s
    else if s ≠ .ok then some (subscribeErr c t s msg)
    else
      match msg with
      | none => none
      | some m =>
        if m.message.type ≠ .suback then some (subscribeErr c t .mqttLogicWrongMessageReceived (some m))
        else
          match m.message.topics, t.subscribeData with
          | topic :: _, some d => some (subscribeSuback (c.freeMessage (some m)) t d topic.payload)
          | _, _ => none

def doMqttSubscribe (c : Context) (t : Task) (a : Args) : Option CoResult :=
  if !c.layerData then some ⟨(c.cancelTaskTimeout t.id).freeMessage a.message, t, .keep .ok⟩
  else
    match t.cs with
    | .sent => subscribeSent c t a.state a.message
    | .answer => subscribeAnswer c t a.state a.message
    | .resending =>
      if c.armed t.id ∨ a.state ≠ .resend then none else subscribeSend c t a.state
    | _ => subscribeSend c t a.state

/-! ## `do_mqtt_connect` -/

/-- `err_handling`, and the end of the coroutine after any answer but a CONNACK. -/
def connectExit (c : Context) (t : Task) (msg : Option Received) : CoResult :=
  ⟨(c.freeMessage msg).cancelTaskTimeout t.id, { t with cs := .exit }, .finalize none⟩

/-- The message, its timeout, and the wait for the write. -/
def connectStart (c : Context) (t : Task) : Option CoResult :=
  match c.build (fillWithConnectData c.connection) with
  | (.error _, c) => some (connectExit c t none)
  | (.ok m, c) =>
    if c.connection.connectionTimeout > 0 then
      match c.ioTimeoutsCreate t.id with
      | none => none
      | some (.ok, c) => some (sendAndYield c t m)
      | some (_, c) => some (connectExit c t none)
    else if c.armed t.id then none
    else some (sendAndYield c t m)

/-- What follows the write. -/
def connectSent (c : Context) (t : Task) (s : IotcState) (msg : Option Received) : CoResult :=
  if s = .written then ⟨c, { t with cs := .answer }, .keep .ok⟩
  else connectExit (c.connectOnNext s).2 t msg

/-- A CONNACK that accepts the connection. -/
def connectAccepted (c : Context) (t : Task) (s : IotcState) : Option CoResult :=
  let opened (s : IotcState) (c : Context) : CoResult :=
    let c := { c with connection := { c.connection with connectionState := .opened } }
    ⟨(c.connectOnNext s).2, { t with cs := .exit }, .finalize none⟩
  if c.connection.keepaliveTimeout > 0 then
    match c.executeKeepaliveIn with
    | none => none
    | some (.ok, c) => some (opened .ok c)
    | some (_, c) => some (connectExit c t none)
  else some (opened s c)

/-- What follows the answer. -/
def connectAnswer (c : Context) (t : Task) (s : IotcState) (msg : Option Received) :
    Option CoResult :=
  match msg with
  | none => none
  | some m =>
    if m.message.type = .connack then
      let c := c.cancelTaskTimeout t.id
      if m.message.returnCode = 0 then connectAccepted (c.freeMessage (some m)) t s
      else
        some (connectExit (c.connectOnNext (getErrorFromConnack m.message.returnCode)).2 t (some m))
    else some (connectExit c t (some m))

def doMqttConnect (c : Context) (t : Task) (a : Args) : Option CoResult :=
  if c.stopped then
    some ⟨(c.freeMessage a.message).cancelTaskTimeout t.id, { t with cs := .exit }, .keep .ok⟩
  else
    match t.cs with
    | .sent => some (connectSent c t a.state a.message)
    | .answer => connectAnswer c t a.state a.message
    | _ => connectStart c t

/-- `do_mqtt_connect_timeout`, run by the time event of the task -/
def doMqttConnectTimeout (c : Context) (t : Task) : Option CoResult :=
  let c := c.ioTimeoutsRemove t.id
  if c.armed t.id then none
  else some ⟨(c.connectOnNext .timeout).2, { t with cs := .exit }, .finalize none⟩

/-! ## `do_mqtt_keepalive_task` -/

/-- `err_handling` -/
def keepaliveErr (c : Context) (t : Task) (s : IotcState) (msg : Option Received) : CoResult :=
  ⟨c.freeMessage msg, { t with cs := .reset }, .finalize (some s)⟩

/-- What follows the write, whether it succeeded or not: the wait for the answer. -/
def keepaliveSent (c : Context) (t : Task) (msg : Option Received) : Option CoResult :=
  if c.armed t.id then none
  else
    match c.executeTaskIn t.id (.keepalive msg) with
    | none => none
    | some (.ok, c) => some ⟨c, { t with cs := .answer }, .keep .ok⟩
    | some (e, c) => some (keepaliveErr c t e msg)

/-- What follows the answer or its timeout. -/
def keepaliveAnswer (c : Context) (t : Task) (s : IotcState) (msg : Option Received) :
    Option CoResult :=
  if s = .timeout then
    if c.armed t.id then none
    else
      let (ret, c) := c.closeOnPrev .timeout
      some ⟨c, { t with cs := .exit }, .keep ret⟩
  else
    let c := c.cancelTaskTimeout t.id
    if s ≠ .ok then some ⟨c, { t with cs := .exit }, .finalize none⟩
    else
      match msg with
      | none => none
      | some m =>
        if m.message.type ≠ .pingresp then
          some (keepaliveErr c t .mqttLogicWrongMessageReceived (some m))
        else if c.connection.connectionState = .opened then
          match c.executeKeepaliveIn with
          | none => none
          | some (.ok, c) =>
            some ⟨c.freeMessage (some m), { t with cs := .exit }, .finalize none⟩
          | some (e, c) => some (keepaliveErr c t e (some m))
        else some ⟨c.freeMessage (some m), { t with cs := .exit }, .finalize none⟩

def doMqttKeepaliveTask (c : Context) (t : Task) (a : Args) : Option CoResult :=
  if !c.layerData then some ⟨c.freeMessage a.message, t, .keep .ok⟩
  else
    match t.cs with
    | .sent => keepaliveSent c t a.message
    | .answer => keepaliveAnswer c t a.state a.message
    | _ =>
      match c.build (.ok fillWithPingreqData) with
      | (.ok m, c) => some (sendAndYield c t m)
      | (.error e, c) => some (keepaliveErr c t e none)

/-! ## `do_shutdown` -/

/-- `iotc_mqtt_logic_layer_close` -/
def close (c : Context) (s : IotcState) : IotcState × Context :=
  if c.layerData then c.closeOnPrev s else c.closeExternallyOnThis s

def doShutdown (c : Context) (t : Task) (a : Args) : Option CoResult :=
  if !c.layerData then some ⟨c.freeMessage a.message, t, .keep .ok⟩
  else
    match t.cs with
    | .sent => some ⟨(close c .ok).2, { t.freeData with cs := .exit }, .finalize none⟩
    | _ =>
      match c.build (.ok fillWithDisconnectData) with
      | (.ok m, c) => some (sendAndYield c t m)
      | (.error e, c) => some ⟨c, t, .keep e⟩

/-! ## `on_publish_q1_recieved` -/

/-- A round of the loop: a PUBACK is handed over. -/
def publishQ1RecievedSend (c : Context) (t : Task) : CoResult :=
  match c.build (.ok (fillWithPubackData t.msgId)) with
  | (.ok m, c) => sendAndYield c t m
  | (.error e, c) => ⟨c, { t with cs := .reset }, .keep e⟩

/-- The coroutine of a task that has been registered. Its message is the PUBLISH. -/
def onPublishQ1Recieved (c : Context) (t : Task) (a : Args) : Option CoResult :=
  if c.stopped then some ⟨c.freeMessage a.message, { t with cs := .reset }, .keep a.state⟩
  else
    match t.cs with
    | .sent =>
      if a.state = .written then
        match c.callTopicHandler a.message with
        | some c => some ⟨c, t, .finalize none⟩
        | none => none
      else some (publishQ1RecievedSend c t)
    | _ => if a.message.isNone then none else some (publishQ1RecievedSend c t)

/-! ## All coroutines -/

/-- The function of the `logic` handle that `iotc_mqtt_logic_layer_push` sets. -/
def coroutine (t : Task) : Context → Task → Args → Option CoResult :=
  match t.scenario, t.qos with
  | .connect, _ => doMqttConnect
  | .publish _, .atMostOnce => doMqttPublishQ0
  | .publish _, _ => doMqttPublishQ1
  | .puback, _ => onPublishQ1Recieved
  | .subscribe _, _ => doMqttSubscribe
  | .keepalive, _ => doMqttKeepaliveTask
  | .shutdown, _ => doShutdown

/-- A coroutine with the given arguments. Each of them dereferences its context. -/
def execute (c : Context) (t : Task) (a : Args) : Option CoResult :=
  if a.context then coroutine t c t a else none

/-- What the time event of a task runs. `on_keepalive_timeout_expiry` returns `OK`. -/
def TaskTimeout.run (c : Context) (t : Task) : TaskTimeout → Option CoResult
  | .resume s => execute c t ⟨true, s, none⟩
  | .keepalive msg => (execute c t ⟨true, .timeout, msg⟩).map fun r => { r with exit := r.exit.ok }
  | .connect => doMqttConnectTimeout c t

end IotDeviceSdk.Mqtt.Logic
