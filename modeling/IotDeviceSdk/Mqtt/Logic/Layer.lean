import IotDeviceSdk.Mqtt.Logic.Commands

/-!
# The MQTT logic layer (`iotc_mqtt_logic_layer.c`, `iotc_mqtt_logic_layer_task_helpers.c`)

* A QoS 0 task is queued in `q0Tasks` and run as `currentQ0Task`, one after the other.
* The other tasks are in `q12Tasks`, or in `q12RecvTasks` if a PUBLISH of the server made them.
* A response is for the task with its id, or for `currentQ0Task` if it has none.
-/

namespace IotDeviceSdk.Mqtt.Logic

/-- The layer with the context data of its client. The queues are those of the layer data, and
empty while there are no layer data. `savedQ12Tasks`, `savedHandlers` and `savedLastMsgId` are the
copies for the next session. `leaked` are the tasks that no queue holds any more and that nobody
has freed. `result` is what the last call has returned. -/
structure World where
  context : Context := {}
  q12Tasks : List Task := []
  q12RecvTasks : List Task := []
  q0Tasks : List Task := []
  currentQ0Task : Option Task := none
  lastMsgId : Nat := 0
  savedQ12Tasks : List Task := []
  savedHandlers : Option (List TopicHandler) := none
  savedLastMsgId : Nat := 0
  leaked : List Task := []
  nextTask : Nat := 0
  nextMessage : Nat := 0
  result : IotcState := .ok

namespace World

/-- The context, and a result that it comes with. -/
def withContext (w : World) (c : Context) : World := { w with context := c }

def returns (w : World) (s : IotcState) : World := { w with result := s }

/-- The result of a call on another layer. -/
def call (w : World) (f : Context → IotcState × Context) : World :=
  let (s, c) := f w.context
  { w with context := c, result := s }

/-- The next allocation. -/
def alloc (w : World) : Bool × World :=
  let (ok, c) := w.context.alloc
  (ok, w.withContext c)

/-! ## Lists of tasks -/

/-- The tasks with `t` in the place of the one with its id. -/
def putTask (t : Task) (ts : List Task) : List Task := ts.map fun u => if u.id = t.id then t else u

/-- `IOTC_LIST_DROP` -/
def dropTask (id : Nat) (ts : List Task) : List Task := ts.filter fun u => u.id ≠ id

/-- `IOTC_LIST_FIND` with `CMP_TASK_MSG_ID` -/
def findTask (msgId : Nat) (ts : List Task) : Option Task := ts.find? fun t => t.msgId = msgId

/-- Where a task is while its coroutine runs. -/
inductive Place where
  | current
  | q12
  | q12Recv
  | leaked
  deriving DecidableEq, Repr

/-- What a coroutine leaves of its task. -/
def put (w : World) (t : Task) : Place → World
  | .current => { w with currentQ0Task := some t }
  | .q12 => { w with q12Tasks := putTask t w.q12Tasks }
  | .q12Recv => { w with q12RecvTasks := putTask t w.q12RecvTasks }
  | .leaked => { w with leaked := putTask t w.leaked }

def record (w : World) (o : Output) : World := w.withContext (w.context.record o)

/-- `iotc_mqtt_logic_free_task` of the tasks -/
def freeTasks (w : World) (ts : List Task) : World :=
  w.withContext { w.context with out := w.context.out ++ ts.map (.freeTask ·.id) }

/-- The task with this id is taken out of its list and freed. -/
def drop (w : World) (t : Task) : Place → World
  | .current => w
  | .q12 => { w.freeTasks [t] with q12Tasks := dropTask t.id w.q12Tasks }
  | .q12Recv => { w.freeTasks [t] with q12RecvTasks := dropTask t.id w.q12RecvTasks }
  | .leaked => { w.freeTasks [t] with leaked := dropTask t.id w.leaked }

/-- What follows a coroutine of the task `id`, when `finalise` is the rest of `finalize_task`. -/
def leave (w : World) (id : Nat) (finalise : World → Option World) : Exit → Option World
  | .keep s => some (w.returns s)
  | .finalize s =>
    if w.context.armed id then none
    else (finalise w).map fun w => w.returns (s.getD w.result)
  | .finalizeThenReset s =>
    if w.context.armed id then none
    else
      (finalise w).map fun w => (w.record (.writeFreed id)).returns s

/-! ## `iotc_mqtt_logic_layer_run_next_q0_task` and `iotc_mqtt_logic_layer_finalize_task` -/

/-- `iotc_mqtt_logic_free_task` of the current task, whose timeout is cancelled before. -/
def freeCurrent (w : World) : World :=
  match w.currentQ0Task with
  | some t =>
    { w.withContext (w.context.cancelTaskTimeout t.id) with currentQ0Task := none }.freeTasks [t]
  | none => w

/-- `iotc_mqtt_logic_layer_run_next_q0_task` on the queue `ts`. A task that ends at once has the
next one run. -/
def runQ0Tasks : List Task → World → Option World
  | [], w => some ({ w.freeCurrent with q0Tasks := [] }.returns .ok)
  | t :: ts, w =>
    let w := w.freeCurrent
    if w.context.connection.connectionState = .opening ∧ t.scenario ≠ .connect then
      some ({ w with q0Tasks := ts ++ [t] }.returns .ok)
    else
      let w := w.record (.run t.id)
      match t.logic with
      | none => some ({ w with q0Tasks := ts, currentQ0Task := some t }.returns .unsetHandlerError)
      | some a =>
        match execute w.context t a with
        | none => none
        | some r =>
          { w with context := r.context, q0Tasks := ts, currentQ0Task := some r.task }.leave
            r.task.id (runQ0Tasks ts) r.exit

/-- `iotc_mqtt_logic_layer_run_next_q0_task` -/
def runNextQ0Task (w : World) : Option World :=
  if w.context.layerData then runQ0Tasks w.q0Tasks w else none

/-- `iotc_mqtt_logic_layer_finalize_task`, after its assertion. `on_publish_q1_recieved` drops and
frees its task in the same way. -/
def finalizeTask (t : Task) (p : Place) (w : World) : Option World :=
  if t.qos = .atMostOnce then w.runNextQ0Task else some ((w.drop t p).returns .ok)

/-- A coroutine has run. -/
def settle (w : World) (p : Place) (r : CoResult) : Option World :=
  ((w.withContext r.context).put r.task p).leave r.task.id (finalizeTask r.task p) r.exit

/-- `iotc_evtd_execute_handle` of the `logic` of a task, after setting its arguments. -/
def resume (w : World) (p : Place) (t : Task) (set : Args → Args) : Option World :=
  match t.logic.map set with
  | none => some (w.returns .unsetHandlerError)
  | some a => (execute w.context { t with logic := some a } a).bind (w.settle p)

/-! ## `iotc_mqtt_logic_layer_push` -/

/-- `run_task` -/
def runTask (w : World) (t : Task) : Option World :=
  if t.qos = .atMostOnce then
    let w := { w with
      q0Tasks := match t.priority with
        | .normal => w.q0Tasks ++ [t]
        | .immediate => t :: w.q0Tasks }
    if w.currentQ0Task.isNone then w.runNextQ0Task else some (w.returns .ok)
  else
    let msgId := (w.lastMsgId + 1) % 2 ^ 16
    let t := { t with msgId }
    let w := { w with lastMsgId := msgId, q12Tasks := w.q12Tasks ++ [t] }
    if w.context.connection.connectionState = .opened then w.resume .q12 t id
    else some (w.returns .ok)

/-- The current task has the scenario `SHUTDOWN`. -/
def shuttingDown (w : World) : Bool := w.currentQ0Task.any fun t => t.scenario = .shutdown

/-- The `logic` that `iotc_mqtt_logic_layer_push` gives a task; it gives a PUBLISH of QoS 2 none and
frees its data. -/
def setLogic (t : Task) : Task :=
  match t.scenario, t.qos with
  | .publish _, .exactlyOnce => t.freeData
  | _, _ => { t with logic := some ⟨true, .ok, none⟩ }

/-- `iotc_mqtt_logic_layer_push` of a task -/
def pushTask (w : World) (t : Task) (s : IotcState) : Option World :=
  if w.context.stopped then some ((w.freeTasks [t]).returns s)
  else if s.isTerminal then
    some (((w.call (·.closeOnThis .backoffTerminal)).freeTasks [t]).returns s)
  else if t.scenario = .puback then
    some ({ w with leaked := w.leaked ++ [t] }.returns .mqttLogicWrongScenarioType)
  else if t.scenario = .shutdown ∧ w.shuttingDown then some ((w.freeTasks [t]).returns .ok)
  else (w.runTask (setLogic t)).map (·.returns .ok)

/-- The queue with the tasks of a class. -/
def queueOf (w : World) : MessageClass → Option (Place × List Task)
  | .fromServer => some (.q12Recv, w.q12RecvTasks)
  | .toServer => some (.q12, w.q12Tasks)
  | .unknown => none

/-- `iotc_mqtt_logic_layer_push` of the notification `WRITTEN` or `FAILED_WRITING` for the message
with this id and type. With an id and a type of no class the notification is freed twice. It also
restarts `keepalive_event`, whose time is not modelled. -/
def pushWritten (w : World) (msgId : Nat) (type : MqttType) (s : IotcState) : Option World :=
  if w.context.stopped then some (w.returns s)
  else if msgId = 0 then
    match w.currentQ0Task with
    | some t => w.resume .current t fun a => { a with state := s }
    | none => some (w.returns .mqttLogicUnknownTaskId)
  else
    match w.queueOf (classMsgTypeSending type) with
    | none => none
    | some (p, ts) =>
      match findTask msgId ts with
      | some t => w.resume p t fun a => { a with state := s }
      | none => some (w.returns .mqttLogicUnknownTaskId)

/-! ## `iotc_mqtt_logic_layer_pull` -/

/-- `on_publish_q1_recieved` of a PUBLISH for which there is no task yet -/
def registerPublish (w : World) (m : Received) : Option World :=
  let (ok, w) := w.alloc
  if ok then
    if (findTask m.message.messageId w.q12RecvTasks).isSome then none
    else
      let t : Task :=
        { id := w.nextTask, logic := some ⟨true, .ok, some m⟩, scenario := .puback
          qos := .atLeastOnce, msgId := m.message.messageId }
      let w := { w with q12RecvTasks := w.q12RecvTasks ++ [t], nextTask := w.nextTask + 1 }
      w.resume .q12Recv t id
  else some ((w.withContext (w.context.freeMessage (some m))).returns .outOfMemory)

/-- `on_publish_recieved`. A PUBLISH of another QoS is neither handled nor freed. -/
def onPublishRecieved (w : World) (m : Received) : Option World :=
  match m.message.qos with
  | 0 => (w.context.callTopicHandler (some m)).map fun c => (w.withContext c).returns .ok
  | 1 => w.registerPublish m
  | _ => some (w.returns .ok)

/-- The message is freed, and the state returned. -/
def pullErrHandling (w : World) (m : Option Received) (s : IotcState) : World :=
  (w.withContext (w.context.freeMessage m)).returns s

/-- `iotc_mqtt_logic_layer_pull` of a message -/
def pullMessage (w : World) (m : Received) : Option World :=
  let set (a : Args) : Args := { a with state := .ok, message := some m }
  if m.message.type = .publish then w.onPublishRecieved m
  else if m.message.getMessageId > 0 then
    match w.queueOf (classMsgTypeReceiving m.message.type) with
    | none => some (w.pullErrHandling (some m) .mqttMessageClassUnknownError)
    | some (p, ts) =>
      match findTask m.message.getMessageId ts with
      | some t => w.resume p t set
      | none => some (w.pullErrHandling (some m) .mqttUnknownMessageId)
  else
    match w.currentQ0Task with
    | none => none
    | some t => if t.logic.isNone then none else w.resume .current t set

/-- `iotc_mqtt_logic_layer_pull` -/
def pull (w : World) (m : Option Received) (s : IotcState) : Option World :=
  if w.context.stopped then some (w.pullErrHandling m s)
  else if s.isTerminal then
    some ((w.call (·.closeOnThis .backoffTerminal)).pullErrHandling m s)
  else if s = .ok then
    match m with
    | none => none
    | some m => w.pullMessage m
  else some (w.pullErrHandling m s)

/-! ## Time events -/

/-- A pending time event of a task runs. Its handle is free then. -/
def fire (w : World) (id : Nat) : Option World :=
  match w.context.timeouts id with
  | none => none
  | some timeout =>
    let w := w.withContext (w.context.disarm id)
    match w.currentQ0Task.filter (·.id = id), w.q12Tasks.find? (·.id = id),
        w.leaked.find? (·.id = id) with
    | some t, _, _ => (timeout.run w.context t).bind (w.settle .current)
    | none, some t, _ => (timeout.run w.context t).bind (w.settle .q12)
    | none, none, some t => (timeout.run w.context t).bind (w.settle .leaked)
    -- the event is of a task that has been freed
    | none, none, none => none

/-- `do_mqtt_keepalive_once`, run by `keepalive_event` -/
def doMqttKeepaliveOnce (w : World) : Option World :=
  if !w.context.keepaliveEvent then none
  else
    let w := w.withContext { w.context with keepaliveEvent := false }
    if !w.context.layerData then some (w.returns .ok)
    else
      let (ok, w) := w.alloc
      if ok then
        let t : Task := { id := w.nextTask, scenario := .keepalive, qos := .atMostOnce }
        { w with nextTask := w.nextTask + 1 }.pushTask t .ok
      else some (w.returns .outOfMemory)

/-! ## `iotc_mqtt_logic_layer_init`, `connect` and `post_connect` -/

/-- The layer data take over the session of the last connection, or its copies are freed. Tasks that
are in the queue then are leaked. -/
def restoreSession (w : World) : World :=
  match w.context.connection.sessionType with
  | .continued =>
    { w with
      q12Tasks := w.savedQ12Tasks, leaked := w.leaked ++ w.q12Tasks, lastMsgId := w.savedLastMsgId
      savedHandlers := none, savedQ12Tasks := [], savedLastMsgId := 0 }
  | .clean => { w.freeTasks w.savedQ12Tasks with savedHandlers := none, savedQ12Tasks := [] }

/-- The handlers that `iotc_mqtt_logic_layer_init` finds in the layer data. -/
def initialHandlers (w : World) : Option (List TopicHandler) :=
  match w.context.connection.sessionType with
  | .continued => w.savedHandlers
  | .clean => if w.context.layerData then some w.context.handlersForTopics else none

/-- `err_handling` of `iotc_mqtt_logic_layer_init`: the layer data are freed, but not their tasks. -/
def initErrHandling (w : World) : World :=
  { w with
    context := { w.context with layerData := false, handlersForTopics := [] }
    leaked := w.leaked ++ (w.currentQ0Task.toList ++ (w.q0Tasks ++ (w.q12Tasks ++ w.q12RecvTasks)))
    q12Tasks := [], q12RecvTasks := [], q0Tasks := [], currentQ0Task := none, lastMsgId := 0
    result := .outOfMemory }

/-- `iotc_mqtt_logic_layer_init` -/
def init (w : World) (s : IotcState) : World :=
  let (data, w) := if w.context.layerData then (true, w) else w.alloc
  if data then
    let handlers := w.initialHandlers
    let (vector, w) := if handlers.isSome then (true, w.restoreSession) else w.restoreSession.alloc
    if vector then
      let c := { w.context with
        layerData := true
        handlersForTopics := handlers.getD []
        connection := { w.context.connection with connectionState := .opening } }
      (w.withContext c).call (·.initOnPrev s)
    else w.initErrHandling
  else w.returns .outOfMemory

/-- `iotc_mqtt_logic_layer_connect` -/
def connect (w : World) (s : IotcState) : Option World :=
  if s ≠ .ok then some (w.call (·.connectOnNext s))
  else
    let (ok, w) := w.alloc
    if ok then
      let t : Task :=
        { id := w.nextTask, scenario := .connect, qos := .atMostOnce, priority := .immediate }
      { w with nextTask := w.nextTask + 1 }.pushTask t .ok
    else some (w.returns .outOfMemory)

/-- `set_new_context_and_call_resend` on the tasks `ts` -/
def resendTasks : List Task → World → Option World
  | [], w => some w
  | t :: ts, w =>
    if t.sessionState = .store then
      (w.resume .q12 t fun a => { a with context := true, state := .resend }).bind (resendTasks ts)
    else resendTasks ts w

/-- `iotc_mqtt_logic_layer_post_connect` -/
def postConnect (w : World) (s : IotcState) : Option World :=
  if !w.context.layerData then some (w.returns s)
  else (resendTasks w.q12Tasks w).map fun w => (w.call (·.postConnectOnPrev s)).returns s

/-! ## `iotc_mqtt_logic_layer_close` and `close_externally` -/

/-- The timeouts of the tasks are cancelled. -/
def cancelTimeouts (ts : List Task) (c : Context) : Context :=
  ts.foldl (fun c t => c.cancelTaskTimeout t.id) c

/-- What the next session takes over. -/
def saveSession (w : World) : Option World :=
  if w.savedHandlers.isSome ∧ w.context.handlersForTopics ≠ [] then none
  else
    some
      { w with
        savedLastMsgId := w.lastMsgId
        savedHandlers :=
          if w.context.handlersForTopics ≠ [] then some w.context.handlersForTopics
          else w.savedHandlers
        savedQ12Tasks := (w.q12Tasks.filter fun t => t.sessionState = .store).map fun t =>
          { t with logic := t.logic.map fun a => { a with context := false } }
        q12Tasks := w.q12Tasks.filter fun t => t.sessionState ≠ .store }

/-- The current task is resumed with `TIMEOUT` and what is then the current task is freed. Its
timeout is cancelled before, not after, and only a task with data has that checked. -/
def stopCurrent (w : World) : Option World :=
  match w.currentQ0Task with
  | none => some w
  | some t =>
    match (w.withContext (w.context.disarm t.id)).resume .current t
        fun a => { a with state := .timeout } with
    | none => none
    | some w =>
      if w.currentQ0Task.any fun t => t.publishData.isSome && w.context.armed t.id then none
      else some ({ w with currentQ0Task := none }.freeTasks w.currentQ0Task.toList)

/-- The layer data with the tasks that are left in the queues are freed. -/
def freeLayerData (w : World) : Option World :=
  if (w.q12Tasks ++ w.q12RecvTasks ++ w.q0Tasks).any fun t => w.context.armed t.id then none
  else
    let w := w.freeTasks (w.q12Tasks ++ w.q12RecvTasks ++ w.q0Tasks)
    some
      { w with
        context := { w.context with
          layerData := false, handlersForTopics := [], keepaliveEvent := false }
        q12Tasks := [], q12RecvTasks := [], q0Tasks := [], currentQ0Task := none, lastMsgId := 0 }

/-- `iotc_mqtt_logic_layer_close_externally` -/
def closeExternally (w : World) (s : IotcState) : Option World :=
  if s ≠ .ok ∧ w.context.layerState = .connecting then some (w.call (·.connectOnThis s))
  else if !w.context.layerData then some (w.call (·.closeExternallyOnNext s))
  else do
    let w := w.withContext (cancelTimeouts (w.q12Tasks ++ w.q12RecvTasks) w.context)
    let w ← if w.context.connection.sessionType = .continued then w.saveSession else some w
    let w ← w.stopCurrent
    let w ← w.freeLayerData
    some (w.call (·.closeExternallyOnNext s))

/-! ## Events -/

/-- What a user asks for (`iotc_mqtt_logic_make_publish_task`, `…_subscribe_task`,
`…_shutdown_task`). -/
inductive Request where
  | publish (topic : Option Bytes) (data : Bytes) (qos : Qos) (retain : Bool)
    (callback : Option UserHandle)
  | subscribe (topic : Bytes) (qos : Qos) (handler : UserHandle)
  | shutdown
  deriving DecidableEq, Repr

/-- The task of a request. -/
def Request.task (id : Nat) : Request → Task
  | publish topic data qos retain callback =>
    { id, callback, scenario := .publish (some ⟨topic, data, retain⟩), qos }
  | subscribe topic qos handler =>
    { id, scenario := .subscribe (some ⟨topic, handler, qos⟩), qos := .atLeastOnce }
  | shutdown => { id, scenario := .shutdown, qos := .atMostOnce, priority := .immediate }

/-- The calls that the layer gets, in any order: from a user, from the layer below, and from the
dispatcher. `connectTo` is what `iotc_connect_to` sets in the connection data, and `closing` and
`closed` what the layer above sets in `close` and in `close_externally`. -/
inductive Event where
  | submit (r : Request)
  | written (msgId : Nat) (type : MqttType) (success : Bool)
  | pull (m : Option Message) (s : IotcState)
  | fire (id : Nat)
  | keepalive
  | connectTo (d : ConnectionData)
  | init (s : IotcState)
  | connect (s : IotcState)
  | postConnect (s : IotcState)
  | close (s : IotcState)
  | closeExternally (s : IotcState)
  | closing
  | closed
  deriving DecidableEq, Repr

/-- The outcome of the allocations of a call. -/
structure Oracle where
  mem : List Bool := []
  callbacks : List Bool := []
  deriving DecidableEq, Repr

def setConnection (w : World) (d : ConnectionData) : World :=
  w.withContext { w.context with connection := d }

def setConnectionState (w : World) (s : ConnectionState) : World :=
  w.setConnection { w.context.connection with connectionState := s }

/-- One call. `none` is a crash. -/
def stepWith (w : World) : Event → Option World
  | .submit r => { w with nextTask := w.nextTask + 1 }.pushTask (r.task w.nextTask) .ok
  | .written msgId type success =>
    w.pushWritten msgId type (if success then .written else .failedWriting)
  | .pull m s => { w with nextMessage := w.nextMessage + 1 }.pull (m.map (⟨w.nextMessage, ·⟩)) s
  | .fire id => w.fire id
  | .keepalive => w.doMqttKeepaliveOnce
  | .connectTo d =>
    if w.context.connection.connectionState.final then
      some (w.setConnection { d with connectionState := .uninitialized })
    else some w
  | .init s => some (w.init s)
  | .connect s => w.connect s
  | .postConnect s => w.postConnect s
  | .close s => some (w.call (Logic.close · s))
  | .closeExternally s => w.closeExternally s
  | .closing => some (w.setConnectionState .closing)
  | .closed =>
    some (w.setConnectionState
      (if w.context.connection.connectionState = .opening then .openFailed else .closed))

/-- One call, with the outcome of its allocations. -/
def step (w : World) (e : Event × Oracle) : Option World :=
  (w.withContext { w.context with mem := e.2.mem, callbacks := e.2.callbacks }).stepWith e.1

end World

end IotDeviceSdk.Mqtt.Logic
