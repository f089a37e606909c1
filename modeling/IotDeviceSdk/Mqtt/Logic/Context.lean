import Mathlib.Logic.Function.Basic
import IotDeviceSdk.Mqtt.Logic.DataHelpers

/-!
# What the coroutines of the logic layer act on

The context of a coroutine is the layer with its neighbours, the connection data, the dispatcher
and the part of the layer data that is not a queue of tasks. A coroutine cannot reach the queues,
except by finalising its task.

* A call on another layer and the callback of a user are queued on the dispatcher. The `out` of the
  context is the trace of what has been queued, of what has been freed, and of the tasks of QoS 0
  that have been run.
* Every allocation takes the next element of `mem` and fails when that is `false`; that of the event
  of a callback takes the next element of `callbacks`.
* The context uses the dispatcher that `iotc_create_context` gives it, the global one.
* `none` is a failing assertion or the dereference of a `NULL` pointer.
-/

namespace IotDeviceSdk.Mqtt.Logic

/-- A pending time event of the handle of a task: it resumes the coroutine of the task with a state,
or it is `on_keepalive_timeout_expiry` or `do_mqtt_connect_timeout`. -/
inductive TaskTimeout where
  | resume (state : IotcState)
  | keepalive (message : Option Received)
  | connect
  deriving DecidableEq, Repr

/-- What the layer does: a message that `task` hands over, the other calls on the layers, the
callbacks, and what it frees. -/
inductive Output where
  | push (task : Nat) (m : Message)
  | initOnPrev (s : IotcState)
  | connectOnNext (s : IotcState)
  | connectOnThis (s : IotcState)
  | postConnectOnPrev (s : IotcState)
  | closeOnThis (s : IotcState)
  | closeOnPrev (s : IotcState)
  | closeExternallyOnThis (s : IotcState)
  | closeExternallyOnNext (s : IotcState)
  | callback (task : Nat) (handle : UserHandle) (s : IotcState)
  | subscribed (task : Nat) (handle : UserHandle) (status : UInt8) (s : IotcState)
  | topic (handle : UserHandle) (m : Received)
  | run (task : Nat)
  | freeMessage (m : Received)
  | freeTask (task : Nat)
  /-- a coroutine has written to its task after finalising it -/
  | writeFreed (task : Nat)
  deriving DecidableEq, Repr

/-- `layerData` says that the layer data are allocated. `keepaliveEvent` says that the event of
their handle is pending, and `timeouts` which events of the handles of tasks are. -/
structure Context where
  layerState : LayerState := .none
  connection : ConnectionData := {}
  layerData : Bool := false
  handlersForTopics : List TopicHandler := []
  keepaliveEvent : Bool := false
  timeouts : Nat → Option TaskTimeout := fun _ => none
  ioTimeouts : List Nat := []
  mem : List Bool := []
  callbacks : List Bool := []
  out : List Output := []

namespace Context

/-! ## Memory and the dispatcher -/

/-- The next allocation. -/
def alloc (c : Context) : Bool × Context := (c.mem.headD true, { c with mem := c.mem.tail })

/-- The handle of the task is in use. -/
def armed (c : Context) (id : Nat) : Bool := (c.timeouts id).isSome

/-- The handle of the task is not in use any more. -/
def disarm (c : Context) (id : Nat) : Context :=
  { c with timeouts := Function.update c.timeouts id none }

/-- `iotc_evtd_execute_in` with a handle that `arm` says to be free or marks as taken: the time
event is allocated, then `iotc_time_event_add` checks the handle, then the container grows. -/
def executeIn (c : Context) (taken : Context → Bool) (arm : Context → Context) :
    Option (IotcState × Context) :=
  let (event, c) := c.alloc
  if event then
    if taken c then none
    else
      let (grown, c) := c.alloc
      if grown then some (.ok, arm c) else some (.outOfMemory, c)
  else some (.outOfMemory, c)

/-- `iotc_evtd_execute_in` with the handle of a task -/
def executeTaskIn (c : Context) (id : Nat) (timeout : TaskTimeout) : Option (IotcState × Context) :=
  c.executeIn (·.armed id) fun c => { c with timeouts := Function.update c.timeouts id (some timeout) }

/-- `iotc_evtd_execute_in` with the handle `keepalive_event` -/
def executeKeepaliveIn (c : Context) : Option (IotcState × Context) :=
  c.executeIn (·.keepaliveEvent) fun c => { c with keepaliveEvent := true }

/-- `iotc_io_timeouts_create` for the timeout of a CONNECT -/
def ioTimeoutsCreate (c : Context) (id : Nat) : Option (IotcState × Context) :=
  if c.armed id then none
  else
    match c.executeTaskIn id .connect with
    | some (.ok, c) =>
      let (elem, c) := c.alloc
      if elem then some (.ok, { c with ioTimeouts := c.ioTimeouts ++ [id] })
      else some (.outOfMemory, c)
    | r => r

/-- `iotc_io_timeouts_remove`, up to the order of the vector -/
def ioTimeoutsRemove (c : Context) (id : Nat) : Context :=
  { c with ioTimeouts := c.ioTimeouts.erase id }

/-- `cancel_task_timeout`, and `iotc_io_timeouts_cancel` where the handle is in use -/
def cancelTaskTimeout (c : Context) (id : Nat) : Context :=
  if c.armed id then (c.ioTimeoutsRemove id).disarm id else c

/-! ## Calls on the layers and callbacks -/

/-- What has been done. -/
def record (c : Context) (o : Output) : Context := { c with out := c.out ++ [o] }

/-- `iotc_layer_continue_with_impl`, with the state that `get_next_layer_state` gives -/
def continueWith (c : Context) (call : Output) (next : LayerState) : IotcState × Context :=
  let (queued, c) := c.alloc
  if queued then (.ok, { c.record call with layerState := next })
  else (.outOfMemory, c)

/-- `IOTC_PROCESS_PUSH_ON_PREV_LAYER` -/
def pushOnPrev (c : Context) (task : Nat) (m : Message) : IotcState × Context :=
  c.continueWith (.push task m) c.layerState

/-- `IOTC_PROCESS_INIT_ON_PREV_LAYER` -/
def initOnPrev (c : Context) (s : IotcState) : IotcState × Context :=
  c.continueWith (.initOnPrev s) .connecting

/-- The state of a layer after it has called `connect`. -/
def afterConnect (s : IotcState) : LayerState := if s = .ok then .connected else .closed

/-- `IOTC_PROCESS_CONNECT_ON_NEXT_LAYER` -/
def connectOnNext (c : Context) (s : IotcState) : IotcState × Context :=
  c.continueWith (.connectOnNext s) (afterConnect s)

/-- `IOTC_PROCESS_CONNECT_ON_THIS_LAYER` -/
def connectOnThis (c : Context) (s : IotcState) : IotcState × Context :=
  c.continueWith (.connectOnThis s) (afterConnect s)

/-- `IOTC_PROCESS_POST_CONNECT_ON_PREV_LAYER` -/
def postConnectOnPrev (c : Context) (s : IotcState) : IotcState × Context :=
  c.continueWith (.postConnectOnPrev s) c.layerState

/-- `IOTC_PROCESS_CLOSE_ON_THIS_LAYER` -/
def closeOnThis (c : Context) (s : IotcState) : IotcState × Context :=
  c.continueWith (.closeOnThis s) c.layerState.afterClose

/-- `IOTC_PROCESS_CLOSE_ON_PREV_LAYER` -/
def closeOnPrev (c : Context) (s : IotcState) : IotcState × Context :=
  c.continueWith (.closeOnPrev s) c.layerState.afterClose

/-- `IOTC_PROCESS_CLOSE_EXTERNALLY_ON_THIS_LAYER` -/
def closeExternallyOnThis (c : Context) (s : IotcState) : IotcState × Context :=
  c.continueWith (.closeExternallyOnThis s) .closed

/-- `IOTC_PROCESS_CLOSE_EXTERNALLY_ON_NEXT_LAYER` -/
def closeExternallyOnNext (c : Context) (s : IotcState) : IotcState × Context :=
  c.continueWith (.closeExternallyOnNext s) .closed

/-- The event of a callback on the dispatcher, and whether it is queued. -/
def queue (c : Context) (event : Output) : Bool × Context :=
  let queued := c.callbacks.headD true
  let c := { c with callbacks := c.callbacks.tail }
  (queued, if queued then c.record event else c)

/-- `iotc_mqtt_logic_task_defer_users_callback` -/
def deferUsersCallback (c : Context) (t : Task) (s : IotcState) : Context :=
  match t.callback with
  | some handle => (c.queue (.callback t.id handle s)).2
  | none => c

/-- `iotc_mqtt_message_free` of a message that was received -/
def freeMessage (c : Context) (m : Option Received) : Context :=
  match m with
  | some m => c.record (.freeMessage m)
  | none => c

/-- `IOTC_THIS_LAYER_NOT_OPERATIONAL`, or the layer data are `NULL` -/
def stopped (c : Context) : Bool := c.layerState.notOperational || !c.layerData

/-- A message for the layer below: the memory of it and of its parts, then its fields. -/
def build (c : Context) (fill : Except IotcState Message) : Except IotcState Message × Context :=
  let (ok, c) := c.alloc
  (if ok then fill else .error .outOfMemory, c)

/-! ## Topics -/

/-- `iotc_vector_find` with `match_topics` -/
def handlerFor (c : Context) (m : Message) : Option TopicHandler :=
  c.handlersForTopics.find? fun h => m.topicName.elim false (matchTopics h.data.topic)

/-- `call_topic_handler`. The id of another type lies where a PUBLISH has the pointer to its topic,
so that a comparison with it is a wild access. -/
def callTopicHandler (c : Context) (m : Option Received) : Option Context :=
  match m with
  | none => none
  | some m =>
    if m.message.type ≠ .publish ∧ c.handlersForTopics ≠ [] then none
    else
      match c.handlerFor m.message with
      | some h => some (c.queue (.topic h.data.handler m)).2
      | none => some (c.freeMessage (some m))

end Context

end IotDeviceSdk.Mqtt.Logic
