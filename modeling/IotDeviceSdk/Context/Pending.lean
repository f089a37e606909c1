import Mathlib.Data.Nat.Pairing
import IotDeviceSdk.Context.Globals
import IotDeviceSdk.EventDispatcher.Dispatcher
import IotDeviceSdk.EventDispatcher.Sockets
import IotDeviceSdk.Mqtt.Logic.Data

/-!
# The work that contexts leave on the dispatcher (`iotc.c`)

The contexts share the dispatcher of the globals. A handler that waits there is given data of one
context, and this context is part of the work: for a timed task, which has only a handle, it is the
context that the handle denoted by then.

The layers are not modelled here: a handler that is run may make any call of the dispatcher for its
own context, and write its connection state. Which task the handle of a timed task denotes is the
matter of the container, and a cancel names the task. A failed assertion, a `NULL` that is
dereferenced, and a step that is not the next one are `none`.
-/

namespace IotDeviceSdk.Context

open Datastructures EventDispatcher Infra Mqtt.Logic

/-- `iotc_shutdown_state_t` -/
inductive ShutdownState where
  | uninitialised
  | started
  deriving DecidableEq, Repr

/-- `init` and `push` of the top layer, another function of a layer, and the wrapper of a timed
task. -/
inductive Handler where
  | init
  | push
  | layer (id : Nat)
  | timedTask (task : Ptr) (contextHandle : Int) (secondsRepeat : Int)
  deriving DecidableEq, Repr

/-- A handler, and the context that it refers to. -/
structure Work where
  context : Option Ptr
  handler : Handler
  deriving DecidableEq, Repr

/-- The work is the wrapper of this task. -/
def Work.isTimedTask (work : Work) (task : Ptr) : Bool :=
  match work.handler with
  | .timedTask t _ _ => t = task
  | _ => false

/-- What is recorded of a run. -/
inductive Entry where
  | executed (work : Work)
  | deleted (context : Ptr)
  deriving DecidableEq, Repr

/-- `iotc_context_data_t`, with the fields that the calls read. -/
structure ContextData where
  connectionState : Option ConnectionState
  shutdownState : ShutdownState
  deriving DecidableEq, Repr

/-- The contexts, the dispatcher of the globals with its sockets, and the work that is run. -/
structure System where
  world : World
  data : Ptr → ContextData
  dispatcher : Evtd Work
  sockets : Sockets Work
  running : Option Work
  deletable : Bool
  log : List Entry

/-- The address of a field of a block. -/
def field (block : Ptr) (i : Nat) : HandlePtr := Nat.pair block i

/-- `connect_handler` -/
def connectHandler (context : Ptr) : HandlePtr := field context 0

/-- A time event handle in the data of a layer. -/
def layerEvent (context : Ptr) (i : Nat) : HandlePtr := field context (i + 1)

/-- `delayed_event` -/
def delayedEvent (task : Ptr) : HandlePtr := field task 0

/-- A new dispatcher. -/
def newDispatcher : Evtd Work := .create fun _ => ⟨⟨none, .init⟩, 0, 0, none⟩

namespace System

def initial : System where
  world := .initial
  data := fun _ => ⟨none, .uninitialised⟩
  dispatcher := newDispatcher
  sockets := .create
  running := none
  deletable := false
  log := []

/-- The context that a handle denotes. Without a handle table it cannot be asked for. -/
def contextFor (w : System) (contextHandle : Int) : Option (Option Ptr) :=
  w.world.globals.contextHandlesVector.map fun t => t.slots.objectForHandle contextHandle

/-- The time event of this handle is pending. -/
def armed (w : System) (k : HandlePtr) : Bool := (w.dispatcher.timeEvents.ptrToPosition k).isSome

def setData (w : System) (context : Ptr) (d : ContextData) : System :=
  { w with data := Function.update w.data context d }

/-! ## Calls of the dispatcher -/

def execute (w : System) (work : Work) (mem : Bool) : System :=
  { w with dispatcher := (w.dispatcher.execute work mem).1 }

def executeIn (w : System) (work : Work) (timeDiff : Int) (k : HandlePtr) (mem grow : Bool) :
    Option (System × Bool) :=
  (w.dispatcher.executeIn work timeDiff (some k) mem grow).map fun (dispatcher, log) =>
    ({ w with dispatcher := dispatcher }, !log.isEmpty)

def cancel (w : System) (k : HandlePtr) : Option System :=
  (w.dispatcher.cancel k).map fun (dispatcher, _) => { w with dispatcher := dispatcher }

def restart (w : System) (k : HandlePtr) (newTime : Int) : Option System :=
  (w.dispatcher.restart k newTime).map fun (dispatcher, _) => { w with dispatcher := dispatcher }

/-! ## Calls of the application -/

/-- `iotc_create_context`. The first context comes with a new dispatcher. -/
def createContext (c : Config) (w : System) (answers : List Bool) : Option System :=
  (Context.createContext c (w.world.answering answers)).map fun (_, world) =>
    if (w.world.globals.globalsRefCount + 1) % 256 = 1 then
      { w with world := world, dispatcher := newDispatcher, sockets := .create }
    else { w with world := world }

/-- `iotc_delete_context`. The dispatcher goes with the last reference. -/
def deleteContext (w : System) (contextHandle : Int) : Option System :=
  (w.contextFor contextHandle).join.bind fun context =>
  (Context.deleteContext w.world contextHandle).map fun (_, world) =>
    let w := { w with world := world, data := Function.update w.data context ⟨none, .uninitialised⟩
                      log := w.log ++ [.deleted context] }
    if world.globals.globalsRefCount = 0 then
      { w with dispatcher := newDispatcher, sockets := .create }
    else w

/-- `iotc_connect_to`, for a host and a client id. `data` is the answer of the allocator to the
connection data, and `newBackoff` is what the back-off says. -/
def connectTo (w : System) (contextHandle : Int) (data : Bool) (newBackoff : Int)
    (mem grow : Bool) : Option System :=
  if contextHandle ≤ -1 then some w
  else (w.contextFor contextHandle).bind fun iotc =>
    match iotc with
    | none => some w
    | some context =>
      if w.armed (connectHandler context) then some w
      else if (w.data context).connectionState.all ConnectionState.final && data then
        ((w.setData context ⟨some .uninitialized, .uninitialised⟩).executeIn ⟨some context, .init⟩
          newBackoff (connectHandler context) mem grow).map Prod.fst
      else some w

/-- `iotc_shutdown_connection`. `task` is the answer of the allocator to the shutdown task. -/
def shutdownConnection (w : System) (contextHandle : Int) (task mem : Bool) : Option System :=
  (w.contextFor contextHandle).join.bind fun context =>
  if w.armed (connectHandler context) then w.cancel (connectHandler context)
  else if (w.data context).connectionState ≠ some .opened then some w
  else match (w.data context).shutdownState with
    | .started => some w
    | .uninitialised =>
      let w := w.setData context { w.data context with shutdownState := .started }
      some (if task then w.execute ⟨some context, .push⟩ mem else w)

/-- `iotc_publish_data_impl`. `admitted` says that the back-off allows it and that there is memory
for the task. -/
def publish (w : System) (contextHandle : Int) (admitted mem : Bool) : Option System :=
  (w.contextFor contextHandle).join.map fun context =>
    if admitted then w.execute ⟨some context, .push⟩ mem else w

/-- `iotc_subscribe` -/
def subscribe (w : System) (contextHandle : Int) (admitted mem : Bool) : Option System :=
  if contextHandle = -1 then some w
  else (w.contextFor contextHandle).map fun iotc =>
    match iotc with
    | none => w
    | some context => if admitted then w.execute ⟨some context, .push⟩ mem else w

/-- `iotc_schedule_timed_task`. Whether there is a context with this handle is not looked at. -/
def scheduleTimedTask (w : System) (contextHandle secondsFromNow : Int) (repeatsForever : Bool)
    (task mem grow : Bool) : Option System :=
  if contextHandle ≤ -1 ∨ w.world.globals.timedTasksContainer.isNone then none
  else
    match (w.world.answering [task]).heap.alloc with
    | (none, m) => some { w with world := { w.world with heap := m } }
    | (some t, m) =>
      let work : Work := ⟨(w.contextFor contextHandle).join,
        .timedTask t contextHandle (if repeatsForever then secondsFromNow else 0)⟩
      (({ w with world := { w.world with heap := m } } : System).executeIn work secondsFromNow
        (delayedEvent t) mem grow).map fun (w, ok) =>
          if ok then w else { w with world := { w.world with heap := m.free t } }

/-- `iotc_cancel_timed_task`. A task that is run is marked. -/
def cancelTimedTask (w : System) (task : Ptr) : Option System :=
  if w.running.any fun work => work.isTimedTask task then some { w with deletable := true }
  else if w.armed (delayedEvent task) then
    (w.cancel (delayedEvent task)).map fun w =>
      { w with world := { w.world with heap := w.world.heap.free task } }
  else some w

/-! ## The event loop -/

/-- A handler is run, up to its calls. -/
def start (w : System) (work : Work) : System :=
  { w with running := some work, deletable := false, log := w.log ++ [.executed work] }

/-- The dispatcher takes its first time event, which is due. -/
def takeDue (w : System) : Option System :=
  w.dispatcher.timeEvents.peekTop.bind fun e =>
  if w.dispatcher.currentStep < w.dispatcher.timeEvents.time e then none
  else
    w.dispatcher.timeEvents.getTop.map fun (timeEvents, _) =>
      { w with dispatcher := { w.dispatcher with timeEvents := timeEvents } }.start
        (w.dispatcher.timeEvents.event e).eventHandle

/-- The dispatcher takes the first call of its queue. -/
def takeCall (w : System) : Option System :=
  match w.dispatcher.callQueue with
  | [] => none
  | (_, work) :: queue =>
    some ({ w with dispatcher := { w.dispatcher with callQueue := queue } }.start work)

/-- A handler returns. A timed task that repeats is scheduled again, unless it was cancelled. -/
def returns (w : System) (work : Work) (mem grow : Bool) : Option System :=
  match work.handler with
  | .timedTask task _ secondsRepeat =>
    if secondsRepeat = 0 ∨ w.deletable then
      some { w with world := { w.world with heap := w.world.heap.free task }, running := none }
    else
      ({ w with running := none }.executeIn work secondsRepeat (delayedEvent task) mem grow).bind
        fun (w, ok) => if ok then some w else none
  | _ => some { w with running := none }

/-- A socket is ready, and its handler is queued. -/
def socketReady (w : System) (fd : Fd) (mem : Bool) : Option System :=
  (w.sockets.updateEvent fd).map fun (work, sockets) => { w with sockets := sockets }.execute work mem

end System

/-! ## Runs -/

/-- What a layer does, for its context. -/
inductive LayerCall where
  | execute (id : Nat) (mem : Bool)
  | executeIn (id i : Nat) (timeDiff : Int) (mem grow : Bool)
  | cancel (i : Nat)
  | restart (i : Nat) (newTime : Int)
  | registerSocket (fd : Fd) (id : Nat) (mem grow : Bool)
  | continueWhenEvtOnSocket (eventType : EventType) (id : Nat) (fd : Fd)
  | unregisterSocket (fd : Fd)
  | setConnectionState (s : ConnectionState)
  deriving DecidableEq, Repr

def System.layerCall (w : System) (context : Ptr) : LayerCall → Option System
  | .execute id mem => some (w.execute ⟨some context, .layer id⟩ mem)
  | .executeIn id i timeDiff mem grow =>
    (w.executeIn ⟨some context, .layer id⟩ timeDiff (layerEvent context i) mem grow).map Prod.fst
  | .cancel i => w.cancel (layerEvent context i)
  | .restart i newTime => w.restart (layerEvent context i) newTime
  | .registerSocket fd id mem grow =>
    (w.sockets.register fd ⟨some context, .layer id⟩ mem grow).map fun sockets =>
      { w with sockets := sockets }
  | .continueWhenEvtOnSocket eventType id fd =>
    some { w with sockets :=
      (w.sockets.continueWhenEvtOnSocket eventType ⟨some context, .layer id⟩ fd).getD w.sockets }
  | .unregisterSocket fd => some { w with sockets := w.sockets.unregister fd }
  | .setConnectionState s => some (w.setData context
      { w.data context with connectionState := (w.data context).connectionState.map fun _ => s })

/-- One step. The calls of the application may be made by a handler that is run, too. -/
inductive Step where
  | createContext (answers : List Bool)
  | deleteContext (contextHandle : Int)
  | connectTo (contextHandle : Int) (data : Bool) (newBackoff : Int) (mem grow : Bool)
  | shutdownConnection (contextHandle : Int) (task mem : Bool)
  | publish (contextHandle : Int) (admitted mem : Bool)
  | subscribe (contextHandle : Int) (admitted mem : Bool)
  | scheduleTimedTask (contextHandle secondsFromNow : Int) (repeatsForever task mem grow : Bool)
  | cancelTimedTask (task : Ptr)
  | layerCall (call : LayerCall)
  | tick (newStep : Int)
  | takeDue
  | takeCall
  | socketReady (fd : Fd) (mem : Bool)
  | returns (mem grow : Bool)
  deriving DecidableEq, Repr

/-- The state after a step. The dispatcher does nothing while it runs a handler. -/
def System.step (c : Config) (w : System) : Step → Option System
  | .createContext answers => w.createContext c answers
  | .deleteContext contextHandle => w.deleteContext contextHandle
  | .connectTo contextHandle data newBackoff mem grow =>
    w.connectTo contextHandle data newBackoff mem grow
  | .shutdownConnection contextHandle task mem => w.shutdownConnection contextHandle task mem
  | .publish contextHandle admitted mem => w.publish contextHandle admitted mem
  | .subscribe contextHandle admitted mem => w.subscribe contextHandle admitted mem
  | .scheduleTimedTask contextHandle secondsFromNow repeatsForever task mem grow =>
    w.scheduleTimedTask contextHandle secondsFromNow repeatsForever task mem grow
  | .cancelTimedTask task => w.cancelTimedTask task
  | .layerCall call => (w.running.bind Work.context).bind fun context => w.layerCall context call
  | .tick newStep =>
    if w.running.isSome then none
    else some { w with dispatcher := { w.dispatcher with currentStep := newStep } }
  | .takeDue => if w.running.isSome then none else w.takeDue
  | .takeCall => if w.running.isSome then none else w.takeCall
  | .socketReady fd mem => if w.running.isSome then none else w.socketReady fd mem
  | .returns mem grow => w.running.bind fun work => w.returns work mem grow

end IotDeviceSdk.Context
