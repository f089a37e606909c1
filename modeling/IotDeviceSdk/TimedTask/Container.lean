import IotDeviceSdk.Datastructures.Handle
import IotDeviceSdk.EventDispatcher.Dispatcher

/-!
# Timed tasks (`iotc_timed_task.c`)

A task is a block of memory, an entry of the handle table and, while it is scheduled, a time event of
the dispatcher, whose handle is the field `delayed_event` of the task. The address of a task names
that field too. The callback of a task may make any call, so that a run of the wrapper is two steps
with calls between them.

The critical section of the container is a flag, as with the thread module: a lock that is never
released is waited for forever. This, a failed assertion, a `NULL` and a block that was freed are
`none`.
-/

namespace IotDeviceSdk.TimedTask

open Datastructures EventDispatcher

/-- The address of an `iotc_timed_task_data_t`, and of its field `delayed_event`. -/
abbrev TaskPtr := HandlePtr

/-- `iotc_timed_task_state_e` -/
inductive TaskState where
  | scheduled
  | running
  | deletable
  deriving DecidableEq, Repr

/-- `iotc_timed_task_data_t`, without what is only handed to the callback. -/
structure TimedTaskData where
  secondsRepeat : Int
  state : TaskState
  deriving DecidableEq, Repr

/-- What is recorded of a run. A cancel says whether it was made by the callback of the task. -/
inductive Entry where
  | scheduled (task : TaskPtr) (handle : Int) (due : Int) (repeatsForever : Bool)
  | ran (task : TaskPtr)
  | rescheduled (task : TaskPtr)
  | cancelled (task : TaskPtr) (inside : Bool)
  deriving DecidableEq, Repr

/-- The container, the memory of the tasks, and the dispatcher. The handler of a time event is the
wrapper for a task, or none of the container's; `running` is the task whose callback is run. -/
structure World where
  timedTasksVector : Handles TaskPtr
  locked : Bool
  task : TaskPtr → Option TimedTaskData
  next : TaskPtr
  dispatcher : Evtd (Option TaskPtr)
  running : Option TaskPtr
  log : List Entry

/-- The answers of the allocator: for the task, for the growth of the handle table, for the time
event, and for the growth of the dispatcher's container. -/
structure Answers where
  task : Bool
  handle : Bool
  event : Bool
  place : Bool
  deriving DecidableEq, Repr

namespace World

/-- `iotc_make_timed_task_container`, beside a new dispatcher. -/
def initial : World where
  timedTasksVector := .create
  locked := false
  task := fun _ => none
  next := 0
  dispatcher := .create fun _ => ⟨none, 0, 0, none⟩
  running := none
  log := []

/-- The memory of a task is written or freed. -/
def setTask (w : World) (t : TaskPtr) (task : Option TimedTaskData) : World :=
  { w with task := Function.update w.task t task }

/-- `IOTC_MAX_TIMED_EVENT` -/
def maxTimedEvent : Int := 64

/-- `iotc_evtd_execute_in` for the wrapper of a task: the dispatcher, and whether it returned OK. -/
def executeIn (w : World) (t : TaskPtr) (timeDiff : Int) (a : Answers) : Option (World × Bool) :=
  (w.dispatcher.executeIn (some t) timeDiff (some t) a.event a.place).map fun (dispatcher, log) =>
    ({ w with dispatcher := dispatcher }, !log.isEmpty)

/-- `iotc_add_timed_task`: the handle, or the state with its sign changed. The error exit frees the
task, and does not release the lock. -/
def addTimedTask (w : World) (secondsFromNow : Int) (repeatsForever : Bool) (a : Answers) :
    Option (Int × World) :=
  if !a.task then some (-(IotcState.outOfMemory.code : Int), w)
  else
    let t := w.next
    let w := { w.setTask t (some ⟨if repeatsForever then secondsFromNow else 0, .scheduled⟩) with
      next := t + 1 }
    if w.locked then none
    else
      match w.timedTasksVector.registerHandleForObject maxTimedEvent t a.handle with
      | none =>
        some (-(IotcState.noMoreResourceAvailable.code : Int), { w.setTask t none with locked := true })
      | some vector =>
        let w := { w with timedTasksVector := vector }
        match vector.findHandleForObject t with
        | none =>
          some (-(IotcState.elementNotFound.code : Int), { w.setTask t none with locked := true })
        | some handle =>
          (w.executeIn t secondsFromNow a).map fun (w, ok) =>
            if ok then
              (handle, { w with log := w.log ++
                [.scheduled t handle (w.dispatcher.currentStep + secondsFromNow) repeatsForever] })
            else (-(IotcState.outOfMemory.code : Int), w.setTask t none)

/-- `iotc_remove_timed_task` -/
def removeTimedTask (w : World) (handle : Int) : Option World :=
  if w.locked then none
  else
    match w.timedTasksVector.objectForHandle handle with
    | none => some w
    | some t =>
      let w' := { w with log := w.log ++ [.cancelled t (w.running = some t)] }
      (w.task t).bind fun task =>
      match task.state with
      | .scheduled =>
        (w.dispatcher.cancel t).bind fun (dispatcher, log) =>
        if log.isEmpty then none
        else
          (w.timedTasksVector.deleteHandleForObject t).map fun vector =>
            { w'.setTask t none with dispatcher := dispatcher, timedTasksVector := vector }
      | .running => some (w'.setTask t (some { task with state := .deletable }))
      | .deletable => some w'

/-- The dispatcher takes its first time event, which is due, and runs it:
`iotc_timed_task_callback_wrapper` up to the callback, when the event is that of a task. -/
def takeDue (w : World) : Option World :=
  w.dispatcher.timeEvents.peekTop.bind fun e =>
  if w.dispatcher.currentStep < w.dispatcher.timeEvents.time e then none
  else
    w.dispatcher.timeEvents.getTop.bind fun (timeEvents, _) =>
    let handler := (w.dispatcher.timeEvents.event e).eventHandle
    let w := { w with dispatcher := { w.dispatcher with timeEvents := timeEvents } }
    match handler with
    | none => some w
    | some t =>
      if w.locked then none
      else
        match w.timedTasksVector.findHandleForObject t with
        | none => some w
        | some _ =>
          (w.task t).map fun task =>
            { w.setTask t (some { task with state := .running }) with
              running := some t, log := w.log ++ [.ran t] }

/-- `iotc_timed_task_callback_wrapper` after the callback. -/
def callbackReturns (w : World) (t : TaskPtr) (a : Answers) : Option World :=
  let w := { w with running := none }
  (w.task t).bind fun task =>
  if w.locked then none
  else if task.secondsRepeat = 0 ∨ task.state = .deletable then
    (w.timedTasksVector.deleteHandleForObject t).map fun vector =>
      { w.setTask t none with timedTasksVector := vector }
  else
    (w.executeIn t task.secondsRepeat a).bind fun (w, ok) =>
    if ok then
      some { w.setTask t (some { task with state := .scheduled }) with
        log := w.log ++ [.rescheduled t] }
    else none

end World

/-- One step. The calls may be made by the application and by the callback that is run; `other` is a
time event of another part of the library. -/
inductive Step where
  | schedule (secondsFromNow : Int) (repeatsForever : Bool) (a : Answers)
  | cancel (handle : Int)
  | other (timeDiff : Int) (a : Answers)
  | tick (newStep : Int)
  | takeDue
  | callbackReturns (a : Answers)
  deriving DecidableEq, Repr

/-- `none` also where the step is not the next one: no event is due, or no callback is run. -/
def step (w : World) : Step → Option World
  | .schedule secondsFromNow repeatsForever a =>
    (w.addTimedTask secondsFromNow repeatsForever a).map Prod.snd
  | .cancel handle => w.removeTimedTask handle
  | .other timeDiff a =>
    (w.dispatcher.executeIn none timeDiff none a.event a.place).map fun (dispatcher, _) =>
      { w with dispatcher := dispatcher }
  | .tick newStep =>
    if w.running.isSome then none
    else some { w with dispatcher := { w.dispatcher with currentStep := newStep } }
  | .takeDue => if w.running.isSome then none else w.takeDue
  | .callbackReturns a => w.running.bind fun t => w.callbackReturns t a

end IotDeviceSdk.TimedTask
