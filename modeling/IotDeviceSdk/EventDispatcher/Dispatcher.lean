import IotDeviceSdk.EventDispatcher.TimeEvent

/-!
# The event dispatcher (`iotc_event_dispatcher.c`)

One step runs the time events that are due, then the call queue until it is empty, then the
`on_empty` handler when there is one and no time event is left. Handlers call back into the
dispatcher while it drains its queues.

What the handlers do is a script: one `Reaction` for each handler that is run, in the order in
which they are run. The loops recurse on the script, and a step that terminates is one for which
a script is long enough. The log says what was run and which calls the handlers made.
-/

namespace IotDeviceSdk.EventDispatcher

/-- The place of an entry of the call queue among all that were ever queued. -/
abbrev CallPtr := Nat

/-- `iotc_evtd_instance_t`, without the file descriptors. `onEmpty` is `none` for an unset handle. -/
structure Evtd (H : Type) where
  currentStep : Int
  timeEvents : TimeEvents H
  callQueue : List (CallPtr × H)
  onEmpty : Option H
  stop : Bool
  nextEvent : EventPtr
  nextCall : CallPtr

/-- A call of the dispatcher's interface. `mem` and `grow` are answers of the allocator. -/
inductive Call (H : Type) where
  | execute (handle : H) (mem : Bool)
  | executeIn (handle : H) (timeDiff : Int) (timeEventHandle : Option HandlePtr) (mem grow : Bool)
  | cancel (timeEventHandle : HandlePtr)
  | restart (timeEventHandle : HandlePtr) (newTime : Int)
  | continueWhenEmpty (handle : Option H)
  | stop

/-- What is recorded of a step. -/
inductive Entry (H : Type) where
  | ranTimed (e : EventPtr) (time : Int) (handle : H)
  | ranQueued (c : CallPtr) (handle : H)
  | ranOnEmpty (handle : H)
  | added (e : EventPtr)
  | cancelled (e : EventPtr)
  | restarted (e : EventPtr)
  | enqueued (c : CallPtr) (handle : H)

/-- What one execution of a handler does: its calls, and whether it returns a fatal state
(`iotc_state_is_fatal`). -/
structure Reaction (H : Type) where
  calls : List (Call H)
  fatal : Bool

namespace Evtd

variable {H : Type}

/-- What `iotc_evtd_create_instance` returns, over a memory without time events. -/
def create (memory : EventPtr → TimeEvent H) : Evtd H where
  currentStep := 0
  timeEvents :=
    { container := Datastructures.IotcVector.create
      event := memory
      ptrToPosition := fun _ => none }
  callQueue := []
  onEmpty := none
  stop := false
  nextEvent := 0
  nextCall := 0

/-! ## The interface -/

/-- `iotc_evtd_execute`. Without memory nothing is queued. -/
def execute (s : Evtd H) (handle : H) (mem : Bool) : Evtd H × List (Entry H) :=
  if mem then
    ({ s with
      callQueue := s.callQueue ++ [(s.nextCall, handle)]
      nextCall := s.nextCall + 1 }, [.enqueued s.nextCall handle])
  else (s, [])

/-- `iotc_evtd_execute_in` -/
def executeIn (s : Evtd H) (handle : H) (timeDiff : Int) (timeEventHandle : Option HandlePtr)
    (mem grow : Bool) : Option (Evtd H × List (Entry H)) :=
  if mem then do
    let e := s.nextEvent
    let (c, state) ←
      (s.timeEvents.newEvent e handle (s.currentStep + timeDiff)).add e timeEventHandle grow
    return ({ s with timeEvents := c, nextEvent := e + 1 },
      if state = .ok then [.added e] else [])
  else some (s, [])

/-- `iotc_evtd_cancel` -/
def cancel (s : Evtd H) (timeEventHandle : HandlePtr) : Option (Evtd H × List (Entry H)) := do
  let (c, e, _) ← s.timeEvents.cancel timeEventHandle
  return ({ s with timeEvents := c }, e.toList.map .cancelled)

/-- `iotc_evtd_restart` -/
def restart (s : Evtd H) (timeEventHandle : HandlePtr) (newTime : Int) :
    Option (Evtd H × List (Entry H)) := do
  let (c, _) ← s.timeEvents.restart timeEventHandle (s.currentStep + newTime)
  return ({ s with timeEvents := c },
    (s.timeEvents.ptrToPosition timeEventHandle).toList.map .restarted)

/-- One call of the interface. -/
def call (s : Evtd H) : Call H → Option (Evtd H × List (Entry H))
  | .execute handle mem => some (s.execute handle mem)
  | .executeIn handle timeDiff timeEventHandle mem grow =>
    s.executeIn handle timeDiff timeEventHandle mem grow
  | .cancel timeEventHandle => s.cancel timeEventHandle
  | .restart timeEventHandle newTime => s.restart timeEventHandle newTime
  | .continueWhenEmpty handle => some ({ s with onEmpty := handle }, [])
  | .stop => some ({ s with stop := true }, [])

/-- The calls of one handler, in order. -/
def calls (s : Evtd H) : List (Call H) → Option (Evtd H × List (Entry H))
  | [] => some (s, [])
  | c :: cs => do
    let (s₁, log₁) ← s.call c
    let (s₂, log₂) ← s₁.calls cs
    return (s₂, log₁ ++ log₂)

/-! ## The step -/

/-- The state, the log and the rest of the script. -/
abbrev Outcome (H : Type) := Evtd H × List (Entry H) × List (Reaction H)

/-- The first loop of `iotc_evtd_step`: the time events that are due. -/
def timedLoop : List (Reaction H) → Evtd H → Option (Outcome H)
  | script, s =>
    match s.timeEvents.peekTop with
    | none => some (s, [], script)
    | some e =>
      if s.timeEvents.time e ≤ s.currentStep then
        match script with
        | [] => none
        | r :: script => do
          let (c, _) ← s.timeEvents.getTop
          let (s₁, log₁) ← { s with timeEvents := c }.calls r.calls
          -- a fatal result stops the dispatcher, not this loop
          let (s₂, log₂, rest) ← timedLoop script { s₁ with stop := s₁.stop || r.fatal }
          return (s₂, .ranTimed e (s.timeEvents.time e) (s.timeEvents.event e).eventHandle ::
            (log₁ ++ log₂), rest)
      else some (s, [], script)

/-- `iotc_evtd_single_step` when the call queue is not empty. -/
def singleStep (s : Evtd H) (first : CallPtr × H) (queue : List (CallPtr × H)) (r : Reaction H)
    (newStep : Int) : Option (Evtd H × List (Entry H)) := do
  let (s', log) ← { s with currentStep := newStep, callQueue := queue }.calls r.calls
  return (s', .ranQueued first.1 first.2 :: log)

/-- The second loop of `iotc_evtd_step`: single steps until the call queue is empty. -/
def queueLoop (newStep : Int) : List (Reaction H) → Evtd H → Option (Outcome H)
  | script, s =>
    match s.callQueue with
    | [] => some ({ s with currentStep := newStep }, [], script)
    | first :: queue =>
      match script with
      | [] => none
      | r :: script => do
        let (s₁, log₁) ← s.singleStep first queue r newStep
        let (s₂, log₂, rest) ← queueLoop newStep script s₁
        return (s₂, log₁ ++ log₂, rest)

/-- The end of `iotc_evtd_step`: the handler is run once and disposed, whatever it registered. -/
def runOnEmpty (script : List (Reaction H)) (s : Evtd H) : Option (Outcome H) :=
  match s.timeEvents.array, s.onEmpty with
  | [], some handle =>
    match script with
    | [] => none
    | r :: script => do
      let (s₁, log₁) ← s.calls r.calls
      return ({ s₁ with onEmpty := none }, .ranOnEmpty handle :: log₁, script)
  | _, _ => some (s, [], script)

/-- What `iotc_evtd_step` does before it looks at `on_empty`. -/
def drain (script : List (Reaction H)) (s : Evtd H) (newStep : Int) : Option (Outcome H) := do
  let (s₁, log₁, script₁) ← timedLoop script { s with currentStep := newStep }
  let (s₂, log₂, script₂) ← queueLoop newStep script₁ s₁
  return (s₂, log₁ ++ log₂, script₂)

/-- `iotc_evtd_step` -/
def step (script : List (Reaction H)) (s : Evtd H) (newStep : Int) : Option (Outcome H) := do
  let (s₁, log₁, script₁) ← drain script s newStep
  let (s₂, log₂, script₂) ← runOnEmpty script₁ s₁
  return (s₂, log₁ ++ log₂, script₂)

/-- The states of a dispatcher: created, then called from outside and stepped in any order. -/
inductive Reachable : Evtd H → Prop where
  | create (memory : EventPtr → TimeEvent H) : Reachable (create memory)
  | call {s s' : Evtd H} {log : List (Entry H)} (c : Call H) :
      Reachable s → s.call c = some (s', log) → Reachable s'
  | singleStep {s s' : Evtd H} {log : List (Entry H)} {first : CallPtr × H}
      {queue : List (CallPtr × H)} (r : Reaction H) (newStep : Int) :
      Reachable s → s.callQueue = first :: queue →
      s.singleStep first queue r newStep = some (s', log) → Reachable s'
  | step {s s' : Evtd H} {log : List (Entry H)} {script rest : List (Reaction H)} (newStep : Int) :
      Reachable s → step script s newStep = some (s', log, rest) → Reachable s'

end Evtd

end IotDeviceSdk.EventDispatcher
