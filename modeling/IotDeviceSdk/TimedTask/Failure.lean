import IotDeviceSdk.Datastructures.HandleRun
import IotDeviceSdk.EventDispatcher.Armed
import IotDeviceSdk.TimedTask.Tasks

/-!
# Timed tasks that cannot be added

`iotc_add_timed_task` takes a block for the task, a handle and a time event, in this order. Its error
exit gives back the block and nothing else:

* when there is no handle, the critical section stays locked;
* when the dispatcher has no memory, the freed task keeps its handle, and a time event that found no
  place in the container stays allocated.

So a failing call leaves everything as it was only if it fails at the first allocation.
-/

namespace IotDeviceSdk.TimedTask

open Datastructures EventDispatcher Infra

/-- A block that the call can allocate. -/
inductive Block where
  | task (t : TaskPtr)
  | event (e : EventPtr)
  deriving DecidableEq, Repr

namespace World

/-- The blocks after `iotc_evtd_execute_in`. None of its exits frees the time event. -/
def executeInBlocks (w : World) (a : Answers) (blocks : List Block) : List Block :=
  if a.event then .event w.dispatcher.nextEvent :: blocks else blocks

/-- The blocks after `iotc_add_timed_task`. -/
def addTimedTaskBlocks (w : World) (secondsFromNow : Int) (a : Answers) (blocks : List Block) :
    List Block :=
  if !a.task then blocks
  else
    let t := w.next
    let blocks := .task t :: blocks
    match w.timedTasksVector.registerHandleForObject maxTimedEvent t a.handle with
    | none => blocks.erase (.task t)
    | some vector =>
      match vector.findHandleForObject t with
      | none => blocks.erase (.task t)
      | some _ =>
        match w.executeIn t secondsFromNow a with
        | some (_, true) => w.executeInBlocks a blocks
        | _ => (w.executeInBlocks a blocks).erase (.task t)

end World

/-- The call can be made: the critical section is free, table and dispatcher are well formed, and the
address of the next block is neither in the table nor in the dispatcher. -/
structure Ready (w : World) : Prop where
  unlocked : w.locked = false
  sized : w.timedTasksVector.Sized
  wf : w.dispatcher.WF
  matched : w.dispatcher.Matched
  unborn : w.task w.next = none
  unregistered : w.next ∉ w.timedTasksVector.objects
  unarmed : w.dispatcher.timeEvents.ptrToPosition w.next = none

/-- Nothing has changed: the tasks, their handles, the time events, the blocks and the lock. -/
structure Unchanged (w : World) (blocks : List Block) (w' : World) (blocks' : List Block) :
    Prop where
  tasks : w'.task = w.task
  handles : w'.timedTasksVector = w.timedTasksVector
  pending : w'.dispatcher.timeEvents.array = w.dispatcher.timeEvents.array
  events : ∀ e ∈ w.dispatcher.timeEvents.array,
    w'.dispatcher.timeEvents.event e = w.dispatcher.timeEvents.event e
  armed : w'.dispatcher.timeEvents.ptrToPosition = w.dispatcher.timeEvents.ptrToPosition
  blocks : blocks'.Perm blocks
  unlocked : w'.locked = false

/-- A call that does not return a handle leaves everything as it was. -/
def FailsCleanly (w : World) (secondsFromNow : Int) (repeatsForever : Bool) (a : Answers)
    (blocks : List Block) : Prop :=
  ∃ r w', w.addTimedTask secondsFromNow repeatsForever a = some (r, w') ∧
    (r < 0 → Unchanged w blocks w' (w.addTimedTaskBlocks secondsFromNow a blocks))

/-- The handle table has a free slot, or room and a place for one more. -/
def HasHandle (w : World) (a : Answers) : Prop :=
  none ∈ w.timedTasksVector.array ∨
    (w.timedTasksVector.elemNo : Int) < World.maxTimedEvent ∧
      IotcVector.HasPlace w.timedTasksVector a.handle

/-- The task gets a handle and a time event. -/
def Accepted (w : World) (a : Answers) : Prop := HasHandle w a ∧ EventServed w a

instance (w : World) (a : Answers) : Decidable (HasHandle w a) :=
  inferInstanceAs (Decidable (_ ∨ _ ∧ _))

instance (w : World) (a : Answers) : Decidable (Accepted w a) :=
  inferInstanceAs (Decidable (_ ∧ _ ∧ _))

variable {w : World} {secondsFromNow : Int} {repeatsForever : Bool} {a : Answers}
  {blocks : List Block}

/-- Handle table, tasks and dispatcher that agree are ready. -/
theorem Wired.ready (h : Wired w) : Ready w where
  unlocked := h.unlocked
  sized := h.sized
  wf := h.wf
  matched := h.matched
  unborn := h.fresh _ (Nat.le_refl _)
  unregistered := by
    intro hmem
    obtain ⟨handle, hget⟩ := Handles.mem_objects_iff.1 hmem
    have hlive := (h.live w.next).1 ⟨handle, hget⟩
    rw [h.fresh _ (Nat.le_refl _)] at hlive
    cases hlive
  unarmed := h.not_armed (by simp [World.stateOf, h.fresh w.next (Nat.le_refl _)])

/-! ## The handle -/

/-- With a handle the new task is found in the table. -/
theorem HasHandle.register (h : Ready w) (hhandle : HasHandle w a) :
    ∃ vector handle, w.timedTasksVector.registerHandleForObject World.maxTimedEvent w.next a.handle =
      some vector ∧ vector.findHandleForObject w.next = some handle ∧
        some w.next ∈ vector.array := by
  have hroom : w.timedTasksVector.Room World.maxTimedEvent :=
    hhandle.imp_right fun hplace => ⟨hplace.1, hplace.2.imp_right fun hp => hp.2.1⟩
  have hmem : none ∉ w.timedTasksVector.array → w.timedTasksVector.grows → a.handle = true := by
    intro hfull hgrows
    simp only [Handles.grows, Bool.and_eq_true, decide_eq_true_eq] at hgrows
    exact ((hhandle.resolve_left hfull).2.resolve_left (by omega)).2.2
  obtain ⟨vector, handle, hregister, -, -, hslots⟩ :=
    Handles.registerHandleForObject_handle w.next h.sized hroom hmem
  have hget : vector.get handle = some w.next := by rw [hslots, if_pos rfl]
  cases hfind : vector.findHandleForObject w.next with
  | none => exact absurd (Handles.get_mem hget) (Handles.find_eq_none.1 hfind)
  | some i => exact ⟨vector, i, hregister, hfind, Handles.get_mem hget⟩

/-- Without one, the registration fails or the task is not found. -/
theorem not_registered (h : Ready w) (hhandle : ¬ HasHandle w a) {vector : Handles TaskPtr}
    (hregister : w.timedTasksVector.registerHandleForObject World.maxTimedEvent w.next a.handle =
      some vector) : vector.findHandleForObject w.next = none := by
  have hfull : w.timedTasksVector.find none = none :=
    Handles.find_eq_none.2 fun hfree => hhandle (.inl hfree)
  simp only [Handles.registerHandleForObject, hfull] at hregister
  split at hregister
  · cases hregister
  · next hmax =>
    have hplace : ¬ IotcVector.HasPlace w.timedTasksVector a.handle := fun hplace =>
      hhandle (.inr ⟨Int.not_le.1 hmax, hplace⟩)
    rw [IotcVector.push_eq_none hplace, Option.getD_none] at hregister
    obtain rfl := Option.some.inj hregister
    exact Handles.find_eq_none.2 fun hmem => h.unregistered (Handles.mem_objects.2 hmem)

/-! ## The time event -/

/-- A time event without memory, or without a place in the container, is not added. -/
theorem executeIn_fails {s : Evtd (Option TaskPtr)} {k : TaskPtr} {mem grow : Bool}
    (hfree : s.timeEvents.ptrToPosition k = none) (timeDiff : Int)
    (h : ¬ (mem = true ∧ s.timeEvents.container.HasPlace grow)) :
    ∃ s', s.executeIn (some k) timeDiff (some k) mem grow = some (s', []) := by
  cases mem with
  | false => exact ⟨s, rfl⟩
  | true =>
    have hplace : ¬ (s.timeEvents.newEvent s.nextEvent (some k)
        (s.currentStep + timeDiff)).container.HasPlace grow := fun hplace => h ⟨rfl, hplace⟩
    have hguard : (s.timeEvents.newEvent s.nextEvent (some k)
        (s.currentStep + timeDiff)).ptrToPosition k = none := hfree
    refine ⟨{ s with
      timeEvents := s.timeEvents.newEvent s.nextEvent (some k) (s.currentStep + timeDiff)
      nextEvent := s.nextEvent + 1 }, ?_⟩
    simp [Evtd.executeIn, TimeEvents.add, TimeEvents.insertTimeEvent, IotcVector.push_eq_none hplace,
      hguard]

/-! ## The call -/

/-- An accepted task gets its handle. -/
theorem Accepted.addTimedTask (h : Ready w) (ha : a.task = true) (haccepted : Accepted w a)
    (secondsFromNow : Int) (repeatsForever : Bool) :
    ∃ (handle : Nat) (w' : World),
      w.addTimedTask secondsFromNow repeatsForever a = some ((handle : Int), w') := by
  obtain ⟨vector, handle, hregister, hfind, -⟩ := haccepted.1.register h
  have hfree : ∀ j ∈ some w.next, w.dispatcher.timeEvents.ptrToPosition j = none := by
    rintro j ⟨⟩
    exact h.unarmed
  rcases Evtd.executeIn_handles h.wf h.matched hfree secondsFromNow a.event a.place with
    ⟨s, hadd, -⟩ | ⟨s, -, -, hnot⟩
  · refine ⟨handle, ?_⟩
    simp [World.addTimedTask, ha, h.unlocked, World.setTask, hregister, hfind, World.executeIn, hadd]
  · exact absurd haccepted.2 hnot

/-- **A call that fails behind the allocation of the task leaves the critical section locked, or the
freed task in the handle table.** -/
theorem addTimedTask_fails (h : Ready w) (ha : a.task = true) (hnot : ¬ Accepted w a)
    (secondsFromNow : Int) (repeatsForever : Bool) :
    ∃ r w', w.addTimedTask secondsFromNow repeatsForever a = some (r, w') ∧ r < 0 ∧
      (w'.locked = true ∨ some w.next ∈ w'.timedTasksVector.array) := by
  by_cases hhandle : HasHandle w a
  · obtain ⟨vector, handle, hregister, hfind, hmem⟩ := hhandle.register h
    have hevent : ¬ EventServed w a := fun hevent => hnot ⟨hhandle, hevent⟩
    obtain ⟨s, hadd⟩ := executeIn_fails h.unarmed secondsFromNow hevent
    refine ⟨-(IotcState.outOfMemory.code : Int), ?_⟩
    simp [World.addTimedTask, ha, h.unlocked, World.setTask, hregister, hfind, World.executeIn, hadd,
      IotcState.code, hmem]
  · cases hregister : w.timedTasksVector.registerHandleForObject World.maxTimedEvent w.next a.handle with
    | none =>
      refine ⟨-(IotcState.noMoreResourceAvailable.code : Int), ?_⟩
      simp [World.addTimedTask, ha, h.unlocked, World.setTask, hregister, IotcState.code,
        IotcState.noMoreResourceAvailable]
    | some vector =>
      have hfind := not_registered h hhandle hregister
      refine ⟨-(IotcState.elementNotFound.code : Int), ?_⟩
      simp [World.addTimedTask, ha, h.unlocked, World.setTask, hregister, hfind, IotcState.code]

/-- **A call leaves everything as it was when it fails exactly when it fails at the allocation of the
task, or does not fail.** -/
theorem failsCleanly_iff (h : Ready w) (secondsFromNow : Int) (repeatsForever : Bool) (a : Answers)
    (blocks : List Block) :
    FailsCleanly w secondsFromNow repeatsForever a blocks ↔ (a.task = true → Accepted w a) := by
  constructor
  · rintro ⟨r, w', hcall, hclean⟩ ha
    by_contra hnot
    obtain ⟨r', w'', hfails, hneg, hleft⟩ :=
      addTimedTask_fails h ha hnot secondsFromNow repeatsForever
    obtain ⟨rfl, rfl⟩ := Prod.mk.inj (Option.some.inj (hcall.symm.trans hfails))
    have hunchanged := hclean hneg
    rcases hleft with hlocked | hmem
    · rw [hunchanged.unlocked] at hlocked
      cases hlocked
    · rw [hunchanged.handles] at hmem
      exact h.unregistered (Handles.mem_objects.2 hmem)
  · intro hcondition
    cases ha : a.task with
    | true =>
      obtain ⟨handle, w', hcall⟩ :=
        (hcondition ha).addTimedTask h ha secondsFromNow repeatsForever
      exact ⟨handle, w', hcall, fun hneg => by omega⟩
    | false =>
      refine ⟨-(IotcState.outOfMemory.code : Int), w, by simp [World.addTimedTask, ha], fun _ => ?_⟩
      have hblocks : w.addTimedTaskBlocks secondsFromNow a blocks = blocks := by
        simp [World.addTimedTaskBlocks, ha]
      exact ⟨rfl, rfl, rfl, fun _ _ => rfl, rfl, .of_eq hblocks, h.unlocked⟩

/-- A first task, with memory for everything and with memory for nothing. -/
theorem failsCleanly_first : FailsCleanly .initial 5 true ⟨true, true, true, true⟩ [] ∧
    FailsCleanly .initial 5 true ⟨false, false, false, false⟩ [] := by
  have hready := wired_initial.ready
  exact ⟨(failsCleanly_iff hready 5 true _ []).2 fun _ => by decide,
    (failsCleanly_iff hready 5 true _ []).2 fun ha => by cases ha⟩

/-- Two tasks are there. A third one without memory for the handle leaves the critical section
locked. One without memory for the time event leaves its handle, and one without a place for the time
event leaves its handle and the time event. -/
theorem failsCleanly_fails : ∃ w,
    run step .initial [.schedule 1 false ⟨true, true, true, true⟩,
      .schedule 1 false ⟨true, true, true, true⟩] = some w ∧ w.locked = false ∧
    (∃ r w', w.addTimedTask 1 false ⟨true, false, true, true⟩ = some (r, w') ∧ r = -47 ∧
      w'.locked = true) ∧
    (∃ r w', w.addTimedTask 1 false ⟨true, true, false, true⟩ = some (r, w') ∧ r = -7 ∧
      w'.timedTasksVector.array = [some 0, some 1, some 2] ∧ w'.task 2 = none) ∧
    (∃ r w', w.addTimedTask 1 false ⟨true, true, true, false⟩ = some (r, w') ∧ r = -7 ∧
      w'.timedTasksVector.array = [some 0, some 1, some 2] ∧ w'.task 2 = none ∧
        w.addTimedTaskBlocks 1 ⟨true, true, true, false⟩ [] = [.event 2]) ∧
    ¬ FailsCleanly w 1 false ⟨true, true, true, false⟩ [] := by
  refine ⟨_, rfl, rfl, ⟨_, _, rfl, rfl, rfl⟩, ⟨_, _, rfl, rfl, rfl, rfl⟩,
    ⟨_, _, rfl, rfl, rfl, rfl, rfl⟩, ?_⟩
  rintro ⟨r, w', hcall, hclean⟩
  obtain ⟨rfl, rfl⟩ := Prod.mk.inj (Option.some.inj hcall)
  have hhandles := congrArg IotcVector.array (hclean (by decide)).handles
  exact absurd hhandles (by decide)

end IotDeviceSdk.TimedTask
