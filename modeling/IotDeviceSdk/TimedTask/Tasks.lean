import IotDeviceSdk.EventDispatcher.Armed
import IotDeviceSdk.Infra.Run
import IotDeviceSdk.TimedTask.Life

/-!
# Runs of the timed tasks

The handle table, the memory of the tasks and the dispatcher agree as long as a task that is accepted
gets all it asks for: `Wired`. The log then is made of lives: `Told`. `tasks_kept` is about the runs
in which each schedule that gets memory for the task gets the rest too, and each reschedule its time
event.
-/

namespace IotDeviceSdk.TimedTask

open Datastructures EventDispatcher Infra

/-! ## Agreement -/

namespace World

/-- The state of a task, or none when it was not accepted yet or is removed. -/
def stateOf (w : World) (t : TaskPtr) : Option TaskState := (w.task t).map fun x => x.state

/-- What the log says of a task. -/
def story (w : World) (t : TaskPtr) : List Entry := w.log.filter fun x => x.task = t

/-- The time events of a task that are pending. -/
def pending (w : World) (t : TaskPtr) : List EventPtr :=
  w.dispatcher.timeEvents.array.filter fun e =>
    (w.dispatcher.timeEvents.event e).eventHandle = some t

/-- The pointer to the pending event of a task, in its field `delayed_event`. -/
def delayedEvent (w : World) (t : TaskPtr) : Option EventPtr :=
  w.dispatcher.timeEvents.ptrToPosition t

end World

/-- Handle table, tasks and dispatcher agree. -/
structure Wired (w : World) : Prop where
  wf : w.dispatcher.WF
  matched : w.dispatcher.Matched
  sized : w.timedTasksVector.Sized
  unlocked : w.locked = false
  fresh : ∀ t, w.next ≤ t → w.task t = none
  unique : ∀ h k t, w.timedTasksVector.get h = some t →
    w.timedTasksVector.get k = some t → k = h
  live : ∀ t, (∃ h, w.timedTasksVector.get h = some t) ↔ (w.task t).isSome
  armed : ∀ t, (w.delayedEvent t).isSome ↔ w.stateOf t = some .scheduled
  running : ∀ t, w.running = some t ↔ ∃ s, w.stateOf t = some s ∧ s ≠ .scheduled

/-- The log says of the task `t` what the world shows. -/
structure Tracked (w : World) (t : TaskPtr) (handle due : Int) (repeatsForever : Bool) : Prop where
  life : Life t handle due repeatsForever (w.stateOf t) (w.story t)
  denoted : (w.task t).isSome → w.timedTasksVector.get handle = some t
  repeating : ∀ x, w.task t = some x → (x.secondsRepeat = 0 ↔ repeatsForever = false)
  time : .rescheduled t ∉ w.story t → ∀ e, w.delayedEvent t = some e →
    w.dispatcher.timeEvents.time e = due

/-- The log is made of the lives of the tasks. -/
structure Told (w : World) : Prop where
  born : ∀ x ∈ w.log, x.task < w.next
  tracked : ∀ t < w.next, ∃ handle due repeatsForever, Tracked w t handle due repeatsForever

variable {w w' : World} {t u : TaskPtr} {handle due : Int} {repeatsForever : Bool}

theorem wired_initial : Wired .initial where
  wf := ⟨TimeEvents.valid_empty rfl fun _ => rfl, fun e he => by
    simp [World.initial, Evtd.create, TimeEvents.array, IotcVector.create] at he⟩
  matched := fun e he => by
    simp [World.initial, Evtd.create, TimeEvents.array, IotcVector.create] at he
  sized := Handles.sized_create
  unlocked := rfl
  fresh := fun _ _ => rfl
  unique := fun h k t hh => by
    simp [World.initial, Handles.get, IotcVector.create] at hh
  live := fun t => by simp [World.initial, Handles.get, IotcVector.create]
  armed := fun t => by
    simp [World.initial, World.delayedEvent, World.stateOf, Evtd.create]
  running := fun t => by simp [World.initial, World.stateOf]

theorem told_initial : Told .initial :=
  ⟨fun x hx => by simp [World.initial] at hx, fun t ht => absurd ht (Nat.not_lt_zero t)⟩

/-- A task that nothing happened to is told as before. -/
theorem Tracked.frame (h : Tracked w t handle due repeatsForever) (htask : w'.task t = w.task t)
    (hstory : w'.story t = w.story t)
    (hdenoted : ∀ k, w.timedTasksVector.get k = some t →
      w'.timedTasksVector.get k = some t)
    (hevent : w'.delayedEvent t = w.delayedEvent t)
    (htime : ∀ e, w.delayedEvent t = some e →
      w'.dispatcher.timeEvents.time e = w.dispatcher.timeEvents.time e) :
    Tracked w' t handle due repeatsForever := by
  refine ⟨?_, ?_, ?_, ?_⟩
  · rw [World.stateOf, htask, hstory]
    exact h.life
  · rw [htask]
    exact fun hs => hdenoted _ (h.denoted hs)
  · rw [htask]
    exact h.repeating
  · rw [hstory, hevent]
    exact fun hr e he => (htime e he).trans (h.time hr e he)

theorem story_append {x : Entry} (hlog : w'.log = w.log ++ [x]) (t : TaskPtr) :
    w'.story t = if x.task = t then w.story t ++ [x] else w.story t := by
  rw [World.story, hlog, List.filter_append, List.filter_singleton]
  split <;> simp_all [World.story]

theorem Told.unborn (h : Told w) (ht : w.next ≤ t) : w.story t = [] := by
  refine List.filter_eq_nil_iff.2 fun x hx => ?_
  have hne : x.task ≠ t := fun heq => Nat.not_lt.2 ht (heq ▸ h.born x hx)
  simpa using hne

theorem Wired.mem_array (h : Wired w) {e : EventPtr} (he : w.delayedEvent t = some e) :
    e ∈ w.dispatcher.timeEvents.array := (h.wf.valid.event_of_handle t e he).1

theorem Wired.not_armed (h : Wired w) (hs : w.stateOf t ≠ some .scheduled) :
    w.delayedEvent t = none := by
  cases he : w.delayedEvent t with
  | none => rfl
  | some e => exact absurd ((h.armed t).1 (by rw [he]; rfl)) hs

/-! ## Conditions -/

/-- There is memory for a time event, and a place in the dispatcher's container. -/
def EventServed (w : World) (a : Answers) : Prop :=
  a.event = true ∧ w.dispatcher.timeEvents.container.HasPlace a.place

/-- A schedule that gets memory for the task finds a slot in the handle table, with memory for the
growth of the table, and a time event; a task that is to repeat has an interval. The task whose
callback returns gets a time event when it is to repeat and was not cancelled. -/
def Served (w : World) : Step → Prop
  | .schedule secondsFromNow repeatsForever a => a.task = true →
    w.timedTasksVector.Room World.maxTimedEvent ∧
      (none ∉ w.timedTasksVector.array → w.timedTasksVector.grows → a.handle = true) ∧
      EventServed w a ∧ (repeatsForever = true → secondsFromNow ≠ 0)
  | .callbackReturns a => ∀ t x, w.running = some t → w.task t = some x → x.secondsRepeat ≠ 0 →
    x.state = .running → EventServed w a
  | _ => True

/-- The step can be the next one: the dispatcher does nothing while it runs a callback, and takes an
event only when it is due; only a callback that is run returns. -/
def Possible (w : World) : Step → Prop
  | .tick _ => w.running = none
  | .takeDue => w.running = none ∧ ∃ e, w.dispatcher.timeEvents.peekTop = some e ∧
    w.dispatcher.timeEvents.time e ≤ w.dispatcher.currentStep
  | .callbackReturns _ => w.running.isSome
  | _ => True

/-! ## Scheduling -/

theorem Wired.event_bounded (h : Wired w) {e : EventPtr} (he : w.delayedEvent t = some e) :
    e ≠ w.dispatcher.nextEvent := fun heq => h.wf.next_notMem (heq ▸ h.mem_array he)

/-- The world after an accepted schedule. -/
theorem Wired.schedule (h : Wired w) {x : TimedTaskData} {vector : Handles TaskPtr} {time : Int}
    {dispatcher : Evtd (Option TaskPtr)} {log : List Entry} (hx : x.state = .scheduled)
    (hsized : vector.Sized)
    (hfree : w.timedTasksVector.get handle = none)
    (hvector : ∀ k, vector.get k = if k = handle then some w.next
      else w.timedTasksVector.get k)
    (harmed : w.dispatcher.Armed (some w.next) time dispatcher) :
    Wired ⟨vector, false, Function.update w.task w.next (some x), w.next + 1, dispatcher, w.running,
      log⟩ := by
  have hborn : ∀ t, (w.task t).isSome → t ≠ w.next := fun t ht heq => by
    rw [h.fresh t (Nat.le_of_eq heq.symm)] at ht
    cases ht
  refine ⟨harmed.wf, harmed.matched, hsized, rfl, ?_, ?_, ?_, ?_, ?_⟩
  · intro t ht
    have hne : t ≠ w.next := fun heq => Nat.not_succ_le_self _ (heq ▸ ht)
    simpa [Function.update_of_ne hne] using h.fresh t (Nat.le_of_succ_le ht)
  · intro j k t hj hk
    simp only [hvector] at hj hk
    split at hj <;> split at hk
    · next h₁ h₂ => exact h₂.trans h₁.symm
    · cases hj
      exact absurd rfl (hborn _ ((h.live _).1 ⟨k, hk⟩))
    · cases hk
      exact absurd rfl (hborn _ ((h.live _).1 ⟨j, hj⟩))
    · exact h.unique j k t hj hk
  · intro t
    simp only [hvector]
    by_cases ht : t = w.next
    · subst ht
      simp only [Function.update_self, Option.isSome_some, iff_true]
      exact ⟨handle, if_pos rfl⟩
    · rw [Function.update_of_ne ht, ← h.live t]
      constructor
      · rintro ⟨k, hk⟩
        split at hk
        · exact absurd (Option.some.inj hk).symm ht
        · exact ⟨k, hk⟩
      · rintro ⟨k, hk⟩
        refine ⟨k, ?_⟩
        rw [if_neg, hk]
        rintro rfl
        rw [hfree] at hk
        cases hk
  · intro t
    simp only [World.delayedEvent, World.stateOf, harmed.handles]
    by_cases ht : t = w.next
    · subst ht
      simp [hx]
    · rw [if_neg fun heq => ht (Option.some.inj heq).symm, Function.update_of_ne ht]
      exact h.armed t
  · intro t
    simp only [World.stateOf]
    by_cases ht : t = w.next
    · subst ht
      have hnone := h.running w.next
      rw [World.stateOf, h.fresh _ (Nat.le_refl _)] at hnone
      simp [hx, hnone]
    · rw [Function.update_of_ne ht]
      exact h.running t

theorem Told.schedule (h : Told w) (hw : Wired w) {x : TimedTaskData} {vector : Handles TaskPtr}
    {dispatcher : Evtd (Option TaskPtr)} {running : Option TaskPtr} (hx : x.state = .scheduled)
    (hrepeat : x.secondsRepeat = 0 ↔ repeatsForever = false)
    (hfree : w.timedTasksVector.get handle = none)
    (hvector : ∀ k, vector.get k = if k = handle then some w.next
      else w.timedTasksVector.get k)
    (harmed : w.dispatcher.Armed (some w.next) due dispatcher) :
    Told ⟨vector, false, Function.update w.task w.next (some x), w.next + 1, dispatcher, running,
      w.log ++ [.scheduled w.next handle due repeatsForever]⟩ := by
  refine ⟨fun y hy => ?_, fun t ht => ?_⟩
  · rcases List.mem_append.1 hy with hy | hy
    · exact Nat.lt_succ_of_lt (h.born y hy)
    · rw [List.mem_singleton.1 hy]
      exact Nat.lt_succ_self _
  · by_cases heq : t = w.next
    · subst heq
      refine ⟨handle, due, repeatsForever, ?_, ?_, ?_, ?_⟩
      · have htask : (Entry.scheduled w.next handle due repeatsForever).task = w.next := rfl
        rw [story_append rfl, if_pos htask, h.unborn (Nat.le_refl _)]
        simp only [World.stateOf, Function.update_self, Option.map_some, hx]
        exact .accepted
      · intro _
        rw [hvector, if_pos rfl]
      · intro y hy
        simp only [Function.update_self, Option.some.injEq] at hy
        exact hy ▸ hrepeat
      · intro _ e he
        simp only [World.delayedEvent, harmed.handles, if_true, Option.some.injEq] at he
        exact he ▸ harmed.time
    · obtain ⟨k, d, r, htracked⟩ := h.tracked t (Nat.lt_of_le_of_ne (Nat.le_of_lt_succ ht) heq)
      refine ⟨k, d, r, htracked.frame (Function.update_of_ne heq _ _) ?_ ?_ ?_ ?_⟩
      · rw [story_append rfl, if_neg fun hn => heq hn.symm]
      · intro j hj
        simp only [hvector]
        rw [if_neg, hj]
        rintro rfl
        rw [hfree] at hj
        cases hj
      · simp only [World.delayedEvent, harmed.handles]
        rw [if_neg fun hn => heq (Option.some.inj hn).symm]
      · exact fun e he => harmed.times e (hw.mem_array he)

/-- **A schedule that is served is accepted, or there was no memory for the task.** -/
theorem addTimedTask_spec (h : Wired w) (ht : Told w) {secondsFromNow : Int} {a : Answers}
    (hs : Served w (.schedule secondsFromNow repeatsForever a)) :
    ∃ r w', w.addTimedTask secondsFromNow repeatsForever a = some (r, w') ∧ Wired w' ∧ Told w' := by
  by_cases ha : a.task = true
  · obtain ⟨hroom, hmem, ⟨hevent, hplace⟩, hrepeat⟩ := hs ha
    have hfresh : w.task w.next = none := h.fresh _ (Nat.le_refl _)
    have hunarmed : w.delayedEvent w.next = none :=
      h.not_armed (by simp [World.stateOf, hfresh])
    obtain ⟨vector, handle, hregister, hsized, hfree, hvector⟩ :=
      Handles.registerHandleForObject_handle w.next h.sized hroom hmem
    have hnew : vector.get handle = some w.next := by rw [hvector, if_pos rfl]
    obtain ⟨i, hfind, rfl⟩ := Handles.find_eq_handle hnew fun k hk => by
      rw [hvector] at hk
      split at hk
      · next heq => exact heq
      · have := (h.live _).1 ⟨k, hk⟩
        rw [hfresh] at this
        cases this
    rcases Evtd.executeIn_handles h.wf h.matched (k := some w.next)
      (fun j hj => by cases hj; exact hunarmed) secondsFromNow a.event a.place with
      ⟨dispatcher, hexecute, harmed⟩ | ⟨_, _, _, hno⟩
    · let x : TimedTaskData := ⟨if repeatsForever then secondsFromNow else 0, .scheduled⟩
      have hadded : w.addTimedTask secondsFromNow repeatsForever a =
          some ((i : Int), ⟨vector, false, Function.update w.task w.next (some x), w.next + 1,
            dispatcher, w.running, w.log ++ [.scheduled w.next i
              (w.dispatcher.currentStep + secondsFromNow) repeatsForever]⟩) := by
        have hcurrent := harmed.currentStep
        simp [World.addTimedTask, ha, h.unlocked, World.setTask, hregister,
          Handles.findHandleForObject, hfind, World.executeIn, hexecute, hcurrent, x]
      have hrepeats : x.secondsRepeat = 0 ↔ repeatsForever = false := by
        cases repeatsForever <;> simp_all [x]
      exact ⟨_, _, hadded, h.schedule rfl hsized hfree hvector harmed,
        ht.schedule h rfl hrepeats hfree hvector harmed⟩
    · exact absurd ⟨hevent, hplace⟩ hno
  · rw [Bool.not_eq_true] at ha
    refine ⟨-(IotcState.outOfMemory.code : Int), w, ?_, h, ht⟩
    simp [World.addTimedTask, ha]

/-! ## Steps of one task -/

/-- From `w` to `w'` something happened to the task `t`, which was there, and to no other: it is now
`y`, and `news` is what the log says of it. -/
structure Only (w : World) (t : TaskPtr) (y : Option TimedTaskData) (news : List Entry) (w' : World) :
    Prop where
  wf : w'.dispatcher.WF
  matched : w'.dispatcher.Matched
  sized : w'.timedTasksVector.Sized
  unlocked : w'.locked = false
  next : w'.next = w.next
  task : w'.task = Function.update w.task t y
  handles : ∀ k u, w'.timedTasksVector.get k = some u ↔
    w.timedTasksVector.get k = some u ∧ (u = t → y.isSome)
  events : ∀ u ≠ t, w'.delayedEvent u = w.delayedEvent u
  times : ∀ u ≠ t, ∀ e, w.delayedEvent u = some e →
    w'.dispatcher.timeEvents.time e = w.dispatcher.timeEvents.time e
  armed : (w'.delayedEvent t).isSome ↔ y.map TimedTaskData.state = some .scheduled
  others : ∀ u ≠ t, w'.running = some u ↔ w.running = some u
  running : w'.running = some t ↔ ∃ s, y.map TimedTaskData.state = some s ∧ s ≠ .scheduled
  log : w'.log = w.log ++ news
  about : ∀ x ∈ news, x.task = t

namespace Only

variable {x : TimedTaskData} {y : Option TimedTaskData} {news : List Entry}

theorem wired (ho : Only w t y news w') (h : Wired w) (hx : w.task t = some x) : Wired w' := by
  have hother : ∀ u ≠ t, w'.task u = w.task u := fun u hu => by
    rw [ho.task, Function.update_of_ne hu]
  have hself : w'.task t = y := by rw [ho.task, Function.update_self]
  refine ⟨ho.wf, ho.matched, ho.sized, ho.unlocked, ?_, ?_, ?_, ?_, ?_⟩
  · intro u hu
    rw [ho.next] at hu
    rw [hother u, h.fresh u hu]
    rintro rfl
    exact absurd ((h.fresh u hu).symm.trans hx) (by simp)
  · intro j k u hj hk
    exact h.unique j k u ((ho.handles j u).1 hj).1 ((ho.handles k u).1 hk).1
  · intro u
    simp only [ho.handles, exists_and_right]
    rw [h.live u]
    by_cases hu : u = t
    · subst hu
      simp [hx, hself]
    · simp [hu, hother u hu]
  · intro u
    rw [World.stateOf]
    by_cases hu : u = t
    · subst hu
      rw [hself]
      exact ho.armed
    · rw [ho.events u hu, hother u hu]
      exact h.armed u
  · intro u
    rw [World.stateOf]
    by_cases hu : u = t
    · subst hu
      rw [hself]
      exact ho.running
    · rw [ho.others u hu, hother u hu]
      exact h.running u

theorem story (ho : Only w t y news w') (u : TaskPtr) :
    w'.story u = if u = t then w.story u ++ news else w.story u := by
  rw [World.story, ho.log, List.filter_append]
  split
  · next hu =>
    have hall : news.filter (fun x => x.task = u) = news :=
      List.filter_eq_self.2 fun x hx => by simp [ho.about x hx, hu]
    rw [hall, World.story]
  · next hu =>
    have hnone : news.filter (fun x => x.task = u) = [] :=
      List.filter_eq_nil_iff.2 fun x hx => by simpa [ho.about x hx] using fun heq => hu heq.symm
    rw [hnone, List.append_nil, World.story]

/-- **A step of one task keeps the agreement, and the log, when it is one of the task's life.** -/
theorem kept (ho : Only w t y news w') (h : Wired w) (ht : Told w) (hx : w.task t = some x)
    (hlife : ∀ handle due repeatsForever,
      Life t handle due repeatsForever (some x.state) (w.story t) →
      (x.secondsRepeat = 0 ↔ repeatsForever = false) →
      Life t handle due repeatsForever (y.map TimedTaskData.state) (w.story t ++ news))
    (hrepeat : ∀ x' ∈ y, x'.secondsRepeat = x.secondsRepeat)
    (harmed : (w'.delayedEvent t).isSome → .rescheduled t ∈ news) : Wired w' ∧ Told w' := by
  have hlt : t < w.next := Nat.lt_of_not_le fun hle => by
    rw [h.fresh t hle] at hx
    cases hx
  have hself : w'.task t = y := by rw [ho.task, Function.update_self]
  refine ⟨ho.wired h hx, fun z hz => ?_, fun u hu => ?_⟩
  · rw [ho.next]
    rw [ho.log] at hz
    rcases List.mem_append.1 hz with hz | hz
    · exact ht.born z hz
    · rw [ho.about z hz]
      exact hlt
  · rw [ho.next] at hu
    obtain ⟨handle, due, r, htracked⟩ := ht.tracked u hu
    refine ⟨handle, due, r, ?_⟩
    have hstory := ho.story u
    by_cases heq : u = t
    · subst heq
      rw [if_pos rfl] at hstory
      have hbefore := htracked.life
      rw [World.stateOf, hx] at hbefore
      refine ⟨?_, ?_, ?_, ?_⟩
      · rw [World.stateOf, hself, hstory]
        exact hlife handle due r hbefore (htracked.repeating x hx)
      · rw [hself]
        exact fun hy => (ho.handles _ _).2 ⟨htracked.denoted (by rw [hx]; rfl), fun _ => hy⟩
      · rw [hself]
        intro x' hx'
        rw [hrepeat x' hx']
        exact htracked.repeating x hx
      · intro hnot e he
        rw [hstory] at hnot
        exact absurd (List.mem_append_right _ (harmed (by rw [he]; rfl))) hnot
    · rw [if_neg heq] at hstory
      exact htracked.frame (by rw [ho.task, Function.update_of_ne heq]) hstory
        (fun k hk => (ho.handles k u).2 ⟨hk, fun hut => absurd hut heq⟩) (ho.events u heq)
        (ho.times u heq)

end Only

/-! ## Cancelling -/

/-- The only handle of a task is deleted. -/
theorem Wired.delete (h : Wired w) (ht : (w.task t).isSome) :
    ∃ vector, w.timedTasksVector.deleteHandleForObject t = some vector ∧ vector.Sized ∧
      ∀ k u, vector.get k = some u ↔
        w.timedTasksVector.get k = some u ∧ u ≠ t := by
  obtain ⟨handle, hhandle⟩ := (h.live t).2 ht
  obtain ⟨vector, hdelete, hvector⟩ := Handles.deleteHandleForObject_handle hhandle
    fun k hk => h.unique _ _ _ hhandle hk
  refine ⟨vector, hdelete, h.sized.deleteHandleForObject hdelete, fun k u => ?_⟩
  rw [hvector]
  constructor
  · intro hk
    split at hk
    · cases hk
    · next hne => exact ⟨hk, fun heq => hne (h.unique _ _ _ hhandle (heq ▸ hk))⟩
  · rintro ⟨hk, hne⟩
    rw [if_neg, hk]
    rintro rfl
    rw [hhandle] at hk
    exact hne (Option.some.inj hk).symm

/-- **A cancel takes a scheduled task away, marks a task whose callback is run, and does nothing
else.** -/
theorem removeTimedTask_spec (h : Wired w) (ht : Told w) (handle : Int) :
    ∃ w', w.removeTimedTask handle = some w' ∧ Wired w' ∧ Told w' := by
  cases hobject : w.timedTasksVector.objectForHandle handle with
  | none => exact ⟨w, by simp [World.removeTimedTask, h.unlocked, hobject], h, ht⟩
  | some t =>
    have halive := (h.live t).1 ⟨_, hobject⟩
    obtain ⟨x, hx⟩ := Option.isSome_iff_exists.1 halive
    have hstate : w.stateOf t = some x.state := by rw [World.stateOf, hx, Option.map_some]
    have hrunning := h.running t
    rw [hstate] at hrunning
    by_cases hsched : x.state = .scheduled
    · have hidle : ¬ w.running = some t := by
        rw [hrunning, hsched]
        simp
      obtain ⟨e, he⟩ := Option.isSome_iff_exists.1 ((h.armed t).2 (hstate.trans (congrArg _ hsched)))
      obtain ⟨dispatcher, hcancel, hdisarmed⟩ := Evtd.cancel_handles h.wf h.matched he
      obtain ⟨vector, hdelete, hsized, hvector⟩ := h.delete halive
      have hevent : dispatcher.timeEvents.ptrToPosition t = none := by
        rw [hdisarmed.handles, if_pos rfl]
      refine ⟨⟨vector, false, Function.update w.task t none, w.next, dispatcher, w.running,
        w.log ++ [.cancelled t false]⟩, ?_, Only.kept (w := w) (y := none) ⟨hdisarmed.wf,
        hdisarmed.matched, hsized, rfl, rfl, rfl, ?_, ?_, ?_, ?_, fun _ _ => .rfl, ?_, rfl, ?_⟩ h ht hx ?_ ?_ ?_⟩
      · simp [World.removeTimedTask, h.unlocked, hobject, hx, hsched, hcancel, hdelete, hidle,
          World.setTask]
      · intro k u
        rw [hvector]
        simp
      · intro u hu
        show dispatcher.timeEvents.ptrToPosition u = _
        rw [hdisarmed.handles, if_neg fun heq => hu (Option.some.inj heq).symm]
        rfl
      · intro u hu e' _
        rw [hdisarmed.times]
      · simp [World.delayedEvent, hevent]
      · simpa using hidle
      · simp [Entry.task]
      · intro k d r hlife _
        rw [hsched] at hlife
        exact hlife.cancelled
      · simp
      · simp [World.delayedEvent, hevent]
    · have hruns : w.running = some t := hrunning.2 ⟨_, rfl, hsched⟩
      have hnone : w.delayedEvent t = none := h.not_armed (by rw [hstate]; simpa using hsched)
      refine ⟨⟨w.timedTasksVector, false,
        Function.update w.task t (some ⟨x.secondsRepeat, .deletable⟩), w.next, w.dispatcher,
        w.running, w.log ++ [.cancelled t true]⟩, ?_, Only.kept (w := w) ⟨h.wf, h.matched,
        h.sized, rfl, rfl, rfl, ?_, fun _ _ => rfl, fun _ _ _ _ => rfl, ?_, fun _ _ => .rfl, ?_,
        rfl, ?_⟩ h ht hx ?_ ?_ ?_⟩
      · cases hcases : x.state with
        | scheduled => exact absurd hcases hsched
        | running =>
          simp [World.removeTimedTask, h.unlocked, hobject, hx, hruns, World.setTask, hcases]
        | deletable =>
          have hsame : Function.update w.task t (some ⟨x.secondsRepeat, .deletable⟩) = w.task := by
            rw [← hcases, ← hx, Function.update_eq_self]
          simp [World.removeTimedTask, h.unlocked, hobject, hx, hruns, hsame, hcases]
      · simp
      · simpa [World.delayedEvent] using hnone
      · simpa using hruns
      · simp [Entry.task]
      · intro k d r hlife _
        exact hlife.cancelledInside hsched
      · simp
      · intro hsome
        have hsome' : (w.delayedEvent t).isSome := hsome
        rw [hnone] at hsome'
        cases hsome'

/-! ## Running -/

/-- **The dispatcher takes a due event; the task it belongs to is running.** -/
theorem takeDue_spec (h : Wired w) (ht : Told w) (hs : Possible w .takeDue) :
    ∃ w', w.takeDue = some w' ∧ Wired w' ∧ Told w' := by
  obtain ⟨hidle, e, hpeek, hdue⟩ := hs
  obtain ⟨c, htop, hdisarmed⟩ := Evtd.getTop_handles h.wf h.matched hpeek
  have hmem : e ∈ w.dispatcher.timeEvents.array := List.mem_of_mem_head? hpeek
  have htake : ∀ {β : Type} (f : TimeEvents (Option TaskPtr) × Option EventPtr → Option β),
      (w.dispatcher.timeEvents.getTop).bind f = f (c, some e) := fun f => by rw [htop]; rfl
  cases hhandler : (w.dispatcher.timeEvents.event e).eventHandle with
  | none =>
    rw [hhandler] at hdisarmed
    have hevents : ∀ u, c.ptrToPosition u = w.delayedEvent u := hdisarmed.handles
    refine ⟨{ w with dispatcher := { w.dispatcher with timeEvents := c } }, ?_, ?_, ?_⟩
    · simp only [World.takeDue, hpeek, Option.bind_some, htake, hhandler]
      rw [if_neg (by omega)]
    · exact ⟨hdisarmed.wf, hdisarmed.matched, h.sized, h.unlocked, h.fresh, h.unique, h.live,
        fun t => by rw [World.delayedEvent, hevents]; exact h.armed t, h.running⟩
    · refine ⟨ht.born, fun t hlt => ?_⟩
      obtain ⟨k, d, r, htracked⟩ := ht.tracked t hlt
      exact ⟨k, d, r, htracked.frame rfl rfl (fun _ hk => hk) (hevents t)
        fun e' _ => by rw [hdisarmed.times]⟩
  | some t =>
    rw [hhandler] at hdisarmed
    have hevent : w.delayedEvent t = some e := (Evtd.pending_iff h.wf h.matched).1 ⟨hmem, hhandler⟩
    have hstate := (h.armed t).1 (by rw [hevent]; rfl)
    obtain ⟨x, hx, hsched⟩ := Option.map_eq_some_iff.1 hstate
    obtain ⟨handle, hhandle⟩ := (h.live t).2 (by rw [hx]; rfl)
    obtain ⟨i, hfind, -⟩ := Handles.find_eq_handle hhandle fun k hk => h.unique _ _ _ hhandle hk
    have hnone : c.ptrToPosition t = none := by
      rw [hdisarmed.handles, if_pos rfl]
    refine ⟨⟨w.timedTasksVector, false, Function.update w.task t (some ⟨x.secondsRepeat, .running⟩),
      w.next, { w.dispatcher with timeEvents := c }, some t, w.log ++ [.ran t]⟩, ?_,
      Only.kept (w := w) ⟨hdisarmed.wf, hdisarmed.matched, h.sized, rfl, rfl, rfl, ?_, ?_, ?_, ?_, ?_,
        ?_, rfl, ?_⟩ h ht hx ?_ ?_ ?_⟩
    · simp only [World.takeDue, hpeek, Option.bind_some, htake, hhandler]
      rw [if_neg (by omega)]
      simp [h.unlocked, Handles.findHandleForObject, hfind, hx, World.setTask]
    · simp
    · intro u hu
      show c.ptrToPosition u = _
      rw [hdisarmed.handles, if_neg fun heq => hu (Option.some.inj heq).symm]
      rfl
    · intro u hu e' _
      rw [hdisarmed.times]
    · simp [World.delayedEvent, hnone]
    · intro u hu
      rw [hidle]
      simpa using fun heq => hu heq.symm
    · simp
    · simp [Entry.task]
    · intro k d r hlife _
      rw [hsched] at hlife
      exact hlife.runs
    · simp
    · simp [World.delayedEvent, hnone]

/-- **When the callback returns, a task that repeats and was not cancelled is scheduled again, and
any other is removed.** -/
theorem callbackReturns_spec (h : Wired w) (ht : Told w) {a : Answers} (hruns : w.running = some t)
    (hs : Served w (.callbackReturns a)) :
    ∃ w', w.callbackReturns t a = some w' ∧ Wired w' ∧ Told w' := by
  obtain ⟨s, hstate, hsched⟩ := (h.running t).1 hruns
  obtain ⟨x, hx, rfl⟩ := Option.map_eq_some_iff.1 hstate
  have hnone : w.delayedEvent t = none := h.not_armed (by rw [hstate]; simpa using hsched)
  have halive : (w.task t).isSome := by rw [hx]; rfl
  have hothers : ∀ u ≠ t, (none : Option TaskPtr) = some u ↔ w.running = some u := fun u hu => by
    rw [hruns]
    simpa using fun heq => hu heq.symm
  by_cases hends : x.secondsRepeat = 0 ∨ x.state = .deletable
  · obtain ⟨vector, hdelete, hsized, hvector⟩ := h.delete halive
    refine ⟨⟨vector, false, Function.update w.task t none, w.next, w.dispatcher, none, w.log⟩, ?_,
      Only.kept (w := w) (y := none) ⟨h.wf, h.matched, hsized, rfl, rfl, rfl, ?_,
        fun _ _ => rfl, fun _ _ _ _ => rfl, ?_, hothers, ?_, (List.append_nil w.log).symm, ?_⟩
        h ht hx ?_ ?_ ?_⟩
    · simp [World.callbackReturns, hx, h.unlocked, hends, hdelete, World.setTask]
    · intro k u
      rw [hvector]
      simp
    · simpa [World.delayedEvent] using hnone
    · simp
    · simp
    · intro k d r hlife hrepeat
      rw [List.append_nil]
      cases hcases : x.state with
      | scheduled => exact absurd hcases hsched
      | running =>
        rw [hcases] at hlife
        exact hlife.finished (hrepeat.1 (hends.resolve_right (by simp [hcases])))
      | deletable =>
        rw [hcases] at hlife
        exact hlife.deleted
    · simp
    · intro hsome
      have hsome' : (w.delayedEvent t).isSome := hsome
      rw [hnone] at hsome'
      cases hsome'
  · rw [not_or] at hends
    have hstateRunning : x.state = .running := by
      cases hcases : x.state with
      | scheduled => exact absurd hcases hsched
      | running => rfl
      | deletable => exact absurd hcases hends.2
    obtain ⟨hevent, hplace⟩ := hs t x hruns hx hends.1 hstateRunning
    rcases Evtd.executeIn_handles h.wf h.matched (k := some t)
      (fun j hj => by cases hj; exact hnone) x.secondsRepeat a.event a.place with
      ⟨dispatcher, hexecute, harmed⟩ | ⟨_, _, _, hno⟩
    · refine ⟨⟨w.timedTasksVector, false,
        Function.update w.task t (some ⟨x.secondsRepeat, .scheduled⟩), w.next, dispatcher, none,
        w.log ++ [.rescheduled t]⟩, ?_, Only.kept (w := w) ⟨harmed.wf, harmed.matched, h.sized, rfl,
        rfl, rfl, ?_, ?_, ?_, ?_, hothers, ?_, rfl, ?_⟩ h ht hx ?_ ?_ ?_⟩
      · simp [World.callbackReturns, hx, h.unlocked, hends, World.executeIn, hexecute, World.setTask]
      · simp
      · intro u hu
        show dispatcher.timeEvents.ptrToPosition u = _
        rw [harmed.handles, if_neg fun heq => hu (Option.some.inj heq).symm]
        rfl
      · intro u hu e he
        exact harmed.times e (h.mem_array he)
      · simp [World.delayedEvent, harmed.handles]
      · simp
      · simp [Entry.task]
      · intro k d r hlife hrepeat
        rw [hstateRunning] at hlife
        refine hlife.rescheduled ?_
        cases r with
        | false => exact absurd (hrepeat.2 rfl) hends.1
        | true => rfl
      · simp
      · simp
    · exact absurd ⟨hevent, hplace⟩ hno

/-! ## Runs -/

theorem other_spec (h : Wired w) (ht : Told w) (timeDiff : Int) (a : Answers) :
    ∃ w', step w (.other timeDiff a) = some w' ∧ Wired w' ∧ Told w' := by
  have hkept : ∀ {dispatcher : Evtd (Option TaskPtr)}, dispatcher.WF → dispatcher.Matched →
      dispatcher.timeEvents.ptrToPosition = w.dispatcher.timeEvents.ptrToPosition →
      (∀ e ∈ w.dispatcher.timeEvents.array,
        dispatcher.timeEvents.time e = w.dispatcher.timeEvents.time e) →
      Wired { w with dispatcher := dispatcher } ∧ Told { w with dispatcher := dispatcher } := by
    intro dispatcher hwf hmatched hptr htimes
    refine ⟨⟨hwf, hmatched, h.sized, h.unlocked, h.fresh, h.unique, h.live,
      fun t => by rw [World.delayedEvent, hptr]; exact h.armed t, h.running⟩,
      ht.born, fun t hlt => ?_⟩
    obtain ⟨k, d, r, htracked⟩ := ht.tracked t hlt
    exact ⟨k, d, r, htracked.frame rfl rfl (fun _ hk => hk) (congrFun hptr t)
      fun e he => htimes e (h.mem_array he)⟩
  rcases Evtd.executeIn_handles h.wf h.matched (k := none) (fun j hj => by cases hj) timeDiff a.event
    a.place with ⟨dispatcher, hexecute, harmed⟩ | ⟨dispatcher, hexecute, hunarmed, -⟩
  · refine ⟨_, by rw [step, hexecute]; rfl, hkept harmed.wf harmed.matched ?_ harmed.times⟩
    funext j
    rw [harmed.handles, if_neg (by simp)]
  · exact ⟨_, by rw [step, hexecute]; rfl,
      hkept hunarmed.wf hunarmed.matched hunarmed.handles hunarmed.times⟩

/-- **Each possible step whose requests are served is taken, and keeps the agreement and the log.** -/
theorem step_spec (h : Wired w) (ht : Told w) {s : Step} (hp : Possible w s) (hs : Served w s) :
    ∃ w', step w s = some w' ∧ Wired w' ∧ Told w' := by
  cases s with
  | schedule secondsFromNow repeatsForever a =>
    obtain ⟨r, w', hadded, hw', ht'⟩ := addTimedTask_spec h ht hs
    exact ⟨w', by rw [step, hadded, Option.map_some], hw', ht'⟩
  | cancel handle => exact removeTimedTask_spec h ht handle
  | other timeDiff a => exact other_spec h ht timeDiff a
  | tick newStep =>
    have hidle : w.running = none := hp
    refine ⟨{ w with dispatcher := { w.dispatcher with currentStep := newStep } },
      by simp [step, hidle], ⟨⟨h.wf.valid, h.wf.bounded⟩, h.matched, h.sized, h.unlocked, h.fresh,
        h.unique, h.live, h.armed, h.running⟩, ht.born, fun t hlt => ?_⟩
    obtain ⟨k, d, r, htracked⟩ := ht.tracked t hlt
    exact ⟨k, d, r, htracked.frame rfl rfl (fun _ hk => hk) rfl fun _ _ => rfl⟩
  | takeDue =>
    obtain ⟨w', htake, hw', ht'⟩ := takeDue_spec h ht hp
    exact ⟨w', by rw [step, hp.1]; exact htake, hw', ht'⟩
  | callbackReturns a =>
    obtain ⟨t, hruns⟩ := Option.isSome_iff_exists.1 hp
    obtain ⟨w', hreturns, hw', ht'⟩ := callbackReturns_spec h ht hruns hs
    exact ⟨w', by rw [step, hruns, Option.bind_some, hreturns], hw', ht'⟩

/-- What holds of the timed tasks in a world. -/
structure Kept (w : World) : Prop where
  /-- a task is scheduled exactly when it has exactly one pending time event, and has none otherwise -/
  scheduled : ∀ t x, w.task t = some x → (x.state = .scheduled ↔ (w.pending t).length = 1)
  unscheduled : ∀ t, w.stateOf t ≠ some .scheduled → w.pending t = []
  /-- after a cancel from outside the callback it is not run again -/
  silent : ∀ t, w.log.Pairwise fun a b => a = .cancelled t false → b ≠ .ran t
  /-- a task that does not repeat runs once: it did, or its event is pending for its time, or it was
  cancelled -/
  oneShot : ∀ t handle due, .scheduled t handle due false ∈ w.log →
    w.log.count (.ran t) = 1 ∨ w.log.count (.ran t) = 0 ∧
      (.cancelled t false ∈ w.log ∨
        ∃ e, w.pending t = [e] ∧ w.dispatcher.timeEvents.time e = due)
  /-- each run of a task that repeats was followed by a reschedule, but for the one that is going on,
  and its event is pending otherwise, unless it was cancelled -/
  repeating : ∀ t handle due, .scheduled t handle due true ∈ w.log →
    (∀ inside, .cancelled t inside ∉ w.log) →
    w.log.count (.ran t) = w.log.count (.rescheduled t) + (if w.running = some t then 1 else 0) ∧
      (w.running = some t ∨ (w.pending t).length = 1)
  /-- until a task is removed its handle denotes it, and handles denote no removed task -/
  denotes : ∀ t handle due repeatsForever, .scheduled t handle due repeatsForever ∈ w.log →
    (w.task t).isSome → w.timedTasksVector.objectForHandle handle = some t
  denoted : ∀ t handle, w.timedTasksVector.objectForHandle handle = some t → (w.task t).isSome

/-- What is pending for a task is the event its field points to. -/
theorem Wired.pending_eq (h : Wired w) (t : TaskPtr) : w.pending t = (w.delayedEvent t).toList := by
  have hmem : ∀ e, e ∈ w.pending t ↔ w.delayedEvent t = some e := fun e => by
    rw [World.pending, List.mem_filter, decide_eq_true_eq]
    exact Evtd.pending_iff h.wf h.matched
  have hnodup : (w.pending t).Nodup := h.wf.valid.placed.nodup.filter _
  cases he : w.delayedEvent t with
  | none =>
    refine List.eq_nil_iff_forall_not_mem.2 fun e hmem' => ?_
    rw [hmem, he] at hmem'
    cases hmem'
  | some e =>
    refine List.perm_singleton.1 ((List.perm_ext_iff_of_nodup hnodup (List.nodup_singleton e)).2
      fun a => ?_)
    rw [hmem, he, List.mem_singleton, Option.some.injEq]
    exact eq_comm

theorem Wired.pending_length (h : Wired w) (t : TaskPtr) :
    (w.pending t).length = 1 ↔ w.stateOf t = some .scheduled := by
  rw [← h.armed t, h.pending_eq t]
  cases w.delayedEvent t <;> simp

theorem World.count_story {x : Entry} (hx : x.task = t) : (w.story t).count x = w.log.count x :=
  List.count_filter (by simpa using hx)

theorem World.mem_story {x : Entry} (hx : x.task = t) : x ∈ w.story t ↔ x ∈ w.log := by
  simp [World.story, hx]

/-- The life of a task that was accepted. -/
theorem Told.accepted (h : Told w) (hmem : .scheduled t handle due repeatsForever ∈ w.log) :
    Tracked w t handle due repeatsForever := by
  obtain ⟨k, d, r, htracked⟩ := h.tracked t (h.born _ hmem)
  obtain ⟨rfl, rfl, rfl⟩ := htracked.life.scheduled_mem ((World.mem_story rfl).2 hmem)
  exact htracked

theorem Told.silent (h : Told w) (t : TaskPtr) :
    w.log.Pairwise fun a b => a = .cancelled t false → b ≠ .ran t := by
  have hstory : (w.story t).Pairwise fun a b => a = .cancelled t false → b ≠ .ran t := by
    by_cases hlt : t < w.next
    · obtain ⟨_, _, _, htracked⟩ := h.tracked t hlt
      exact htracked.life.silent
    · rw [h.unborn (Nat.not_lt.1 hlt)]
      exact .nil
  refine (List.pairwise_filter.1 hstory).imp fun {a b} hab ha => ?_
  intro hb
  exact hab (by simp [ha, Entry.task]) (by simp [hb, Entry.task]) ha hb

/-- **Agreement and lives say what the claims on the timed tasks are.** -/
theorem Wired.kept (h : Wired w) (ht : Told w) : Kept w := by
  refine ⟨?_, ?_, ht.silent, ?_, ?_, ?_, fun t _ hk => (h.live t).1 ⟨_, hk⟩⟩
  · intro t x hx
    rw [h.pending_length, World.stateOf, hx, Option.map_some, Option.some.injEq]
  · intro t hs
    rw [h.pending_eq, h.not_armed hs]
    rfl
  · intro t k d hmem
    have htracked := ht.accepted hmem
    have hlife := htracked.life
    have hnot := hlife.not_rescheduled rfl
    rw [← World.count_story (w := w) (rfl : (Entry.ran t).task = t)]
    have hzero := List.count_eq_zero_of_not_mem hnot
    cases hs : w.stateOf t with
    | none =>
      rw [hs] at hlife
      obtain ⟨hle, hgone⟩ := hlife.gone
      rw [hzero] at hle hgone
      rcases hgone with hcancelled | ⟨hran, -⟩
      · rcases Nat.le_one_iff_eq_zero_or_eq_one.1 hle with hran | hran
        · exact .inr ⟨hran, .inl ((World.mem_story rfl).1 hcancelled)⟩
        · exact .inl hran
      · exact .inl hran
    | some s =>
      rw [hs] at hlife
      have hran := hlife.runs_eq rfl
      rw [hzero, Nat.zero_add] at hran
      cases s with
      | scheduled =>
        obtain ⟨e, he⟩ := Option.isSome_iff_exists.1 ((h.armed t).2 hs)
        exact .inr ⟨hran, .inr ⟨e, by rw [h.pending_eq, he]; rfl, htracked.time hnot e he⟩⟩
      | running => exact .inl hran
      | deletable => exact .inl hran
  · intro t k d hmem hnot
    have hlife := (ht.accepted hmem).life
    rw [← World.count_story (w := w) (rfl : (Entry.ran t).task = t),
      ← World.count_story (w := w) (rfl : (Entry.rescheduled t).task = t), h.pending_length]
    have hrunning := h.running t
    cases hs : w.stateOf t with
    | none =>
      rw [hs] at hlife
      rcases hlife.gone.2 with hc | ⟨-, hr | hc⟩
      · exact absurd ((World.mem_story rfl).1 hc) (hnot false)
      · cases hr
      · exact absurd ((World.mem_story rfl).1 hc) (hnot true)
    | some s =>
      rw [hs] at hlife hrunning
      refine ⟨(hlife.runs_eq rfl).trans (congrArg _ ?_), ?_⟩ <;> cases s <;>
        simp_all [Life.owed]
  · intro t k d r hmem hlive
    exact Handles.objectForHandle_of_get h.sized ((ht.accepted hmem).denoted hlive)

/-- **In every run whose requests are served every step can be taken, and the timed tasks are kept.** -/
theorem tasks_kept (steps : List Step) (hpossible : AllSteps step Possible .initial steps)
    (hserved : AllSteps step Served .initial steps) :
    ∃ w, run step .initial steps = some w ∧ Kept w := by
  suffices h : ∀ {steps : List Step} {w : World}, Wired w → Told w → AllSteps step Possible w steps →
      AllSteps step Served w steps → ∃ w', run step w steps = some w' ∧ Wired w' ∧ Told w' by
    obtain ⟨w, hrun, hwired, htold⟩ := h wired_initial told_initial hpossible hserved
    exact ⟨w, hrun, hwired.kept htold⟩
  intro steps
  induction steps with
  | nil => exact fun {w} h ht _ _ => ⟨w, rfl, h, ht⟩
  | cons s steps ih =>
    intro w h ht hp hs
    obtain ⟨w₁, hstep, h₁, ht₁⟩ := step_spec h ht hp.1 hs.1
    obtain ⟨w', hrun, h', ht'⟩ := ih h₁ ht₁ (hp.2 w₁ hstep) (hs.2 w₁ hstep)
    exact ⟨w', by rw [run_cons, hstep, Option.bind_some, hrun], h', ht'⟩

/-- All requests are met. -/
def granted : Answers := ⟨true, true, true, true⟩

/-- A task that repeats and a task that does not; the callback of the first cancels the second, that
of the second run cancels its own task. -/
def twoTasks : List Step :=
  [.schedule 1 true granted, .schedule 3 false granted, .tick 1, .takeDue, .cancel 1,
    .callbackReturns granted, .tick 2, .takeDue, .cancel 0, .callbackReturns granted]

theorem tasks_kept_twoTasks : ∃ w, run step .initial twoTasks = some w ∧ Kept w := by
  refine tasks_kept twoTasks ?_ ?_
  · refine .cons trivial rfl (.cons trivial rfl (.cons rfl rfl (.cons ⟨rfl, _, rfl, by decide⟩ rfl
      (.cons trivial rfl (.cons rfl rfl (.cons rfl rfl (.cons ⟨rfl, _, rfl, ?_⟩ rfl (.cons trivial rfl
        (.cons rfl rfl trivial)))))))))
    decide +kernel
  · have hevent : ∀ {w : World}, w.dispatcher.timeEvents.container.HasPlace true →
        EventServed w granted := fun h => ⟨rfl, h⟩
    refine .cons (fun _ => ⟨.inr (by decide), fun _ _ => rfl, hevent (.inl (by decide)), by decide⟩)
      rfl (.cons (fun _ => ⟨.inr (by decide), fun _ _ => rfl, hevent (.inl (by decide)), by decide⟩)
        rfl (.cons trivial rfl (.cons trivial rfl (.cons trivial rfl
          (.cons (fun _ _ _ _ _ _ => hevent (.inl (by decide +kernel))) rfl (.cons trivial rfl
            (.cons trivial rfl (.cons trivial rfl (.cons (fun _ _ _ _ _ _ =>
              hevent (.inl (by decide +kernel))) rfl trivial)))))))))

/-- A schedule without memory for the time event fails, but leaves the handle of the task that it
frees: a cancel by this handle reads it. Where a reschedule gets no memory an assertion fails. -/
theorem tasks_kept_fails :
    (∃ w, run step .initial [.schedule 1 false ⟨true, true, false, true⟩] = some w ∧
      ¬ Kept w ∧ step w (.cancel 0) = none) ∧
    ∃ w, run step .initial [.schedule 1 true granted, .tick 1, .takeDue] = some w ∧
      w.running = some 0 ∧ step w (.callbackReturns ⟨true, true, false, true⟩) = none := by
  refine ⟨⟨_, rfl, fun h => ?_, rfl⟩, ⟨_, rfl, rfl, rfl⟩⟩
  exact absurd (h.denoted 0 0 rfl) (by decide)

end IotDeviceSdk.TimedTask
