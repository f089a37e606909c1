import IotDeviceSdk.Mqtt.Logic.Layer
import IotDeviceSdk.Mqtt.Logic.Outcome

/-!
# What a call of the layer does

The calls of the layer resume coroutines, and a coroutine that ends has the next ones started. Here
is said once what can come of this, in the order in which it happens.

* `World.Starts` is the work on `q0Tasks`: some tasks are started and end at once, until one is
  kept, none is left, or the next one has to wait.
* `World.Settled` is what follows one run of a coroutine.
* The lemmas `…_cases` say what each call of the layer does, in these terms.
-/

namespace IotDeviceSdk.Mqtt.Logic

/-- A task as `iotc_mqtt_logic_layer_push` puts it into `q0Tasks`. -/
structure Task.Queued (t : Task) : Prop where
  logic : t.logic = some ⟨true, .ok, none⟩
  qos : t.qos = .atMostOnce
  cs : t.cs = .fresh
  scenario : t.scenario = .connect ∨ (∃ d, t.scenario = .publish (some d)) ∨
    t.scenario = .keepalive ∨ t.scenario = .shutdown

/-- A queued task does not reset itself after the end. -/
theorem Task.Queued.not_reset {t : Task} {c : Context} {a : Args} (hq : t.Queued)
    {r : CoResult} (h : execute c t a = some r) (s : IotcState) : r.exit ≠ .finalizeThenReset s := by
  intro he
  obtain ⟨d, hd⟩ := (execute_outcome h).subscribes s he
  rcases hq.scenario with h | ⟨e, h⟩ | h | h <;> rw [h] at hd <;> cases hd

namespace World

variable {w w' : World} {t : Task} {ts : List Task} {p : Place} {r : CoResult}

/-- The task is where its coroutine is run. -/
def At (w : World) (t : Task) : Place → Prop
  | .current => w.currentQ0Task = some t
  | .q12 => t ∈ w.q12Tasks
  | .q12Recv => t ∈ w.q12RecvTasks
  | .leaked => t ∈ w.leaked

/-- What a run of a coroutine leaves behind. -/
def ran (w : World) (p : Place) (r : CoResult) : World := (w.withContext r.context).put r.task p

/-- The head of `q0Tasks` becomes the current task. -/
def started (w : World) (t : Task) (ts : List Task) : World :=
  { w with q0Tasks := ts, currentQ0Task := some t }.record (.run t.id)

/-- The task has to wait for the connection to be opened. -/
def waits (w : World) (t : Task) : Prop :=
  w.context.connection.connectionState = .opening ∧ t.scenario ≠ .connect

/-! ## The QoS 0 tasks -/

/-- What becomes of `q0Tasks` while there is no current task. -/
inductive Starts : World → World → Prop
  | empty {w : World} (s : IotcState) (hc : w.currentQ0Task = none) (hq : w.q0Tasks = []) :
      Starts w (w.returns s)
  | wait {w : World} {t : Task} {ts : List Task} (s : IotcState) (hc : w.currentQ0Task = none)
      (hq : w.q0Tasks = t :: ts) (hw : w.waits t) :
      Starts w ({ w with q0Tasks := ts ++ [t] }.returns s)
  | keep {w : World} {t : Task} {ts : List Task} {a : Args} {r : CoResult} (s : IotcState)
      (hc : w.currentQ0Task = none) (hq : w.q0Tasks = t :: ts) (hw : ¬w.waits t)
      (hl : t.logic = some a) (hr : execute (w.started t ts).context t a = some r)
      (he : r.exit.final = false) :
      Starts w (((w.started t ts).ran .current r).returns s)
  | next {w w' : World} {t : Task} {ts : List Task} {a : Args} {r : CoResult} (s : IotcState)
      (hc : w.currentQ0Task = none) (hq : w.q0Tasks = t :: ts) (hw : ¬w.waits t)
      (hl : t.logic = some a) (hr : execute (w.started t ts).context t a = some r)
      (he : r.exit.final = true) (hu : r.context.timeouts r.task.id = none)
      (h : Starts ((w.started t ts).ran .current r).freeCurrent w') :
      Starts w (w'.returns s)

@[simp] theorem freeCurrent_currentQ0Task (w : World) : w.freeCurrent.currentQ0Task = none := by
  unfold freeCurrent
  split
  · rfl
  · assumption

@[simp] theorem freeCurrent_q0Tasks (w : World) : w.freeCurrent.q0Tasks = w.q0Tasks := by
  unfold freeCurrent
  split <;> rfl

/-- How `leave` goes on. -/
theorem leave_cases {id : Nat} {finalise : World → Option World} {e : Exit}
    (h : w.leave id finalise e = some w') :
    (∃ s, e = .keep s ∧ w' = w.returns s) ∨
      (e.final = true ∧ w.context.timeouts id = none ∧ ∃ w₁ s, finalise w = some w₁ ∧
        (w' = w₁.returns s ∨
          (∃ s, e = .finalizeThenReset s) ∧ w' = (w₁.record (.writeFreed id)).returns s)) := by
  unfold leave at h
  split at h
  · next s => exact .inl ⟨s, rfl, (Option.some.inj h).symm⟩
  · split at h
    · cases h
    · next harmed =>
      rw [Option.map_eq_some_iff] at h
      obtain ⟨w₁, hf, rfl⟩ := h
      exact .inr ⟨rfl, Context.armed_eq_false.mp (Bool.not_eq_true _ ▸ harmed), w₁, _, hf, .inl rfl⟩
  · next s =>
    split at h
    · cases h
    · next harmed =>
      rw [Option.map_eq_some_iff] at h
      obtain ⟨w₁, hf, rfl⟩ := h
      exact .inr ⟨rfl, Context.armed_eq_false.mp (Bool.not_eq_true _ ▸ harmed), w₁, s, hf,
        .inr ⟨⟨s, rfl⟩, rfl⟩⟩

theorem runQ0Tasks_starts : ∀ {ts : List Task} {w w' : World}, (∀ t ∈ ts, t.Queued) →
    runQ0Tasks ts w = some w' → Starts { w.freeCurrent with q0Tasks := ts } w'
  | [], w, w', _, h => by
    obtain rfl := Option.some.inj h
    exact .empty .ok (freeCurrent_currentQ0Task w) rfl
  | t :: ts, w, w', hts, h => by
    unfold runQ0Tasks at h
    dsimp only at h
    have hc := freeCurrent_currentQ0Task w
    split at h
    · next hw =>
      obtain rfl := Option.some.inj h
      exact .wait .ok hc rfl hw
    · next hw =>
      have hqueued := hts t List.mem_cons_self
      rw [hqueued.logic] at h
      dsimp only at h
      split at h
      · cases h
      · next r hr =>
        rcases leave_cases h with ⟨s, he, rfl⟩ | ⟨he, hu, w₁, s, hw₁, rfl | ⟨⟨s', he'⟩, -⟩⟩
        · exact .keep s hc rfl hw hqueued.logic hr (by rw [he]; rfl)
        · have hrest := runQ0Tasks_starts (fun t ht => hts t (List.mem_cons_of_mem _ ht)) hw₁
          exact .next s hc rfl hw hqueued.logic hr he hu hrest
        · exact absurd he' (hqueued.not_reset hr s')

/-! ## One run of a coroutine -/

/-- What follows the run `r` of a coroutine at the place `p`: its task is kept, or taken out of its
list and freed, or it is a task of QoS 0 and the current task is freed and the next ones start. In
the end the coroutine may write to the task that has been freed. -/
inductive Settled (w : World) (p : Place) (r : CoResult) : World → Prop
  | keep (s : IotcState) (he : r.exit.final = false) : Settled w p r ((w.ran p r).returns s)
  | drop (s : IotcState) (he : r.exit.final = true) (hq : r.task.qos ≠ .atMostOnce)
      (hu : r.context.timeouts r.task.id = none) :
      Settled w p r (((w.ran p r).drop r.task p).returns s)
  | next {w' : World} (s : IotcState) (he : r.exit.final = true) (hq : r.task.qos = .atMostOnce)
      (hu : r.context.timeouts r.task.id = none) (hd : r.context.layerData = true)
      (h : Starts (w.ran p r).freeCurrent w') : Settled w p r (w'.returns s)
  | reset {w' : World} (s : IotcState) (he : r.exit.final = true) (h : Settled w p r w') :
      Settled w p r ((w'.record (.writeFreed r.task.id)).returns s)

@[simp] theorem ran_q0Tasks (w : World) (p : Place) (r : CoResult) :
    (w.ran p r).q0Tasks = w.q0Tasks := by
  cases p <;> rfl

@[simp] theorem ran_context (w : World) (p : Place) (r : CoResult) :
    (w.ran p r).context = r.context := by
  cases p <;> rfl

theorem settle_settled (hq0 : ∀ t ∈ w.q0Tasks, t.Queued) (h : w.settle p r = some w') :
    Settled w p r w' := by
  unfold settle at h
  rcases leave_cases h with ⟨s, he, rfl⟩ | ⟨he, hu, w₁, s, hw₁, hw'⟩
  · exact .keep s (by rw [he]; rfl)
  · have hu : r.context.timeouts r.task.id = none := by
      rw [← ran_context w p r]
      exact hu
    have hsettled (s : IotcState) : Settled w p r (w₁.returns s) := by
      change finalizeTask r.task p (w.ran p r) = some w₁ at hw₁
      unfold finalizeTask at hw₁
      split at hw₁
      · next hq =>
        unfold runNextQ0Task at hw₁
        split at hw₁
        · next hd =>
          have hstarts := runQ0Tasks_starts (by simpa using hq0) hw₁
          rw [← freeCurrent_q0Tasks] at hstarts
          exact .next s he hq hu (by simpa using hd) hstarts
        · cases hw₁
      · next hq =>
        obtain rfl := Option.some.inj hw₁
        exact .drop s he hq hu
    rcases hw' with rfl | ⟨-, rfl⟩
    · exact hsettled s
    · exact .reset s he (hsettled w₁.result)

/-- Either the handle of the task is unset, or its coroutine runs with the arguments that have been
set. -/
theorem resume_cases {set : Args → Args} (hq0 : ∀ t ∈ w.q0Tasks, t.Queued)
    (h : w.resume p t set = some w') :
    (t.logic = none ∧ w' = w.returns .unsetHandlerError) ∨
      ∃ a r, t.logic = some a ∧
        execute w.context { t with logic := some (set a) } (set a) = some r ∧ Settled w p r w' := by
  unfold resume at h
  split at h
  · next hl => exact .inl ⟨by simpa using hl, (Option.some.inj h).symm⟩
  · next a hl =>
    obtain ⟨r, hr, hsettle⟩ := Option.bind_eq_some_iff.mp h
    obtain ⟨a', ha', rfl⟩ := Option.map_eq_some_iff.mp hl
    exact .inr ⟨a', r, ha', hr, settle_settled hq0 hsettle⟩

/-- A pending time event of a task that is held somewhere. -/
theorem fire_cases {id : Nat} (hq0 : ∀ t ∈ w.q0Tasks, t.Queued) (h : w.fire id = some w') :
    ∃ timeout t p r, w.context.timeouts id = some timeout ∧ t.id = id ∧ w.At t p ∧
      timeout.run (w.context.disarm id) t = some r ∧
      Settled (w.withContext (w.context.disarm id)) p r w' := by
  unfold fire at h
  split at h
  · cases h
  · next timeout ht =>
    dsimp only at h
    split at h
    · next t hcurrent =>
      obtain ⟨hc, hid⟩ := Option.filter_eq_some_iff.mp hcurrent
      obtain ⟨r, hr, hs⟩ := Option.bind_eq_some_iff.mp h
      exact ⟨timeout, t, .current, r, ht, by simpa using hid, hc, hr, settle_settled hq0 hs⟩
    · next t _ hq12 =>
      have hm := List.mem_of_find?_eq_some hq12
      have hid := List.find?_some hq12
      obtain ⟨r, hr, hs⟩ := Option.bind_eq_some_iff.mp h
      exact ⟨timeout, t, .q12, r, ht, by simpa using hid, hm, hr, settle_settled hq0 hs⟩
    · next t _ _ hleaked =>
      have hm := List.mem_of_find?_eq_some hleaked
      have hid := List.find?_some hleaked
      obtain ⟨r, hr, hs⟩ := Option.bind_eq_some_iff.mp h
      exact ⟨timeout, t, .leaked, r, ht, by simpa using hid, hm, hr, settle_settled hq0 hs⟩
    · cases h

/-! ## What stays -/

/-- What no coroutine changes. -/
structure Frame (w w' : World) : Prop where
  layerData : w'.context.layerData = w.context.layerData
  connection : w'.context.connection = w.context.connection ∨
    w'.context.connection = { w.context.connection with connectionState := .opened }
  lastMsgId : w'.lastMsgId = w.lastMsgId
  savedQ12Tasks : w'.savedQ12Tasks = w.savedQ12Tasks
  savedHandlers : w'.savedHandlers = w.savedHandlers
  savedLastMsgId : w'.savedLastMsgId = w.savedLastMsgId
  nextTask : w'.nextTask = w.nextTask
  nextMessage : w'.nextMessage = w.nextMessage

theorem Frame.refl (w : World) : Frame w w := ⟨rfl, .inl rfl, rfl, rfl, rfl, rfl, rfl, rfl⟩

theorem Frame.trans {w₁ w₂ w₃ : World} (h : Frame w₁ w₂) (h' : Frame w₂ w₃) : Frame w₁ w₃ where
  layerData := h'.layerData.trans h.layerData
  connection := by
    rcases h.connection with h | h <;> rcases h'.connection with h' | h' <;> rw [h', h] <;> simp
  lastMsgId := h'.lastMsgId.trans h.lastMsgId
  savedQ12Tasks := h'.savedQ12Tasks.trans h.savedQ12Tasks
  savedHandlers := h'.savedHandlers.trans h.savedHandlers
  savedLastMsgId := h'.savedLastMsgId.trans h.savedLastMsgId
  nextTask := h'.nextTask.trans h.nextTask
  nextMessage := h'.nextMessage.trans h.nextMessage

theorem Frame.returns (h : Frame w w') (s : IotcState) : Frame w (w'.returns s) :=
  ⟨h.layerData, h.connection, h.lastMsgId, h.savedQ12Tasks, h.savedHandlers, h.savedLastMsgId,
    h.nextTask, h.nextMessage⟩

theorem Frame.ran (ho : Outcome w.context t r) (p : Place) : Frame w (w.ran p r) := by
  have hl := ho.context.layerData
  have hc : r.context.connection = w.context.connection ∨
      r.context.connection = { w.context.connection with connectionState := .opened } :=
    ho.context.connection.imp_right (·.2)
  cases p <;> exact ⟨hl, hc, rfl, rfl, rfl, rfl, rfl, rfl⟩

theorem Frame.drop (w : World) (t : Task) (p : Place) : Frame w (w.drop t p) := by
  cases p <;> exact ⟨rfl, .inl rfl, rfl, rfl, rfl, rfl, rfl, rfl⟩

theorem cancelTaskTimeout_connection (c : Context) (id : Nat) :
    (c.cancelTaskTimeout id).connection = c.connection := by
  unfold Context.cancelTaskTimeout
  split <;> rfl

theorem cancelTaskTimeout_layerData (c : Context) (id : Nat) :
    (c.cancelTaskTimeout id).layerData = c.layerData := by
  unfold Context.cancelTaskTimeout
  split <;> rfl

theorem Frame.freeCurrent (w : World) : Frame w w.freeCurrent := by
  unfold World.freeCurrent
  split
  · exact ⟨cancelTaskTimeout_layerData _ _, .inl (cancelTaskTimeout_connection _ _), rfl, rfl, rfl,
      rfl, rfl, rfl⟩
  · exact .refl w

theorem Frame.started (w : World) (t : Task) (ts : List Task) : Frame w (w.started t ts) :=
  ⟨rfl, .inl rfl, rfl, rfl, rfl, rfl, rfl, rfl⟩

theorem Starts.frame (h : Starts w w') : Frame w w' := by
  induction h with
  | empty s hc hq => exact (Frame.refl _).returns s
  | wait s hc hq hw => exact ⟨rfl, .inl rfl, rfl, rfl, rfl, rfl, rfl, rfl⟩
  | keep s hc hq hw hl hr he =>
    exact ((Frame.started _ _ _).trans (.ran (execute_outcome hr) .current)).returns s
  | next s hc hq hw hl hr he hu h ih =>
    exact ((((Frame.started _ _ _).trans (.ran (execute_outcome hr) .current)).trans
      (.freeCurrent _)).trans ih).returns s

theorem Settled.frame (h : Settled w p r w') (ho : Outcome w.context t r) : Frame w w' := by
  induction h with
  | keep s he => exact (Frame.ran ho p).returns s
  | drop s he hq hu => exact ((Frame.ran ho p).trans (.drop _ _ p)).returns s
  | next s he hq hu hd h => exact (((Frame.ran ho p).trans (.freeCurrent _)).trans h.frame).returns s
  | reset s he h ih =>
    exact ⟨ih.layerData, ih.connection, ih.lastMsgId, ih.savedQ12Tasks, ih.savedHandlers,
      ih.savedLastMsgId, ih.nextTask, ih.nextMessage⟩

theorem layerData_of_not_stopped {c : Context} (h : c.stopped = false) : c.layerData = true := by
  simp only [Context.stopped, Bool.or_eq_false_iff, Bool.not_eq_eq_eq_not, Bool.not_false] at h
  exact h.2

/-! ## A new task -/

/-- A task of QoS 0 is queued. -/
def enqueue (w : World) (t : Task) : World :=
  { w with
    q0Tasks := match t.priority with
      | .normal => w.q0Tasks ++ [t]
      | .immediate => t :: w.q0Tasks }

/-- Another task is queued with the next id. -/
def track (w : World) (t : Task) : World :=
  { w with
    lastMsgId := (w.lastMsgId + 1) % 2 ^ 16
    q12Tasks := w.q12Tasks ++ [{ t with msgId := (w.lastMsgId + 1) % 2 ^ 16 }] }

/-- What `iotc_mqtt_logic_layer_push` does with a task. -/
inductive Pushed (w : World) (t : Task) : World → Prop
  | refused (s : IotcState)
      (h : w.context.stopped = true ∨ t.scenario = .shutdown ∧ w.shuttingDown = true) :
      Pushed w t ((w.freeTasks [t]).returns s)
  | queued (s : IotcState) (hs : w.context.stopped = false) (hq : t.qos = .atMostOnce)
      (hc : w.currentQ0Task ≠ none) : Pushed w t ((w.enqueue (setLogic t)).returns s)
  | started {w' : World} (s : IotcState) (hs : w.context.stopped = false)
      (hq : t.qos = .atMostOnce) (hc : w.currentQ0Task = none)
      (h : Starts (w.enqueue (setLogic t)) w') : Pushed w t (w'.returns s)
  | deferred (s : IotcState) (hs : w.context.stopped = false) (hq : t.qos ≠ .atMostOnce)
      (ho : w.context.connection.connectionState ≠ .opened) :
      Pushed w t ((w.track (setLogic t)).returns s)
  | unset (s : IotcState) (hs : w.context.stopped = false) (hq : t.qos ≠ .atMostOnce)
      (ho : w.context.connection.connectionState = .opened) (hl : (setLogic t).logic = none) :
      Pushed w t ((w.track (setLogic t)).returns s)
  | run {w' : World} {r : CoResult} (s : IotcState) (hs : w.context.stopped = false)
      (hq : t.qos ≠ .atMostOnce) (ho : w.context.connection.connectionState = .opened)
      (hl : (setLogic t).logic = some ⟨true, .ok, none⟩)
      (hr : execute w.context { setLogic t with msgId := (w.lastMsgId + 1) % 2 ^ 16 }
        ⟨true, .ok, none⟩ = some r)
      (h : Settled (w.track (setLogic t)) .q12 r w') : Pushed w t (w'.returns s)

/-- A task that the layer or a user makes. -/
structure New (t : Task) : Prop where
  logic : t.logic = none
  cs : t.cs = .fresh
  sessionState : t.sessionState = .unset
  scenario : (t.scenario = .connect ∨ t.scenario = .keepalive ∨ t.scenario = .shutdown) ∧
      t.qos = .atMostOnce ∨
    (∃ d, t.scenario = .publish (some d)) ∨
    (∃ d, t.scenario = .subscribe (some d)) ∧ t.qos = .atLeastOnce

theorem setLogic_scenario_of_qos (hq : t.qos = .atMostOnce) :
    setLogic t = { t with logic := some ⟨true, .ok, none⟩ } := by
  unfold setLogic
  split
  · next h => rw [h] at hq; cases hq
  · rfl

theorem New.queued (h : New t) (hq : t.qos = .atMostOnce) : (setLogic t).Queued := by
  rw [setLogic_scenario_of_qos hq]
  refine ⟨rfl, hq, h.cs, ?_⟩
  rcases h.scenario with ⟨hs, -⟩ | hs | ⟨-, hs⟩
  · rcases hs with hs | hs | hs
    · exact .inl hs
    · exact .inr (.inr (.inl hs))
    · exact .inr (.inr (.inr hs))
  · exact .inr (.inl hs)
  · rw [hs] at hq
    cases hq

@[simp] theorem setLogic_qos (t : Task) : (setLogic t).qos = t.qos := by
  unfold setLogic
  split <;> rfl

@[simp] theorem setLogic_id (t : Task) : (setLogic t).id = t.id := by
  unfold setLogic
  split <;> rfl

@[simp] theorem setLogic_cs (t : Task) : (setLogic t).cs = t.cs := by
  unfold setLogic
  split <;> rfl

@[simp] theorem setLogic_sessionState (t : Task) : (setLogic t).sessionState = t.sessionState := by
  unfold setLogic
  split <;> rfl

@[simp] theorem setLogic_priority (t : Task) : (setLogic t).priority = t.priority := by
  unfold setLogic
  split <;> rfl

/-- A new task with an id is not refused while the layer works. -/
theorem New.not_refused (h : New t) (hq : t.qos ≠ .atMostOnce) (hst : w.context.stopped = false) :
    ¬(w.context.stopped = true ∨ t.scenario = .shutdown ∧ w.shuttingDown = true) := by
  rintro (hs | ⟨hs, -⟩)
  · rw [hst] at hs
    cases hs
  · rcases h.scenario with ⟨-, hq'⟩ | ⟨d, hd⟩ | ⟨⟨d, hd⟩, -⟩
    · exact hq hq'
    · rw [hd] at hs
      cases hs
    · rw [hd] at hs
      cases hs

theorem setLogic_logic (hl : t.logic = none) :
    (setLogic t).logic = none ∨ (setLogic t).logic = some ⟨true, .ok, none⟩ := by
  unfold setLogic
  split
  · exact .inl hl
  · exact .inr rfl

theorem pushTask_pushed (hq0 : ∀ t ∈ w.q0Tasks, t.Queued) (hn : New t) (h : w.pushTask t .ok = some w') :
    Pushed w t w' := by
  unfold pushTask at h
  split at h
  · next hs =>
    obtain rfl := Option.some.inj h
    exact .refused _ (.inl hs)
  · next hs =>
    rw [Bool.not_eq_true] at hs
    have hpuback : t.scenario ≠ .puback := by
      intro he
      rcases hn.scenario with ⟨h | h | h, -⟩ | ⟨d, h⟩ | ⟨⟨d, h⟩, -⟩ <;> rw [h] at he <;> cases he
    rw [if_neg (by decide), if_neg hpuback] at h
    split at h
    · next hd =>
      obtain rfl := Option.some.inj h
      exact .refused _ (.inr hd)
    · obtain ⟨w₁, h₁, rfl⟩ := Option.map_eq_some_iff.mp h
      unfold runTask at h₁
      split at h₁
      · next hq =>
        rw [setLogic_qos] at hq
        change (if w.currentQ0Task.isNone = true then (w.enqueue (setLogic t)).runNextQ0Task
          else some ((w.enqueue (setLogic t)).returns .ok)) = some w₁ at h₁
        split at h₁
        · next hc =>
          have hc : w.currentQ0Task = none := by simpa using hc
          unfold runNextQ0Task at h₁
          split at h₁
          · have hqueued : ∀ u ∈ (w.enqueue (setLogic t)).q0Tasks, u.Queued := by
              intro u hu
              unfold enqueue at hu
              dsimp only at hu
              split at hu
              · rcases List.mem_append.mp hu with hu | hu
                · exact hq0 u hu
                · exact List.mem_singleton.mp hu ▸ hn.queued hq
              · rcases List.mem_cons.mp hu with hu | hu
                · exact hu ▸ hn.queued hq
                · exact hq0 u hu
            have hstarts := runQ0Tasks_starts hqueued h₁
            have hfree : (w.enqueue (setLogic t)).freeCurrent = w.enqueue (setLogic t) := by
              simp [freeCurrent, enqueue, hc]
            rw [hfree] at hstarts
            exact .started .ok hs hq hc hstarts
          · cases h₁
        · next hc =>
          obtain rfl := Option.some.inj h₁
          exact .queued .ok hs hq (by simpa using hc)
      · next hq =>
        rw [setLogic_qos] at hq
        change (if w.context.connection.connectionState = .opened then
          (w.track (setLogic t)).resume .q12
            { setLogic t with msgId := (w.lastMsgId + 1) % 2 ^ 16 } id
          else some ((w.track (setLogic t)).returns .ok)) = some w₁ at h₁
        split at h₁
        · next ho =>
          rcases resume_cases (w := w.track (setLogic t)) hq0 h₁ with ⟨hl, rfl⟩ | ⟨a, r, hl, hr, hsettled⟩
          · exact .unset .ok hs hq ho hl
          · rcases setLogic_logic hn.logic with hl' | hl'
            · rw [show _ = none from hl'] at hl
              cases hl
            · obtain rfl : a = ⟨true, .ok, none⟩ := by
                rw [show _ = some _ from hl'] at hl
                exact (Option.some.inj hl).symm
              refine .run .ok hs hq ho hl' ?_ hsettled
              rw [← hr]
              congr 1
              rw [id, ← hl']
        · next ho =>
          obtain rfl := Option.some.inj h₁
          exact .deferred .ok hs hq ho

end World

end IotDeviceSdk.Mqtt.Logic
