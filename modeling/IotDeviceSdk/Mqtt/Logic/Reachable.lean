import IotDeviceSdk.Infra.Run
import IotDeviceSdk.Mqtt.Logic.Valid

/-!
# The states that the layer can reach

`World.Sound` holds in every state that any sequence of calls reaches from the initial one, whatever
allocations fail (`run_sound`). There is one lemma for each call.
-/

namespace IotDeviceSdk.Mqtt.Logic

namespace World

variable {w w' : World} {t u : Task} {ts : List Task} {p : Place} {r : CoResult}

/-- **What holds between two calls**: the tasks are where they belong, and the layer data and the
copies for the next session are not there at the same time. -/
structure Sound (w : World) : Prop extends Valid w where
  data : w.context.layerData = true → w.savedQ12Tasks = []

theorem Valid.sound_of_frame (hv : w'.Valid) (hs : w.Sound) (hf : Frame w w') : w'.Sound :=
  { hv with data := fun h => by rw [hf.savedQ12Tasks]; exact hs.data (hf.layerData ▸ h) }

theorem Sound.returns (hs : w.Sound) (s : IotcState) : (w.returns s).Sound :=
  { hs.toValid.returns s with data := hs.data }

theorem Sound.withContext (hs : w.Sound) {c : Context} (ht : c.timeouts = w.context.timeouts)
    (hd : c.layerData = w.context.layerData)
    (ho : ∀ i, c.out.count (.freeTask i) = w.context.out.count (.freeTask i)) :
    (w.withContext c).Sound :=
  { hs.toValid.withContext ht hd ho with data := fun h => hs.data (hd ▸ h) }

theorem Sound.oracle (hs : w.Sound) (mem callbacks : List Bool) :
    (w.withContext { w.context with mem, callbacks }).Sound :=
  hs.withContext rfl rfl fun _ => rfl

/-! ## Calls on other layers, messages and memory -/

theorem continueWith_layerData (c : Context) (o : Output) (next : LayerState) :
    (c.continueWith o next).2.layerData = c.layerData := by
  simp only [Context.continueWith]
  split <;> rfl

theorem continueWith_freeTask (c : Context) {o : Output} (next : LayerState) {i : Nat}
    (ho : o ≠ .freeTask i) :
    (c.continueWith o next).2.out.count (.freeTask i) = c.out.count (.freeTask i) := by
  simp only [Context.continueWith]
  split
  · simp [Context.record, Context.alloc, List.count_append, ho]
  · rfl

theorem Sound.continueWith (hs : w.Sound) {o : Output} (ho : ∀ i, o ≠ .freeTask i)
    (next : LayerState) (s : IotcState) :
    ((w.withContext (w.context.continueWith o next).2).returns s).Sound :=
  (hs.withContext (Context.continueWith_timeouts _ _ _) (continueWith_layerData _ _ _)
    fun i => continueWith_freeTask _ _ (ho i)).returns s

/-- A call on another layer. -/
theorem Sound.call (hs : w.Sound) {f : Context → IotcState × Context} (o : Output)
    (ho : ∀ i, o ≠ .freeTask i) (next : LayerState)
    (hf : f w.context = w.context.continueWith o next) : (w.call f).Sound := by
  have hcall : w.call f =
      (w.withContext (w.context.continueWith o next).2).returns (w.context.continueWith o next).1 := by
    rw [← hf]
    rfl
  rw [hcall]
  exact hs.continueWith ho next _

theorem Sound.close (hs : w.Sound) (s : IotcState) : (w.call (Logic.close · s)).Sound := by
  cases hd : w.context.layerData with
  | true => exact hs.call (.closeOnPrev s) (by simp) _ (by simp [Logic.close, hd]; rfl)
  | false => exact hs.call (.closeExternallyOnThis s) (by simp) _ (by simp [Logic.close, hd]; rfl)

theorem freeMessage_out_count (c : Context) (m : Option Received) (i : Nat) :
    (c.freeMessage m).out.count (.freeTask i) = c.out.count (.freeTask i) := by
  unfold Context.freeMessage
  split <;> simp [Context.record, List.count_append]

theorem freeMessage_layerData (c : Context) (m : Option Received) :
    (c.freeMessage m).layerData = c.layerData := by
  unfold Context.freeMessage
  split <;> rfl

theorem Sound.pullErrHandling (hs : w.Sound) (m : Option Received) (s : IotcState) :
    (w.pullErrHandling m s).Sound :=
  (hs.withContext (Context.freeMessage_timeouts _ _) (freeMessage_layerData _ _)
    (freeMessage_out_count _ _)).returns s

theorem Sound.alloc (hs : w.Sound) : w.alloc.2.Sound := hs.withContext rfl rfl fun _ => rfl

/-! ## Resuming a task -/

theorem Sound.settled (hs : w.Sound) (h : Settled w p r w') (hp : w.At t p) (hu : t.Resumes u)
    (hl : p = .q12 → t.logic.isSome = true) (ho : Outcome w.context u r) : w'.Sound :=
  (h.valid hs.toValid hp hu hl ho).sound_of_frame hs (h.frame ho)

/-- **A task is resumed.** -/
theorem Sound.resume (hs : w.Sound) {set : Args → Args} (hp : w.At t p)
    (hset : ∀ a : Args, a.Keeps (set a)) (h : w.resume p t set = some w') : w'.Sound := by
  rcases resume_cases hs.q0 h with ⟨-, rfl⟩ | ⟨a, r, hl, hr, hsettled⟩
  · exact hs.returns _
  · exact hs.settled hsettled hp (.set hl (hset a)) (fun _ => by rw [hl]; rfl) (execute_outcome hr)

/-- The handle of the task is not in use any more. -/
theorem Valid.disarm (hv : w.Valid) (id : Nat) : (w.withContext (w.context.disarm id)).Valid := by
  have hle {i : Nat} (h : w.context.timeouts i = none) :
      (w.context.disarm id).timeouts i = none := by
    by_cases hi : i = id
    · simp [hi]
    · simpa [hi] using h
  refine ⟨hv.count, hv.current, hv.q0, hv.q12, hv.q12Recv, fun v hm => ?_, fun v hm => ?_,
    fun i hi => hle (hv.fresh i hi), hv.noData⟩
  · exact ⟨(hv.saved v hm).1, hle (hv.saved v hm).2⟩
  · by_cases hi : v.id = id
    · exact .of_none (by simp [World.withContext, hi])
    · exact (hv.timed v hm).congr (by simp [World.withContext, hi])

/-- A task with a pending time event can be resumed. -/
theorem Valid.logic_of_armed (hv : w.Valid) {timeout : TaskTimeout} (hm : t ∈ w.q12Tasks)
    (h : w.context.timeouts t.id = some timeout) : t.logic.isSome = true := by
  obtain ⟨-, ⟨-, hl, -⟩ | ⟨hs, -, hcs⟩⟩ := hv.q12 t hm
  · exact hl
  · have hfits := hv.timed t (At.mem_held (p := .q12) hm) timeout h
    cases timeout <;> simp [TaskTimeout.Fits, hs, hcs] at hfits

theorem Sound.fire (hs : w.Sound) {id : Nat} (h : w.fire id = some w') : w'.Sound := by
  obtain ⟨timeout, t, p, r, htimeout, rfl, hp, hr, hsettled⟩ := fire_cases hs.q0 h
  have hd : (w.withContext (w.context.disarm t.id)).Sound :=
    { hs.toValid.disarm t.id with data := hs.data }
  refine hd.settled hsettled (t := t) ?_ (.refl t) ?_ (TaskTimeout.run_outcome hr)
  · cases p <;> exact hp
  · rintro rfl
    exact hs.toValid.logic_of_armed hp htimeout

/-! ## New tasks -/

theorem Sound.pushTask (hs : w.Sound) (hid : t.id = w.nextTask) (hn : New t)
    (h : w.made.pushTask t .ok = some w') : w'.Sound := by
  have hpushed := pushTask_pushed (w := w.made) hs.q0 hn h
  have hv := hpushed.valid hs.toValid hid hn
  refine { hv with data := fun hd => ?_ }
  cases hpushed with
  | refused s h => exact hs.data hd
  | queued s _ hq hc => exact hs.data hd
  | started s _ hq hc hstarts =>
    have hf := hstarts.frame
    exact hf.savedQ12Tasks.trans (hs.data (hf.layerData ▸ hd))
  | deferred s _ hq ho => exact hs.data hd
  | unset s _ hq ho hl => exact hs.data hd
  | run s _ hq ho hl hr hsettled =>
    have hf := hsettled.frame (execute_outcome hr)
    exact hf.savedQ12Tasks.trans (hs.data (hf.layerData ▸ hd))

theorem Request.task_new (id : Nat) (q : Request) : New (q.task id) := by
  cases q with
  | publish topic data qos retain callback => exact ⟨rfl, rfl, rfl, .inr (.inl ⟨_, rfl⟩)⟩
  | subscribe topic qos handler => exact ⟨rfl, rfl, rfl, .inr (.inr ⟨⟨_, rfl⟩, rfl⟩)⟩
  | shutdown => exact ⟨rfl, rfl, rfl, .inl ⟨.inr (.inr rfl), rfl⟩⟩

theorem Request.task_id (id : Nat) (q : Request) : (q.task id).id = id := by
  cases q <;> rfl

theorem Sound.doMqttKeepaliveOnce (hs : w.Sound) (h : w.doMqttKeepaliveOnce = some w') :
    w'.Sound := by
  unfold World.doMqttKeepaliveOnce at h
  split at h
  · cases h
  · have hs' : (w.withContext { w.context with keepaliveEvent := false }).Sound :=
      hs.withContext rfl rfl fun _ => rfl
    dsimp only at h
    split at h
    · obtain rfl := Option.some.inj h
      exact hs'.returns _
    · split at h
      · exact hs'.alloc.pushTask rfl ⟨rfl, rfl, rfl, .inl ⟨.inr (.inl rfl), rfl⟩⟩ h
      · obtain rfl := Option.some.inj h
        exact hs'.alloc.returns _

theorem Sound.connect (hs : w.Sound) {s : IotcState} (h : w.connect s = some w') : w'.Sound := by
  unfold World.connect at h
  split at h
  · obtain rfl := Option.some.inj h
    exact hs.call (.connectOnNext s) (by simp) _ rfl
  · dsimp only at h
    split at h
    · exact hs.alloc.pushTask rfl ⟨rfl, rfl, rfl, .inl ⟨.inl rfl, rfl⟩⟩ h
    · obtain rfl := Option.some.inj h
      exact hs.alloc.returns _

/-! ## Notifications and messages -/

theorem findTask_mem {id : Nat} (h : findTask id ts = some t) : t ∈ ts ∧ t.msgId = id :=
  ⟨List.mem_of_find?_eq_some h, by simpa using List.find?_some h⟩

theorem queueOf_at {c : MessageClass} (hq : w.queueOf c = some (p, ts)) (hm : t ∈ ts) : w.At t p := by
  cases c with
  | fromServer =>
    obtain ⟨rfl, rfl⟩ := Prod.mk.inj (Option.some.inj hq)
    exact hm
  | toServer =>
    obtain ⟨rfl, rfl⟩ := Prod.mk.inj (Option.some.inj hq)
    exact hm
  | unknown => cases hq

theorem Sound.pushWritten (hs : w.Sound) {msgId : Nat} {type : MqttType} {s : IotcState}
    (h : w.pushWritten msgId type s = some w') : w'.Sound := by
  have hset (a : Args) : a.Keeps { a with state := s } := ⟨fun h => h, fun h => h⟩
  unfold World.pushWritten at h
  split at h
  · obtain rfl := Option.some.inj h
    exact hs.returns _
  · split at h
    · split at h
      · next t hc => exact hs.resume (p := .current) hc hset h
      · obtain rfl := Option.some.inj h
        exact hs.returns _
    · split at h
      · cases h
      · next p ts hq =>
        split at h
        · next t ht => exact hs.resume (queueOf_at hq (findTask_mem ht).1) hset h
        · obtain rfl := Option.some.inj h
          exact hs.returns _

/-- The task that answers a PUBLISH. -/
theorem Valid.registered (hv : w.Valid) (m : Received) (hd : w.context.layerData = true)
    (ht : t = { id := w.nextTask, logic := some ⟨true, .ok, some m⟩, scenario := .puback
                qos := .atLeastOnce, msgId := m.message.messageId }) :
    ({ w with q12RecvTasks := w.q12RecvTasks ++ [t], nextTask := w.nextTask + 1 } : World).Valid := by
  refine ⟨hv.count_made (t := t) (by rw [ht]) (fun i => ?_) (fun i => rfl) rfl, hv.current, hv.q0,
    hv.q12, fun v hm => ?_, hv.saved, fun v hm => ?_,
    fun i hi => hv.fresh i (by dsimp only at hi; omega), fun h => ?_⟩
  · simp only [held, countId_append, countId_cons, countId_nil]
    omega
  · rcases List.mem_append.mp hm with hm | hm
    · exact hv.q12Recv v hm
    · rw [List.mem_singleton.mp hm, ht]
      exact ⟨rfl, ⟨_, _, rfl⟩, rfl⟩
  · have hm : v = t ∨ v ∈ w.held := by
      simp only [held, List.mem_append, List.mem_singleton] at hm ⊢
      tauto
    rcases hm with rfl | hm
    · exact .of_none (hv.unarmed (by rw [ht]))
    · exact hv.timed v hm
  · rw [show w.context.layerData = false from h] at hd
    cases hd

theorem Sound.registerPublish (hs : w.Sound) {m : Received} (hd : w.context.layerData = true)
    (h : w.registerPublish m = some w') : w'.Sound := by
  unfold World.registerPublish at h
  dsimp only at h
  split at h
  · split at h
    · cases h
    · have hv := hs.alloc.registered m hd rfl
      refine Sound.resume { hv with data := hs.data } (p := .q12Recv) ?_ ?_ h
      · exact List.mem_append_right _ (List.mem_singleton_self _)
      · exact fun a => ⟨fun h => h, fun h => h⟩
  · obtain rfl := Option.some.inj h
    exact hs.alloc.pullErrHandling (some m) .outOfMemory

theorem callTopicHandler_quiet {c c' : Context} {m : Option Received}
    (h : c.callTopicHandler m = some c') : c'.layerData = c.layerData ∧
      ∀ i, c'.out.count (.freeTask i) = c.out.count (.freeTask i) := by
  have hm : c.Moves { id := 0, scenario := .puback, qos := .atLeastOnce } c' := .callTopicHandler h
  exact ⟨hm.layerData, count_freeTask_of_moves hm⟩

theorem Sound.pullMessage (hs : w.Sound) {m : Received} (hd : w.context.layerData = true)
    (h : w.pullMessage m = some w') : w'.Sound := by
  have hset (a : Args) : a.Keeps { a with state := .ok, message := some m } :=
    ⟨fun h => h, fun _ => rfl⟩
  unfold World.pullMessage at h
  dsimp only at h
  split at h
  · unfold onPublishRecieved at h
    split at h
    · obtain ⟨c, hc, rfl⟩ := Option.map_eq_some_iff.mp h
      obtain ⟨hl, ho⟩ := callTopicHandler_quiet hc
      exact (hs.withContext (Context.callTopicHandler_timeouts hc) hl ho).returns _
    · exact hs.registerPublish hd h
    · obtain rfl := Option.some.inj h
      exact hs.returns _
  · split at h
    · split at h
      · obtain rfl := Option.some.inj h
        exact hs.pullErrHandling _ _
      · next p ts hq =>
        split at h
        · next t ht => exact hs.resume (queueOf_at hq (findTask_mem ht).1) hset h
        · obtain rfl := Option.some.inj h
          exact hs.pullErrHandling _ _
    · split at h
      · cases h
      · next t hc =>
        split at h
        · cases h
        · exact hs.resume (p := .current) hc hset h

theorem Sound.pull (hs : w.Sound) {m : Option Received} {s : IotcState}
    (h : w.pull m s = some w') : w'.Sound := by
  unfold World.pull at h
  split at h
  · obtain rfl := Option.some.inj h
    exact hs.pullErrHandling m s
  · next hstopped =>
    split at h
    · obtain rfl := Option.some.inj h
      exact (hs.call (.closeOnThis .backoffTerminal) (by simp) _ rfl).pullErrHandling m s
    · split at h
      · split at h
        · cases h
        · exact hs.pullMessage (layerData_of_not_stopped (Bool.not_eq_true _ ▸ hstopped)) h
      · obtain rfl := Option.some.inj h
        exact hs.pullErrHandling m s

/-! ## Setting the layer up -/

theorem count_map_freeTask (i : Nat) (ts : List Task) :
    (ts.map fun t => Output.freeTask t.id).count (.freeTask i) = countId i ts := by
  induction ts with
  | nil => rfl
  | cons t ts ih => simp [ih, List.count_cons]

theorem freed_freeTasks (w : World) (ts : List Task) (i : Nat) :
    (w.freeTasks ts).freed i = w.freed i + countId i ts := by
  rw [← count_map_freeTask]
  exact List.count_append

/-- What `restoreSession` leaves in the queues is held or freed as before. -/
theorem restoreSession_count (w : World) (i : Nat) :
    countId i w.restoreSession.held + w.restoreSession.freed i = countId i w.held + w.freed i := by
  unfold restoreSession
  split
  · simp only [held, freed, countId_append, countId_nil]
    omega
  · have hfreed := freed_freeTasks w w.savedQ12Tasks i
    simp only [held, freed, freeTasks, World.withContext, countId_append, countId_nil] at hfreed ⊢
    omega

theorem mem_restoreSession_held (hm : t ∈ w.restoreSession.held) : t ∈ w.held := by
  unfold restoreSession at hm
  split at hm <;>
    simp only [held, freeTasks, World.withContext, List.mem_append, List.not_mem_nil] at hm ⊢ <;>
    tauto

/-- The context of `w` with other outputs, and the queues rearranged. -/
theorem Sound.rearrange (hs : w.Sound) {W : World} (hcount : ∀ i, countId i W.held + W.freed i =
      countId i w.held + w.freed i) (hnext : W.nextTask = w.nextTask)
    (htimeouts : W.context.timeouts = w.context.timeouts)
    (hheld : ∀ t ∈ W.held, t ∈ w.held) (hcurrent : ∀ t, W.currentQ0Task = some t → t.Serving)
    (hq0 : ∀ t ∈ W.q0Tasks, t.Queued) (hq12 : ∀ t ∈ W.q12Tasks, t.Tracked)
    (hrecv : ∀ t ∈ W.q12RecvTasks, t.Answering) (hsaved : W.savedQ12Tasks = [])
    (hno : W.context.layerData = false →
      W.currentQ0Task = none ∧ W.q0Tasks = [] ∧ W.q12Tasks = [] ∧ W.q12RecvTasks = []) :
    W.Sound where
  count i := by rw [hcount, hnext, hs.count]
  current := hcurrent
  q0 := hq0
  q12 := hq12
  q12Recv := hrecv
  saved t hm := by
    rw [hsaved] at hm
    cases hm
  timed t hm := (hs.timed t (hheld t hm)).congr (by rw [htimeouts])
  fresh i hi := by
    rw [htimeouts]
    exact hs.fresh i (hnext ▸ hi)
  noData := hno
  data _ := hsaved

theorem restoreSession_savedQ12Tasks (w : World) : w.restoreSession.savedQ12Tasks = [] := by
  unfold restoreSession
  split <;> rfl

theorem restoreSession_currentQ0Task (w : World) :
    w.restoreSession.currentQ0Task = w.currentQ0Task := by
  unfold restoreSession
  split <;> rfl

theorem restoreSession_q0Tasks (w : World) : w.restoreSession.q0Tasks = w.q0Tasks := by
  unfold restoreSession
  split <;> rfl

theorem restoreSession_q12RecvTasks (w : World) :
    w.restoreSession.q12RecvTasks = w.q12RecvTasks := by
  unfold restoreSession
  split <;> rfl

theorem restoreSession_q12Tasks (hs : w.Sound) : ∀ t ∈ w.restoreSession.q12Tasks, t.Tracked := by
  unfold restoreSession
  split
  · exact fun t hm => (hs.saved t hm).1
  · exact hs.q12

theorem restoreSession_nextTask (w : World) : w.restoreSession.nextTask = w.nextTask := by
  unfold restoreSession
  split <;> rfl

theorem restoreSession_timeouts (w : World) :
    w.restoreSession.context.timeouts = w.context.timeouts := by
  unfold restoreSession
  split <;> rfl

/-- The layer data are there, with the session of the last connection or a new one. -/
theorem Sound.initialised (hs : w.Sound) {c : Context}
    (hc : c.timeouts = w.context.timeouts) (ho : c.out = w.restoreSession.context.out)
    (hd : c.layerData = true) : (w.restoreSession.withContext c).Sound := by
  refine hs.rearrange (fun i => ?_) (restoreSession_nextTask w) hc
    (fun t hm => mem_restoreSession_held hm) ?_ ?_ (restoreSession_q12Tasks hs) ?_
    (restoreSession_savedQ12Tasks w) fun h => ?_
  · rw [← restoreSession_count w i, freed, World.withContext, ho]
    rfl
  · exact fun t ht => hs.current t (restoreSession_currentQ0Task w ▸ ht)
  · exact fun t ht => hs.q0 t (restoreSession_q0Tasks w ▸ ht)
  · exact fun t ht => hs.q12Recv t (restoreSession_q12RecvTasks w ▸ ht)
  · rw [show c.layerData = false from h] at hd
    cases hd

/-- The layer data are freed, and their tasks are not. -/
theorem Sound.initErrHandling (hs : w.Sound) {c : Context}
    (hc : c.timeouts = w.context.timeouts) (ho : c.out = w.restoreSession.context.out) :
    (w.restoreSession.withContext c).initErrHandling.Sound := by
  refine hs.rearrange (fun i => ?_) (restoreSession_nextTask w) hc (fun t hm => ?_)
    (fun t h => by cases h) (fun t h => by cases h) (fun t h => by cases h) (fun t h => by cases h)
    (restoreSession_savedQ12Tasks w) fun _ => ⟨rfl, rfl, rfl, rfl⟩
  · rw [← restoreSession_count w i, freed, World.initErrHandling, World.withContext, ho]
    simp only [held, countId_append, countId_nil, Option.toList_none, freed]
    omega
  · apply mem_restoreSession_held
    simp only [held, World.initErrHandling, World.withContext, List.mem_append,
      List.not_mem_nil, Option.toList_none] at hm ⊢
    tauto

/-- What the layer data hold after they have been set up, with the oracle `mem`. -/
def initialised (w : World) (mem : List Bool) : World :=
  w.restoreSession.withContext
    { w.restoreSession.context with
      mem
      layerData := true
      handlersForTopics := w.initialHandlers.getD []
      connection := { w.restoreSession.context.connection with connectionState := .opening } }

/-- `init` is out of memory at once; or it sets the layer data up, which may be those of before; or
it is out of memory after restoring the session. -/
theorem init_cases (w : World) (s : IotcState) :
    (w.context.layerData = false ∧ w.context.alloc.1 = false ∧
      w.init s = w.alloc.2.returns .outOfMemory) ∨
    ∃ w₀, (w.context.layerData = true ∧ w₀ = w ∨
        w.context.layerData = false ∧ w.context.alloc.1 = true ∧ w₀ = w.alloc.2) ∧
      ((∃ mem, w.init s = (w₀.initialised mem).call (·.initOnPrev s)) ∨
        w₀.initialHandlers = none ∧ w₀.restoreSession.context.alloc.1 = false ∧
          w.init s = w₀.restoreSession.alloc.2.initErrHandling) := by
  -- what follows once the layer data are there
  have hdata (w₀ : World) :
      let W := (if w₀.initialHandlers.isSome then (true, w₀.restoreSession)
        else w₀.restoreSession.alloc)
      let R := if W.1 then
          (W.2.withContext { W.2.context with
            layerData := true
            handlersForTopics := w₀.initialHandlers.getD []
            connection := { W.2.context.connection with connectionState := .opening } }).call
              (·.initOnPrev s)
        else W.2.initErrHandling
      (∃ mem, R = (w₀.initialised mem).call (·.initOnPrev s)) ∨
        w₀.initialHandlers = none ∧ w₀.restoreSession.context.alloc.1 = false ∧
          R = w₀.restoreSession.alloc.2.initErrHandling := by
    cases hh : w₀.initialHandlers with
    | some hs =>
      refine .inl ⟨w₀.restoreSession.context.mem, ?_⟩
      simp only [Option.isSome_some, if_true, initialised, hh]
    | none =>
      cases hv : w₀.restoreSession.context.alloc.1 with
      | true =>
        refine .inl ⟨w₀.restoreSession.context.mem.tail, ?_⟩
        have hv' : w₀.restoreSession.alloc.1 = true := hv
        simp only [Option.isSome_none, Bool.false_eq_true, if_false, hv', if_true, initialised, hh]
        rfl
      | false =>
        refine .inr ⟨rfl, rfl, ?_⟩
        have hv' : w₀.restoreSession.alloc.1 = false := hv
        simp only [Option.isSome_none, Bool.false_eq_true, if_false, hv']
  cases hl : w.context.layerData with
  | true =>
    refine .inr ⟨w, .inl ⟨rfl, rfl⟩, ?_⟩
    have := hdata w
    simpa only [World.init, hl, if_true] using this
  | false =>
    cases ha : w.context.alloc.1 with
    | false =>
      refine .inl ⟨rfl, rfl, ?_⟩
      have ha' : w.alloc.1 = false := ha
      simp only [World.init, hl, Bool.false_eq_true, if_false, ha']
    | true =>
      refine .inr ⟨w.alloc.2, .inr ⟨rfl, rfl, rfl⟩, ?_⟩
      have ha' : w.alloc.1 = true := ha
      have := hdata w.alloc.2
      simpa only [World.init, hl, Bool.false_eq_true, if_false, ha', if_true] using this

theorem Sound.init (hs : w.Sound) (s : IotcState) : (w.init s).Sound := by
  rcases init_cases w s with ⟨-, -, h⟩ | ⟨w₀, hw₀, hinit⟩
  · rw [h]
    exact hs.alloc.returns _
  · have hs₀ : w₀.Sound := by
      rcases hw₀ with ⟨-, rfl⟩ | ⟨-, -, rfl⟩
      · exact hs
      · exact hs.alloc
    rcases hinit with ⟨mem, h⟩ | ⟨-, -, h⟩
    · rw [h]
      have hs₁ : (w₀.initialised mem).Sound :=
        hs₀.initialised (restoreSession_timeouts w₀) rfl rfl
      exact hs₁.call (.initOnPrev s) (by simp) _ rfl
    · rw [h]
      exact hs₀.initErrHandling (restoreSession_timeouts w₀) rfl

/-! ## Sending again -/

/-- Another task of `q12Tasks` is left alone. -/
theorem Settled.mem_q12Tasks (h : Settled w .q12 r w') (hq : r.task.qos ≠ .atMostOnce)
    (hne : u.id ≠ r.task.id) : u ∈ w'.q12Tasks ↔ u ∈ w.q12Tasks := by
  have hput : u ∈ putTask r.task w.q12Tasks ↔ u ∈ w.q12Tasks := by
    rw [mem_putTask]
    constructor
    · rintro (⟨rfl, -⟩ | ⟨hm, -⟩)
      · exact absurd rfl hne
      · exact hm
    · exact fun hm => .inr ⟨hm, hne⟩
  induction h with
  | keep s he => exact hput
  | drop s he hq hu =>
    change u ∈ dropTask r.task.id (putTask r.task w.q12Tasks) ↔ _
    rw [mem_dropTask, hput]
    exact and_iff_left hne
  | next s he hq' hu hd h => exact absurd hq' hq
  | reset s he h ih => exact ih

theorem Sound.mem_q12Tasks_of_resume (hs : w.Sound) {set : Args → Args} (hm : t ∈ w.q12Tasks)
    (h : w.resume .q12 t set = some w') (hu : u.id ≠ t.id) :
    u ∈ w'.q12Tasks ↔ u ∈ w.q12Tasks := by
  rcases resume_cases hs.q0 h with ⟨-, rfl⟩ | ⟨a, r, -, hr, hsettled⟩
  · rfl
  · have ht := (execute_outcome hr).task
    exact hsettled.mem_q12Tasks (ht.qos ▸ (hs.q12 t hm).qos) (ht.id ▸ hu)

/-- The tasks of a list have different ids. -/
def DistinctIds (ts : List Task) : Prop := (ts.map Task.id).Nodup

theorem Valid.distinct_q12 (hv : w.Valid) : DistinctIds w.q12Tasks := by
  refine List.nodup_iff_count.mpr fun i => ?_
  have hle := hv.count_le i
  rw [countId_held w .q12] at hle
  have hcount : (w.q12Tasks.map Task.id).count i = countId i w.q12Tasks := by
    simp [countId, List.count, List.countP_map, Function.comp_def, beq_eq_decide]
  rw [hcount]
  exact Nat.le_trans (Nat.le_add_right _ _) hle

theorem resendTasks_sound : ∀ {ts : List Task} {w w' : World}, w.Sound →
    (∀ t ∈ ts, t ∈ w.q12Tasks) → DistinctIds ts → resendTasks ts w = some w' → w'.Sound
  | [], w, w', hs, _, _, h => by
    obtain rfl := Option.some.inj h
    exact hs
  | t :: ts, w, w', hs, hm, hd, h => by
    obtain ⟨hnotin, hd⟩ := List.nodup_cons.mp hd
    unfold resendTasks at h
    split at h
    · obtain ⟨w₁, h₁, h₂⟩ := Option.bind_eq_some_iff.mp h
      have hset (a : Args) : a.Keeps { a with context := true, state := .resend } :=
        ⟨fun _ => rfl, fun h => h⟩
      have hs₁ := hs.resume (p := .q12) (hm t List.mem_cons_self) hset h₁
      refine resendTasks_sound hs₁ (fun u hu => ?_) hd h₂
      have hne : u.id ≠ t.id := fun he => hnotin (he ▸ List.mem_map_of_mem hu)
      exact (hs.mem_q12Tasks_of_resume (hm t List.mem_cons_self) h₁ hne).mpr
        (hm u (List.mem_cons_of_mem _ hu))
    · exact resendTasks_sound hs (fun u hu => hm u (List.mem_cons_of_mem _ hu)) hd h

theorem Sound.postConnect (hs : w.Sound) {s : IotcState} (h : w.postConnect s = some w') :
    w'.Sound := by
  unfold World.postConnect at h
  split at h
  · obtain rfl := Option.some.inj h
    exact hs.returns s
  · obtain ⟨w₁, h₁, rfl⟩ := Option.map_eq_some_iff.mp h
    have hs₁ := resendTasks_sound hs (fun _ h => h) hs.distinct_q12 h₁
    exact (hs₁.call (.postConnectOnPrev s) (by simp) _ rfl).returns s

/-! ## Teardown -/

theorem cancelTimeouts_timeouts : ∀ (ts : List Task) (c : Context) (i : Nat),
    (cancelTimeouts ts c).timeouts i =
      if countId i ts = 0 then c.timeouts i else none
  | [], c, i => rfl
  | t :: ts, c, i => by
    change (cancelTimeouts ts (c.cancelTaskTimeout t.id)).timeouts i = _
    rw [cancelTimeouts_timeouts ts, Context.cancelTaskTimeout_timeouts, countId_cons]
    by_cases hi : t.id = i
    · subst hi
      simp
    · simp [hi, Ne.symm hi]

theorem cancelTaskTimeout_out (c : Context) (id : Nat) : (c.cancelTaskTimeout id).out = c.out := by
  unfold Context.cancelTaskTimeout
  split <;> rfl

/-- What cancelling does not change. -/
theorem cancelTimeouts_frame (ts : List Task) (c : Context) :
    (cancelTimeouts ts c).layerData = c.layerData ∧
      (cancelTimeouts ts c).connection = c.connection ∧ (cancelTimeouts ts c).out = c.out := by
  induction ts generalizing c with
  | nil => exact ⟨rfl, rfl, rfl⟩
  | cons t ts ih =>
    obtain ⟨hl, hc, ho⟩ := ih (c.cancelTaskTimeout t.id)
    exact ⟨hl.trans (cancelTaskTimeout_layerData c _), hc.trans (cancelTaskTimeout_connection c _),
      ho.trans (cancelTaskTimeout_out c _)⟩

theorem Valid.cancelTimeouts (hv : w.Valid) (ts : List Task) :
    (w.withContext (cancelTimeouts ts w.context)).Valid := by
  obtain ⟨hl, -, ho⟩ := cancelTimeouts_frame ts w.context
  have hle {i : Nat} (h : w.context.timeouts i = none) :
      (World.cancelTimeouts ts w.context).timeouts i = none := by
    rw [cancelTimeouts_timeouts, h, ite_self]
  refine ⟨fun i => ?_, hv.current, hv.q0, hv.q12, hv.q12Recv, fun v hm => ?_, fun v hm => ?_,
    fun i hi => hle (hv.fresh i hi), fun h => hv.noData (hl ▸ h)⟩
  · refine Eq.trans ?_ (hv.count i)
    simp only [freed, World.withContext, ho]
    rfl
  · exact ⟨(hv.saved v hm).1, hle (hv.saved v hm).2⟩
  · by_cases hi : countId v.id ts = 0
    · exact (hv.timed v hm).congr (by simp [World.withContext, cancelTimeouts_timeouts, hi])
    · exact .of_none (by simp [World.withContext, cancelTimeouts_timeouts, hi])

theorem mem_cancelTimeouts_unarmed {c : Context} (hm : t ∈ ts) :
    (World.cancelTimeouts ts c).timeouts t.id = none := by
  have hpos := countId_pos.mpr ⟨t, hm, rfl⟩
  rw [cancelTimeouts_timeouts, if_neg (by omega)]

/-- The session is split off while no task of `q12Tasks` has a pending time event. -/
theorem Valid.saveSession (hv : w.Valid) (hsaved : w.savedQ12Tasks = [])
    (hu : ∀ t ∈ w.q12Tasks, w.context.timeouts t.id = none) (h : w.saveSession = some w') :
    w'.Valid := by
  unfold World.saveSession at h
  split at h
  · cases h
  · obtain rfl := Option.some.inj h
    have hmap (i : Nat) (ts : List Task) :
        countId i (ts.map fun t =>
          { t with logic := t.logic.map fun a => { a with context := false } }) = countId i ts :=
      countId_map (f := fun t =>
        { t with logic := t.logic.map fun a => { a with context := false } }) (fun _ => rfl) i ts
    refine ⟨fun i => ?_, hv.current, hv.q0, fun v hm => ?_, hv.q12Recv, fun v hm => ?_,
      fun v hm => ?_, hv.fresh, fun h => ?_⟩
    · have hsplit := countId_filter_add (fun t => t.sessionState = .store) i w.q12Tasks
      refine Eq.trans ?_ (hv.count i)
      simp only [held, freed, hsaved, countId_append, hmap, countId_nil, ne_eq, decide_not] at hsplit ⊢
      omega
    · exact hv.q12 v (List.mem_of_mem_filter hm)
    · obtain ⟨u, hfilter, rfl⟩ := List.mem_map.mp hm
      have hmem := List.mem_of_mem_filter hfilter
      obtain ⟨hq, hs⟩ := hv.q12 u hmem
      refine ⟨⟨hq, ?_⟩, hu u hmem⟩
      rcases hs with ⟨hs, hl, hq'⟩ | ⟨hs, hl, hcs⟩
      · exact .inl ⟨hs, by simpa using hl, hq'⟩
      · exact .inr ⟨hs, by simpa using hl, hcs⟩
    · have hm : v ∈ w.held ∨ ∃ u ∈ w.q12Tasks, v.id = u.id := by
        simp only [held, List.mem_append, List.mem_filter, List.mem_map] at hm ⊢
        rcases hm with hm | hm | ⟨hm, -⟩ | hm | ⟨u, ⟨hm, -⟩, rfl⟩ | hm
        · exact .inl (.inl hm)
        · exact .inl (.inr (.inl hm))
        · exact .inl (.inr (.inr (.inl hm)))
        · exact .inl (.inr (.inr (.inr (.inl hm))))
        · exact .inr ⟨u, hm, rfl⟩
        · exact .inl (.inr (.inr (.inr (.inr (.inr hm)))))
      rcases hm with hm | ⟨u, hm, hid⟩
      · exact hv.timed v hm
      · refine .of_none ?_
        rw [hid]
        exact hu u hm
    · obtain ⟨h1, h2, h3, h4⟩ := hv.noData h
      exact ⟨h1, h2, by simp [h3], h4⟩

theorem Valid.resume (hv : w.Valid) {set : Args → Args} (hp : w.At t p)
    (hset : ∀ a : Args, a.Keeps (set a)) (h : w.resume p t set = some w') : w'.Valid := by
  rcases resume_cases hv.q0 h with ⟨-, rfl⟩ | ⟨a, r, hl, hr, hsettled⟩
  · exact hv.returns _
  · exact hsettled.valid hv hp (.set hl (hset a)) (fun _ => by rw [hl]; rfl) (execute_outcome hr)

/-- The current task, and the one that is current after it has been resumed, are gone. -/
theorem stopCurrent_cases (h : w.stopCurrent = some w') :
    (w.currentQ0Task = none ∧ w' = w) ∨
    ∃ t w₁, w.currentQ0Task = some t ∧
      (w.withContext (w.context.disarm t.id)).resume .current t
        (fun a => { a with state := .timeout }) = some w₁ ∧
      w' = { w₁ with currentQ0Task := none }.freeTasks w₁.currentQ0Task.toList := by
  unfold World.stopCurrent at h
  split at h
  · next hc => exact .inl ⟨hc, (Option.some.inj h).symm⟩
  · next t hc =>
    split at h
    · cases h
    · next w₁ h₁ =>
      split at h
      · cases h
      · exact .inr ⟨t, w₁, hc, h₁, (Option.some.inj h).symm⟩

theorem Valid.stopCurrent (hv : w.Valid) (h : w.stopCurrent = some w') :
    w'.Valid ∧ w'.currentQ0Task = none ∧ w'.savedQ12Tasks = w.savedQ12Tasks ∧
      w'.context.layerData = w.context.layerData := by
  rcases stopCurrent_cases h with ⟨hc, rfl⟩ | ⟨t, w₁, hc, h₁, rfl⟩
  · exact ⟨hv, hc, rfl, rfl⟩
  · have hset (a : Args) : a.Keeps { a with state := .timeout } := ⟨fun h => h, fun h => h⟩
    have hd := hv.disarm t.id
    have hv₁ : w₁.Valid := hd.resume (p := .current) hc hset h₁
    have hf : Frame (w.withContext (w.context.disarm t.id)) w₁ := by
      rcases resume_cases hd.q0 h₁ with ⟨-, rfl⟩ | ⟨a, r, hl, hr, hsettled⟩
      · exact (Frame.refl _).returns _
      · exact hsettled.frame (execute_outcome hr)
    refine ⟨?_, rfl, hf.savedQ12Tasks, hf.layerData⟩
    cases hc₁ : w₁.currentQ0Task with
    | none =>
      rw [show ({ w₁ with currentQ0Task := none } : World) = w₁ by rw [← hc₁]]
      simpa [freeTasks, World.withContext] using hv₁
    | some u => exact hv₁.finished (p := .current) hc₁ (fun _ _ => rfl) rfl fun _ => rfl

theorem Valid.freeLayerData (hv : w.Valid) (hc : w.currentQ0Task = none)
    (h : w.freeLayerData = some w') : w'.Sound := by
  unfold World.freeLayerData at h
  split at h
  · cases h
  · obtain rfl := Option.some.inj h
    refine ⟨⟨fun i => ?_, fun t h => ?_, fun t h => ?_, fun t h => ?_, fun t h => ?_, hv.saved,
      fun v hm => ?_, hv.fresh, fun _ => ⟨rfl, rfl, rfl, rfl⟩⟩, fun h => ?_⟩
    · have hfreed := freed_freeTasks w (w.q12Tasks ++ w.q12RecvTasks ++ w.q0Tasks) i
      refine Eq.trans ?_ (hv.count i)
      simp only [held, freed, freeTasks, World.withContext, hc, Option.toList_none, countId_append,
        countId_nil] at hfreed ⊢
      omega
    · cases h
    · cases h
    · cases h
    · cases h
    · refine hv.timed v ?_
      simp only [held, freeTasks, World.withContext, List.mem_append, Option.toList_none,
        List.not_mem_nil] at hm ⊢
      tauto
    · cases h

/-- `close_externally` does more than to report a failed attempt to connect. -/
def TearsDown (w : World) (s : IotcState) : Prop := s = .ok ∨ w.context.layerState ≠ .connecting

/-- The session is saved before a teardown stops the current task. -/
def saved (w : World) : Option World :=
  let w₀ := w.withContext (cancelTimeouts (w.q12Tasks ++ w.q12RecvTasks) w.context)
  if w.context.connection.sessionType = .continued then w₀.saveSession else some w₀

/-- Nothing but the session is touched. -/
theorem saved_cases (h : w.saved = some w') :
    let w₀ := w.withContext (cancelTimeouts (w.q12Tasks ++ w.q12RecvTasks) w.context)
    w.context.connection.sessionType = .continued ∧ w₀.saveSession = some w' ∨
      w.context.connection.sessionType ≠ .continued ∧ w' = w₀ := by
  unfold saved at h
  dsimp only at h
  split at h
  · next htype => exact .inl ⟨htype, h⟩
  · next htype => exact .inr ⟨htype, (Option.some.inj h).symm⟩

theorem Sound.valid_of_saved (hs : w.Sound) (hd : w.context.layerData = true)
    (h : w.saved = some w') : w'.Valid := by
  have hv := hs.toValid.cancelTimeouts (w.q12Tasks ++ w.q12RecvTasks)
  rcases saved_cases h with ⟨-, h⟩ | ⟨-, rfl⟩
  · exact hv.saveSession (hs.data hd)
      (fun t hm => mem_cancelTimeouts_unarmed (List.mem_append_left _ hm)) h
  · exact hv

/-- The layer data with the tasks that are left in the queues are gone. -/
theorem freeLayerData_eq_some (h : w.freeLayerData = some w') :
    w' = { w.freeTasks (w.q12Tasks ++ w.q12RecvTasks ++ w.q0Tasks) with
      context := { (w.freeTasks (w.q12Tasks ++ w.q12RecvTasks ++ w.q0Tasks)).context with
        layerData := false, handlersForTopics := [], keepaliveEvent := false }
      q12Tasks := [], q12RecvTasks := [], q0Tasks := [], currentQ0Task := none, lastMsgId := 0 } := by
  unfold World.freeLayerData at h
  split at h
  · cases h
  · exact (Option.some.inj h).symm

/-- The steps of a teardown. -/
theorem closeExternally_cases {s : IotcState} (h : w.closeExternally s = some w') :
    (s ≠ .ok ∧ w.context.layerState = .connecting ∧ w' = w.call (·.connectOnThis s)) ∨
    (w.context.layerData = false ∧ w' = w.call (·.closeExternallyOnNext s)) ∨
    ∃ w₁ w₂ w₃, w.context.layerData = true ∧ w.TearsDown s ∧ w.saved = some w₁ ∧
      w₁.stopCurrent = some w₂ ∧ w₂.freeLayerData = some w₃ ∧
      w' = w₃.call (·.closeExternallyOnNext s) := by
  unfold World.closeExternally at h
  split at h
  · next hs => exact .inl ⟨hs.1, hs.2, (Option.some.inj h).symm⟩
  · next hs =>
    have htd : w.TearsDown s := (not_and_or.mp hs).imp_left not_not.mp
    split at h
    · next hd => exact .inr (.inl ⟨by simpa using hd, (Option.some.inj h).symm⟩)
    · next hd =>
      have hc := (cancelTimeouts_frame (w.q12Tasks ++ w.q12RecvTasks) w.context).2.1
      refine .inr (.inr ?_)
      unfold saved
      by_cases hsession : w.context.connection.sessionType = .continued
      · simp only [World.withContext, hc, hsession, if_true, Option.bind_eq_bind,
          Option.bind_eq_some_iff] at h ⊢
        obtain ⟨w₁, h₁, w₂, h₂, w₃, h₃, h₄⟩ := h
        exact ⟨w₁, w₂, w₃, by simpa using hd, htd, h₁, h₂, h₃, (Option.some.inj h₄).symm⟩
      · simp only [World.withContext, hc, hsession, if_false, Option.bind_eq_bind,
          Option.bind_eq_some_iff] at h ⊢
        obtain ⟨w₁, h₁, w₂, h₂, w₃, h₃, h₄⟩ := h
        exact ⟨w₁, w₂, w₃, by simpa using hd, htd, h₁, h₂, h₃, (Option.some.inj h₄).symm⟩

theorem Sound.closeExternally (hs : w.Sound) {s : IotcState}
    (h : w.closeExternally s = some w') : w'.Sound := by
  rcases closeExternally_cases h with ⟨-, -, rfl⟩ | ⟨-, rfl⟩ |
    ⟨w₁, w₂, w₃, hd, -, h₁, h₂, h₃, rfl⟩
  · exact hs.call (.connectOnThis s) (by simp) _ rfl
  · exact hs.call (.closeExternallyOnNext s) (by simp) _ rfl
  · obtain ⟨hv₂, hc₂, -, -⟩ := (hs.valid_of_saved hd h₁).stopCurrent h₂
    exact (hv₂.freeLayerData hc₂ h₃).call (.closeExternallyOnNext s) (by simp) _ rfl

/-! ## Every call -/

theorem Sound.setConnection (hs : w.Sound) (d : ConnectionData) : (w.setConnection d).Sound :=
  hs.withContext rfl rfl fun _ => rfl

theorem Sound.stepWith (hs : w.Sound) {e : Event} (h : w.stepWith e = some w') : w'.Sound := by
  cases e with
  | submit q => exact hs.pushTask (Request.task_id _ q) (Request.task_new _ q) h
  | written msgId type success => exact hs.pushWritten h
  | pull m s =>
    have hs' : ({ w with nextMessage := w.nextMessage + 1 } : World).Sound :=
      ⟨⟨hs.count, hs.current, hs.q0, hs.q12, hs.q12Recv, hs.saved, hs.timed, hs.fresh, hs.noData⟩,
        hs.data⟩
    exact hs'.pull h
  | fire id => exact hs.fire h
  | keepalive => exact hs.doMqttKeepaliveOnce h
  | connectTo d =>
    simp only [World.stepWith] at h
    split at h <;> obtain rfl := Option.some.inj h
    · exact hs.setConnection _
    · exact hs
  | init s => exact Option.some.inj h ▸ hs.init s
  | connect s => exact hs.connect h
  | postConnect s => exact hs.postConnect h
  | close s => exact Option.some.inj h ▸ hs.close s
  | closeExternally s => exact hs.closeExternally h
  | closing => exact Option.some.inj h ▸ hs.setConnection _
  | closed => exact Option.some.inj h ▸ hs.setConnection _

theorem step_sound (hs : w.Sound) {e : Event × Oracle} (h : step w e = some w') : w'.Sound :=
  (hs.oracle e.2.mem e.2.callbacks).stepWith h

theorem initial_sound : ({} : World).Sound where
  count i := by simp [held, freed]
  current t h := by cases h
  q0 t h := by cases h
  q12 t h := by cases h
  q12Recv t h := by cases h
  saved t h := by cases h
  timed t h := by cases h
  fresh _ _ := rfl
  noData _ := ⟨rfl, rfl, rfl, rfl⟩
  data _ := rfl

/-- A state that some sequence of calls reaches. -/
def Reachable (w : World) : Prop := ∃ es, Infra.run step {} es = some w

/-- **Every reachable state is sound.** -/
theorem Reachable.sound (h : w.Reachable) : w.Sound := by
  obtain ⟨es, h⟩ := h
  exact Infra.run_invariant (fun _ _ _ hs h => step_sound hs h) initial_sound h

/-! ## The opening of a connection -/

/-- A CONNACK that accepts the connection. -/
def connack : Message := { commonValue := 0x20 }

/-- A client without timeouts. -/
def client : ConnectionData := { clientId := some [0x61] }

/-- The calls that open a connection. -/
def opening (d : ConnectionData) : List Event :=
  [.connectTo d, .init .ok, .connect .ok, .written 0 .connect true, .pull (some connack) .ok]

/-- These calls, without a failing allocation. -/
def calls (es : List Event) : List (Event × Oracle) := es.map fun e => (e, {})

/-- A PUBLISH of QoS 1. -/
def publishing : Event := .submit (.publish (some [0x61]) [] .atLeastOnce false none)

/-- The connection is open, the last id was `n`, and no task waits. -/
def idle (n nextTask nextMessage : Nat) (out : List Output) : World :=
  { context := { layerState := .connected, layerData := true, out
                 connection := { client with connectionState := .opened } }
    lastMsgId := n, nextTask, nextMessage }

/-- The last task waits. -/
def waiting (n nextTask nextMessage : Nat) (cs : Cs) (sessionState : SessionState)
    (state : IotcState) (out : List Output) : World :=
  { idle n (nextTask + 1) nextMessage out with
    q12Tasks :=
      [{ id := nextTask, logic := some ⟨true, state, none⟩, qos := .atLeastOnce, cs, msgId := n
         scenario := .publish (some ⟨some [0x61], [], false⟩), sessionState }] }

/-- After the opening. -/
theorem run_opening :
    ∃ out, Infra.run step {} (calls (opening client)) = some (idle 0 1 1 out) := ⟨_, rfl⟩

theorem step_publishing (n nt nm : Nat) (out : List Output) :
    ∃ out', step (idle n nt nm out) (publishing, {}) =
      some (waiting ((n + 1) % 2 ^ 16) nt nm .sent .unset .ok out') := by
  constructor
  simp [publishing, idle, waiting, step, stepWith, Request.task, withContext, pushTask,
    Context.stopped, LayerState.notOperational, IotcState.isTerminal, shuttingDown, setLogic, runTask,
    resume, execute, coroutine, doMqttPublishQ1, Context.armed, publishQ1Send, Task.publishData,
    Context.build, Context.alloc, fillWithPublishData, sendAndYield, Context.pushOnPrev,
    Context.continueWith, Context.record, settle, put, putTask, leave, returns]
  rfl

end World

end IotDeviceSdk.Mqtt.Logic
