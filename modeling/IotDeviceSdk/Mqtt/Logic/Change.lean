import IotDeviceSdk.Mqtt.Logic.Reachable

/-!
# The calls as a sequence of changes

A notification, a message, a time event of a task, the sending again and the closing of the layer do
nothing but resume tasks, register a PUBLISH and call other layers. `World.Change` lists these, and
`step_changes` says that such a call is a sequence of them; what each change preserves, such a call
preserves.

The other calls make a task (`submit_pushed`, `keepalive_cases`, `connect_cases`), or set the layer
up or tear it down. `step_called` says what each call can do.
-/

namespace IotDeviceSdk.Mqtt.Logic

/-- A message that is freed, or handed to a user. -/
def Output.consumed : Output → Option Received
  | topic _ m | freeMessage m => some m
  | _ => none

/-- An output that belongs to no task, and to no message but one that is received. -/
def Output.Foreign (R : Received → Prop) : Output → Prop
  | push .. | callback .. | subscribed .. | run _ | freeTask _ | writeFreed _ => False
  | topic _ m | freeMessage m => R m
  | _ => True

/-! ## A layer that is stopped -/

/-- A call on another layer may change the state of this one, and fails otherwise. -/
theorem continueWith_layerState (c : Context) (o : Output) (next : LayerState) :
    (c.continueWith o next).2.layerState = next ∨
      (c.continueWith o next).2.layerState = c.layerState := by
  simp only [Context.continueWith]
  split
  · exact .inl rfl
  · exact .inr rfl

theorem continueWith_stopped {c : Context} {next : LayerState} (o : Output)
    (hn : c.layerState.notOperational = true → next.notOperational = true) (h : c.stopped = true) :
    (c.continueWith o next).2.stopped = true := by
  simp only [Context.stopped, Bool.or_eq_true] at h ⊢
  rw [World.continueWith_layerData]
  refine h.imp_left fun h => ?_
  rcases continueWith_layerState c o next with hl | hl <;> rw [hl]
  · exact hn h
  · exact h

theorem notOperational_afterClose {l : LayerState} (h : l.notOperational = true) :
    l.afterClose.notOperational = true := by
  cases l <;> first | rfl | cases h

theorem afterConnect_notOperational {s : IotcState} (h : s ≠ .ok) :
    (Context.afterConnect s).notOperational = true := by
  unfold Context.afterConnect
  rw [if_neg h]
  rfl

/-- A layer that is stopped is not started by a call of `close`. -/
theorem close_stopped {c : Context} {s : IotcState} (h : c.stopped = true) :
    (close c s).2.stopped = true := by
  unfold close
  split
  · exact continueWith_stopped _ notOperational_afterClose h
  · exact continueWith_stopped _ (fun _ => rfl) h

theorem freeMessage_stopped (c : Context) (m : Option Received) :
    (c.freeMessage m).stopped = c.stopped := by
  unfold Context.freeMessage
  split <;> rfl

theorem cancelTaskTimeout_stopped (c : Context) (id : Nat) :
    (c.cancelTaskTimeout id).stopped = c.stopped := by
  unfold Context.cancelTaskTimeout
  split <;> rfl

theorem executeTaskIn_stopped {s : IotcState} {c c' : Context} {id : Nat} {timeout : TaskTimeout}
    (h : c.executeTaskIn id timeout = some (s, c')) : c'.stopped = c.stopped := by
  rcases Context.executeIn_eq_some h with ⟨-, -, rfl⟩ | ⟨-, rfl | rfl⟩ <;> rfl

theorem callTopicHandler_stopped {c c' : Context} {m : Option Received}
    (h : c.callTopicHandler m = some c') : c'.stopped = c.stopped := by
  unfold Context.callTopicHandler at h
  split at h
  · cases h
  · split at h
    · cases h
    · split at h <;> obtain rfl := Option.some.inj h
      · unfold Context.queue
        dsimp only
        split <;> rfl
      · exact freeMessage_stopped c _

namespace World

variable {w w' : World} {t u : Task} {ts : List Task} {p : Place} {r : CoResult}
  {R : Received → Prop}

/-- No message is received. -/
abbrev nothing : Received → Prop := fun _ => False

/-- Nothing changes but the state of the layer, the trace and the result, oracles are only used up, and
no message is freed or handed to a user but one that is received. -/
structure Quiet (R : Received → Prop) (w w' : World) : Prop where
  currentQ0Task : w'.currentQ0Task = w.currentQ0Task
  q0Tasks : w'.q0Tasks = w.q0Tasks
  q12Tasks : w'.q12Tasks = w.q12Tasks
  q12RecvTasks : w'.q12RecvTasks = w.q12RecvTasks
  savedQ12Tasks : w'.savedQ12Tasks = w.savedQ12Tasks
  leaked : w'.leaked = w.leaked
  lastMsgId : w'.lastMsgId = w.lastMsgId
  savedHandlers : w'.savedHandlers = w.savedHandlers
  savedLastMsgId : w'.savedLastMsgId = w.savedLastMsgId
  nextTask : w'.nextTask = w.nextTask
  nextMessage : w.nextMessage ≤ w'.nextMessage
  layerData : w'.context.layerData = w.context.layerData
  connection : w'.context.connection = w.context.connection
  timeouts : w'.context.timeouts = w.context.timeouts
  ioTimeouts : w'.context.ioTimeouts = w.context.ioTimeouts
  keepaliveEvent : w'.context.keepaliveEvent = w.context.keepaliveEvent
  handlersForTopics : w'.context.handlersForTopics = w.context.handlersForTopics
  mem : w'.context.mem <:+ w.context.mem
  callbacks : w'.context.callbacks <:+ w.context.callbacks
  out : ∃ os, w'.context.out = w.context.out ++ os ∧ ∀ o ∈ os, o.Foreign R

/-- The context changes in this way. -/
structure QuietContext (R : Received → Prop) (c c' : Context) : Prop where
  layerData : c'.layerData = c.layerData
  connection : c'.connection = c.connection
  timeouts : c'.timeouts = c.timeouts
  ioTimeouts : c'.ioTimeouts = c.ioTimeouts
  keepaliveEvent : c'.keepaliveEvent = c.keepaliveEvent
  handlersForTopics : c'.handlersForTopics = c.handlersForTopics
  mem : c'.mem <:+ c.mem
  callbacks : c'.callbacks <:+ c.callbacks
  out : ∃ os, c'.out = c.out ++ os ∧ ∀ o ∈ os, o.Foreign R

theorem QuietContext.of_eq {c c' : Context} (hl : c'.layerData = c.layerData)
    (hc : c'.connection = c.connection) (ht : c'.timeouts = c.timeouts)
    (hi : c'.ioTimeouts = c.ioTimeouts) (hk : c'.keepaliveEvent = c.keepaliveEvent)
    (hh : c'.handlersForTopics = c.handlersForTopics) (hm : c'.mem <:+ c.mem)
    (hcb : c'.callbacks <:+ c.callbacks) (ho : c'.out = c.out) : QuietContext R c c' :=
  ⟨hl, hc, ht, hi, hk, hh, hm, hcb, [], by simp [ho], by simp⟩

theorem QuietContext.trans {c c' c'' : Context} (h : QuietContext R c c')
    (h' : QuietContext R c' c'') : QuietContext R c c'' where
  layerData := h'.layerData.trans h.layerData
  connection := h'.connection.trans h.connection
  timeouts := h'.timeouts.trans h.timeouts
  ioTimeouts := h'.ioTimeouts.trans h.ioTimeouts
  keepaliveEvent := h'.keepaliveEvent.trans h.keepaliveEvent
  handlersForTopics := h'.handlersForTopics.trans h.handlersForTopics
  mem := h'.mem.trans h.mem
  callbacks := h'.callbacks.trans h.callbacks
  out := by
    obtain ⟨os, ho, hos⟩ := h.out
    obtain ⟨os', ho', hos'⟩ := h'.out
    refine ⟨os ++ os', by rw [ho', ho, List.append_assoc], fun o hm => ?_⟩
    rcases List.mem_append.mp hm with hm | hm
    · exact hos o hm
    · exact hos' o hm

theorem QuietContext.record {o : Output} (h : o.Foreign R) (c : Context) :
    QuietContext R c (c.record o) :=
  ⟨rfl, rfl, rfl, rfl, rfl, rfl, List.suffix_refl _, List.suffix_refl _, [o], rfl, by simpa using h⟩

theorem QuietContext.alloc (c : Context) : QuietContext R c c.alloc.2 :=
  .of_eq rfl rfl rfl rfl rfl rfl (List.tail_suffix _) (List.suffix_refl _) rfl

theorem QuietContext.continueWith {o : Output} (h : o.Foreign R) (c : Context) (next : LayerState) :
    QuietContext R c (c.continueWith o next).2 := by
  simp only [Context.continueWith]
  split
  · exact ((alloc c).trans (record h _)).trans (.of_eq rfl rfl rfl rfl rfl rfl
      (List.suffix_refl _) (List.suffix_refl _) rfl)
  · exact alloc c

theorem QuietContext.queue {o : Output} (h : o.Foreign R) (c : Context) :
    QuietContext R c (c.queue o).2 := by
  have hcallbacks : QuietContext R c { c with callbacks := c.callbacks.tail } :=
    .of_eq rfl rfl rfl rfl rfl rfl (List.suffix_refl _) (List.tail_suffix _) rfl
  simp only [Context.queue]
  split
  · exact hcallbacks.trans (record h _)
  · exact hcallbacks

theorem QuietContext.freeMessage (c : Context) {m : Option Received} (hm : ∀ m', m = some m' → R m') :
    QuietContext R c (c.freeMessage m) := by
  unfold Context.freeMessage
  split
  · exact record (o := .freeMessage _) (hm _ rfl) c
  · exact .of_eq rfl rfl rfl rfl rfl rfl (List.suffix_refl _) (List.suffix_refl _) rfl

theorem QuietContext.callTopicHandler {c c' : Context} {m : Option Received}
    (hm : ∀ m', m = some m' → R m') (h : c.callTopicHandler m = some c') : QuietContext R c c' := by
  unfold Context.callTopicHandler at h
  split at h
  · cases h
  · split at h
    · cases h
    · split at h <;> obtain rfl := Option.some.inj h
      · exact queue (o := .topic _ _) (hm _ rfl) c
      · exact freeMessage c hm

theorem Quiet.of_context {c : Context} (h : QuietContext R w.context c) : Quiet R w (w.withContext c) :=
  ⟨rfl, rfl, rfl, rfl, rfl, rfl, rfl, rfl, rfl, rfl, Nat.le_refl _, h.layerData, h.connection, h.timeouts,
    h.ioTimeouts, h.keepaliveEvent, h.handlersForTopics, h.mem, h.callbacks, h.out⟩

theorem Quiet.refl (w : World) : Quiet R w w :=
  .of_context (.of_eq rfl rfl rfl rfl rfl rfl (List.suffix_refl _) (List.suffix_refl _) rfl)

theorem Quiet.trans {w₁ w₂ w₃ : World} (h : Quiet R w₁ w₂) (h' : Quiet R w₂ w₃) : Quiet R w₁ w₃ where
  currentQ0Task := h'.currentQ0Task.trans h.currentQ0Task
  q0Tasks := h'.q0Tasks.trans h.q0Tasks
  q12Tasks := h'.q12Tasks.trans h.q12Tasks
  q12RecvTasks := h'.q12RecvTasks.trans h.q12RecvTasks
  savedQ12Tasks := h'.savedQ12Tasks.trans h.savedQ12Tasks
  leaked := h'.leaked.trans h.leaked
  lastMsgId := h'.lastMsgId.trans h.lastMsgId
  savedHandlers := h'.savedHandlers.trans h.savedHandlers
  savedLastMsgId := h'.savedLastMsgId.trans h.savedLastMsgId
  nextTask := h'.nextTask.trans h.nextTask
  nextMessage := Nat.le_trans h.nextMessage h'.nextMessage
  layerData := h'.layerData.trans h.layerData
  connection := h'.connection.trans h.connection
  timeouts := h'.timeouts.trans h.timeouts
  ioTimeouts := h'.ioTimeouts.trans h.ioTimeouts
  keepaliveEvent := h'.keepaliveEvent.trans h.keepaliveEvent
  handlersForTopics := h'.handlersForTopics.trans h.handlersForTopics
  mem := h'.mem.trans h.mem
  callbacks := h'.callbacks.trans h.callbacks
  out := by
    obtain ⟨os, ho, hos⟩ := h.out
    obtain ⟨os', ho', hos'⟩ := h'.out
    refine ⟨os ++ os', by rw [ho', ho, List.append_assoc], fun o hm => ?_⟩
    rcases List.mem_append.mp hm with hm | hm
    · exact hos o hm
    · exact hos' o hm

theorem Quiet.returns (h : Quiet R w w') (s : IotcState) : Quiet R w (w'.returns s) :=
  ⟨h.currentQ0Task, h.q0Tasks, h.q12Tasks, h.q12RecvTasks, h.savedQ12Tasks, h.leaked, h.lastMsgId,
    h.savedHandlers, h.savedLastMsgId, h.nextTask, h.nextMessage, h.layerData, h.connection, h.timeouts,
    h.ioTimeouts, h.keepaliveEvent, h.handlersForTopics, h.mem, h.callbacks, h.out⟩

/-- A call on another layer. -/
theorem Quiet.call (w : World) {f : Context → IotcState × Context} {o : Output} (ho : o.Foreign R)
    {next : LayerState} (hf : f w.context = w.context.continueWith o next) :
    Quiet R w (w.call f) := by
  have hcall : w.call f =
      (w.withContext (w.context.continueWith o next).2).returns (w.context.continueWith o next).1 := by
    rw [← hf]
    rfl
  rw [hcall]
  exact (Quiet.of_context (.continueWith ho _ _)).returns _

theorem Quiet.pullErrHandling (w : World) {m : Option Received} (hm : ∀ m', m = some m' → R m')
    (s : IotcState) :
    Quiet R w (w.pullErrHandling m s) :=
  (Quiet.of_context (.freeMessage _ hm)).returns s

theorem Quiet.alloc (w : World) : Quiet R w w.alloc.2 := .of_context (.alloc _)

theorem Quiet.held (h : Quiet R w w') : w'.held = w.held := by
  simp only [World.held, h.currentQ0Task, h.q0Tasks, h.q12Tasks, h.q12RecvTasks, h.savedQ12Tasks,
    h.leaked]

theorem Quiet.freed (h : Quiet R w w') (i : Nat) : w'.freed i = w.freed i := by
  obtain ⟨os, ho, hos⟩ := h.out
  have hzero : os.count (.freeTask i) = 0 := List.count_eq_zero.mpr fun hm => hos _ hm
  rw [World.freed, ho, List.count_append, hzero, Nat.add_zero]
  rfl

theorem Quiet.sound (h : Quiet R w w') (hs : w.Sound) : w'.Sound where
  count i := by rw [h.held, h.freed, h.nextTask, hs.count]
  current t ht := hs.current t (h.currentQ0Task ▸ ht)
  q0 t ht := hs.q0 t (h.q0Tasks ▸ ht)
  q12 t ht := hs.q12 t (h.q12Tasks ▸ ht)
  q12Recv t ht := hs.q12Recv t (h.q12RecvTasks ▸ ht)
  saved t ht := by
    rw [h.timeouts]
    exact hs.saved t (h.savedQ12Tasks ▸ ht)
  timed t ht := (hs.timed t (h.held ▸ ht)).congr (by rw [h.timeouts])
  fresh i hi := by
    rw [h.timeouts]
    exact hs.fresh i (h.nextTask ▸ hi)
  noData hd := by
    obtain ⟨h1, h2, h3, h4⟩ := hs.noData (h.layerData ▸ hd)
    exact ⟨h.currentQ0Task.trans h1, h.q0Tasks.trans h2, h.q12Tasks.trans h3,
      h.q12RecvTasks.trans h4⟩
  data hd := h.savedQ12Tasks.trans (hs.data (h.layerData ▸ hd))

/-! ## Changes -/

/-- The task that answers the PUBLISH `m`. -/
def answering (w : World) (m : Received) : Task :=
  { id := w.nextTask, logic := some ⟨true, .ok, some m⟩, scenario := .puback, qos := .atLeastOnce
    msgId := m.message.messageId }

/-- The PUBLISH is registered. -/
def register (w : World) (m : Received) : World :=
  { w with
    q12RecvTasks := w.q12RecvTasks ++ [w.answering m]
    nextTask := w.nextTask + 1 }

/-- Which notifications and answers may resume a task at a place, with these arguments, which
messages are received, which time events of tasks may run, and whether the current task may be
stopped. -/
structure Admission where
  resumed : Task → Place → Args → Prop
  received : Received → Prop
  fired : TaskTimeout → Prop
  stops : Prop

variable {A : Admission}

/-- **Why the layer resumes a task** at a place, and what it sets its arguments to. An answer is for
the task with its id, or for the current task if it has none. -/
inductive Cause (A : Admission) (t : Task) : Place → Args → Args → Prop
  | started (p : Place) (hf : t.cs = .fresh) : Cause A t p ⟨true, .ok, none⟩ ⟨true, .ok, none⟩
  | registered (m : Received) (hm : A.received m) (hf : t.cs = .fresh) :
      Cause A t .q12Recv ⟨true, .ok, some m⟩ ⟨true, .ok, some m⟩
  | written (p : Place) (a : Args) {s : IotcState} (hs : s = .written ∨ s = .failedWriting)
      (hA : A.resumed t p { a with state := s }) : Cause A t p a { a with state := s }
  | answered {p : Place} (a : Args) (m : Received) (hp : p = .q12 ∨ p = .q12Recv)
      (hid : m.message.getMessageId = t.msgId)
      (hA : A.resumed t p { a with state := .ok, message := some m }) :
      Cause A t p a { a with state := .ok, message := some m }
  | unnumbered (a : Args) (m : Received) (hid : m.message.getMessageId = 0)
      (hA : A.resumed t .current { a with state := .ok, message := some m }) :
      Cause A t .current a { a with state := .ok, message := some m }
  | resent (a : Args) (hs : t.sessionState = .store) :
      Cause A t .q12 a { a with context := true, state := .resend }
  | stopped (a : Args) (hA : A.stops) : Cause A t .current a { a with state := .timeout }

theorem Cause.keeps {a b : Args} (h : Cause A t p a b) : a.Keeps b := by
  cases h with
  | answered a m hp hid hA => exact ⟨fun h => h, fun _ => rfl⟩
  | unnumbered a m hid hA => exact ⟨fun h => h, fun _ => rfl⟩
  | resent a hs => exact ⟨fun _ => rfl, fun h => h⟩
  | _ => exact ⟨fun h => h, fun h => h⟩

/-- **One change**: a task is resumed, by the layer or by its time event; a PUBLISH is registered; or
something happens that the tasks do not see, and that does not start a layer that is stopped. -/
inductive Change (A : Admission) : World → World → Prop
  | quiet {w w' : World} (h : Quiet A.received w w')
      (hst : w.context.stopped = true → w'.context.stopped = true) : Change A w w'
  | register {w : World} (m : Received) (hm : A.received m) (hd : w.context.layerData = true) :
      Change A w (w.register m)
  | resumed {w w' : World} {t : Task} {p : Place} {a b : Args} {r : CoResult} (hp : w.At t p)
      (hl : t.logic = some a) (hb : Cause A t p a b)
      (hr : execute w.context { t with logic := some b } b = some r) (h : Settled w p r w') :
      Change A w w'
  | fired {w w' : World} {timeout : TaskTimeout} {t : Task} {p : Place} {r : CoResult}
      (hA : A.fired timeout) (ht : w.context.timeouts t.id = some timeout) (hp : w.At t p)
      (hr : timeout.run (w.context.disarm t.id) t = some r)
      (h : Settled (w.withContext (w.context.disarm t.id)) p r w') : Change A w w'

theorem Change.sound (h : Change A w w') (hs : w.Sound) : w'.Sound := by
  cases h with
  | quiet h hst => exact h.sound hs
  | register m hm hd => exact { hs.toValid.registered m hd rfl with data := hs.data }
  | resumed hp hl hb hr h =>
    exact hs.settled h hp (.set hl hb.keeps) (fun _ => by rw [hl]; rfl) (execute_outcome hr)
  | fired hA ht hp hr h =>
    rename_i t p r
    have hd : (w.withContext (w.context.disarm t.id)).Sound :=
      { hs.toValid.disarm t.id with data := hs.data }
    refine hd.settled h (t := t) ?_ (.refl t) ?_ (TaskTimeout.run_outcome hr)
    · cases p <;> exact hp
    · rintro rfl
      exact hs.toValid.logic_of_armed hp ht

/-- A sequence of changes. -/
abbrev Changes (A : Admission) : World → World → Prop := Relation.ReflTransGen (Change A)

/-- What each change of a sound world preserves, a sequence of changes preserves. -/
theorem Changes.invariant {P : World → Prop} (h : Changes A w w') (hs : w.Sound) (hp : P w)
    (hstep : ∀ w w', w.Sound → P w → Change A w w' → P w') : P w' ∧ w'.Sound := by
  induction h with
  | refl => exact ⟨hp, hs⟩
  | tail _ h ih => exact ⟨hstep _ _ ih.2 ih.1 h, h.sound ih.2⟩

theorem Quiet.changes (h : Quiet A.received w w')
    (hst : w.context.stopped = true → w'.context.stopped = true) : Changes A w w' :=
  .single (.quiet h hst)

/-- A call on another layer. -/
theorem call_changes (w : World) {f : Context → IotcState × Context} {o : Output}
    (ho : o.Foreign A.received) {next : LayerState} (hf : f w.context = w.context.continueWith o next)
    (hn : w.context.layerState.notOperational = true → next.notOperational = true) :
    Changes A w (w.call f) := by
  refine (Quiet.call w ho hf).changes fun hst => ?_
  have hcontext : (w.call f).context = (w.context.continueWith o next).2 := congrArg Prod.snd hf
  rw [hcontext]
  exact continueWith_stopped o hn hst

/-- A message is freed. -/
theorem pullErrHandling_changes (w : World) {m : Option Received}
    (hm : ∀ m', m = some m' → A.received m') (s : IotcState) : Changes A w (w.pullErrHandling m s) :=
  (Quiet.pullErrHandling w hm s).changes fun hst => (freeMessage_stopped w.context m).trans hst

theorem resume_changes (hs : w.Sound) {set : Args → Args} (hp : w.At t p)
    (hset : ∀ a, t.logic = some a → Cause A t p a (set a)) (h : w.resume p t set = some w') :
    Changes A w w' := by
  rcases resume_cases hs.q0 h with ⟨-, rfl⟩ | ⟨a, r, hl, hr, hsettled⟩
  · exact ((Quiet.refl w).returns _).changes id
  · exact .single (.resumed hp hl (hset a hl) hr hsettled)

/-! ## Stable properties -/

/-- A run of the coroutine of `t`, as `u`: by the layer, or by the time event. -/
inductive Runs (A : Admission) (c : Context) (t : Task) (p : Place) : Task → CoResult → Prop
  | logic {a b : Args} {r : CoResult} (hl : t.logic = some a) (hb : Cause A t p a b)
      (h : execute c { t with logic := some b } b = some r) : Runs A c t p { t with logic := some b } r
  | timeout {timeout : TaskTimeout} {r : CoResult} (hA : A.fired timeout) (hf : timeout.Fits t)
      (h : timeout.run c t = some r) : Runs A c t p t r

theorem Runs.outcome {c : Context} (h : Runs A c t p u r) : Outcome c u r := by
  cases h with
  | logic hl hb h => exact execute_outcome h
  | timeout hA hf h => exact TaskTimeout.run_outcome h

theorem Runs.resumes {c : Context} (h : Runs A c t p u r) : t.Resumes u := by
  cases h with
  | logic hl hb h => exact .set hl hb.keeps
  | timeout hA hf h => exact .refl t

/-- **A property that the runs of the coroutines preserve**, whichever task is run with whatever
arguments. -/
structure Stable (A : Admission) (P : World → Prop) : Prop where
  returns {w : World} (s : IotcState) : P w → P (w.returns s)
  writeFreed {w : World} (i : Nat) : P w → P (w.record (.writeFreed i))
  /-- the task stays where it is -/
  keep {w : World} {t u : Task} {p : Place} {r : CoResult} : w.Valid → P w → w.At t p →
    t.Resumes u → Runs A w.context t p u r →
    r.exit.final = false ∨ p = .leaked ∧ t.qos = .atMostOnce → P (w.ran p r)
  /-- the task ends -/
  finish {w : World} {t u : Task} {p : Place} {r : CoResult} : w.Valid → P w → w.At t p →
    t.Resumes u → Runs A w.context t p u r → r.exit.final = true →
    P (w.finished t p r.context)
  /-- the current task is freed by the end of another one -/
  free {w : World} {t : Task} : w.Valid → P w → (∃ u ∈ w.leaked, u.qos = .atMostOnce) →
    w.currentQ0Task = some t → P (w.finished t .current (w.context.cancelTaskTimeout t.id))
  start {w : World} {t : Task} {ts : List Task} : w.Valid → P w → w.currentQ0Task = none →
    w.q0Tasks = t :: ts → ¬w.waits t → P (w.started t ts)
  wait {w : World} {t : Task} {ts : List Task} : w.Valid → P w → w.currentQ0Task = none →
    w.q0Tasks = t :: ts → w.waits t → P { w with q0Tasks := ts ++ [t] }

/-- A queued task is run with the arguments that it has been queued with. -/
theorem Queued.runs {a : Args} {c : Context} (hv : w.Valid) (hq : w.q0Tasks = t :: ts)
    (hl : t.logic = some a) (h : execute c t a = some r) : Runs A c t .current t r := by
  have hqueued := hv.q0 t (hq ▸ List.mem_cons_self)
  obtain rfl := Option.some.inj (hl.symm.trans hqueued.logic)
  have heq : { t with logic := some ⟨true, .ok, none⟩ } = t := by rw [← hl]
  have hrun : Runs A c t .current { t with logic := some ⟨true, .ok, none⟩ } r :=
    .logic hl (.started _ hqueued.cs) (by rwa [heq])
  rwa [heq] at hrun

theorem Stable.starts {P : World → Prop} (hP : Stable A P) (h : Starts w w') (hv : w.Valid)
    (hp : P w) : P w' := by
  induction h with
  | empty s hc hq => exact hP.returns s hp
  | wait s hc hq hw => exact hP.returns s (hP.wait hv hp hc hq hw)
  | keep s hc hq hw hl hr he =>
    have hstart := hP.start hv hp hc hq hw
    have hrun : Runs A _ _ .current _ _ := Queued.runs hv hq hl hr
    exact hP.returns s (hP.keep (hv.started hc hq) hstart rfl hrun.resumes hrun (.inl he))
  | next s hc hq hw hl hr he hu h ih =>
    have ho := execute_outcome hr
    have hv₁ := hv.started hc hq
    have hrun : Runs A _ _ .current _ _ := Queued.runs hv hq hl hr
    rw [ran_freeCurrent ho.task.id hu] at ih
    exact hP.returns s (ih (hv₁.finished_of_outcome (p := .current) rfl (.refl _) ho)
      (hP.finish hv₁ (hP.start hv hp hc hq hw) rfl hrun.resumes hrun he))

theorem Stable.settled {P : World → Prop} (hP : Stable A P) (h : Settled w p r w') (hv : w.Valid)
    (hw : P w) (hp : w.At t p) (hu : t.Resumes u) (hl : p = .q12 → t.logic.isSome = true)
    (hr : Runs A w.context t p u r) : P w' := by
  have ho := hr.outcome
  have hid : r.task.id = t.id := ho.task.id.trans hu.id
  have hqos : r.task.qos = t.qos := ho.task.qos.trans hu.qos
  induction h with
  | keep s he => exact hP.returns s (hP.keep hv hw hp hu hr (.inl he))
  | drop s he hq hu' =>
    have hcurrent : p ≠ .current := by
      rintro rfl
      exact hq (hqos.trans (hv.current t hp).qos)
    rw [ran_drop hcurrent hid]
    exact hP.returns s (hP.finish hv hw hp hu hr he)
  | next s he hq hu' hd h =>
    rw [hqos] at hq
    cases p with
    | current =>
      rw [ran_freeCurrent hid hu'] at h
      exact hP.returns s (hP.starts h (hv.finished_of_outcome hp hu ho)
        (hP.finish hv hw hp hu hr he))
    | q12 => exact absurd hq (hv.q12 t hp).qos
    | q12Recv =>
      rw [(hv.q12Recv t hp).qos] at hq
      cases hq
    | leaked =>
      have hv₁ := hv.ran_of hp hu (fun h => by cases h) ho (absurd rfl) (.of_none hu')
      have hw₁ := hP.keep hv hw hp hu hr (.inr ⟨rfl, hq⟩)
      cases hc : (w.ran .leaked r).currentQ0Task with
      | none =>
        rw [show (w.ran .leaked r).freeCurrent = w.ran .leaked r by simp [World.freeCurrent, hc]] at h
        exact hP.returns s (hP.starts h hv₁ hw₁)
      | some v =>
        have hv₂ := hv₁.freeCurrent
        rw [freeCurrent_eq hc] at h hv₂
        have hr : r.task ∈ (w.ran .leaked r).leaked := mem_putTask.mpr (.inl ⟨rfl, t, hp, hid.symm⟩)
        exact hP.returns s (hP.starts h hv₂ (hP.free hv₁ hw₁ ⟨r.task, hr, hqos.trans hq⟩ hc))
  | reset s he h ih => exact hP.returns s (hP.writeFreed _ ih)

/-- The current task has ended, and the next ones are started. -/
theorem Stable.ended {P : World → Prop} (hP : Stable A P) (h : Settled w .current r w') (hv : w.Valid)
    (hp : w.At t .current) (hu : t.Resumes u) (ho : Outcome w.context u r)
    (he : r.exit.final = true) (hw : P (w.finished t .current r.context)) : P w' := by
  have hid : r.task.id = t.id := ho.task.id.trans hu.id
  have hqos : r.task.qos = t.qos := ho.task.qos.trans hu.qos
  generalize hpl : Place.current = p at h
  induction h with
  | keep s he' => exact absurd (he.symm.trans he') (by decide)
  | drop s _ hq _ => exact absurd (hqos.trans (hv.current t hp).qos) hq
  | next s _ hq hu' hd h =>
    subst hpl
    rw [ran_freeCurrent hid hu'] at h
    exact hP.returns s (hP.starts h (hv.finished_of_outcome hp hu ho) hw)
  | reset s he' h ih => exact hP.returns s (hP.writeFreed _ ih)

/-- The layer resumes a task. -/
theorem Stable.resumed {P : World → Prop} (hP : Stable A P) (hv : w.Valid) (hw : P w) (hp : w.At t p)
    {a b : Args} (hl : t.logic = some a) (hb : Cause A t p a b)
    (hr : execute w.context { t with logic := some b } b = some r) (h : Settled w p r w') : P w' :=
  hP.settled h hv hw hp (.set hl hb.keeps) (fun _ => by rw [hl]; rfl) (.logic hl hb hr)

/-- A new task is pushed, and the property holds once it is refused or in its queue. -/
theorem Stable.pushed {P : World → Prop} (hP : Stable A P) (h : Pushed w.made t w') (hv : w.Valid)
    (hid : t.id = w.nextTask) (hn : New t)
    (hrefuse : w.context.stopped = true ∨ t.scenario = .shutdown ∧ w.shuttingDown = true →
      P (w.made.freeTasks [t]))
    (henqueue : t.qos = .atMostOnce → w.context.stopped = false → P (w.made.enqueue (setLogic t)))
    (htrack : t.qos ≠ .atMostOnce → w.context.stopped = false → P (w.made.track (setLogic t))) :
    P w' := by
  have hid' : (setLogic t).id = w.nextTask := by simpa using hid
  cases h with
  | refused s hst => exact hP.returns s (hrefuse hst)
  | queued s hst hq hc => exact hP.returns s (henqueue hq hst)
  | started s hst hq hc hstarts =>
    have hv := hv.made_enqueue hid' (hn.queued hq) (layerData_of_not_stopped hst)
    exact hP.returns s (hP.starts hstarts hv (henqueue hq hst))
  | deferred s hst hq ho => exact hP.returns s (htrack hq hst)
  | unset s hst hq ho hl => exact hP.returns s (htrack hq hst)
  | run s hst hq ho hl hr hsettled =>
    have hv := hv.made_track hid' (hn.tracked hq) (layerData_of_not_stopped hst)
    have hl' : ({ setLogic t with msgId := (w.made.lastMsgId + 1) % 2 ^ 16 } : Task).logic =
        some ⟨true, .ok, none⟩ := hl
    refine hP.returns s (hP.resumed hv (htrack hq hst)
      (List.mem_append_right _ (List.mem_singleton_self _)) hl' (.started _ ?_) ?_ hsettled)
    · exact (setLogic_cs t).trans hn.cs
    · rw [← hl]
      exact hr

theorem Pushed.nextTask (h : Pushed w t w') : w'.nextTask = w.nextTask := by
  cases h with
  | started s _ _ _ hs => exact hs.frame.nextTask
  | run s _ _ _ _ hr hs => exact (hs.frame (execute_outcome hr)).nextTask
  | _ => rfl

/-- The current task is stopped; the property also has to survive the end of what is then the
current task. -/
theorem Stable.stopCurrent {P : World → Prop} (hP : Stable A P) (hA : A.stops)
    (h : w.stopCurrent = some w')
    (hv : w.Valid) (hw : P w) (hdisarm : ∀ id, P (w.withContext (w.context.disarm id)))
    (hfree : ∀ w₁ : World, w₁.Valid → P w₁ →
      P ({ w₁ with currentQ0Task := none }.freeTasks w₁.currentQ0Task.toList)) : P w' := by
  rcases stopCurrent_cases h with ⟨-, rfl⟩ | ⟨t, w₁, hc, h₁, rfl⟩
  · exact hw
  · have hv' := hv.disarm t.id
    have hset (a : Args) : a.Keeps { a with state := .timeout } :=
      (Cause.stopped (A := A) (t := t) a hA).keeps
    refine hfree w₁ (hv'.resume (p := .current) hc hset h₁) ?_
    rcases resume_cases hv'.q0 h₁ with ⟨-, rfl⟩ | ⟨a, r, hl, hr, hsettled⟩
    · exact hP.returns _ (hdisarm t.id)
    · exact hP.resumed hv' (hdisarm t.id) (p := .current) hc hl (.stopped a hA) hr hsettled

/-- A stable property that also survives what else the layer does in such a call. -/
structure Change.Stable (A : Admission) (P : World → Prop) : Prop extends World.Stable A P where
  quiet {w w' : World} : w.Sound → P w → Quiet A.received w w' →
    (w.context.stopped = true → w'.context.stopped = true) → P w'
  register {w : World} (m : Received) : A.received m → w.Sound → P w → P (w.register m)
  disarm {w : World} (id : Nat) : w.Sound → P w → P (w.withContext (w.context.disarm id))

theorem Change.Stable.change {P : World → Prop} (hP : Change.Stable A P) (h : Change A w w')
    (hs : w.Sound) (hw : P w) : P w' := by
  cases h with
  | quiet h hst => exact hP.quiet hs hw h hst
  | register m hm hd => exact hP.register m hm hs hw
  | resumed hp hl hb hr h =>
    exact hP.resumed hs.toValid hw hp hl hb hr h
  | fired hA ht hp hr h =>
    rename_i t p r
    refine hP.settled h (hs.toValid.disarm t.id) (hP.disarm _ hs hw) (t := t) ?_ (.refl t) ?_
      (.timeout hA (hs.timed t hp.mem_held _ ht) hr)
    · cases p <;> exact hp
    · rintro rfl
      exact hs.toValid.logic_of_armed hp ht

theorem Change.Stable.changes {P : World → Prop} (hP : Change.Stable A P) (h : Changes A w w')
    (hs : w.Sound) (hw : P w) : P w' :=
  (h.invariant hs hw fun _ _ hs hw h => hP.change h hs hw).1

/-! ## Calls that are changes -/

/-- The task that a notification resumes. -/
def notified (w : World) (msgId : Nat) (type : MqttType) : Option (Place × Task) :=
  if msgId = 0 then w.currentQ0Task.map (Place.current, ·)
  else (w.queueOf (classMsgTypeSending type)).bind fun q => (findTask msgId q.2).map (q.1, ·)

/-- The task that an answer resumes. -/
def answered (w : World) (m : Message) : Option (Place × Task) :=
  if m.type = .publish then none
  else if m.getMessageId > 0 then
    (w.queueOf (classMsgTypeReceiving m.type)).bind fun q =>
      (findTask m.getMessageId q.2).map (q.1, ·)
  else w.currentQ0Task.map (Place.current, ·)

theorem pushWritten_changes (hs : w.Sound) {msgId : Nat} {type : MqttType} {s : IotcState}
    (hwritten : s = .written ∨ s = .failedWriting)
    (hA : w.context.stopped = false → ∀ p t a, w.notified msgId type = some (p, t) →
      t.logic = some a → A.resumed t p { a with state := s })
    (h : w.pushWritten msgId type s = some w') : Changes A w w' := by
  have hreturns (s : IotcState) : Changes A w (w.returns s) :=
    ((Quiet.refl w).returns s).changes id
  unfold World.pushWritten at h
  split at h
  · exact Option.some.inj h ▸ hreturns _
  · next hst =>
    have hA := hA (Bool.not_eq_true _ ▸ hst)
    unfold notified at hA
    split at h
    · next hz =>
      split at h
      · next t hc =>
        refine resume_changes hs (p := .current) hc (fun a hl => .written _ a hwritten ?_) h
        exact hA _ _ a (by rw [if_pos hz, hc]; rfl) hl
      · exact Option.some.inj h ▸ hreturns _
    · next hz =>
      split at h
      · cases h
      · next p ts hq =>
        split at h
        · next t ht =>
          refine resume_changes hs (queueOf_at hq (findTask_mem ht).1)
            (fun a hl => .written _ a hwritten ?_) h
          exact hA _ _ a (by rw [if_neg hz, hq, Option.bind_some, ht]; rfl) hl
        · exact Option.some.inj h ▸ hreturns _

theorem registerPublish_changes (hs : w.Sound) {m : Received} (hm : A.received m)
    (hd : w.context.layerData = true) (h : w.registerPublish m = some w') : Changes A w w' := by
  have hfree : ∀ m', some m = some m' → A.received m' := fun m' he => Option.some.inj he ▸ hm
  unfold World.registerPublish at h
  dsimp only at h
  split at h
  · split at h
    · cases h
    · have hregister : Change A w.alloc.2 (w.alloc.2.register m) := .register m hm hd
      have hset (a : Args) (hl : (w.alloc.2.answering m).logic = some a) :
          Cause A (w.alloc.2.answering m) .q12Recv a a := Option.some.inj hl ▸ .registered m hm rfl
      have hat : (w.alloc.2.register m).At (w.alloc.2.answering m) .q12Recv :=
        List.mem_append_right _ (List.mem_singleton_self _)
      exact (((Quiet.alloc w).changes id).tail hregister).trans
        (resume_changes (hregister.sound hs.alloc) hat hset h)
  · exact Option.some.inj h ▸ ((Quiet.alloc w).changes id).trans (pullErrHandling_changes _ hfree _)

theorem queueOf_place {c : MessageClass} (h : w.queueOf c = some (p, ts)) : p = .q12 ∨ p = .q12Recv := by
  cases c with
  | fromServer => exact .inr (congrArg Prod.fst (Option.some.inj h)).symm
  | toServer => exact .inl (congrArg Prod.fst (Option.some.inj h)).symm
  | unknown => cases h

theorem pullMessage_changes (hs : w.Sound) {m : Received} (hm : A.received m)
    (hd : w.context.layerData = true)
    (hA : ∀ p t a, w.answered m.message = some (p, t) → t.logic = some a →
      A.resumed t p { a with state := .ok, message := some m })
    (h : w.pullMessage m = some w') : Changes A w w' := by
  have hfree : ∀ m', some m = some m' → A.received m' := fun m' he => Option.some.inj he ▸ hm
  unfold World.pullMessage at h
  unfold World.answered at hA
  dsimp only at h
  split at h
  · unfold onPublishRecieved at h
    split at h
    · obtain ⟨c, hc, rfl⟩ := Option.map_eq_some_iff.mp h
      exact ((Quiet.of_context (.callTopicHandler hfree hc)).returns _).changes
        fun hst => (callTopicHandler_stopped hc).trans hst
    · exact registerPublish_changes hs hm hd h
    · exact Option.some.inj h ▸ ((Quiet.refl w).returns _).changes id
  · next htype =>
    rw [if_neg htype] at hA
    split at h
    · next hz =>
      rw [if_pos hz] at hA
      split at h
      · exact Option.some.inj h ▸ pullErrHandling_changes w hfree _
      · next p ts hq =>
        split at h
        · next t ht =>
          refine resume_changes hs (queueOf_at hq (findTask_mem ht).1) (fun a hl => ?_) h
          exact .answered a m (queueOf_place hq) (findTask_mem ht).2.symm
            (hA _ _ a (by rw [hq, Option.bind_some, ht]; rfl) hl)
        · exact Option.some.inj h ▸ pullErrHandling_changes w hfree _
    · next hz =>
      rw [if_neg hz] at hA
      split at h
      · cases h
      · next t hc =>
        split at h
        · cases h
        · refine resume_changes hs (p := .current) hc (fun a hl => ?_) h
          exact .unnumbered a m (Nat.eq_zero_of_not_pos hz) (hA _ _ a (by rw [hc]; rfl) hl)

theorem pull_changes (hs : w.Sound) {m : Option Received} {s : IotcState}
    (hm : ∀ m', m = some m' → A.received m')
    (hA : w.context.stopped = false → ∀ m', m = some m' → s = .ok → ∀ p t a,
      w.answered m'.message = some (p, t) → t.logic = some a →
        A.resumed t p { a with state := .ok, message := some m' })
    (h : w.pull m s = some w') : Changes A w w' := by
  unfold World.pull at h
  split at h
  · exact Option.some.inj h ▸ pullErrHandling_changes w hm s
  · next hstopped =>
    split at h
    · have hclose : Changes A w (w.call (·.closeOnThis .backoffTerminal)) :=
        call_changes w (o := .closeOnThis .backoffTerminal) trivial rfl notOperational_afterClose
      exact Option.some.inj h ▸ hclose.trans (pullErrHandling_changes _ hm s)
    · split at h
      · next hok =>
        have hst : w.context.stopped = false := Bool.not_eq_true _ ▸ hstopped
        split at h
        · cases h
        · next m =>
          exact pullMessage_changes hs (hm m rfl) (layerData_of_not_stopped hst) (hA hst m rfl hok) h
      · exact Option.some.inj h ▸ pullErrHandling_changes w hm s

theorem fire_changes (hs : w.Sound) {id : Nat}
    (hA : ∀ timeout, w.context.timeouts id = some timeout → A.fired timeout)
    (h : w.fire id = some w') : Changes A w w' := by
  obtain ⟨timeout, t, p, r, htimeout, rfl, hp, hr, hsettled⟩ := fire_cases hs.q0 h
  exact .single (.fired (hA _ htimeout) htimeout hp hr hsettled)

theorem resendTasks_changes : ∀ {ts : List Task} {w w' : World}, w.Sound →
    (∀ t ∈ ts, t ∈ w.q12Tasks) → DistinctIds ts → resendTasks ts w = some w' →
    Changes A w w'
  | [], w, w', _, _, _, h => by
    obtain rfl := Option.some.inj h
    exact .refl
  | t :: ts, w, w', hs, hm, hd, h => by
    obtain ⟨hnotin, hd⟩ := List.nodup_cons.mp hd
    unfold resendTasks at h
    split at h
    · next hstore =>
      obtain ⟨w₁, h₁, h₂⟩ := Option.bind_eq_some_iff.mp h
      have ht := hm t List.mem_cons_self
      have hs₁ := hs.resume (p := .q12) ht (fun a => (Cause.resent (A := A) a hstore).keeps) h₁
      refine (resume_changes hs (p := .q12) ht (fun a _ => .resent a hstore) h₁).trans
        (resendTasks_changes hs₁ (fun u hu => ?_) hd h₂)
      have hne : u.id ≠ t.id := fun he => hnotin (he ▸ List.mem_map_of_mem hu)
      exact (hs.mem_q12Tasks_of_resume ht h₁ hne).mpr (hm u (List.mem_cons_of_mem _ hu))
    · exact resendTasks_changes hs (fun u hu => hm u (List.mem_cons_of_mem _ hu)) hd h

theorem postConnect_changes (hs : w.Sound) {s : IotcState} (h : w.postConnect s = some w') :
    Changes A w w' := by
  unfold World.postConnect at h
  split at h
  · exact Option.some.inj h ▸ ((Quiet.refl w).returns s).changes id
  · obtain ⟨w₁, h₁, rfl⟩ := Option.map_eq_some_iff.mp h
    refine ((resendTasks_changes hs (fun _ h => h) hs.distinct_q12 h₁).trans ?_).trans
      (((Quiet.refl _).returns s).changes id)
    exact call_changes w₁ (o := .postConnectOnPrev s) trivial rfl id

theorem close_changes (w : World) (s : IotcState) : Changes A w (w.call (Logic.close · s)) := by
  cases hd : w.context.layerData with
  | true =>
    exact call_changes w (o := .closeOnPrev s) trivial (by simp [Logic.close, hd]; rfl)
      notOperational_afterClose
  | false =>
    exact call_changes w (o := .closeExternallyOnThis s) trivial (by simp [Logic.close, hd]; rfl)
      fun _ => rfl

/-- The calls that neither make a task nor set the layer up or tear it down. -/
def Event.Inner : Event → Prop
  | .written .. | .pull .. | .fire _ | .postConnect _ | .close _ => True
  | _ => False

/-- **What a call must satisfy** so that all notifications and answers are admitted. -/
def Admits (A : Admission) (w : World) : Event → Prop
  | .written msgId type success => w.context.stopped = false → ∀ p t a,
      w.notified msgId type = some (p, t) → t.logic = some a →
        A.resumed t p { a with state := if success then .written else .failedWriting }
  | .pull m s => ∀ m', m = some m' → A.received ⟨w.nextMessage, m'⟩ ∧
      (s = .ok → w.context.stopped = false → ∀ p t a, w.answered m' = some (p, t) →
        t.logic = some a → A.resumed t p { a with state := .ok, message := some ⟨w.nextMessage, m'⟩ })
  | .fire id => ∀ timeout, w.context.timeouts id = some timeout → A.fired timeout
  | .closeExternally _ => A.stops
  | _ => True

/-- Everything is admitted. -/
def anything : Admission := ⟨fun _ _ _ => True, fun _ => True, fun _ => True, True⟩

theorem admits_anything (w : World) (e : Event) : w.Admits anything e := by
  cases e with
  | written msgId type success => exact fun _ _ _ _ _ _ => trivial
  | pull m s => exact fun _ _ => ⟨trivial, fun _ _ _ _ _ _ _ => trivial⟩
  | fire id => exact fun _ _ => trivial
  | _ => trivial

/-- The world with the oracle of a call. -/
def withOracle (w : World) (o : Oracle) : World :=
  w.withContext { w.context with mem := o.mem, callbacks := o.callbacks }

theorem Sound.withOracle (hs : w.Sound) (o : Oracle) : (w.withOracle o).Sound :=
  hs.oracle o.mem o.callbacks

/-- **Such a call is a sequence of changes.** -/
theorem step_changes (hs : w.Sound) {e : Event} {o : Oracle} (he : e.Inner) (hA : w.Admits A e)
    (h : step w (e, o) = some w') : Changes A (w.withOracle o) w' := by
  have hs₀ := hs.withOracle o
  change (w.withOracle o).stepWith e = some w' at h
  cases e with
  | written msgId type success =>
    exact pushWritten_changes hs₀ (by cases success <;> simp) hA h
  | pull m s =>
    have hnext : Quiet A.received (w.withOracle o)
        { w.withOracle o with nextMessage := (w.withOracle o).nextMessage + 1 } :=
      ⟨rfl, rfl, rfl, rfl, rfl, rfl, rfl, rfl, rfl, rfl, Nat.le_succ _, rfl, rfl, rfl, rfl, rfl, rfl,
        List.suffix_refl _, List.suffix_refl _, [], by simp, by simp⟩
    refine (hnext.changes id).trans (pull_changes (hnext.sound hs₀) (fun m' hm => ?_)
      (fun hst m' hm hok => ?_) h) <;> obtain ⟨m, rfl, rfl⟩ := Option.map_eq_some_iff.mp hm
    · exact (hA m rfl).1
    · exact (hA m rfl).2 hok hst
  | fire id => exact fire_changes hs₀ hA h
  | postConnect s => exact postConnect_changes hs₀ h
  | close s => exact Option.some.inj h ▸ close_changes _ s
  | submit _ => cases he
  | keepalive => cases he
  | connectTo _ => cases he
  | init _ => cases he
  | connect _ => cases he
  | closeExternally _ => cases he
  | closing => cases he
  | closed => cases he

/-! ## Calls that make a task -/

theorem submit_pushed (hs : w.Sound) {q : Request} {o : Oracle}
    (h : step w (.submit q, o) = some w') :
    Pushed (w.withOracle o).made (q.task w.nextTask) w' :=
  pushTask_pushed (w := (w.withOracle o).made) hs.q0 (Request.task_new _ q) h

/-- The task that `keepalive_event` makes. -/
def keepaliveTask (w : World) : Task :=
  { id := w.nextTask, scenario := .keepalive, qos := .atMostOnce }

/-- The task that `iotc_mqtt_logic_layer_connect` makes. -/
def connectTask (w : World) : Task :=
  { id := w.nextTask, scenario := .connect, qos := .atMostOnce, priority := .immediate }

/-- The event has run: there are no layer data or no memory, or a KEEPALIVE is pushed. -/
theorem keepalive_cases (hs : w.Sound) (h : w.doMqttKeepaliveOnce = some w') :
    w.context.keepaliveEvent = true ∧
      let w₀ := w.withContext { w.context with keepaliveEvent := false }
      ((∃ s, w.context.layerData = false ∧ w' = w₀.returns s) ∨
        (∃ s, w.context.alloc.1 = false ∧ w' = w₀.alloc.2.returns s) ∨
        w.context.layerData = true ∧ w.context.alloc.1 = true ∧
          Pushed w₀.alloc.2.made w.keepaliveTask w') := by
  unfold World.doMqttKeepaliveOnce at h
  split at h
  · cases h
  · next hk =>
    refine ⟨by simpa using hk, ?_⟩
    dsimp only at h ⊢
    split at h
    · next hd => exact .inl ⟨_, Eq.mp (Bool.not_eq_true' _) hd, (Option.some.inj h).symm⟩
    · next hd =>
      split at h
      · next ha =>
        refine .inr (.inr ⟨by simpa [World.withContext] using hd, ha, ?_⟩)
        refine pushTask_pushed (w := World.made _) hs.q0 ?_ h
        exact ⟨rfl, rfl, rfl, .inl ⟨.inr (.inl rfl), rfl⟩⟩
      · next ha => exact .inr (.inl ⟨_, Bool.eq_false_iff.mpr ha, (Option.some.inj h).symm⟩)

/-- The failure is passed on, there is no memory, or a CONNECT is pushed. -/
theorem connect_cases (hs : w.Sound) {s : IotcState} (h : w.connect s = some w') :
    (s ≠ .ok ∧ w' = w.call (·.connectOnNext s)) ∨
      (∃ s', w.context.alloc.1 = false ∧ w' = w.alloc.2.returns s') ∨
      s = .ok ∧ w.context.alloc.1 = true ∧ Pushed w.alloc.2.made w.connectTask w' := by
  unfold World.connect at h
  split at h
  · next hs => exact .inl ⟨hs, (Option.some.inj h).symm⟩
  · next hok =>
    dsimp only at h
    split at h
    · next ha =>
      refine .inr (.inr ⟨not_not.mp hok, ha, pushTask_pushed (w := World.made _) hs.q0 ?_ h⟩)
      exact ⟨rfl, rfl, rfl, .inl ⟨.inl rfl, rfl⟩⟩
    · next ha => exact .inr (.inl ⟨_, Bool.eq_false_iff.mpr ha, (Option.some.inj h).symm⟩)

/-! ## Every call -/

/-- The call makes the task `t`, with this id. -/
def Event.Makes (id : Nat) (t : Task) : Event → Prop
  | .submit q => t = q.task id
  | .keepalive => t = { id, scenario := .keepalive, qos := .atMostOnce }
  | .connect s =>
    s = .ok ∧ t = { id, scenario := .connect, qos := .atMostOnce, priority := .immediate }
  | _ => False

theorem Event.Makes.id_eq {id : Nat} {e : Event} (h : e.Makes id t) : t.id = id := by
  cases e with
  | submit q => exact h ▸ Request.task_id id q
  | keepalive => exact congrArg Task.id h
  | connect s => exact congrArg Task.id h.2
  | _ => exact h.elim

theorem Event.Makes.new {id : Nat} {e : Event} (h : e.Makes id t) : New t := by
  cases e with
  | submit q => exact h ▸ Request.task_new id q
  | keepalive => exact h ▸ ⟨rfl, rfl, rfl, .inl ⟨.inr (.inl rfl), rfl⟩⟩
  | connect s => exact h.2 ▸ ⟨rfl, rfl, rfl, .inl ⟨.inl rfl, rfl⟩⟩
  | _ => exact h.elim

/-- The world in which the task of the call is pushed: `keepalive_event` has run if it makes the
task, and the task of a user has been allocated before. -/
def prepared (w : World) (o : Oracle) : Event → World
  | .submit _ => w.withOracle o
  | .keepalive =>
    w.withContext { w.context with
      mem := o.mem.tail, callbacks := o.callbacks, keepaliveEvent := false }
  | _ => w.withOracle { o with mem := o.mem.tail }

/-- Only oracles and `keepalive_event` are different. -/
theorem prepared_eq (w : World) (o : Oracle) (e : Event) : ∃ mem callbacks keepaliveEvent,
    w.prepared o e = w.withContext { w.context with mem, callbacks, keepaliveEvent } := by
  cases e <;> exact ⟨_, _, _, rfl⟩

theorem Sound.prepared (hs : w.Sound) (o : Oracle) (e : Event) : (w.prepared o e).Sound := by
  obtain ⟨mem, callbacks, k, heq⟩ := prepared_eq w o e
  rw [heq]
  exact hs.withContext rfl rfl fun _ => rfl

/-- The call sets the connection data. -/
def Event.SetsConnection : Event → Prop
  | .connectTo _ | .closing | .closed => True
  | _ => False

/-- The connection data after the call, when `c` are those before. -/
def Event.connection (c : ConnectionData) : Event → ConnectionData
  | .connectTo d =>
    if c.connectionState.final then { d with connectionState := .uninitialized } else c
  | .closing => { c with connectionState := .closing }
  | .closed =>
    { c with connectionState := if c.connectionState = .opening then .openFailed else .closed }
  | _ => c

/-- **What a call can do.** -/
inductive Called (A : Admission) (w : World) (o : Oracle) : Event → World → Prop
  | changes {e : Event} {w' : World} (he : ∀ s, e ≠ .init s) (h : Changes A (w.withOracle o) w') :
      Called A w o e w'
  /-- `keepalive_event` has run in vain -/
  | expired (o' : Oracle) (s : IotcState) (hk : w.context.keepaliveEvent = true)
      (hd : w.context.layerData = false ∨ o.mem.headD true = false) :
      Called A w o .keepalive
        (((w.withContext { w.context with keepaliveEvent := false }).withOracle o').returns s)
  | pushed {e : Event} {t : Task} {w' : World} (hm : e.Makes w.nextTask t)
      (hk : e = .keepalive → w.context.keepaliveEvent = true)
      (h : Pushed (w.prepared o e).made t w') : Called A w o e w'
  | connection {e : Event} (he : e.SetsConnection) :
      Called A w o e ((w.withOracle o).setConnection (e.connection w.context.connection))
  | init (s : IotcState) : Called A w o (.init s) ((w.withOracle o).init s)
  | teardown {w₁ w₂ w₃ : World} (s : IotcState) (hd : w.context.layerData = true)
      (htd : w.TearsDown s) (h₁ : (w.withOracle o).saved = some w₁)
      (h₂ : w₁.stopCurrent = some w₂) (h₃ : w₂.freeLayerData = some w₃) :
      Called A w o (.closeExternally s) (w₃.call (·.closeExternallyOnNext s))

theorem step_called (hs : w.Sound) {e : Event} {o : Oracle} (hA : w.Admits A e)
    (h : step w (e, o) = some w') :
    Called A w o e w' := by
  by_cases hinner : e.Inner
  · exact .changes (by rintro s rfl; exact hinner) (step_changes hs hinner hA h)
  have hs₀ := hs.withOracle o
  change (w.withOracle o).stepWith e = some w' at h
  cases e with
  | submit q => exact .pushed (e := .submit q) rfl (fun he => by cases he) (submit_pushed hs h)
  | keepalive =>
    obtain ⟨hk, hcases⟩ := keepalive_cases hs₀ h
    rcases hcases with ⟨s, hd, rfl⟩ | ⟨s, hmem, rfl⟩ | ⟨-, -, hpushed⟩
    · exact .expired o s hk (.inl hd)
    · exact .expired { o with mem := o.mem.tail } s hk (.inr hmem)
    · exact .pushed (e := .keepalive) rfl (fun _ => hk) hpushed
  | connect s =>
    rcases connect_cases hs₀ h with ⟨hne, rfl⟩ | ⟨s', -, rfl⟩ | ⟨rfl, -, hpushed⟩
    · exact .changes (fun _ he => by cases he)
        (call_changes _ (o := .connectOnNext s) trivial rfl fun _ => afterConnect_notOperational hne)
    · exact .changes (fun _ he => by cases he) (((Quiet.alloc _).returns s').changes id)
    · exact .pushed (e := .connect .ok) ⟨rfl, rfl⟩ (fun he => by cases he) hpushed
  | init s => exact Option.some.inj h ▸ .init s
  | closeExternally s =>
    rcases closeExternally_cases h with ⟨hne, -, rfl⟩ | ⟨-, rfl⟩ |
      ⟨w₁, w₂, w₃, hd, htd, h₁, h₂, h₃, rfl⟩
    · exact .changes (fun _ he => by cases he)
        (call_changes _ (o := .connectOnThis s) trivial rfl fun _ => afterConnect_notOperational hne)
    · exact .changes (fun _ he => by cases he)
        (call_changes _ (o := .closeExternallyOnNext s) trivial rfl fun _ => rfl)
    · exact .teardown s hd htd h₁ h₂ h₃
  | connectTo d =>
    have hset := Called.connection (A := A) (w := w) (o := o) (e := .connectTo d) trivial
    simp only [World.stepWith] at h
    split at h <;> obtain rfl := Option.some.inj h
    · next hf => rwa [Event.connection, if_pos (by exact hf)] at hset
    · next hf => rwa [Event.connection, if_neg (by exact hf)] at hset
  | closing => exact Option.some.inj h ▸ .connection (e := .closing) trivial
  | closed => exact Option.some.inj h ▸ .connection (e := .closed) trivial
  | written _ _ _ => exact absurd trivial hinner
  | pull _ _ => exact absurd trivial hinner
  | fire _ => exact absurd trivial hinner
  | postConnect _ => exact absurd trivial hinner
  | close _ => exact absurd trivial hinner

/-- Whatever is admitted. -/
theorem step_anything (hs : w.Sound) {e : Event} {o : Oracle} (h : step w (e, o) = some w') :
    Called anything w o e w' :=
  step_called hs (admits_anything w e) h

end World

end IotDeviceSdk.Mqtt.Logic
