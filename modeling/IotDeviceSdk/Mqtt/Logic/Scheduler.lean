import IotDeviceSdk.Mqtt.Logic.Disconnected

/-!
# The order of the QoS 0 tasks

`q0_tasks_queue` is meant to be a priority queue: a task of immediate priority goes to its front and
another to its end, and the tasks are run from its front, one at a time. A task that has to wait for
the connection is put back to the end of the queue, which breaks the order if another one waits
there.

* `Serves` says what one call does to the queue: a part of it from the front is run, and the rest is
  kept, put back, or lost with the layer data.
* `step_serves` says that this is all that any call does.
* `executed_in_order` is the order that results, `queued_until_executed` that each task is run once.
-/

namespace IotDeviceSdk.Mqtt.Logic

/-! ## The tasks that have been run -/

/-- The task that is run. -/
def Output.executes : Output → Option Nat
  | run task => some task
  | _ => none

/-- The tasks of QoS 0 that have been run, in this order. -/
def executed (os : List Output) : List Nat := os.filterMap Output.executes

@[simp] theorem executed_append (os os' : List Output) :
    executed (os ++ os') = executed os ++ executed os' := List.filterMap_append

theorem executed_eq_nil {os : List Output} (h : ∀ o ∈ os, o.executes = none) : executed os = [] :=
  List.filterMap_eq_nil_iff.mpr h

theorem Output.Of.executes {t : Task} {o : Output} (h : o.Of t) : o.executes = none := by
  cases o with
  | run task => exact h.elim
  | _ => rfl

theorem Output.Foreign.executes {R : Received → Prop} {o : Output} (h : o.Foreign R) :
    o.executes = none := by
  cases o with
  | run task => exact h.elim
  | _ => rfl

/-! ## The queue -/

/-- The queue with a new task. -/
def enqueued (t : Task) (ts : List Task) : List Task :=
  match t.priority with
  | .normal => ts ++ [t]
  | .immediate => t :: ts

/-- The head of the queue goes to its end. -/
def putBack : List Task → List Task
  | [] => []
  | t :: ts => ts ++ [t]

theorem putBack_perm : ∀ ts : List Task, (putBack ts).Perm ts
  | [] => .nil
  | _ :: _ => List.perm_append_singleton _ _

theorem putBack_of_length_le {ts : List Task} (h : (putBack ts).length ≤ 1) : putBack ts = ts := by
  match ts with
  | [] => rfl
  | [_] => rfl
  | t :: u :: ts =>
    simp only [putBack, List.cons_append, List.length_cons, List.length_append] at h
    omega

theorem enqueued_perm (t : Task) (ts : List Task) : (enqueued t ts).Perm (t :: ts) := by
  unfold enqueued
  split
  · exact List.perm_append_singleton _ _
  · exact .refl _

/-- **The order of a priority queue**: an immediate task is before a normal one, a normal task is
before the ones that were made after it, and an immediate one before those made before it. -/
def Task.Before (t u : Task) : Prop :=
  match t.priority, u.priority with
  | .normal, .normal => t.id < u.id
  | .normal, .immediate => False
  | .immediate, .normal => True
  | .immediate, .immediate => u.id < t.id

theorem Task.Before.lt {t u : Task} (h : t.Before u) (ht : t.priority = .normal)
    (hu : u.priority = .normal) : t.id < u.id := by
  unfold Task.Before at h
  rw [ht, hu] at h
  exact h

theorem enqueued_pairwise {t : Task} {ts : List Task} (hlt : ∀ u ∈ ts, u.id < t.id)
    (h : ts.Pairwise Task.Before) : (enqueued t ts).Pairwise Task.Before := by
  unfold enqueued
  split
  · next hp =>
    refine List.pairwise_append.mpr ⟨h, List.pairwise_singleton _ _, fun u hu v hv => ?_⟩
    obtain rfl := List.mem_singleton.mp hv
    unfold Task.Before
    rw [hp]
    cases u.priority with
    | normal => exact hlt u hu
    | immediate => trivial
  · next hp =>
    refine List.pairwise_cons.mpr ⟨fun u hu => ?_, h⟩
    unfold Task.Before
    rw [hp]
    cases u.priority with
    | normal => trivial
    | immediate => exact hlt u hu

namespace World

variable {w w' w'' : World} {t : Task} {p : Place} {r : CoResult} {Q us vs : List Task}

theorem enqueue_q0Tasks (w : World) (t : Task) : (w.enqueue t).q0Tasks = enqueued t w.q0Tasks := rfl

/-! ## What one call does to the queue -/

/-- **The queue `Q` is served**: its tasks `us` are run, in this order, and the others are left as
they are, or the head of them is put back, or they are lost where `L` allows it. Only a CONNECT is
run while the connection is being opened. -/
structure Serves (L : Prop) (Q : List Task) (w w' : World) (us vs : List Task) : Prop where
  split : Q = us ++ vs
  executed : executed w'.context.out = executed w.context.out ++ us.map Task.id
  guarded : ∀ t ∈ us, t.scenario = .connect ∨ w'.context.connection.connectionState ≠ .opening
  left : w'.q0Tasks = vs ∨
    w'.q0Tasks = putBack vs ∧ w'.context.connection.connectionState = .opening ∧
      w'.currentQ0Task = none ∨
    L ∧ w'.q0Tasks = []

/-- Nothing happens to the queue. -/
structure Calm (w w' : World) : Prop where
  q0Tasks : w'.q0Tasks = w.q0Tasks
  executed : Logic.executed w'.context.out = Logic.executed w.context.out
  currentQ0Task : w'.currentQ0Task = w.currentQ0Task
  connectionState : w'.context.connection.connectionState = w.context.connection.connectionState

variable {L : Prop}

theorem Calm.of_out {O : List Output} (hq : w'.q0Tasks = w.q0Tasks)
    (hc : w'.currentQ0Task = w.currentQ0Task)
    (hs : w'.context.connection.connectionState = w.context.connection.connectionState)
    (ho : w'.context.out = w.context.out ++ O) (hos : ∀ o ∈ O, o.executes = none) : Calm w w' :=
  ⟨hq, by rw [ho, executed_append, executed_eq_nil hos, List.append_nil], hc, hs⟩

theorem Calm.of_eq (hq : w'.q0Tasks = w.q0Tasks) (hc : w'.currentQ0Task = w.currentQ0Task)
    (hs : w'.context.connection.connectionState = w.context.connection.connectionState)
    (ho : w'.context.out = w.context.out) : Calm w w' := ⟨hq, by rw [ho], hc, hs⟩

theorem Calm.refl (w : World) : Calm w w := ⟨rfl, rfl, rfl, rfl⟩

theorem Calm.trans (h : Calm w w') (h' : Calm w' w'') : Calm w w'' :=
  ⟨h'.q0Tasks.trans h.q0Tasks, h'.executed.trans h.executed, h'.currentQ0Task.trans h.currentQ0Task,
    h'.connectionState.trans h.connectionState⟩

theorem Calm.returns (h : Calm w w') (s : IotcState) : Calm w (w'.returns s) :=
  ⟨h.q0Tasks, h.executed, h.currentQ0Task, h.connectionState⟩

theorem Quiet.calm {R : Received → Prop} (h : Quiet R w w') : Calm w w' := by
  obtain ⟨os, ho, hos⟩ := h.out
  exact .of_out h.q0Tasks h.currentQ0Task (by rw [h.connection]) ho fun o hm => (hos o hm).executes

theorem Calm.freeTasks (w : World) (ts : List Task) : Calm w (w.freeTasks ts) := by
  refine .of_out (O := ts.map (.freeTask ·.id)) rfl rfl rfl rfl fun o hm => ?_
  obtain ⟨t, -, rfl⟩ := List.mem_map.mp hm
  rfl

theorem Serves.kept (hq : w'.q0Tasks = w.q0Tasks)
    (ho : Logic.executed w'.context.out = Logic.executed w.context.out) :
    Serves L w.q0Tasks w w' [] w.q0Tasks :=
  ⟨rfl, by simpa using ho, by simp, .inl hq⟩

theorem Calm.serves (h : Calm w w') : Serves L w.q0Tasks w w' [] w.q0Tasks :=
  .kept h.q0Tasks h.executed

theorem Serves.after (hc : Calm w w') (h : Serves L Q w' w'' us vs) :
    Serves L Q w w'' us vs :=
  ⟨h.split, h.executed.trans (by rw [hc.executed]), h.guarded, h.left⟩

theorem Serves.before (h : Serves L Q w w' us vs) (hc : Calm w' w'') :
    Serves L Q w w'' us vs where
  split := h.split
  executed := hc.executed.trans h.executed
  guarded := by
    rw [hc.connectionState]
    exact h.guarded
  left := by
    rw [hc.q0Tasks, hc.connectionState, hc.currentQ0Task]
    exact h.left

theorem Serves.returns (h : Serves L Q w w' us vs) (s : IotcState) :
    Serves L Q w (w'.returns s) us vs := h.before ((Calm.refl w').returns s)

/-- Its head is run, and then the rest is served. -/
theorem Serves.cons {ts : List Task} (h : Serves L ts w' w'' us vs)
    (he : Logic.executed w'.context.out = Logic.executed w.context.out ++ [t.id])
    (hg : t.scenario = .connect ∨ w''.context.connection.connectionState ≠ .opening) :
    Serves L (t :: ts) w w'' (t :: us) vs where
  split := congrArg (t :: ·) h.split
  executed := by rw [h.executed, he, List.append_assoc, List.map_cons, List.singleton_append]
  guarded := List.forall_mem_cons.mpr ⟨hg, h.guarded⟩
  left := h.left

/-- A run of a coroutine runs no other task. -/
theorem executed_ran {c : Context} (ho : Outcome c t r) :
    executed r.context.out = executed c.out := by
  obtain ⟨os, hout, hos⟩ := ho.context.out
  rw [hout, executed_append, executed_eq_nil fun o hm => (hos o hm).executes, List.append_nil]

theorem executed_freeCurrent (w : World) :
    executed w.freeCurrent.context.out = executed w.context.out := by
  unfold World.freeCurrent
  split
  · next t hc =>
    change executed ((w.context.cancelTaskTimeout t.id).out ++ [.freeTask t.id]) = _
    rw [cancelTaskTimeout_out, executed_append]
    exact List.append_nil _
  · rfl

theorem executed_started (w : World) (t : Task) (ts : List Task) :
    executed (w.started t ts).context.out = executed w.context.out ++ [t.id] :=
  executed_append _ _

/-- A task that does not wait is run while the connection is not being opened, or is a CONNECT. -/
theorem Frame.guarded (hf : Frame w w') (hw : ¬w.waits t) :
    t.scenario = .connect ∨ w'.context.connection.connectionState ≠ .opening := by
  by_cases hs : t.scenario = .connect
  · exact .inl hs
  · have hopening : w.context.connection.connectionState ≠ .opening := fun ho => hw ⟨ho, hs⟩
    rcases hf.connection with hc | hc <;> rw [hc]
    · exact .inr hopening
    · exact .inr (by simp)

theorem Starts.serves (h : Starts w w') : ∃ us vs, Serves L w.q0Tasks w w' us vs := by
  induction h with
  | empty s hc hq => exact ⟨_, _, ((Calm.refl _).returns s).serves⟩
  | wait s hc hq hw =>
    rw [hq]
    exact ⟨[], _, rfl, (List.append_nil _).symm, by simp, .inr (.inl ⟨rfl, hw.1, hc⟩)⟩
  | @keep w t ts a r s hc hq hw hl hr he =>
    have hout := executed_ran (execute_outcome hr)
    have hguarded := (Starts.keep s hc hq hw hl hr he).frame.guarded hw
    rw [executed_started] at hout
    rw [hq]
    exact ⟨[t], ts, rfl, hout, by simpa using hguarded, .inl rfl⟩
  | @next w w' t ts a r s hc hq hw hl hr he hu h ih =>
    have hout := executed_ran (execute_outcome hr)
    have hguarded := (Starts.next s hc hq hw hl hr he hu h).frame.guarded hw
    rw [executed_started] at hout
    obtain ⟨us, vs, hserves⟩ := ih
    rw [freeCurrent_q0Tasks, ran_q0Tasks] at hserves
    rw [hq]
    refine ⟨t :: us, vs, (hserves.cons ?_ hguarded).returns s⟩
    rw [executed_freeCurrent, ran_context, hout]

theorem drop_q0Tasks (w : World) (t : Task) (p : Place) : (w.drop t p).q0Tasks = w.q0Tasks := by
  cases p <;> rfl

theorem executed_drop (w : World) (t : Task) (p : Place) :
    executed (w.drop t p).context.out = executed w.context.out := by
  have hfree : executed (w.context.out ++ [.freeTask t.id]) = executed w.context.out := by
    rw [executed_append]
    exact List.append_nil _
  cases p
  · rfl
  · exact hfree
  · exact hfree
  · exact hfree

theorem Settled.serves (h : Settled w p r w') (ho : Outcome w.context t r) :
    ∃ us vs, Serves L w.q0Tasks w w' us vs := by
  have hout : executed (w.ran p r).context.out = executed w.context.out := by
    rw [ran_context, executed_ran ho]
  induction h with
  | keep s he =>
    refine ⟨[], _, rfl, ?_, by simp, .inl (ran_q0Tasks w p r)⟩
    rw [List.map_nil, List.append_nil, ← hout]
    rfl
  | drop s he hq hu =>
    refine ⟨[], _, rfl, ?_, by simp, .inl ((drop_q0Tasks _ _ p).trans (ran_q0Tasks w p r))⟩
    rw [List.map_nil, List.append_nil, ← hout]
    exact executed_drop _ _ p
  | next s he hq hu hd h =>
    obtain ⟨us, vs, hserves⟩ := h.serves (L := L)
    rw [freeCurrent_q0Tasks, ran_q0Tasks] at hserves
    refine ⟨us, vs, hserves.split, ?_, hserves.guarded, hserves.left⟩
    rw [← hout, ← executed_freeCurrent (w.ran p r)]
    exact hserves.executed
  | @reset w₁ s he h ih =>
    obtain ⟨us, vs, hserves⟩ := ih
    have hcalm : Calm w₁ (w₁.record (.writeFreed r.task.id)) :=
      .of_out (O := [.writeFreed r.task.id]) rfl rfl rfl rfl fun o hm =>
        List.mem_singleton.mp hm ▸ rfl
    exact ⟨us, vs, hserves.before (hcalm.returns s)⟩

/-! ## Calls that resume tasks -/

theorem resume_serves (hs : w.Sound) {set : Args → Args} (h : w.resume p t set = some w') :
    ∃ us vs, Serves L w.q0Tasks w w' us vs := by
  rcases resume_cases hs.q0 h with ⟨-, rfl⟩ | ⟨a, r, hl, hr, hsettled⟩
  · exact ⟨_, _, ((Calm.refl w).returns _).serves⟩
  · exact hsettled.serves (execute_outcome hr)

theorem pushWritten_serves (hs : w.Sound) {msgId : Nat} {type : MqttType} {s : IotcState}
    (h : w.pushWritten msgId type s = some w') : ∃ us vs, Serves L w.q0Tasks w w' us vs := by
  have hreturns (s : IotcState) : ∃ us vs, Serves L w.q0Tasks w (w.returns s) us vs :=
    ⟨_, _, ((Calm.refl w).returns s).serves⟩
  unfold World.pushWritten at h
  split at h
  · exact Option.some.inj h ▸ hreturns _
  · split at h
    · split at h
      · exact resume_serves hs h
      · exact Option.some.inj h ▸ hreturns _
    · split at h
      · cases h
      · split at h
        · exact resume_serves hs h
        · exact Option.some.inj h ▸ hreturns _

theorem pullErrHandling_calm (w : World) (m : Option Received) (s : IotcState) :
    Calm w (w.pullErrHandling m s) :=
  (Quiet.pullErrHandling (R := fun _ => True) w (fun _ _ => trivial) s).calm

theorem registerPublish_serves (hs : w.Sound) (hd : w.context.layerData = true) {m : Received}
    (h : w.registerPublish m = some w') : ∃ us vs, Serves L w.q0Tasks w w' us vs := by
  have halloc : Calm w w.alloc.2 := (Quiet.alloc (R := nothing) w).calm
  unfold World.registerPublish at h
  dsimp only at h
  split at h
  · split at h
    · cases h
    · have hsound : (w.alloc.2.register m).Sound :=
        { hs.alloc.toValid.registered m hd rfl with data := hs.alloc.data }
      have hcalm : Calm w (w.alloc.2.register m) := halloc.trans (.of_eq rfl rfl rfl rfl)
      obtain ⟨us, vs, hserves⟩ := resume_serves (L := L) hsound h
      exact ⟨us, vs, hserves.after hcalm⟩
  · obtain rfl := Option.some.inj h
    exact ⟨_, _, (halloc.trans (pullErrHandling_calm _ _ _)).serves⟩

theorem pullMessage_serves (hs : w.Sound) (hd : w.context.layerData = true) {m : Received}
    (h : w.pullMessage m = some w') : ∃ us vs, Serves L w.q0Tasks w w' us vs := by
  unfold World.pullMessage at h
  dsimp only at h
  split at h
  · unfold onPublishRecieved at h
    split at h
    · obtain ⟨c, hc, rfl⟩ := Option.map_eq_some_iff.mp h
      have hquiet := QuietContext.callTopicHandler (R := fun _ => True) (fun _ _ => trivial) hc
      exact ⟨_, _, ((Quiet.of_context hquiet).calm.returns _).serves⟩
    · exact registerPublish_serves hs hd h
    · exact Option.some.inj h ▸ ⟨_, _, ((Calm.refl w).returns _).serves⟩
  · split at h
    · split at h
      · exact Option.some.inj h ▸ ⟨_, _, (pullErrHandling_calm w _ _).serves⟩
      · split at h
        · exact resume_serves hs h
        · exact Option.some.inj h ▸ ⟨_, _, (pullErrHandling_calm w _ _).serves⟩
    · split at h
      · cases h
      · split at h
        · cases h
        · exact resume_serves hs h

theorem call_calm (w : World) {f : Context → IotcState × Context} {o : Output} {next : LayerState}
    (ho : o.Foreign nothing) (hf : f w.context = w.context.continueWith o next) :
    Calm w (w.call f) :=
  (Quiet.call w ho hf).calm

theorem pull_serves (hs : w.Sound) {m : Option Received} {s : IotcState} (h : w.pull m s = some w') :
    ∃ us vs, Serves L w.q0Tasks w w' us vs := by
  unfold World.pull at h
  split at h
  · exact Option.some.inj h ▸ ⟨_, _, (pullErrHandling_calm w _ _).serves⟩
  · next hst =>
    have hd := layerData_of_not_stopped (Bool.not_eq_true _ ▸ hst)
    split at h
    · have hclose : Calm w (w.call (·.closeOnThis .backoffTerminal)) :=
        call_calm w (o := .closeOnThis .backoffTerminal) trivial rfl
      exact Option.some.inj h ▸ ⟨_, _, (hclose.trans (pullErrHandling_calm _ _ _)).serves⟩
    · split at h
      · split at h
        · cases h
        · exact pullMessage_serves hs hd h
      · exact Option.some.inj h ▸ ⟨_, _, (pullErrHandling_calm w _ _).serves⟩

theorem fire_serves (hs : w.Sound) {id : Nat} (h : w.fire id = some w') :
    ∃ us vs, Serves L w.q0Tasks w w' us vs := by
  obtain ⟨timeout, t, p, r, -, -, -, hr, hsettled⟩ := fire_cases hs.q0 h
  obtain ⟨us, vs, hserves⟩ := hsettled.serves (L := L) (TaskTimeout.run_outcome hr)
  have hcalm : Calm w (w.withContext (w.context.disarm id)) := .of_eq rfl rfl rfl rfl
  exact ⟨us, vs, hserves.after hcalm⟩

/-- A task with an id leaves the queue alone. -/
theorem Settled.kept (h : Settled w p r w') (ho : Outcome w.context t r)
    (hq : r.task.qos ≠ .atMostOnce) :
    w'.q0Tasks = w.q0Tasks ∧ executed w'.context.out = executed w.context.out := by
  have hout : executed (w.ran p r).context.out = executed w.context.out := by
    rw [ran_context, executed_ran ho]
  induction h with
  | keep s he => exact ⟨ran_q0Tasks w p r, hout⟩
  | drop s he _ hu =>
    exact ⟨(drop_q0Tasks _ _ p).trans (ran_q0Tasks w p r), (executed_drop _ _ p).trans hout⟩
  | next s he hq' => exact absurd hq' hq
  | @reset w₁ s he h ih =>
    refine ⟨ih.1, Eq.trans ?_ ih.2⟩
    exact (executed_append w₁.context.out [.writeFreed r.task.id]).trans (List.append_nil _)

theorem resendTasks_kept : ∀ {ts : List Task} {w w' : World}, w.Sound → (∀ t ∈ ts, t ∈ w.q12Tasks) →
    DistinctIds ts → resendTasks ts w = some w' →
    w'.q0Tasks = w.q0Tasks ∧ executed w'.context.out = executed w.context.out
  | [], w, w', _, _, _, h => by
    obtain rfl := Option.some.inj h
    exact ⟨rfl, rfl⟩
  | t :: ts, w, w', hs, hm, hd, h => by
    obtain ⟨hnotin, hd⟩ := List.nodup_cons.mp hd
    unfold resendTasks at h
    split at h
    · next hstore =>
      obtain ⟨w₁, h₁, h₂⟩ := Option.bind_eq_some_iff.mp h
      have ht := hm t List.mem_cons_self
      have hset (a : Args) : a.Keeps { a with context := true, state := .resend } :=
        (Cause.resent (A := anything) a hstore).keeps
      have hs₁ := hs.resume (p := .q12) ht hset h₁
      have hkept : w₁.q0Tasks = w.q0Tasks ∧ executed w₁.context.out = executed w.context.out := by
        rcases resume_cases hs.q0 h₁ with ⟨-, rfl⟩ | ⟨a, r, hl, hr, hsettled⟩
        · exact ⟨rfl, rfl⟩
        · have ho := execute_outcome hr
          exact hsettled.kept ho (ho.task.qos ▸ (hs.q12 t ht).qos)
      obtain ⟨hq, hout⟩ := resendTasks_kept hs₁ (fun u hu => by
        have hne : u.id ≠ t.id := fun he => hnotin (he ▸ List.mem_map_of_mem hu)
        exact (hs.mem_q12Tasks_of_resume ht h₁ hne).mpr (hm u (List.mem_cons_of_mem _ hu))) hd h₂
      exact ⟨hq.trans hkept.1, hout.trans hkept.2⟩
    · exact resendTasks_kept hs (fun u hu => hm u (List.mem_cons_of_mem _ hu)) hd h

theorem postConnect_serves (hs : w.Sound) {s : IotcState} (h : w.postConnect s = some w') :
    ∃ us vs, Serves L w.q0Tasks w w' us vs := by
  unfold World.postConnect at h
  split at h
  · exact Option.some.inj h ▸ ⟨_, _, ((Calm.refl w).returns s).serves⟩
  · obtain ⟨w₁, h₁, rfl⟩ := Option.map_eq_some_iff.mp h
    obtain ⟨hq, ho⟩ := resendTasks_kept hs (fun _ h => h) hs.distinct_q12 h₁
    have hcall : Calm w₁ (w₁.call (·.postConnectOnPrev s)) :=
      call_calm w₁ (o := .postConnectOnPrev s) trivial rfl
    exact ⟨_, _, (Serves.kept hq ho).before (hcall.returns s)⟩

theorem close_calm (w : World) (s : IotcState) : Calm w (w.call (Logic.close · s)) := by
  cases hd : w.context.layerData with
  | true => exact call_calm w (o := .closeOnPrev s) trivial (by simp [Logic.close, hd]; rfl)
  | false => exact call_calm w (o := .closeExternallyOnThis s) trivial (by simp [Logic.close, hd]; rfl)

/-! ## Setup and teardown -/

theorem executed_restoreSession (w : World) :
    executed w.restoreSession.context.out = executed w.context.out := by
  unfold restoreSession
  split
  · rfl
  · exact (Calm.freeTasks w w.savedQ12Tasks).executed

theorem init_serves (w : World) (s : IotcState) : Serves True w.q0Tasks w (w.init s) [] w.q0Tasks := by
  rcases init_cases w s with ⟨-, -, hinit⟩ | ⟨w₀, hw₀, hinit⟩
  · rw [hinit]
    exact ((Quiet.alloc (R := nothing) w).calm.returns _).serves
  · have h₀ : Calm w w₀ := by
      rcases hw₀ with ⟨-, rfl⟩ | ⟨-, -, rfl⟩
      · exact .refl w₀
      · exact (Quiet.alloc (R := nothing) w).calm
    rcases hinit with ⟨mem, hinit⟩ | ⟨-, -, hinit⟩
    · rw [hinit]
      have hcall :=
        call_calm (w₀.initialised mem) (f := (·.initOnPrev s)) (o := .initOnPrev s) trivial rfl
      refine .kept (hcall.q0Tasks.trans ?_) (hcall.executed.trans ?_)
      · exact (restoreSession_q0Tasks w₀).trans h₀.q0Tasks
      · exact (executed_restoreSession w₀).trans h₀.executed
    · rw [hinit]
      refine ⟨rfl, ?_, by simp, .inr (.inr ⟨trivial, rfl⟩)⟩
      rw [List.map_nil, List.append_nil, ← h₀.executed, ← executed_restoreSession w₀]
      rfl

/-- The queue is served; what is then the current task is freed. -/
theorem stopCurrent_serves (hv : w.Valid) (h : w.stopCurrent = some w') :
    ∃ us vs, w.q0Tasks = us ++ vs ∧
      executed w'.context.out = executed w.context.out ++ us.map Task.id ∧
      ∀ t ∈ us, t.scenario = .connect ∨ w'.context.connection.connectionState ≠ .opening := by
  rcases stopCurrent_cases h with ⟨-, rfl⟩ | ⟨t, w₁, hc, h₁, rfl⟩
  · exact ⟨[], _, rfl, by simp, by simp⟩
  · have hfree :
        executed ({ w₁ with currentQ0Task := none }.freeTasks w₁.currentQ0Task.toList).context.out =
          executed w₁.context.out := (Calm.freeTasks { w₁ with currentQ0Task := none } _).executed
    rcases resume_cases (hv.disarm t.id).q0 h₁ with ⟨-, rfl⟩ | ⟨a, r, hl, hr, hsettled⟩
    · exact ⟨[], _, rfl, by rw [hfree]; exact (List.append_nil _).symm, by simp⟩
    · obtain ⟨us, vs, hserves⟩ := hsettled.serves (L := True) (execute_outcome hr)
      exact ⟨us, vs, hserves.split, hfree.trans hserves.executed, hserves.guarded⟩

theorem closeExternally_serves (hs : w.Sound) {s : IotcState} (h : w.closeExternally s = some w') :
    ∃ us vs, Serves True w.q0Tasks w w' us vs := by
  rcases closeExternally_cases h with ⟨-, -, rfl⟩ | ⟨-, rfl⟩ | ⟨w₁, w₂, w₃, hd, -, h₁, h₂, h₃, rfl⟩
  · exact ⟨_, _, (call_calm w (o := .connectOnThis s) trivial rfl).serves⟩
  · exact ⟨_, _, (call_calm w (o := .closeExternallyOnNext s) trivial rfl).serves⟩
  · obtain ⟨hq, -, hout, -⟩ := saved_frame h₁
    obtain ⟨us, vs, hsplit, hexecuted, hguarded⟩ := stopCurrent_serves (hs.valid_of_saved hd h₁) h₂
    have hfree : executed w₃.context.out = executed w₂.context.out := by
      obtain rfl := freeLayerData_eq_some h₃
      exact (Calm.freeTasks w₂ _).executed
    have hempty : w₃.q0Tasks = [] ∧ w₃.context.connection = w₂.context.connection := by
      obtain rfl := freeLayerData_eq_some h₃
      exact ⟨rfl, rfl⟩
    have hcall :=
      call_calm w₃ (f := (·.closeExternallyOnNext s)) (o := .closeExternallyOnNext s) trivial rfl
    refine ⟨us, vs, hq ▸ hsplit, ?_, ?_, .inr (.inr ⟨trivial, hcall.q0Tasks.trans hempty.1⟩)⟩
    · rw [hcall.executed, hfree, hexecuted, hout]
    · rw [hcall.connectionState, hempty.2]
      exact hguarded

/-! ## A new task -/

theorem Pushed.serves {Q : List Task} (h : Pushed w t w') (hQ : Q = enqueued (setLogic t) w.q0Tasks) :
    (∃ us vs, Serves L w.q0Tasks w w' us vs) ∨
      t.qos = .atMostOnce ∧ ∃ us vs, Serves L Q w w' us vs := by
  subst hQ
  cases h with
  | refused s _ => exact .inl ⟨_, _, ((Calm.freeTasks w [t]).returns s).serves⟩
  | queued s _ hq _ => exact .inr ⟨hq, [], _, rfl, (List.append_nil _).symm, by simp, .inl rfl⟩
  | started s _ hq _ h =>
    obtain ⟨us, vs, hserves⟩ := h.serves (L := L)
    exact .inr ⟨hq, us, vs, hserves.split, hserves.executed, hserves.guarded, hserves.left⟩
  | deferred s _ _ _ => exact .inl ⟨_, _, .kept rfl rfl⟩
  | unset s _ _ _ _ => exact .inl ⟨_, _, .kept rfl rfl⟩
  | run s _ hq _ _ hr h =>
    have ho := execute_outcome hr
    have hqos := ho.task.qos
    obtain ⟨hq0, hout⟩ := h.kept (w := w.track (setLogic t)) ho (by rw [hqos]; simpa using hq)
    exact .inl ⟨_, _, .kept hq0 hout⟩

/-! ## Every call -/

/-- The call may free the layer data with the queue. -/
def Event.Drops : Event → Prop
  | .init _ | .closeExternally _ => True
  | _ => False

/-- The queue with the task that the call makes, if it makes one of QoS 0. -/
def Joined (w w' : World) (e : Event) (Q : List Task) : Prop :=
  Q = w.q0Tasks ∨ ∃ t, e.Makes w.nextTask t ∧ t.qos = .atMostOnce ∧ w.nextTask < w'.nextTask ∧
    Q = enqueued (setLogic t) w.q0Tasks

theorem Pushed.joined {W : World} {e : Event} (h : Pushed W.made t w') (hm : e.Makes w.nextTask t)
    (hq : W.q0Tasks = w.q0Tasks) (ho : W.context.out = w.context.out)
    (hnext : W.nextTask = w.nextTask) :
    ∃ Q us vs, w.Joined w' e Q ∧ Serves e.Drops Q w w' us vs := by
  have hlt : w.nextTask < w'.nextTask := by
    rw [h.nextTask, ← hnext]
    exact Nat.lt_succ_self _
  have hexecuted : executed W.made.context.out = executed w.context.out := by rw [← ho]; rfl
  have hW : W.made.q0Tasks = w.q0Tasks := hq
  rcases h.serves (L := e.Drops) rfl with ⟨us, vs, h⟩ | ⟨hqos, us, vs, h⟩ <;> rw [hW] at h
  · exact ⟨_, us, vs, .inl rfl, h.split, hexecuted ▸ h.executed, h.guarded, h.left⟩
  · exact ⟨_, us, vs, .inr ⟨t, hm, hqos, hlt, rfl⟩, h.split, hexecuted ▸ h.executed, h.guarded, h.left⟩

/-- **What a call does to the queue.** -/
theorem step_serves (hs : w.Sound) {e : Event} {o : Oracle} (h : step w (e, o) = some w') :
    ∃ Q us vs, w.Joined w' e Q ∧ Serves e.Drops Q w w' us vs := by
  have hs₀ := hs.withOracle o
  have hjoined (h : ∃ us vs, Serves e.Drops (w.withOracle o).q0Tasks (w.withOracle o) w' us vs) :
      ∃ Q us vs, w.Joined w' e Q ∧ Serves e.Drops Q w w' us vs := by
    obtain ⟨us, vs, h⟩ := h
    exact ⟨_, us, vs, .inl rfl, h.split, h.executed, h.guarded, h.left⟩
  change (w.withOracle o).stepWith e = some w' at h
  cases e with
  | submit q => exact (submit_pushed hs h).joined (W := w.withOracle o) rfl rfl rfl rfl
  | written msgId type success => exact hjoined (pushWritten_serves hs₀ h)
  | pull m s =>
    have hnext : { w.withOracle o with nextMessage := (w.withOracle o).nextMessage + 1 }.Sound :=
      { count := hs₀.count, current := hs₀.current, q0 := hs₀.q0, q12 := hs₀.q12
        q12Recv := hs₀.q12Recv, saved := hs₀.saved, timed := hs₀.timed, fresh := hs₀.fresh
        noData := hs₀.noData, data := hs₀.data }
    obtain ⟨us, vs, h⟩ := pull_serves (L := (Event.pull m s).Drops) hnext h
    exact ⟨_, us, vs, .inl rfl, h.split, h.executed, h.guarded, h.left⟩
  | fire id => exact hjoined (fire_serves hs₀ h)
  | keepalive =>
    obtain ⟨-, hcases⟩ := keepalive_cases hs₀ h
    rcases hcases with ⟨s, -, rfl⟩ | ⟨s, -, rfl⟩ | ⟨-, -, hpushed⟩
    · exact ⟨_, _, _, .inl rfl, .kept rfl rfl⟩
    · exact ⟨_, _, _, .inl rfl, .kept rfl rfl⟩
    · exact hpushed.joined (e := .keepalive) rfl rfl rfl rfl
  | connect s =>
    rcases connect_cases hs₀ h with ⟨-, rfl⟩ | ⟨s', -, rfl⟩ | ⟨rfl, -, hpushed⟩
    · have hcall := call_calm (w.withOracle o) (f := (·.connectOnNext s)) (o := .connectOnNext s)
        trivial rfl
      exact hjoined ⟨_, _, hcall.serves⟩
    · exact ⟨_, _, _, .inl rfl, .kept rfl rfl⟩
    · exact hpushed.joined (e := .connect .ok) ⟨rfl, rfl⟩ rfl rfl rfl
  | postConnect s => exact hjoined (postConnect_serves hs₀ h)
  | close s =>
    obtain rfl := Option.some.inj h
    exact hjoined ⟨_, _, (close_calm _ s).serves⟩
  | init s =>
    obtain rfl := Option.some.inj h
    exact hjoined ⟨_, _, init_serves (w.withOracle o) s⟩
  | closeExternally s => exact hjoined (closeExternally_serves hs₀ h)
  | connectTo d =>
    simp only [World.stepWith] at h
    split at h <;> obtain rfl := Option.some.inj h <;> exact ⟨_, _, _, .inl rfl, .kept rfl rfl⟩
  | closing =>
    obtain rfl := Option.some.inj h
    exact ⟨_, _, _, .inl rfl, .kept rfl rfl⟩
  | closed =>
    obtain rfl := Option.some.inj h
    exact ⟨_, _, _, .inl rfl, .kept rfl rfl⟩

/-! ## Each task is run once -/

/-- No task has been run twice, and none of the queue has been run. -/
structure Once (w : World) : Prop where
  once : (executed w.context.out).Nodup
  queued : ∀ t ∈ w.q0Tasks, t.id ∉ executed w.context.out
  made : ∀ i ∈ executed w.context.out, i < w.nextTask

theorem Valid.q0_distinct (hv : w.Valid) : DistinctIds w.q0Tasks := by
  refine List.nodup_iff_count.mpr fun i => ?_
  have hle := hv.count_le i
  have hcount : (w.q0Tasks.map Task.id).count i = countId i w.q0Tasks := by
    simp [countId, List.count, List.countP_map, Function.comp_def, beq_eq_decide]
  simp only [World.held, countId_append] at hle
  omega

theorem mem_held_of_q0 (h : t ∈ w.q0Tasks) : t ∈ w.held := by simp [World.held, h]

theorem Serves.mem_left (h : Serves L Q w w' us vs) (ht : t ∈ w'.q0Tasks) : t ∈ vs := by
  rcases h.left with hl | ⟨hl, -⟩ | ⟨-, hl⟩ <;> rw [hl] at ht
  · exact ht
  · exact (putBack_perm vs).mem_iff.mp ht
  · cases ht

/-- The tasks that the call finds in the queue have ids that are different, and have not been run. -/
theorem Once.joined (h : w.Once) (hs : w.Sound) {e : Event} (hJ : w.Joined w' e Q)
    (hnext : w.nextTask ≤ w'.nextTask) :
    DistinctIds Q ∧ ∀ t ∈ Q, t.id ∉ executed w.context.out ∧ t.id < w'.nextTask := by
  have hq (t : Task) (ht : t ∈ w.q0Tasks) : t.id < w.nextTask := hs.toValid.id_lt (mem_held_of_q0 ht)
  rcases hJ with rfl | ⟨t, hm, -, hlt, rfl⟩
  · exact ⟨hs.toValid.q0_distinct, fun t ht => ⟨h.queued t ht, Nat.lt_of_lt_of_le (hq t ht) hnext⟩⟩
  · have hid : (setLogic t).id = w.nextTask := by simpa using hm.id_eq
    have hperm := enqueued_perm (setLogic t) w.q0Tasks
    refine ⟨(hperm.map Task.id).nodup_iff.mpr (List.nodup_cons.mpr ⟨fun hmem => ?_, ?_⟩),
      fun u hu => ?_⟩
    · obtain ⟨u, hu, hut⟩ := List.mem_map.mp hmem
      have := hq u hu
      omega
    · exact hs.toValid.q0_distinct
    · rcases List.mem_cons.mp (hperm.mem_iff.mp hu) with rfl | hu
      · rw [hid]
        exact ⟨fun hmem => Nat.lt_irrefl _ (h.made _ hmem), hlt⟩
      · exact ⟨h.queued u hu, Nat.lt_of_lt_of_le (hq u hu) hnext⟩

theorem Once.served (h : w.Once) (hs : w.Sound) {e : Event} (hJ : w.Joined w' e Q)
    (hS : Serves L Q w w' us vs) (hnext : w.nextTask ≤ w'.nextTask) : w'.Once := by
  obtain ⟨hdistinct, hfresh⟩ := h.joined hs hJ hnext
  obtain rfl := hS.split
  rw [DistinctIds, List.map_append] at hdistinct
  obtain ⟨hus, -, hdisjoint⟩ := List.nodup_append.mp hdistinct
  refine ⟨?_, fun t ht hmem => ?_, fun i hi => ?_⟩
  · rw [hS.executed]
    refine List.nodup_append.mpr ⟨h.once, hus, fun i hi j hj hij => ?_⟩
    obtain ⟨u, hu, rfl⟩ := List.mem_map.mp hj
    exact (hfresh u (List.mem_append_left _ hu)).1 (hij ▸ hi)
  · have hv := hS.mem_left ht
    rw [hS.executed, List.mem_append] at hmem
    rcases hmem with hmem | hmem
    · exact (hfresh t (List.mem_append_right _ hv)).1 hmem
    · exact hdisjoint _ hmem _ (List.mem_map_of_mem hv) rfl
  · rw [hS.executed, List.mem_append] at hi
    rcases hi with hi | hi
    · exact Nat.lt_of_lt_of_le (h.made i hi) hnext
    · obtain ⟨u, hu, rfl⟩ := List.mem_map.mp hi
      exact (hfresh u (List.mem_append_left _ hu)).2

theorem step_once (h : w.Once) (hs : w.Sound) {e : Event × Oracle} (hstep : step w e = some w') :
    w'.Once := by
  obtain ⟨Q, us, vs, hJ, hS⟩ := step_serves hs hstep
  exact h.served hs hJ hS (step_nextTask_le hs hstep)

theorem initial_once : ({} : World).Once :=
  ⟨List.nodup_nil, fun _ h => (by cases h), fun _ h => (by cases h)⟩

theorem run_once {es : List (Event × Oracle)} (h : Infra.run step {} es = some w) :
    w.Once ∧ w.Sound :=
  Infra.run_invariant (P := fun w => w.Once ∧ w.Sound)
    (fun _ _ _ h hstep => ⟨step_once h.1 h.2 hstep, step_sound h.2 hstep⟩)
    ⟨initial_once, initial_sound⟩ h

/-- The layer takes the task `t`: it works, and does not shut down already if `t` is to do so. -/
def Takes (w : World) (t : Task) : Prop :=
  w.context.stopped = false ∧ ¬(t.scenario = .shutdown ∧ w.shuttingDown = true)

/-- What becomes of the QoS 0 tasks in a call: none is run twice, the new one is queued or run, and
a queued one stays queued until it is run, or the layer data are freed. -/
structure Accounted (w : World) (e : Event) (w' : World) : Prop extends Once w' where
  accepted : ∀ t, e.Makes w.nextTask t → t.qos = .atMostOnce → w.nextTask < w'.nextTask → w.Takes t →
    setLogic t ∈ w'.q0Tasks ∨ t.id ∈ executed w'.context.out
  kept : ∀ t ∈ w.q0Tasks, t ∈ w'.q0Tasks ∨ t.id ∈ executed w'.context.out ∨
    e.Drops ∧ w'.q0Tasks = []

theorem Serves.kept_or_run (h : Serves L Q w w' us vs) (ht : t ∈ Q) :
    t ∈ w'.q0Tasks ∨ t.id ∈ Logic.executed w'.context.out ∨ L ∧ w'.q0Tasks = [] := by
  rw [h.split] at ht
  rcases List.mem_append.mp ht with ht | ht
  · refine .inr (.inl ?_)
    rw [h.executed]
    exact List.mem_append_right _ (List.mem_map_of_mem ht)
  · rcases h.left with hl | ⟨hl, -⟩ | hl
    · exact .inl (hl ▸ ht)
    · exact .inl (hl ▸ (putBack_perm vs).mem_iff.mpr ht)
    · exact .inr (.inr hl)

theorem Pushed.serves_new {W : World} (h : Pushed W.made t w') (hqos : t.qos = .atMostOnce)
    (ht : W.Takes t) (hq : W.q0Tasks = w.q0Tasks) (ho : W.context.out = w.context.out) :
    ∃ us vs, Serves L (enqueued (setLogic t) w.q0Tasks) w w' us vs := by
  have hW : W.made.q0Tasks = w.q0Tasks := hq
  have hexecuted : executed W.made.context.out = executed w.context.out := by rw [← ho]; rfl
  cases h with
  | refused s hs =>
    rcases hs with hs | hs
    · exact absurd (ht.1.symm.trans hs) (by simp)
    · exact absurd hs ht.2
  | queued s _ _ _ =>
    refine ⟨[], _, rfl, ?_, by simp, .inl (congrArg (enqueued _) hW)⟩
    exact hexecuted.trans (List.append_nil _).symm
  | started s _ _ _ h =>
    obtain ⟨us, vs, h⟩ := h.serves (L := L)
    rw [enqueue_q0Tasks, hW] at h
    exact ⟨us, vs, h.split, hexecuted ▸ h.executed, h.guarded, h.left⟩
  | deferred s _ hq _ => exact absurd hqos hq
  | unset s _ hq _ _ => exact absurd hqos hq
  | run s _ hq _ _ _ _ => exact absurd hqos hq

/-- The layer takes a new task. -/
theorem step_takes (hs : w.Sound) {e : Event} {o : Oracle} (h : step w (e, o) = some w')
    (hm : e.Makes w.nextTask t) (hqos : t.qos = .atMostOnce) (hlt : w.nextTask < w'.nextTask)
    (ht : w.Takes t) : ∃ us vs, Serves e.Drops (enqueued (setLogic t) w.q0Tasks) w w' us vs := by
  have hs₀ := hs.withOracle o
  have hsame : ¬w.nextTask < w.nextTask := Nat.lt_irrefl _
  cases e with
  | submit q =>
    obtain rfl : t = q.task w.nextTask := hm
    exact (submit_pushed hs h).serves_new (W := w.withOracle o) hqos ht rfl rfl
  | keepalive =>
    change (w.withOracle o).doMqttKeepaliveOnce = some w' at h
    obtain ⟨-, hcases⟩ := keepalive_cases hs₀ h
    rcases hcases with ⟨s, -, rfl⟩ | ⟨s, -, rfl⟩ | ⟨-, -, hpushed⟩
    · exact absurd hlt hsame
    · exact absurd hlt hsame
    · obtain rfl : t = w.keepaliveTask := hm
      exact hpushed.serves_new hqos ht rfl rfl
  | connect s =>
    obtain ⟨rfl, rfl⟩ := hm
    change (w.withOracle o).connect .ok = some w' at h
    rcases connect_cases hs₀ h with ⟨hne, -⟩ | ⟨s', -, rfl⟩ | ⟨-, -, hpushed⟩
    · exact absurd rfl hne
    · exact absurd hlt hsame
    · exact hpushed.serves_new hqos ht rfl rfl
  | _ => exact hm.elim

theorem mem_enqueued (t : Task) (ts : List Task) : t ∈ enqueued t ts :=
  (enqueued_perm t ts).mem_iff.mpr List.mem_cons_self

/-- **Each QoS 0 task is run once**: in every run, no call runs a task that has been run, the tasks
that the layer takes are queued, and they stay so until they are run or the layer data are freed. -/
theorem queued_until_executed {es : List (Event × Oracle)} (h : Infra.run step {} es = some w)
    {e : Event} {o : Oracle} (hstep : step w (e, o) = some w') : w.Accounted e w' := by
  obtain ⟨honce, hs⟩ := run_once h
  refine ⟨step_once honce hs hstep, fun t hm hqos hlt ht => ?_, fun t ht => ?_⟩
  · obtain ⟨us, vs, hS⟩ := step_takes hs hstep hm hqos hlt ht
    rcases hS.kept_or_run (mem_enqueued (setLogic t) w.q0Tasks) with hq | hq | ⟨hdrops, -⟩
    · exact .inl hq
    · exact .inr (by simpa using hq)
    · cases e <;> first | exact hm.elim | exact hdrops.elim
  · obtain ⟨Q, us, vs, hJ, hS⟩ := step_serves hs hstep
    refine hS.kept_or_run ?_
    rcases hJ with rfl | ⟨u, -, -, -, rfl⟩
    · exact ht
    · exact (enqueued_perm _ _).mem_iff.mpr (List.mem_cons_of_mem _ ht)

/-- Two publishes of QoS 0 while the connection is being opened, and a shutdown. -/
def publishingTwice : List (Event × Oracle) :=
  let publish (data : Bytes) : Event := .submit (.publish (some [0x61]) data .atMostOnce false none)
  calls [.connectTo client, .init .ok, .connect .ok, publish [1], publish [2],
    .written 0 .connect true, .pull (some connack) .ok, .submit .shutdown, .written 0 .publish true]

theorem queued_until_executed_shutdown : ∃ w w', Infra.run step {} (publishingTwice.take 3) = some w ∧
    step w (.submit (.publish (some [0x61]) [1] .atMostOnce false none), {}) = some w' ∧
    w.Accounted (.submit (.publish (some [0x61]) [1] .atMostOnce false none)) w' := by
  obtain ⟨w, hw⟩ : ∃ w, Infra.run step {} (publishingTwice.take 3) = some w := ⟨_, rfl⟩
  obtain ⟨w', hw'⟩ : ∃ w', Infra.run step {} (publishingTwice.take 4) = some w' := ⟨_, rfl⟩
  have hstep : step w (.submit (.publish (some [0x61]) [1] .atMostOnce false none), {}) = some w' := by
    have hrun := Infra.run_concat step {} (publishingTwice.take 3)
      (.submit (.publish (some [0x61]) [1] .atMostOnce false none), {})
    rw [hw] at hrun
    exact hrun.symm.trans hw'
  exact ⟨w, w', hw, hstep, queued_until_executed hw hstep⟩

/-! ## The order -/

/-- The call makes a task of QoS 0 and of normal priority, if any. -/
def Event.Normal : Event → Bool
  | .submit (.publish _ _ qos _ _) => qos = .atMostOnce
  | .keepalive => true
  | _ => false

/-- The ids of the QoS 0 tasks of normal priority that have been made. -/
def observeNormal (w : World) (e : Event × Oracle) (w' : World) (ns : List Nat) : List Nat :=
  if e.1.Normal ∧ w.nextTask < w'.nextTask then ns ++ [w.nextTask] else ns

/-- No task waits for the connection behind another one. -/
def Unblocked (w : World) : Prop :=
  w.context.connection.connectionState = .opening → w.currentQ0Task = none → w.q0Tasks.length ≤ 1

/-- The queue is in order, and its normal tasks were made after those that have been run. `ns` are
the ids of all normal tasks. -/
structure Ordered (w : World) (ns : List Nat) : Prop where
  sorted : w.q0Tasks.Pairwise Task.Before
  known : ∀ t ∈ w.q0Tasks, t.id ∈ ns ↔ t.priority = .normal
  done : ((executed w.context.out).filter (· ∈ ns)).Pairwise (· < ·)
  ahead : ∀ i ∈ executed w.context.out, i ∈ ns → ∀ t ∈ w.q0Tasks, t.priority = .normal → i < t.id
  made : ∀ i ∈ ns, i < w.nextTask

theorem Event.Makes.priority_iff {id : Nat} {e : Event} (h : e.Makes id t) (hq : t.qos = .atMostOnce) :
    t.priority = .normal ↔ e.Normal = true := by
  cases e with
  | submit q =>
    obtain rfl : t = q.task id := h
    cases q with
    | publish topic data qos retain callback => simpa [Event.Normal, Request.task] using hq
    | subscribe topic qos handler => cases hq
    | shutdown => simp [Event.Normal, Request.task]
  | keepalive =>
    obtain rfl : t = _ := h
    simp [Event.Normal]
  | connect s =>
    obtain rfl : t = _ := h.2
    simp [Event.Normal]
  | _ => exact h.elim

theorem mem_observeNormal {e : Event × Oracle} {ns : List Nat} {i : Nat} :
    i ∈ observeNormal w e w' ns ↔
      i ∈ ns ∨ i = w.nextTask ∧ e.1.Normal = true ∧ w.nextTask < w'.nextTask := by
  unfold observeNormal
  split
  · next h => simp [h]
  · next h => simp [h]

/-- An id of a task that has been made before the call is not new. -/
theorem mem_observeNormal_of_lt {e : Event × Oracle} {ns : List Nat} {i : Nat} (hi : i < w.nextTask) :
    i ∈ observeNormal w e w' ns ↔ i ∈ ns := by
  rw [mem_observeNormal]
  exact or_iff_left fun h => absurd (h.1 ▸ hi) (Nat.lt_irrefl _)

variable {ns : List Nat} {e : Event} {o : Oracle}

/-- The queue is in order with the new task, too. -/
theorem Ordered.joined (h : w.Ordered ns) (hs : w.Sound) (ho : w.Once) (hJ : w.Joined w' e Q) :
    Q.Pairwise Task.Before ∧
      ∀ t ∈ Q, (t.id ∈ observeNormal w (e, o) w' ns ↔ t.priority = .normal) ∧
        ∀ i ∈ executed w.context.out, i ∈ ns → t.priority = .normal → i < t.id := by
  have hlt (t : Task) (ht : t ∈ w.q0Tasks) : t.id < w.nextTask := hs.toValid.id_lt (mem_held_of_q0 ht)
  have hold (t : Task) (ht : t ∈ w.q0Tasks) :
      (t.id ∈ observeNormal w (e, o) w' ns ↔ t.priority = .normal) ∧
        ∀ i ∈ executed w.context.out, i ∈ ns → t.priority = .normal → i < t.id :=
    ⟨(mem_observeNormal_of_lt (hlt t ht)).trans (h.known t ht), fun i hi hn => h.ahead i hi hn t ht⟩
  rcases hJ with rfl | ⟨t, hm, hqos, hnext, rfl⟩
  · exact ⟨h.sorted, hold⟩
  · have hid : (setLogic t).id = w.nextTask := by simpa using hm.id_eq
    refine ⟨enqueued_pairwise (fun u hu => hid ▸ hlt u hu) h.sorted, fun u hu => ?_⟩
    rcases List.mem_cons.mp ((enqueued_perm _ _).mem_iff.mp hu) with rfl | hu
    · rw [hid, setLogic_priority, hm.priority_iff hqos, mem_observeNormal]
      refine ⟨⟨fun hn => ?_, fun hn => .inr ⟨rfl, hn, hnext⟩⟩, fun i hi _ _ => ho.made i hi⟩
      rcases hn with hn | ⟨-, hn, -⟩
      · exact absurd (h.made _ hn) (Nat.lt_irrefl _)
      · exact hn
    · exact hold u hu

/-- What is left of the queue when no task has been put back behind another one. -/
theorem Serves.left_sublist (h : Serves L Q w w' us vs) (hU : w'.Unblocked) :
    w'.q0Tasks.Sublist vs := by
  rcases h.left with hl | ⟨hl, ho, hc⟩ | ⟨-, hl⟩ <;> rw [hl]
  · have hle := hU ho hc
    rw [hl] at hle
    rw [putBack_of_length_le hle]
  · exact List.nil_sublist _

theorem Ordered.served (h : w.Ordered ns) (hs : w.Sound) (ho : w.Once) (hJ : w.Joined w' e Q)
    (hS : Serves e.Drops Q w w' us vs) (hnext : w.nextTask ≤ w'.nextTask) (hU : w'.Unblocked) :
    w'.Ordered (observeNormal w (e, o) w' ns) := by
  obtain ⟨hsorted, hQ⟩ := h.joined (o := o) hs ho hJ
  obtain rfl := hS.split
  have hleft := hS.left_sublist hU
  obtain ⟨hus, hvs, hbefore⟩ := List.pairwise_append.mp hsorted
  have hmem (t : Task) (ht : t ∈ w'.q0Tasks) : t ∈ us ++ vs :=
    List.mem_append_right _ (hleft.subset ht)
  -- the tasks that have been run before are known by the same ids
  have hold (i : Nat) (hi : i ∈ executed w.context.out) :
      i ∈ observeNormal w (e, o) w' ns ↔ i ∈ ns := mem_observeNormal_of_lt (ho.made i hi)
  refine ⟨hvs.sublist hleft, fun t ht => (hQ t (hmem t ht)).1, ?_, fun i hi hn t ht htn => ?_,
    fun i hi => ?_⟩
  · rw [hS.executed, List.filter_append]
    refine List.pairwise_append.mpr ⟨?_, ?_, fun i hi j hj => ?_⟩
    · rw [List.filter_congr fun i hi => decide_eq_decide.mpr (hold i hi)]
      exact h.done
    · rw [List.filter_map, List.pairwise_map]
      refine (hus.filter _).imp_of_mem fun {t u} ht hu htu => ?_
      obtain ⟨ht, htn⟩ := List.mem_filter.mp ht
      obtain ⟨hu, hun⟩ := List.mem_filter.mp hu
      exact htu.lt ((hQ t (List.mem_append_left _ ht)).1.mp (by simpa using htn))
        ((hQ u (List.mem_append_left _ hu)).1.mp (by simpa using hun))
    · obtain ⟨hi, hin⟩ := List.mem_filter.mp hi
      obtain ⟨hj, hjn⟩ := List.mem_filter.mp hj
      obtain ⟨u, hu, rfl⟩ := List.mem_map.mp hj
      have hu := hQ u (List.mem_append_left _ hu)
      exact hu.2 i hi ((hold i hi).mp (by simpa using hin)) (hu.1.mp (by simpa using hjn))
  · rw [hS.executed, List.mem_append] at hi
    rcases hi with hi | hi
    · exact (hQ t (hmem t ht)).2 i hi ((hold i hi).mp hn) htn
    · obtain ⟨u, hu, rfl⟩ := List.mem_map.mp hi
      exact (hbefore u hu t (hleft.subset ht)).lt
        ((hQ u (List.mem_append_left _ hu)).1.mp hn) htn
  · rcases mem_observeNormal.mp hi with hi | ⟨rfl, -, hlt⟩
    · exact Nat.lt_of_lt_of_le (h.made i hi) hnext
    · exact hlt

/-- The call serves the queue in its order, and the tasks of normal priority have been run in the
order in which they were made. -/
structure InOrder (s : World × List Nat) (e : Event × Oracle) (s' : World × List Nat) : Prop where
  normal : ((executed s'.1.context.out).filter (· ∈ s'.2)).Pairwise (· < ·)
  served : ∃ Q us vs, s.1.Joined s'.1 e.1 Q ∧ Q.Pairwise Task.Before ∧
    Serves e.1.Drops Q s.1 s'.1 us vs

instance : DecidablePred Unblocked := fun w =>
  inferInstanceAs (Decidable (w.context.connection.connectionState = .opening →
    w.currentQ0Task = none → w.q0Tasks.length ≤ 1))

end World

end IotDeviceSdk.Mqtt.Logic
