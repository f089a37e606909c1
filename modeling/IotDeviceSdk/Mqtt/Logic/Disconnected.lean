import IotDeviceSdk.Mqtt.Logic.Handed

/-!
# Which calls hand something over

A call resumes tasks, or makes one and runs it; where a QoS 0 task ends, the next one is run.
`World.speaksUp` says of a call in which one of these tasks goes on to its message, and
`World.step_adds` that any other call hands over nothing. A call that hands over a DISCONNECT hands
over nothing else.
-/

namespace IotDeviceSdk.Mqtt.Logic

open Infra

namespace World

variable {w w' : World} {t : Task} {a : Args} {p : Place} {r : CoResult} {d b : Bool}

/-! ## The calls -/

/-- The next QoS 0 task does not wait when the current one has ended. It only sees whether the layer
has been `stopped` if it is a PUBLISH or a CONNECT. -/
def nextSpeaks (w : World) (stopped : Bool) : Bool :=
  w.q0Tasks.head?.any fun t => !stopped || t.scenario = .keepalive || t.scenario = .shutdown

/-- The layer is stopped when the task has ended: it is so already, or the task of a SHUTDOWN closes
it. -/
def stopsFor (w : World) (t : Task) : Bool :=
  t.scenario = .shutdown &&
    (w.context.stopped || w.context.alloc.1 && w.context.layerState = .connected)

/-- The task is resumed up to its message, or it ends and the next one is run. -/
def resumeSpeaks (w : World) (t : Task) (a : Args) : Bool :=
  utters w.context t a || t.qos = .atMostOnce && w.nextSpeaks (w.stopsFor t)

/-- The new task is run up to its message, or it lets others run. -/
def pushSpeaks (w : World) (t : Task) : Bool :=
  !w.context.stopped &&
    if t.qos = .atMostOnce then
      w.currentQ0Task.isNone &&
        (!w.q0Tasks.isEmpty || utters w.context (setLogic t) ⟨true, .ok, none⟩)
    else
      w.context.connection.connectionState = .opened && (setLogic t).logic.isSome &&
        utters w.context (setLogic t) ⟨true, .ok, none⟩

/-- **A call runs a task up to its message.** The world has the oracle of the call. -/
def speaksUp (w : World) : Event → Bool
  | .submit q => w.pushSpeaks (q.task w.nextTask)
  | .written msgId type success =>
    !w.context.stopped && (w.notified msgId type).any fun n => n.2.logic.any fun a =>
      w.resumeSpeaks n.2 { a with state := if success then .written else .failedWriting }
  | .pull m s =>
    !w.context.stopped && s = .ok && m.any fun m =>
      let message : Received := ⟨w.nextMessage, m⟩
      if m.type = .publish then
        m.qos = 1 && w.context.alloc.1 &&
          utters w.context.alloc.2 (w.answering message) ⟨true, .ok, some message⟩
      else
        (w.answered m).any fun n => n.2.logic.any fun a =>
          w.resumeSpeaks n.2 { a with state := .ok, message := some message }
  | .fire id =>
    (w.context.timeouts id).any fun timeout => w.held.any fun t => t.id = id &&
      (timeout.utters w.context t || t.qos = .atMostOnce && w.nextSpeaks (w.stopsFor t))
  | .keepalive => w.context.layerData && w.context.alloc.1 && w.alloc.2.pushSpeaks w.keepaliveTask
  | .connect s => s = .ok && w.context.alloc.1 && w.alloc.2.pushSpeaks w.connectTask
  | .postConnect _ =>
    w.context.layerData && w.q12Tasks.any fun t => t.sessionState = .store &&
      t.logic.any fun a => speaks w.context t { a with context := true, state := .resend }
  | .closeExternally s =>
    w.context.layerData && (s = .ok || w.context.layerState ≠ .connecting) &&
      w.currentQ0Task.any fun t => t.logic.any fun a =>
        w.resumeSpeaks t { a with state := .timeout }
  | _ => false

/-! ## Runs of QoS 0 tasks -/

/-- Nothing more has been handed over, or one message if that can follow. -/
def Extends (d : Bool) (c c' : Context) : Prop :=
  c'.handed = c.handed ∨ d = false ∧ ∃ m, c'.handed = c.handed ++ [.said m]

theorem Extends.congr {c c₁ c' : Context} (h : Extends d c c') (hc : c.handed = c₁.handed) :
    Extends d c₁ c' := by
  rw [Extends, ← hc]
  exact h

theorem Extends.trans_eq {c c' c'' : Context} (h : Extends d c c') (hc : c''.handed = c'.handed) :
    Extends d c c'' := by
  rw [Extends, hc]
  exact h

theorem hands_follows {c : Context} (h : Hands c b r)
    (hb : d = true → b = false) : Extends d c r.context := by
  rcases h with h | ⟨rfl, -, m, h⟩
  · exact .inl h
  · refine .inr ⟨?_, m, h⟩
    cases d with
    | false => rfl
    | true => cases hb rfl

theorem freeTasks_handed (w : World) (ts : List Task) :
    (w.freeTasks ts).context.handed = w.context.handed := by
  have hnone : (ts.map (Output.freeTask ·.id)).filterMap Output.entry? = [] := by
    simp [List.filterMap_eq_nil_iff, Output.entry?]
  simp [freeTasks, World.withContext, Context.handed, hnone]

theorem freeCurrent_handed (w : World) : w.freeCurrent.context.handed = w.context.handed := by
  unfold freeCurrent
  split
  · next t _ => exact (freeTasks_handed _ [t]).trans (w.context.cancelTaskTimeout_handed t.id)
  · rfl

theorem freeCurrent_stopped (w : World) : w.freeCurrent.context.stopped = w.context.stopped := by
  unfold freeCurrent
  split
  · next t _ => exact cancelTaskTimeout_stopped w.context t.id
  · rfl

/-- A PUBLISH or a CONNECT does not end while the layer has stopped. -/
theorem execute_stopped {c : Context} (hq : t.Queued) (hst : c.stopped = true)
    (hs : t.scenario ≠ .keepalive ∧ t.scenario ≠ .shutdown) (h : execute c t a = some r) :
    r.exit.final = false := by
  unfold execute at h
  split at h
  · rcases hq.scenario with hsc | ⟨d, hsc⟩ | hsc | hsc
    · simp only [coroutine, hsc, doMqttConnect, hst, if_true] at h
      obtain rfl := Option.some.inj h
      rfl
    · simp only [coroutine, hsc, hq.qos, doMqttPublishQ0, hst, if_true] at h
      split at h
      · cases h
      · obtain rfl := Option.some.inj h
        rfl
    · exact absurd hsc hs.1
    · exact absurd hsc hs.2
  · cases h

/-- Nothing is handed over by what does not ask for it. -/
theorem utters_of_stopped {c : Context} (hq : t.Queued) (hst : c.stopped = true)
    (hs : t.scenario ≠ .keepalive ∧ t.scenario ≠ .shutdown) : utters c t a = false := by
  rcases hq.scenario with hsc | ⟨d, hsc⟩ | hsc | hsc
  · simp [utters, speaks, hsc, hst]
  · simp [utters, speaks, hsc, hq.qos, hst]
  · exact absurd hsc hs.1
  · exact absurd hsc hs.2

theorem started_handed (w : World) (t : Task) (ts : List Task) :
    (w.started t ts).context.handed = w.context.handed := w.context.record_handed rfl

/-- The tasks that are started hand over one message at most. -/
theorem Starts.extends_false (h : Starts w w') : Extends false w.context w'.context := by
  induction h with
  | empty s => exact .inl rfl
  | wait s => exact .inl rfl
  | @keep w t ts a r s hc hq hw hl hr he =>
    refine ((hands_follows (d := false) (execute_hands hr) Bool.noConfusion).trans_eq ?_).congr
      (started_handed w t ts)
    rw [returns, ran_context]
  | @next w w' t ts a r s hc hq hw hl hr he hu h ih =>
    refine ih.congr ?_
    rw [freeCurrent_handed, ran_context, ← started_handed w t ts]
    rcases execute_hands hr with hr | ⟨-, he', -⟩
    · exact hr
    · rw [he] at he'
      cases he'

/-- They hand over nothing if the first of them does not. -/
theorem Starts.handed_eq (h : Starts w w') (hq0 : ∀ t ∈ w.q0Tasks, t.Queued)
    (hn : w.nextSpeaks w.context.stopped = false) : w'.context.handed = w.context.handed := by
  have hfirst {t : Task} {ts : List Task} (hq : w.q0Tasks = t :: ts) : t.Queued ∧
      (w.started t ts).context.stopped = true ∧ t.scenario ≠ .keepalive ∧ t.scenario ≠ .shutdown := by
    have hst : w.context.stopped = true ∧ t.scenario ≠ .keepalive ∧ t.scenario ≠ .shutdown := by
      simpa [nextSpeaks, hq, and_assoc] using hn
    exact ⟨hq0 t (hq ▸ List.mem_cons_self), hst⟩
  cases h with
  | empty s => rfl
  | wait s => rfl
  | keep s hc hq hw hl hr he =>
    obtain ⟨hqueued, hst, hs⟩ := hfirst hq
    have := execute_hands hr
    rw [utters_of_stopped hqueued hst hs] at this
    rw [returns, ran_context, ← started_handed w]
    exact this.resolve_right fun h => Bool.noConfusion h.1
  | next s hc hq hw hl hr he hu h =>
    obtain ⟨hqueued, hst, hs⟩ := hfirst hq
    rw [execute_stopped hqueued hst hs hr] at he
    cases he

theorem Starts.follows (h : Starts w w') (hq0 : ∀ t ∈ w.q0Tasks, t.Queued)
    (hn : d = true → w.nextSpeaks w.context.stopped = false) : Extends d w.context w'.context := by
  cases d with
  | false => exact h.extends_false
  | true => exact .inl (h.handed_eq hq0 (hn rfl))

/-! ## One run of a coroutine -/

theorem drop_handed (w : World) (t : Task) (p : Place) :
    (w.drop t p).context.handed = w.context.handed := by
  cases p with
  | current => rfl
  | q12 => exact freeTasks_handed w [t]
  | q12Recv => exact freeTasks_handed w [t]
  | leaked => exact freeTasks_handed w [t]

/-- What follows a run that hands over one message at most. -/
theorem Settled.follows {c : Context} (h : Settled w p r w') (hq0 : ∀ t ∈ w.q0Tasks, t.Queued)
    (hr : Hands c b r) (hb : d = true → b = false)
    (hn : d = true → r.task.qos = .atMostOnce → r.exit.final = true →
      w.nextSpeaks r.context.stopped = false) : Extends d c w'.context := by
  induction h with
  | keep s he =>
    refine (hands_follows hr hb).trans_eq ?_
    rw [returns, ran_context]
  | drop s he hq hu =>
    refine (hands_follows hr hb).trans_eq ?_
    rw [returns, drop_handed, ran_context]
  | @next w' s he hq hu hd h =>
    -- the task has ended, so that it has handed over nothing
    have hsame : (w.ran p r).freeCurrent.context.handed = c.handed := by
      rw [freeCurrent_handed, ran_context]
      rcases hr with hr | ⟨-, he', -⟩
      · exact hr
      · rw [he] at he'
        cases he'
    refine (h.follows (d := d) (fun t ht => ?_) fun hd => ?_).congr hsame
    · rw [freeCurrent_q0Tasks, ran_q0Tasks] at ht
      exact hq0 t ht
    · rw [freeCurrent_stopped, ran_context, nextSpeaks, freeCurrent_q0Tasks, ran_q0Tasks]
      exact hn hd hq he
  | reset s he h ih => exact ih.trans_eq (Context.record_handed _ rfl)

/-- A SHUTDOWN that ends has closed the layer, if it could. -/
theorem shutdown_stops {c : Context} (hs : t.scenario = .shutdown)
    (hstop : c.stopped = true ∨ c.alloc.1 = true ∧ c.layerState = .connected)
    (h : execute c t a = some r) (he : r.exit.final = true) : r.context.stopped = true := by
  unfold execute at h
  split at h
  · simp only [coroutine, hs, doShutdown] at h
    split at h
    · obtain rfl := Option.some.inj h
      cases he
    · next hdata =>
      simp only [Bool.not_eq_true', Bool.not_eq_false] at hdata
      split at h
      · obtain rfl := Option.some.inj h
        simp only [close, hdata, if_true, Context.closeOnPrev, Context.continueWith]
        split
        · rcases hstop with hst | ⟨-, hst⟩
          · have hclosed : c.layerState.notOperational = true := by
              simpa [Context.stopped, hdata] using hst
            cases hls : c.layerState <;>
              simp_all [Context.stopped, LayerState.afterClose, LayerState.notOperational]
          · simp [Context.stopped, hst, LayerState.afterClose, LayerState.notOperational]
        · next hno =>
          rcases hstop with hst | ⟨hyes, -⟩
          · exact hst
          · exact absurd hyes hno
      · split at h
        · obtain rfl := Option.some.inj h
          cases he
        · obtain rfl := Option.some.inj h
          cases he
  · cases h

/-- A SHUTDOWN has no time event. -/
theorem not_fits_shutdown {timeout : TaskTimeout} (hs : t.scenario = .shutdown) :
    ¬timeout.Fits t := by
  intro hfits
  cases timeout with
  | resume s => simp [TaskTimeout.Fits, hs] at hfits
  | keepalive m => simp [TaskTimeout.Fits, hs] at hfits
  | connect => simp [TaskTimeout.Fits, hs] at hfits

theorem nextSpeaks_stopped {s : Bool} (hn : w.nextSpeaks s = false) (hs : s = true → b = true) :
    w.nextSpeaks b = false := by
  cases hq : w.q0Tasks with
  | nil => simp [nextSpeaks, hq]
  | cons t ts =>
    simp only [nextSpeaks, hq, List.head?_cons, Option.any_some, Bool.or_eq_false_iff,
      Bool.not_eq_false'] at hn ⊢
    exact ⟨⟨hs hn.1.1, hn.1.2⟩, hn.2⟩

/-- **A task that is resumed** hands over nothing unless `resumeSpeaks` says so. -/
theorem resume_follows (hq0 : ∀ t ∈ w.q0Tasks, t.Queued) {set : Args → Args}
    (hd : d = true → ∀ a, t.logic = some a → w.resumeSpeaks t (set a) = false)
    (h : w.resume p t set = some w') : Extends d w.context w'.context := by
  rcases resume_cases hq0 h with ⟨-, rfl⟩ | ⟨a, r, hl, hr, hsettled⟩
  · exact .inl rfl
  · have hsilent (htrue : d = true) : utters w.context t (set a) = false ∧
        (t.qos = .atMostOnce → w.nextSpeaks (w.stopsFor t) = false) := by
      have := hd htrue a hl
      simpa [resumeSpeaks] using this
    have ho := execute_outcome hr
    refine hsettled.follows hq0 (execute_hands hr) (fun htrue => (hsilent htrue).1) fun htrue hq he => ?_
    refine nextSpeaks_stopped ((hsilent htrue).2 (ho.task.qos.symm.trans hq)) fun hstop => ?_
    simp only [stopsFor, Bool.and_eq_true, Bool.or_eq_true, decide_eq_true_eq] at hstop
    exact shutdown_stops (t := { t with logic := some (set a) }) hstop.1 hstop.2 hr he

/-- A task whose time event runs. -/
theorem fire_follows (hs : w.Sound) {id : Nat} (hd : d = true → w.speaksUp (.fire id) = false)
    (h : w.fire id = some w') : Extends d w.context w'.context := by
  obtain ⟨timeout, t, p, r, htimeout, rfl, hp, hr, hsettled⟩ := fire_cases hs.q0 h
  have hsilent (htrue : d = true) : timeout.utters w.context t = false ∧
      (t.qos = .atMostOnce → w.nextSpeaks (w.stopsFor t) = false) := by
    have := hd htrue
    simp only [speaksUp, htimeout, Option.any_some, List.any_eq_false] at this
    simpa using this t hp.mem_held
  have ho := TaskTimeout.run_outcome hr
  refine (hsettled.follows (c := w.context.disarm t.id) hs.q0 (TaskTimeout.run_hands hr) (fun htrue => (hsilent htrue).1)
    fun htrue hq he => ?_).congr rfl
  refine nextSpeaks_stopped ((hsilent htrue).2 (ho.task.qos.symm.trans hq)) fun hstop => ?_
  simp only [stopsFor, Bool.and_eq_true, decide_eq_true_eq] at hstop
  exact absurd (hs.timed t hp.mem_held timeout htimeout) (not_fits_shutdown hstop.1)

/-- A task that is the only one in the queue. -/
theorem Starts.handed_eq_of_single (h : Starts w w') (hq : w.q0Tasks = [t])
    (hu : ∀ a, t.logic = some a → utters w.context t a = false) :
    w'.context.handed = w.context.handed := by
  have hsilent {u : Task} {us : List Task} {a : Args} {r : CoResult}
      (hq' : w.q0Tasks = u :: us) (hl : u.logic = some a)
      (hr : execute (w.started u us).context u a = some r) :
      us = [] ∧ r.context.handed = w.context.handed := by
    obtain ⟨rfl, rfl⟩ := List.cons.inj (hq.symm.trans hq')
    have hr := execute_hands hr
    have hu : utters (w.started t []).context t a = false := hu a hl
    rw [hu] at hr
    refine ⟨rfl, (hr.resolve_right fun h => Bool.noConfusion h.1).trans (started_handed w t [])⟩
  cases h with
  | empty s => rfl
  | wait s => rfl
  | @keep _ u us a r s hc hq' hw hl hr he =>
    rw [returns, ran_context]
    exact (hsilent hq' hl hr).2
  | @next _ w₁ u us a r s hc hq' hw hl hr he hun h =>
    obtain ⟨rfl, hsame⟩ := hsilent hq' hl hr
    have hempty : ((w.started u []).ran .current r).freeCurrent.q0Tasks = [] := by
      rw [freeCurrent_q0Tasks, ran_q0Tasks]
      rfl
    cases h with
    | empty s => rw [← hsame, returns, returns, freeCurrent_handed, ran_context]
    | wait s hc hq => rw [hempty] at hq; cases hq
    | keep s hc hq => rw [hempty] at hq; cases hq
    | next s hc hq => rw [hempty] at hq; cases hq

/-- **A new task** hands over nothing unless `pushSpeaks` says so. -/
theorem Pushed.follows (h : Pushed w t w') (hq0 : ∀ t ∈ w.q0Tasks, t.Queued) (hn : New t)
    (hd : d = true → w.pushSpeaks t = false) : Extends d w.context w'.context := by
  cases h with
  | refused s _ => exact .inl (freeTasks_handed w [t])
  | queued s hs hq hc => exact .inl rfl
  | deferred s hs hq ho => exact .inl rfl
  | unset s hs hq ho hl => exact .inl rfl
  | @started w' s hs hq hc h =>
    cases d with
    | false => exact h.extends_false
    | true =>
      have hsilent : w.q0Tasks = [] ∧ utters w.context (setLogic t) ⟨true, .ok, none⟩ = false := by
        simpa [pushSpeaks, hs, hq, hc] using hd rfl
      have hsingle : (w.enqueue (setLogic t)).q0Tasks = [setLogic t] := by
        simp only [enqueue, hsilent.1]
        split <;> rfl
      refine .inl (h.handed_eq_of_single hsingle fun a ha => ?_)
      obtain rfl := Option.some.inj ((hn.queued hq).logic.symm.trans ha)
      exact hsilent.2
  | @run w' r s hs hq ho hl hr h =>
    refine (h.follows (c := w.context) hq0 (execute_hands hr) (fun htrue => ?_) fun _ hq' _ => ?_)
    · have hsilent : utters w.context (setLogic t) ⟨true, .ok, none⟩ = false := by
        have := hd htrue
        rw [pushSpeaks, hs, if_neg hq, ho, hl] at this
        simpa using this
      exact hsilent
    · have := (execute_outcome hr).task.qos
      rw [hq', setLogic_qos] at this
      exact absurd this.symm hq

/-! ## Calls that resume a task -/

theorem call_handed (w : World) {f : Context → IotcState × Context} {o : Output}
    (ho : o.entry? = none) {next : LayerState} (hf : f w.context = w.context.continueWith o next) :
    (w.call f).context.handed = w.context.handed := by
  simp only [World.call, hf]
  exact w.context.continueWith_handed ho next

theorem pullErrHandling_handed (w : World) (m : Option Received) (s : IotcState) :
    (w.pullErrHandling m s).context.handed = w.context.handed := w.context.freeMessage_handed m

theorem pushWritten_follows (hq0 : ∀ t ∈ w.q0Tasks, t.Queued) {msgId : Nat} {type : MqttType} {success : Bool}
    (hd : d = true → w.speaksUp (.written msgId type success) = false)
    (h : w.pushWritten msgId type (if success then .written else .failedWriting) = some w') :
    Extends d w.context w'.context := by
  unfold World.pushWritten at h
  split at h
  · exact Option.some.inj h ▸ .inl rfl
  · next hst =>
    -- the task that is resumed is the one that has been notified
    have hresume {p : Place} {t : Task} (hn : w.notified msgId type = some (p, t))
        (h : w.resume p t (fun a => { a with state := if success then .written else .failedWriting }) =
          some w') : Extends d w.context w'.context := by
      refine resume_follows hq0 (fun htrue a ha => ?_) h
      have := hd htrue
      simpa [speaksUp, hst, hn, ha] using this
    split at h
    · next hz =>
      split at h
      · next t hc => exact hresume (by simp [notified, hz, hc]) h
      · exact Option.some.inj h ▸ .inl rfl
    · next hz =>
      split at h
      · cases h
      · next p ts hq =>
        split at h
        · next t ht => exact hresume (by simp [notified, hz, hq, ht]) h
        · exact Option.some.inj h ▸ .inl rfl

theorem registerPublish_follows (hq0 : ∀ t ∈ w.q0Tasks, t.Queued) {m : Received}
    (hd : d = true → (w.context.alloc.1 &&
      utters w.context.alloc.2 (w.answering m) ⟨true, .ok, some m⟩) = false)
    (h : w.registerPublish m = some w') : Extends d w.context w'.context := by
  unfold World.registerPublish at h
  simp only at h
  split at h
  · next halloc =>
    split at h
    · cases h
    · change (w.alloc.2.register m).resume .q12Recv (w.answering m) id = some w' at h
      refine (resume_follows (w := w.alloc.2.register m) hq0 (fun htrue a ha => ?_) h).congr rfl
      obtain rfl := Option.some.inj ha
      have hsilent := hd htrue
      rw [show w.context.alloc.1 = true from halloc, Bool.true_and] at hsilent
      have hq : (w.answering m).qos ≠ .atMostOnce := Qos.noConfusion
      rw [resumeSpeaks, decide_eq_false hq, Bool.false_and, Bool.or_false]
      exact hsilent
  · exact Option.some.inj h ▸ .inl (w.context.alloc.2.freeMessage_handed (some m))

theorem pull_follows (hq0 : ∀ t ∈ w.q0Tasks, t.Queued) {m : Option Message} {s : IotcState}
    (hd : d = true → w.speaksUp (.pull m s) = false)
    (h : { w with nextMessage := w.nextMessage + 1 }.pull (m.map (⟨w.nextMessage, ·⟩)) s = some w') :
    Extends d w.context w'.context := by
  set w₀ : World := { w with nextMessage := w.nextMessage + 1 } with hw₀
  unfold World.pull at h
  split at h
  · exact Option.some.inj h ▸ .inl (pullErrHandling_handed w₀ _ s)
  · next hst =>
    replace hst : w.context.stopped = false := Bool.not_eq_true _ ▸ hst
    split at h
    · refine Option.some.inj h ▸ .inl ((pullErrHandling_handed _ _ s).trans ?_)
      exact call_handed w₀ (o := .closeOnThis .backoffTerminal) rfl rfl
    · split at h
      · next hok =>
        cases m with
        | none => cases h
        | some m =>
          set message : Received := ⟨w.nextMessage, m⟩ with hmessage
          -- the task that is resumed is the one that the message answers
          have hresume {p : Place} {t : Task} (htype : m.type ≠ .publish)
              (hn : w.answered m = some (p, t))
              (h : w₀.resume p t (fun a => { a with state := .ok, message := some message }) =
                some w') : Extends d w.context w'.context := by
            refine (resume_follows (w := w₀) hq0 (fun htrue a ha => ?_) h).congr rfl
            have := hd htrue
            have hsilent : w.resumeSpeaks t { a with state := .ok, message := some message } = false := by
              simpa [speaksUp, hst, hok, htype, hn, ha] using this
            exact hsilent
          simp only [Option.map_some] at h
          unfold World.pullMessage at h
          dsimp only at h
          split at h
          · next htype =>
            unfold onPublishRecieved at h
            split at h
            · obtain ⟨c, hc, rfl⟩ := Option.map_eq_some_iff.mp h
              exact .inl (Context.callTopicHandler_handed hc)
            · next hqos =>
              refine (registerPublish_follows (w := w₀) hq0 (fun htrue => ?_) h).congr rfl
              have := hd htrue
              have hsilent : (w.context.alloc.1 &&
                  utters w.context.alloc.2 (w.answering message) ⟨true, .ok, some message⟩) = false := by
                simpa [speaksUp, hst, hok, show m.type = .publish from htype,
                  show m.qos = 1 from hqos] using this
              exact hsilent
            · exact Option.some.inj h ▸ .inl rfl
          · next htype =>
            split at h
            · next hz =>
              split at h
              · exact Option.some.inj h ▸ .inl (pullErrHandling_handed w₀ _ _)
              · next p ts hq =>
                split at h
                · next t ht =>
                  refine hresume htype ?_ h
                  simp only [answered, if_neg (show ¬m.type = .publish from htype),
                    if_pos (show m.getMessageId > 0 from hz)]
                  rw [show w.queueOf _ = _ from hq, Option.bind_some, show findTask _ _ = _ from ht]
                  rfl
                · exact Option.some.inj h ▸ .inl (pullErrHandling_handed w₀ _ _)
            · next hz =>
              split at h
              · cases h
              · next t hc =>
                split at h
                · cases h
                · refine hresume htype ?_ h
                  simp only [answered, if_neg (show ¬m.type = .publish from htype),
                    if_neg (show ¬m.getMessageId > 0 from hz)]
                  rw [show w.currentQ0Task = _ from hc]
                  rfl
      · exact Option.some.inj h ▸ .inl (pullErrHandling_handed w₀ _ s)

/-! ## A teardown -/

theorem saved_frame (h : w.saved = some w') : w'.q0Tasks = w.q0Tasks ∧
    w'.currentQ0Task = w.currentQ0Task ∧ w'.context.out = w.context.out ∧
      w'.context.layerState = w.context.layerState ∧ w'.context.layerData = w.context.layerData ∧
        w'.context.mem = w.context.mem := by
  have hcancel : ∀ (ts : List Task) (c : Context),
      (cancelTimeouts ts c).layerState = c.layerState ∧ (cancelTimeouts ts c).mem = c.mem := by
    intro ts
    induction ts with
    | nil => exact fun _ => ⟨rfl, rfl⟩
    | cons t ts ih =>
      intro c
      obtain ⟨hs, hm⟩ := ih (c.cancelTaskTimeout t.id)
      refine ⟨hs.trans ?_, hm.trans ?_⟩ <;> unfold Context.cancelTaskTimeout <;> split <;> rfl
  have hc := hcancel (w.q12Tasks ++ w.q12RecvTasks) w.context
  have hf := cancelTimeouts_frame (w.q12Tasks ++ w.q12RecvTasks) w.context
  rcases saved_cases h with ⟨-, h⟩ | ⟨-, rfl⟩
  · unfold saveSession at h
    split at h
    · cases h
    · obtain rfl := Option.some.inj h
      exact ⟨rfl, rfl, hf.2.2, hc.1, hf.1, hc.2⟩
  · exact ⟨rfl, rfl, hf.2.2, hc.1, hf.1, hc.2⟩

/-- Which tasks go on to a message depends on the memory and on whether the layer works. -/
theorem resumeSpeaks_congr (hq : w'.q0Tasks = w.q0Tasks)
    (hs : w'.context.layerState = w.context.layerState)
    (hl : w'.context.layerData = w.context.layerData) (hm : w'.context.mem = w.context.mem)
    (t : Task) (a : Args) : w'.resumeSpeaks t a = w.resumeSpeaks t a := by
  simp only [resumeSpeaks, utters, speaks, nextSpeaks, stopsFor, Context.granted, Context.alloc,
    Context.stopped, hq, hs, hl, hm]

theorem closeExternally_follows (hs : w.Sound) {s : IotcState}
    (hd : d = true → w.speaksUp (.closeExternally s) = false) (h : w.closeExternally s = some w') :
    Extends d w.context w'.context := by
  rcases closeExternally_cases h with ⟨-, -, rfl⟩ | ⟨-, rfl⟩ | ⟨w₁, w₂, w₃, hdata, htd, h₁, h₂, h₃, rfl⟩
  · exact .inl (call_handed w (o := .connectOnThis s) rfl rfl)
  · exact .inl (call_handed w (o := .closeExternallyOnNext s) rfl rfl)
  · obtain ⟨hq, hc, hout, hstate, hl, hm⟩ := saved_frame h₁
    have hsame : w₁.context.handed = w.context.handed := Context.handed_congr hout
    refine Extends.trans_eq ?_ (call_handed w₃ (o := .closeExternallyOnNext s) rfl rfl)
    obtain rfl := freeLayerData_eq_some h₃
    refine Extends.trans_eq ?_ (freeTasks_handed w₂ _)
    rcases stopCurrent_cases h₂ with ⟨-, rfl⟩ | ⟨t, w₄, ht, h₄, rfl⟩
    · exact .inl hsame
    · refine Extends.trans_eq ?_ (freeTasks_handed _ w₄.currentQ0Task.toList)
      refine (resume_follows (w := w₁.withContext (w₁.context.disarm t.id)) (hq ▸ hs.q0)
        (fun htrue a ha => ?_) h₄).congr hsame
      have hcond : (s = .ok ∨ w.context.layerState ≠ .connecting) := htd
      have hsilent : w.resumeSpeaks t { a with state := .timeout } = false := by
        have := hd htrue
        simpa [speaksUp, hdata, hcond, hc ▸ ht, ha] using this
      rw [← hsilent]
      exact resumeSpeaks_congr hq hstate hl hm t _

/-! ## Sending again -/

/-- A message that a run hands over is one of its task. -/
theorem execute_sends {c : Context} {m : Message} (h : execute c t a = some r)
    (hm : r.context.handed = c.handed ++ [.said m]) : t.Sends m := by
  obtain ⟨os, hout, hof⟩ := (execute_outcome h).context.out
  have hos : os.filterMap Output.entry? = [.said m] := by
    rw [Context.handed, hout, List.filterMap_append] at hm
    exact List.append_cancel_left hm
  have hmem : Entry.said m ∈ os.filterMap Output.entry? := hos ▸ List.mem_singleton_self _
  obtain ⟨o, ho, he⟩ := List.mem_filterMap.mp hmem
  have := hof o ho
  cases o with
  | push task m' =>
    obtain rfl : m' = m := by simpa [Output.entry?] using he
    exact this.2
  | initOnPrev s => simp [Output.entry?] at he
  | _ => cases he

theorem commonBits_div {n : Nat} (hn : n < 16) (dup : Bool) (qos : Qos) (retain : Bool) :
    (commonBits n dup qos retain).toNat / 16 = n := by
  cases dup <;> cases qos <;> cases retain <;>
    simp only [commonBits, bit, Qos.bits, UInt8.toNat_ofNat', Bool.false_eq_true, if_true,
      if_false] <;> omega

theorem isLast_of_commonBits {m : Message} {n : Nat} {dup retain : Bool} {qos : Qos}
    (h : m.commonValue = commonBits n dup qos retain) (hn : n < 14) : isLast m = false := by
  rw [isLast, Message.type, h, commonBits_div (by omega)]
  refine decide_eq_false ?_
  unfold MqttType.ofBits
  split <;> first | exact MqttType.noConfusion | omega

theorem isLast_publish {m : Message} {topic : Option Bytes} {cnt : Bytes} {qos : Qos} {retain dup : Bool} {id : Nat}
    (h : fillWithPublishData topic cnt qos retain dup id = .ok m) : isLast m = false := by
  unfold fillWithPublishData at h
  split at h
  · cases h
  · split at h
    · cases h
    · obtain rfl := Except.ok.inj h
      exact isLast_of_commonBits (n := 3) rfl (by decide)

/-- Only a SHUTDOWN sends a DISCONNECT. -/
theorem isLast_of_sends {m : Message} (hs : t.Sends m) (ht : t.scenario ≠ .shutdown) :
    isLast m = false := by
  unfold Task.Sends at hs
  split at hs
  · obtain ⟨c, hc⟩ := hs
    unfold fillWithConnectData at hc
    split at hc
    · cases hc
    · cases hc
    · cases hc
    · obtain rfl := Except.ok.inj hc
      exact isLast_of_commonBits (n := 1) rfl (by decide)
  · exact isLast_publish hs
  · obtain ⟨dup, hs⟩ := hs
    exact isLast_publish hs
  · obtain rfl := hs
    exact isLast_of_commonBits (n := 4) rfl (by decide)
  · obtain ⟨dup, rfl⟩ := hs
    exact isLast_of_commonBits (n := 8) rfl (by decide)
  · obtain rfl := hs
    exact isLast_of_commonBits (n := 12) rfl (by decide)
  · next hsc => exact absurd hsc ht
  · exact hs.elim

/-- A task with an id. -/
def Numbered (t : Task) : Prop :=
  t.qos ≠ .atMostOnce ∧ ((∃ d, t.scenario = .publish d) ∨ ∃ d, t.scenario = .subscribe d)

/-- A task that does not go on to its message leaves the layer as it is. -/
theorem resend_stopped {c : Context} (ht : Numbered t) (ha : a.state = .resend)
    (hu : speaks c t a = false) (h : execute c t a = some r) : r.context.stopped = c.stopped := by
  obtain ⟨hq, ⟨d, hd⟩ | ⟨d, hd⟩⟩ := ht
  · have hst : c.stopped = true := by
      cases hcs : t.cs <;> simp_all [speaks]
    unfold execute at h
    split at h
    · simp only [coroutine, hd, doMqttPublishQ1, hst, if_true] at h
      obtain rfl := Option.some.inj h
      simp only [freeMessage_stopped, cancelTaskTimeout_stopped, hst]
    · cases h
  · unfold execute at h
    split at h
    · simp only [coroutine, hd, doMqttSubscribe] at h
      split at h
      · obtain rfl := Option.some.inj h
        simp only [freeMessage_stopped, cancelTaskTimeout_stopped]
      · next hdata =>
        have hcs : t.cs = .sent := by
          cases hcs : t.cs <;> simp_all [speaks]
        have hne : (IotcState.resend = .written) = False := by simp
        simp only [hcs, subscribeSent, ha, hne, if_false] at h
        split at h
        · cases h
        · split at h
          · cases h
          · next he =>
            obtain rfl := Option.some.inj h
            exact executeTaskIn_stopped he
          · next c' _ he =>
            obtain rfl := Option.some.inj h
            exact (freeMessage_stopped c' _).trans (executeTaskIn_stopped he)
    · cases h

theorem speaks_congr {c c' : Context} (hs : c'.stopped = c.stopped)
    (hl : c'.layerData = c.layerData) (t : Task) (a : Args) : speaks c' t a = speaks c t a := by
  simp only [speaks, hs, hl]

/-- A task with an id leaves the queue of the others alone. -/
theorem Settled.numbered (h : Settled w p r w') (hq : r.task.qos ≠ .atMostOnce) :
    w'.context.stopped = r.context.stopped ∧ w'.context.handed = r.context.handed ∧
      w'.q0Tasks = w.q0Tasks := by
  have hdrop (w : World) (t : Task) (p : Place) :
      (w.drop t p).context.stopped = w.context.stopped ∧ (w.drop t p).q0Tasks = w.q0Tasks := by
    cases p <;> exact ⟨rfl, rfl⟩
  induction h with
  | keep s he =>
    refine ⟨?_, ?_, ran_q0Tasks w p r⟩ <;> rw [returns, ran_context]
  | drop s he hq hu =>
    refine ⟨?_, ?_, (hdrop _ _ p).2.trans (ran_q0Tasks w p r)⟩
    · rw [returns, (hdrop _ _ p).1, ran_context]
    · rw [returns, drop_handed, ran_context]
  | next s he hq' => exact absurd hq' hq
  | reset s he h ih => exact ⟨ih.1, (Context.record_handed _ rfl).trans ih.2.1, ih.2.2⟩

/-- What can be handed over while tasks are sent again: nothing, or no DISCONNECT. -/
def Repeats (d : Bool) (c c' : Context) : Prop :=
  ∃ ms : List Message, c'.handed = c.handed ++ ms.map .said ∧ (d = true → ms = []) ∧
    ∀ m ∈ ms, isLast m = false

/-- **Tasks are sent again**, each as it is before the first of them is. -/
theorem resendTasks_repeats : ∀ {ts : List Task} {w w' : World}, (∀ t ∈ w.q0Tasks, t.Queued) →
    (∀ t ∈ ts, Numbered t ∨ t.logic = none) →
    (d = true → ∀ t ∈ ts, t.sessionState = .store → ∀ a, t.logic = some a →
      speaks w.context t { a with context := true, state := .resend } = false) →
    resendTasks ts w = some w' → Repeats d w.context w'.context
  | [], w, w', _, _, _, h => by
    obtain rfl := Option.some.inj h
    exact ⟨[], (List.append_nil _).symm, fun _ => rfl, fun _ hm => by cases hm⟩
  | t :: ts, w, w', hq0, hts, hd, h => by
    have htail : ∀ u ∈ ts, Numbered u ∨ u.logic = none := fun u hu => hts u (List.mem_cons_of_mem _ hu)
    unfold resendTasks at h
    split at h
    · next hstore =>
      obtain ⟨w₁, h₁, h₂⟩ := Option.bind_eq_some_iff.mp h
      rcases resume_cases hq0 h₁ with ⟨-, rfl⟩ | ⟨a, r, hl, hr, hsettled⟩
      · exact resendTasks_repeats (w := w.returns .unsetHandlerError) hq0 htail
          (fun htrue u hu => hd htrue u (List.mem_cons_of_mem _ hu)) h₂
      · have ht : Numbered t := (hts t List.mem_cons_self).resolve_right fun hn => by
          rw [hn] at hl
          cases hl
        have ho := execute_outcome hr
        have hq : r.task.qos ≠ .atMostOnce := fun hq => ht.1 (ho.task.qos.symm.trans hq)
        obtain ⟨hstopped, hhanded, hqueue⟩ := hsettled.numbered hq
        -- a silent run leaves the layer as it is, so that the others are silent, too
        have hsilent (htrue : d = true) : speaks w.context t
            { a with context := true, state := .resend } = false :=
          hd htrue t List.mem_cons_self hstore a hl
        have hothers (htrue : d = true) (u : Task) (hu : u ∈ ts) (hu' : u.sessionState = .store)
            (b : Args) (hb : u.logic = some b) :
            speaks w₁.context u { b with context := true, state := .resend } = false := by
          have hst := resend_stopped (t := { t with logic := some _ }) ht rfl (hsilent htrue) hr
          rw [speaks_congr (hstopped.trans hst) (hsettled.frame ho).layerData]
          exact hd htrue u (List.mem_cons_of_mem _ hu) hu' b hb
        obtain ⟨ms, hms, hnil, hlast⟩ := resendTasks_repeats (hqueue ▸ hq0) htail hothers h₂
        rcases execute_hands hr with hsame | ⟨hutters, -, m, hm⟩
        · exact ⟨ms, by rw [hms, hhanded, hsame], hnil, hlast⟩
        · refine ⟨m :: ms, by rw [hms, hhanded, hm, List.append_assoc]; rfl, fun htrue => ?_, ?_⟩
          · have hfalse : utters w.context t { a with context := true, state := .resend } = false := by
              rw [utters, hsilent htrue]
              rfl
            exact absurd (hfalse.symm.trans hutters) Bool.noConfusion
          · intro m' hm'
            rcases List.mem_cons.mp hm' with rfl | hm'
            · refine isLast_of_sends (execute_sends hr hm) ?_
              obtain ⟨-, ⟨e, he⟩ | ⟨e, he⟩⟩ := ht
              · exact fun h => Scenario.noConfusion (he.symm.trans h)
              · exact fun h => Scenario.noConfusion (he.symm.trans h)
            · exact hlast m' hm'
    · exact resendTasks_repeats hq0 htail
        (fun htrue u hu => hd htrue u (List.mem_cons_of_mem _ hu)) h

/-! ## Every call -/

/-- What is handed over from `c` to `c'` can follow. -/
def Adds (d : Bool) (c c' : Context) : Prop :=
  ∃ es, c'.handed = c.handed ++ es ∧ SilentFrom isLast d es

theorem Extends.adds {c c' : Context} (h : Extends d c c') : Adds d c c' := by
  rcases h with h | ⟨rfl, m, h⟩
  · exact ⟨[], h.trans (List.append_nil _).symm, trivial⟩
  · exact ⟨[.said m], h, rfl, trivial⟩

theorem Repeats.adds {c c' : Context} (h : Repeats d c c') : Adds d c c' := by
  obtain ⟨ms, hms, hnil, hlast⟩ := h
  refine ⟨ms.map .said, hms, ?_⟩
  cases d with
  | false =>
    refine silentFrom_of_forall fun m hm => hlast m ?_
    simpa using hm
  | true =>
    rw [hnil rfl]
    trivial

theorem postConnect_repeats (hs : w.Sound) {s : IotcState}
    (hd : d = true → w.speaksUp (.postConnect s) = false) (h : w.postConnect s = some w') :
    Repeats d w.context w'.context := by
  unfold World.postConnect at h
  split at h
  · obtain rfl := Option.some.inj h
    exact ⟨[], (List.append_nil _).symm, fun _ => rfl, fun _ hm => by cases hm⟩
  · next hdata =>
    obtain ⟨w₁, h₁, rfl⟩ := Option.map_eq_some_iff.mp h
    have hcall : (w₁.call (·.postConnectOnPrev s)).context.handed = w₁.context.handed :=
      call_handed w₁ (o := .postConnectOnPrev s) rfl rfl
    have hnumbered (t : Task) (ht : t ∈ w.q12Tasks) : Numbered t ∨ t.logic = none := by
      have htracked := hs.q12 t ht
      rcases htracked.scenario with ⟨⟨d, hd⟩ | ⟨d, hd⟩, -⟩ | ⟨-, hnone, -⟩
      · exact .inl ⟨htracked.qos, .inl ⟨_, hd⟩⟩
      · exact .inl ⟨htracked.qos, .inr ⟨_, hd⟩⟩
      · exact .inr hnone
    obtain ⟨ms, hms, hrest⟩ := resendTasks_repeats (d := d) hs.q0 hnumbered
      (fun htrue t ht hstore a ha => by
        have hdata : w.context.layerData = true := by simpa using hdata
        have := hd htrue
        simp only [speaksUp, hdata, Bool.true_and, List.any_eq_false] at this
        simpa [hstore, ha] using this t ht) h₁
    exact ⟨ms, hcall.trans hms, hrest⟩

theorem restoreSession_handed (w : World) :
    w.restoreSession.context.handed = w.context.handed := by
  unfold restoreSession
  split
  · rfl
  · exact freeTasks_handed w w.savedQ12Tasks

/-- A connection starts, or no message is handed over. -/
theorem initOnPrev_adds (w : World) (s : IotcState) :
    Adds d w.context (w.call (·.initOnPrev s)).context := by
  simp only [World.call, Context.initOnPrev, Context.continueWith]
  split
  · refine ⟨[.start], ?_, trivial⟩
    simp [Context.handed, Context.record, Context.alloc, Output.entry?]
  · exact ⟨[], (List.append_nil _).symm, trivial⟩

theorem Adds.congr {c c₁ c' : Context} (h : Adds d c c') (hc : c.handed = c₁.handed) :
    Adds d c₁ c' := by
  rw [Adds, ← hc]
  exact h

theorem init_adds (w : World) (s : IotcState) : Adds d w.context (w.init s).context := by
  rcases init_cases w s with ⟨-, -, h⟩ | ⟨w₀, hw₀, hinit⟩
  · rw [h]
    exact ⟨[], (List.append_nil _).symm, trivial⟩
  · have hsame : w₀.context.handed = w.context.handed := by
      rcases hw₀ with ⟨-, rfl⟩ | ⟨-, -, rfl⟩ <;> rfl
    have hrestored := (restoreSession_handed w₀).trans hsame
    rcases hinit with ⟨mem, h⟩ | ⟨-, -, h⟩
    · rw [h]
      exact (initOnPrev_adds _ s).congr hrestored
    · rw [h]
      exact ⟨[], hrestored.trans (List.append_nil _).symm, trivial⟩

/-- **A call hands over what can follow**, unless the last message has been handed over and the call
goes on to another one. -/
theorem step_adds (hs : w.Sound) {e : Event} {o : Oracle}
    (hd : d = true → (w.withOracle o).speaksUp e = false) (h : step w (e, o) = some w') :
    Adds d w.context w'.context := by
  have hs₀ := hs.withOracle o
  have hstep : (w.withOracle o).stepWith e = some w' := h
  suffices Adds d (w.withOracle o).context w'.context from this.congr rfl
  cases e with
  | submit q =>
    exact ((submit_pushed hs h).follows hs₀.q0 (Request.task_new _ q) hd).adds.congr rfl
  | written msgId type success => exact (pushWritten_follows hs₀.q0 hd hstep).adds
  | pull m s => exact (pull_follows hs₀.q0 hd hstep).adds
  | fire id => exact (fire_follows hs₀ hd hstep).adds
  | keepalive =>
    obtain ⟨-, ⟨s, -, rfl⟩ | ⟨s, -, rfl⟩ | ⟨hdata, halloc, hp⟩⟩ := keepalive_cases hs₀ hstep
    · exact ⟨[], (List.append_nil _).symm, trivial⟩
    · exact ⟨[], (List.append_nil _).symm, trivial⟩
    · refine (hp.follows hs₀.q0 (Event.Makes.new (e := .keepalive) rfl)
        fun htrue => ?_).adds.congr rfl
      have := hd htrue
      rw [speaksUp, hdata, halloc] at this
      exact this
  | connectTo c =>
    simp only [World.stepWith] at hstep
    split at hstep <;> obtain rfl := Option.some.inj hstep <;>
      exact ⟨[], (List.append_nil _).symm, trivial⟩
  | init s =>
    obtain rfl := Option.some.inj hstep
    exact init_adds _ s
  | connect s =>
    rcases connect_cases hs₀ hstep with ⟨-, rfl⟩ | ⟨s', -, rfl⟩ | ⟨rfl, halloc, hp⟩
    · exact Extends.adds (.inl (call_handed _ (o := .connectOnNext s) rfl rfl))
    · exact ⟨[], (List.append_nil _).symm, trivial⟩
    · refine (hp.follows hs₀.q0 (Event.Makes.new (e := .connect .ok) ⟨rfl, rfl⟩)
        fun htrue => ?_).adds.congr rfl
      have := hd htrue
      rw [speaksUp, halloc] at this
      exact this
  | postConnect s => exact (postConnect_repeats hs₀ hd hstep).adds
  | close s =>
    obtain rfl := Option.some.inj hstep
    exact Extends.adds (.inl ((w.withOracle o).context.close_handed s))
  | closeExternally s => exact (closeExternally_follows hs₀ hd hstep).adds
  | closing =>
    obtain rfl := Option.some.inj hstep
    exact ⟨[], (List.append_nil _).symm, trivial⟩
  | closed =>
    obtain rfl := Option.some.inj hstep
    exact ⟨[], (List.append_nil _).symm, trivial⟩

end World

end IotDeviceSdk.Mqtt.Logic
