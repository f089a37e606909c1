import IotDeviceSdk.Mqtt.Logic.Change

/-!
# What becomes of the data of a subscription in a coroutine

`do_mqtt_subscribe` moves the data of its task: to `handlers_for_topics` when the SUBACK grants the
subscription, and to the callback that tells the status otherwise. `Context.subscriptions` is what
shows of this in a context.

* No other coroutine changes it (`execute_subscriptions`), and none makes a SUBSCRIBE of its task.
* `Context.Serves` says when a run of `do_mqtt_subscribe` does not come to its `err_handling`. Such a
  run waits again, or it ends with one SUBACK callback, and with one handler more if the subscription
  has been granted (`doMqttSubscribe_subscribes`).
-/

namespace IotDeviceSdk.Mqtt.Logic

/-- The subscription of a task is granted or refused. -/
structure Answer where
  task : Nat
  granted : Bool
  deriving DecidableEq, Repr

/-- The status is not `IOTC_MQTT_SUBACK_FAILED`. -/
def grants (status : UInt8) : Bool := status ≠ 0x80

/-- The callback that tells a user the status of a SUBACK. -/
def Output.suback : Output → Option Answer
  | subscribed task _ status _ => some ⟨task, grants status⟩
  | _ => none

/-- What a coroutine does with its subscription: it tells the status, or writes to its task after
finalising it. -/
def Output.ofSubscription : Output → Bool
  | subscribed .. | writeFreed _ => true
  | _ => false

/-- The handlers of a context, and what has been done with subscriptions. -/
def Context.subscriptions (c : Context) : List TopicHandler × List Output :=
  (c.handlersForTopics, c.out.filter Output.ofSubscription)

/-! ## Operations of a context -/

namespace Context

variable {c c' : Context} {s : IotcState}

theorem subscriptions_eq (hh : c'.handlersForTopics = c.handlersForTopics) (ho : c'.out = c.out) :
    c'.subscriptions = c.subscriptions := by
  unfold subscriptions
  rw [hh, ho]

@[simp] theorem alloc_subscriptions (c : Context) : c.alloc.2.subscriptions = c.subscriptions := rfl

theorem build_subscriptions {fill e : Except IotcState Message} (h : c.build fill = (e, c')) :
    c'.subscriptions = c.subscriptions := by
  obtain rfl := (Prod.mk.inj h).2
  rfl

theorem record_subscriptions (c : Context) {o : Output} (ho : o.ofSubscription = false) :
    (c.record o).subscriptions = c.subscriptions := by
  simp [subscriptions, record, ho]

theorem continueWith_subscriptions (c : Context) {o : Output} (ho : o.ofSubscription = false)
    (next : LayerState) : (c.continueWith o next).2.subscriptions = c.subscriptions := by
  simp only [continueWith]
  split
  · exact record_subscriptions c.alloc.2 ho
  · rfl

@[simp] theorem connectOnNext_subscriptions (c : Context) (s : IotcState) :
    (c.connectOnNext s).2.subscriptions = c.subscriptions := continueWith_subscriptions c rfl _

@[simp] theorem closeOnPrev_subscriptions (c : Context) (s : IotcState) :
    (c.closeOnPrev s).2.subscriptions = c.subscriptions := continueWith_subscriptions c rfl _

@[simp] theorem close_subscriptions (c : Context) (s : IotcState) :
    (Logic.close c s).2.subscriptions = c.subscriptions := by
  unfold Logic.close
  split
  · exact closeOnPrev_subscriptions c s
  · exact continueWith_subscriptions c rfl _

theorem queue_subscriptions (c : Context) {o : Output} (ho : o.ofSubscription = false) :
    (c.queue o).2.subscriptions = c.subscriptions := by
  simp only [queue]
  split
  · exact record_subscriptions _ ho
  · rfl

@[simp] theorem deferUsersCallback_subscriptions (c : Context) (t : Task) (s : IotcState) :
    (c.deferUsersCallback t s).subscriptions = c.subscriptions := by
  unfold deferUsersCallback
  split
  · exact queue_subscriptions c rfl
  · rfl

@[simp] theorem freeMessage_subscriptions (c : Context) (m : Option Received) :
    (c.freeMessage m).subscriptions = c.subscriptions := by
  unfold freeMessage
  split
  · exact record_subscriptions c rfl
  · rfl

@[simp] theorem cancelTaskTimeout_subscriptions (c : Context) (id : Nat) :
    (c.cancelTaskTimeout id).subscriptions = c.subscriptions := by
  unfold cancelTaskTimeout
  split <;> rfl

@[simp] theorem ioTimeoutsRemove_subscriptions (c : Context) (id : Nat) :
    (c.ioTimeoutsRemove id).subscriptions = c.subscriptions := rfl

theorem executeTaskIn_subscriptions {id : Nat} {timeout : TaskTimeout}
    (h : c.executeTaskIn id timeout = some (s, c')) : c'.subscriptions = c.subscriptions := by
  rcases executeIn_eq_some h with ⟨-, -, rfl⟩ | ⟨-, rfl | rfl⟩ <;> rfl

theorem executeKeepaliveIn_subscriptions (h : c.executeKeepaliveIn = some (s, c')) :
    c'.subscriptions = c.subscriptions := by
  rcases executeIn_eq_some h with ⟨-, -, rfl⟩ | ⟨-, rfl | rfl⟩ <;> rfl

theorem ioTimeoutsCreate_subscriptions {id : Nat} (h : c.ioTimeoutsCreate id = some (s, c')) :
    c'.subscriptions = c.subscriptions := by
  unfold ioTimeoutsCreate at h
  split at h
  · cases h
  · split at h
    · next c₁ h₁ =>
      have hsame := executeTaskIn_subscriptions h₁
      dsimp only at h
      split at h <;> obtain ⟨-, rfl⟩ := Prod.mk.inj (Option.some.inj h) <;> exact hsame
    · exact executeTaskIn_subscriptions h

theorem callTopicHandler_subscriptions {m : Option Received} (h : c.callTopicHandler m = some c') :
    c'.subscriptions = c.subscriptions := by
  unfold callTopicHandler at h
  split at h
  · cases h
  · split at h
    · cases h
    · split at h <;> obtain rfl := Option.some.inj h
      · exact queue_subscriptions c rfl
      · exact freeMessage_subscriptions c _

end Context

/-! ## The other coroutines -/

section Commands

open Logic.Context

variable {c c' : Context} {t : Task} {a : Args} {s : IotcState} {msg : Option Received} {r : CoResult}

@[simp] theorem sendAndYield_subscriptions (c : Context) (t : Task) (m : Message) :
    (sendAndYield c t m).context.subscriptions = c.subscriptions := continueWith_subscriptions c rfl _

theorem publishQ0Exit_subscriptions (h : publishQ0Exit c t s = some r) :
    r.context.subscriptions = c.subscriptions := by
  unfold publishQ0Exit at h
  split at h
  · cases h
  · obtain rfl := Option.some.inj h
    exact deferUsersCallback_subscriptions c t s

theorem doMqttPublishQ0_subscriptions (h : doMqttPublishQ0 c t a = some r) :
    r.context.subscriptions = c.subscriptions := by
  unfold doMqttPublishQ0 at h
  split at h
  · cases h
  · split at h
    · obtain rfl := Option.some.inj h
      rfl
    · split at h
      · exact publishQ0Exit_subscriptions h
      · split at h
        · cases h
        · split at h
          · next hb =>
            obtain rfl := Option.some.inj h
            exact (sendAndYield_subscriptions _ t _).trans (build_subscriptions hb)
          · next hb => exact (publishQ0Exit_subscriptions h).trans (build_subscriptions hb)

@[simp] theorem publishQ1Err_subscriptions (c : Context) (t : Task) (s : IotcState)
    (msg : Option Received) : (publishQ1Err c t s msg).context.subscriptions = c.subscriptions := by
  simp [publishQ1Err]

theorem publishQ1Send_subscriptions (h : publishQ1Send c t s = some r) :
    r.context.subscriptions = c.subscriptions := by
  unfold publishQ1Send at h
  split at h
  · cases h
  · split at h <;> next hb =>
      obtain rfl := Option.some.inj h
      simpa using build_subscriptions hb

theorem publishQ1Sent_subscriptions (h : publishQ1Sent c t s msg = some r) :
    r.context.subscriptions = c.subscriptions := by
  unfold publishQ1Sent at h
  split at h
  · dsimp only at h
    split at h
    · cases h
    · split at h
      · split at h
        · cases h
        · next hin =>
          obtain rfl := Option.some.inj h
          exact executeTaskIn_subscriptions hin
        · next hin =>
          obtain rfl := Option.some.inj h
          exact (publishQ1Err_subscriptions _ _ _ _).trans (executeTaskIn_subscriptions hin)
      · obtain rfl := Option.some.inj h
        rfl
  · exact publishQ1Send_subscriptions h

theorem publishQ1Answer_subscriptions (h : publishQ1Answer c t s msg = some r) :
    r.context.subscriptions = c.subscriptions := by
  have hcancel := cancelTaskTimeout_subscriptions c t.id
  unfold publishQ1Answer at h
  split at h
  · split at h
    · cases h
    · exact publishQ1Send_subscriptions h
  · dsimp only at h
    split at h
    · exact (publishQ1Send_subscriptions h).trans hcancel
    · split at h
      · obtain rfl := Option.some.inj h
        simp
      · split at h
        · cases h
        · split at h
          · obtain rfl := Option.some.inj h
            simp
          · split at h
            · cases h
            · obtain rfl := Option.some.inj h
              simp

theorem doMqttPublishQ1_subscriptions (h : doMqttPublishQ1 c t a = some r) :
    r.context.subscriptions = c.subscriptions := by
  unfold doMqttPublishQ1 at h
  split at h
  · obtain rfl := Option.some.inj h
    simp
  · split at h
    · exact publishQ1Sent_subscriptions h
    · exact publishQ1Answer_subscriptions h
    · split at h
      · cases h
      · exact publishQ1Send_subscriptions h

@[simp] theorem connectExit_subscriptions (c : Context) (t : Task) (msg : Option Received) :
    (connectExit c t msg).context.subscriptions = c.subscriptions := by
  simp [connectExit]

theorem connectStart_subscriptions (h : connectStart c t = some r) :
    r.context.subscriptions = c.subscriptions := by
  unfold connectStart at h
  split at h
  · next hb =>
    obtain rfl := Option.some.inj h
    simpa using build_subscriptions hb
  · next hb =>
    split at h
    · split at h
      · cases h
      · next hin =>
        obtain rfl := Option.some.inj h
        simpa [ioTimeoutsCreate_subscriptions hin] using build_subscriptions hb
      · next hin =>
        obtain rfl := Option.some.inj h
        simpa [ioTimeoutsCreate_subscriptions hin] using build_subscriptions hb
    · split at h
      · cases h
      · obtain rfl := Option.some.inj h
        simpa using build_subscriptions hb

theorem connectSent_subscriptions (c : Context) (t : Task) (s : IotcState) (msg : Option Received) :
    (connectSent c t s msg).context.subscriptions = c.subscriptions := by
  unfold connectSent
  split
  · rfl
  · simp

theorem connectAccepted_subscriptions (h : connectAccepted c t s = some r) :
    r.context.subscriptions = c.subscriptions := by
  unfold connectAccepted at h
  dsimp only at h
  split at h
  · split at h
    · cases h
    · next hin =>
      obtain rfl := Option.some.inj h
      have hkeepalive := executeKeepaliveIn_subscriptions hin
      exact (connectOnNext_subscriptions _ _).trans hkeepalive
    · next hin =>
      obtain rfl := Option.some.inj h
      exact (connectExit_subscriptions _ _ _).trans (executeKeepaliveIn_subscriptions hin)
  · obtain rfl := Option.some.inj h
    exact connectOnNext_subscriptions _ _

theorem connectAnswer_subscriptions (h : connectAnswer c t s msg = some r) :
    r.context.subscriptions = c.subscriptions := by
  unfold connectAnswer at h
  split at h
  · cases h
  · split at h
    · dsimp only at h
      split at h
      · rw [connectAccepted_subscriptions h]
        simp
      · obtain rfl := Option.some.inj h
        simp
    · obtain rfl := Option.some.inj h
      simp

theorem doMqttConnect_subscriptions (h : doMqttConnect c t a = some r) :
    r.context.subscriptions = c.subscriptions := by
  unfold doMqttConnect at h
  split at h
  · obtain rfl := Option.some.inj h
    simp
  · split at h
    · obtain rfl := Option.some.inj h
      exact connectSent_subscriptions _ _ _ _
    · exact connectAnswer_subscriptions h
    · exact connectStart_subscriptions h

theorem doMqttConnectTimeout_subscriptions (h : doMqttConnectTimeout c t = some r) :
    r.context.subscriptions = c.subscriptions := by
  unfold doMqttConnectTimeout at h
  dsimp only at h
  split at h
  · cases h
  · obtain rfl := Option.some.inj h
    simp

@[simp] theorem keepaliveErr_subscriptions (c : Context) (t : Task) (s : IotcState)
    (msg : Option Received) : (keepaliveErr c t s msg).context.subscriptions = c.subscriptions :=
  freeMessage_subscriptions c msg

theorem keepaliveSent_subscriptions (h : keepaliveSent c t msg = some r) :
    r.context.subscriptions = c.subscriptions := by
  unfold keepaliveSent at h
  split at h
  · cases h
  · split at h
    · cases h
    · next hin =>
      obtain rfl := Option.some.inj h
      exact executeTaskIn_subscriptions hin
    · next hin =>
      obtain rfl := Option.some.inj h
      exact (keepaliveErr_subscriptions _ _ _ _).trans (executeTaskIn_subscriptions hin)

theorem keepaliveAnswer_subscriptions (h : keepaliveAnswer c t s msg = some r) :
    r.context.subscriptions = c.subscriptions := by
  unfold keepaliveAnswer at h
  split at h
  · split at h
    · cases h
    · obtain rfl := Option.some.inj h
      exact closeOnPrev_subscriptions c _
  · dsimp only at h
    split at h
    · obtain rfl := Option.some.inj h
      simp
    · split at h
      · cases h
      · split at h
        · obtain rfl := Option.some.inj h
          simp
        · split at h
          · split at h
            · cases h
            · next hin =>
              obtain rfl := Option.some.inj h
              simp [executeKeepaliveIn_subscriptions hin]
            · next hin =>
              obtain rfl := Option.some.inj h
              simp [executeKeepaliveIn_subscriptions hin]
          · obtain rfl := Option.some.inj h
            simp

theorem doMqttKeepaliveTask_subscriptions (h : doMqttKeepaliveTask c t a = some r) :
    r.context.subscriptions = c.subscriptions := by
  unfold doMqttKeepaliveTask at h
  split at h
  · obtain rfl := Option.some.inj h
    exact freeMessage_subscriptions c _
  · split at h
    · exact keepaliveSent_subscriptions h
    · exact keepaliveAnswer_subscriptions h
    · split at h <;> next hb =>
        obtain rfl := Option.some.inj h
        simpa using build_subscriptions hb

theorem doShutdown_subscriptions (h : doShutdown c t a = some r) :
    r.context.subscriptions = c.subscriptions := by
  unfold doShutdown at h
  split at h
  · obtain rfl := Option.some.inj h
    exact freeMessage_subscriptions c _
  · split at h
    · obtain rfl := Option.some.inj h
      exact close_subscriptions c _
    · split at h <;> next hb =>
        obtain rfl := Option.some.inj h
        simpa using build_subscriptions hb

theorem publishQ1RecievedSend_subscriptions (c : Context) (t : Task) :
    (publishQ1RecievedSend c t).context.subscriptions = c.subscriptions := by
  unfold publishQ1RecievedSend
  split <;> next hb => simpa using build_subscriptions hb

theorem onPublishQ1Recieved_subscriptions (h : onPublishQ1Recieved c t a = some r) :
    r.context.subscriptions = c.subscriptions := by
  unfold onPublishQ1Recieved at h
  split at h
  · obtain rfl := Option.some.inj h
    exact freeMessage_subscriptions c _
  · split at h
    · split at h
      · split at h
        · next hc =>
          obtain rfl := Option.some.inj h
          exact callTopicHandler_subscriptions hc
        · cases h
      · obtain rfl := Option.some.inj h
        exact publishQ1RecievedSend_subscriptions c t
    · split at h
      · cases h
      · obtain rfl := Option.some.inj h
        exact publishQ1RecievedSend_subscriptions c t

/-- **No other coroutine does anything with a subscription.** -/
theorem execute_subscriptions (hs : ∀ d, t.scenario ≠ .subscribe d) (h : execute c t a = some r) :
    r.context.subscriptions = c.subscriptions := by
  unfold execute at h
  split at h
  · cases hscenario : t.scenario with
    | connect => exact doMqttConnect_subscriptions (by simpa only [coroutine, hscenario] using h)
    | publish d =>
      by_cases hq : t.qos = .atMostOnce
      · exact doMqttPublishQ0_subscriptions (by simpa only [coroutine, hscenario, hq] using h)
      · exact doMqttPublishQ1_subscriptions (by simpa only [coroutine, hscenario] using h)
    | puback => exact onPublishQ1Recieved_subscriptions (by simpa only [coroutine, hscenario] using h)
    | subscribe d => exact absurd hscenario (hs d)
    | keepalive =>
      exact doMqttKeepaliveTask_subscriptions (by simpa only [coroutine, hscenario] using h)
    | shutdown => exact doShutdown_subscriptions (by simpa only [coroutine, hscenario] using h)
  · cases h

theorem TaskTimeout.run_subscriptions {timeout : TaskTimeout} (hs : ∀ d, t.scenario ≠ .subscribe d)
    (h : timeout.run c t = some r) : r.context.subscriptions = c.subscriptions := by
  cases timeout with
  | resume s => exact execute_subscriptions hs h
  | keepalive msg =>
    obtain ⟨r', hr, rfl⟩ := Option.map_eq_some_iff.mp h
    have hrun := execute_subscriptions hs hr
    exact hrun
  | connect => exact doMqttConnectTimeout_subscriptions h

/-! ## The scenario of a task -/

/-- The scenario of a task whose data may have been freed. -/
def Task.KeepsScenario (t t' : Task) : Prop :=
  t'.scenario = t.scenario ∨ t'.scenario = t.freeData.scenario

theorem publishQ1Send_scenario (h : publishQ1Send c t s = some r) : t.KeepsScenario r.task := by
  unfold publishQ1Send at h
  grind [publishQ1Err, sendAndYield, Task.KeepsScenario]

theorem publishQ1Sent_scenario (h : publishQ1Sent c t s msg = some r) : t.KeepsScenario r.task := by
  unfold publishQ1Sent at h
  split at h
  · dsimp only at h
    grind [publishQ1Err, Task.KeepsScenario, Task.freeData]
  · exact publishQ1Send_scenario h

theorem publishQ1Answer_scenario (h : publishQ1Answer c t s msg = some r) :
    t.KeepsScenario r.task := by
  unfold publishQ1Answer at h
  grind [publishQ1Send_scenario, publishQ1Err, Task.KeepsScenario]

theorem doMqttPublishQ1_scenario (h : doMqttPublishQ1 c t a = some r) : t.KeepsScenario r.task := by
  unfold doMqttPublishQ1 at h
  grind [publishQ1Sent_scenario, publishQ1Answer_scenario, publishQ1Send_scenario, Task.KeepsScenario]

theorem doMqttPublishQ0_scenario (h : doMqttPublishQ0 c t a = some r) : t.KeepsScenario r.task := by
  unfold doMqttPublishQ0 at h
  grind [publishQ0Exit, sendAndYield, Task.KeepsScenario]

theorem connectStart_scenario (h : connectStart c t = some r) : t.KeepsScenario r.task := by
  unfold connectStart at h
  grind [connectExit, sendAndYield, Task.KeepsScenario]

theorem connectAnswer_scenario (h : connectAnswer c t s msg = some r) : t.KeepsScenario r.task := by
  unfold connectAnswer connectAccepted at h
  grind [connectExit, Task.KeepsScenario]

theorem doMqttConnect_scenario (h : doMqttConnect c t a = some r) : t.KeepsScenario r.task := by
  unfold doMqttConnect connectSent at h
  grind [connectExit, connectAnswer_scenario, connectStart_scenario, Task.KeepsScenario]

theorem doMqttConnectTimeout_scenario (h : doMqttConnectTimeout c t = some r) :
    t.KeepsScenario r.task := by
  unfold doMqttConnectTimeout at h
  grind [Task.KeepsScenario]

theorem doMqttKeepaliveTask_scenario (h : doMqttKeepaliveTask c t a = some r) :
    t.KeepsScenario r.task := by
  unfold doMqttKeepaliveTask keepaliveSent keepaliveAnswer at h
  grind [keepaliveErr, sendAndYield, Task.KeepsScenario]

theorem doShutdown_scenario (h : doShutdown c t a = some r) : t.KeepsScenario r.task := by
  unfold doShutdown at h
  grind [sendAndYield, Task.KeepsScenario]

theorem onPublishQ1Recieved_scenario (h : onPublishQ1Recieved c t a = some r) :
    t.KeepsScenario r.task := by
  unfold onPublishQ1Recieved at h
  grind [publishQ1RecievedSend, sendAndYield, Task.KeepsScenario]

/-- A task of another kind does not become a SUBSCRIBE. -/
theorem Task.KeepsScenario.not_subscribe {t' : Task} (h : t.KeepsScenario t')
    (hs : ∀ d, t.scenario ≠ .subscribe d) : ∀ d, t'.scenario ≠ .subscribe d := by
  intro d hd
  rcases h with h | h
  · exact hs d (h ▸ hd)
  · rw [h] at hd
    unfold Task.freeData at hd
    split at hd
    · cases hd
    · next heq => exact hs _ heq
    · exact hs d hd

theorem execute_not_subscribe (hs : ∀ d, t.scenario ≠ .subscribe d) (h : execute c t a = some r) :
    ∀ d, r.task.scenario ≠ .subscribe d := by
  refine Task.KeepsScenario.not_subscribe (t := t) ?_ hs
  unfold execute at h
  split at h
  · cases hscenario : t.scenario with
    | connect => exact doMqttConnect_scenario (by simpa only [coroutine, hscenario] using h)
    | publish d =>
      by_cases hq : t.qos = .atMostOnce
      · exact doMqttPublishQ0_scenario (by simpa only [coroutine, hscenario, hq] using h)
      · exact doMqttPublishQ1_scenario (by simpa only [coroutine, hscenario] using h)
    | puback => exact onPublishQ1Recieved_scenario (by simpa only [coroutine, hscenario] using h)
    | subscribe d => exact absurd hscenario (hs d)
    | keepalive => exact doMqttKeepaliveTask_scenario (by simpa only [coroutine, hscenario] using h)
    | shutdown => exact doShutdown_scenario (by simpa only [coroutine, hscenario] using h)
  · cases h

theorem TaskTimeout.run_not_subscribe {timeout : TaskTimeout} (hs : ∀ d, t.scenario ≠ .subscribe d)
    (h : timeout.run c t = some r) : ∀ d, r.task.scenario ≠ .subscribe d := by
  cases timeout with
  | resume s => exact execute_not_subscribe hs h
  | keepalive msg =>
    obtain ⟨r', hr, rfl⟩ := Option.map_eq_some_iff.mp h
    have hrun := execute_not_subscribe hs hr
    exact hrun
  | connect => exact (doMqttConnectTimeout_scenario h).not_subscribe hs

/-! ## `do_mqtt_subscribe` -/

/-- The next `n` allocations succeed. -/
def Context.HasMemory (c : Context) (n : Nat) : Prop := (c.mem.take n).all id = true

instance (c : Context) (n : Nat) : Decidable (c.HasMemory n) := inferInstanceAs (Decidable (_ = _))

theorem hasMemory_succ {n : Nat} : c.HasMemory (n + 1) ↔ c.alloc.1 = true ∧ c.alloc.2.HasMemory n := by
  unfold Context.HasMemory Context.alloc
  cases c.mem <;> simp

/-- Nothing is asked for. -/
theorem hasMemory_zero (c : Context) : c.HasMemory 0 := rfl

/-- The first status of a SUBACK is that of a granted subscription. -/
def subackGrants (m : Message) : Bool := m.topics.head?.any fun topic => grants topic.payload

/-- **A run of `do_mqtt_subscribe` does not come to `err_handling`**: it has the memory that it asks
for at its place, and an answer is a SUBACK that the user can be told of. -/
def Context.Serves (c : Context) (t : Task) (a : Args) : Prop :=
  match t.cs with
  | .sent => a.state = .written ∧ c.connection.keepaliveTimeout = 0 ∨ c.HasMemory 2
  | .answer =>
    if a.state = .timeout ∨ a.state = .resend then c.HasMemory 1
    else
      a.state = .ok ∧ ∃ m ∈ a.message, m.message.type = .suback ∧
        (subackGrants m.message = true → c.HasMemory 1) ∧ c.callbacks.headD true = true
  | _ => c.HasMemory 1

/-- The status has been told, and the data are a handler if the subscription has been granted. -/
structure Context.Answers (c : Context) (t : Task) (granted : Bool) (c' : Context) : Prop where
  handlers : ∃ d, t.subscribeData = some d ∧
    c'.handlersForTopics = c.handlersForTopics ++ if granted then [⟨t.id, d⟩] else []
  told : ∃ o, o.suback = some ⟨t.id, granted⟩ ∧
    c'.out.filter Output.ofSubscription = c.out.filter Output.ofSubscription ++ [o]

/-- **What a run of `do_mqtt_subscribe` does with the data**: nothing, or what the SUBACK says. In
`err_handling` the data may be in `handlers_for_topics` already. -/
inductive Context.Subscribes (c : Context) (t : Task) (a : Args) (r : CoResult) : Prop
  | waits (h : r.context.subscriptions = c.subscriptions) (he : r.exit.final = false)
      (hno : c.layerData = true → t.cs = .answer → a.state ≠ .ok)
  | fails (h : r.context.out.filter Output.ofSubscription = c.out.filter Output.ofSubscription)
      {s : IotcState} (he : r.exit = .finalizeThenReset s)
  | answers {m : Received} (hcs : t.cs = .answer) (hs : a.state = .ok) (hm : a.message = some m)
      (htype : m.message.type = .suback) (h : c.Answers t (subackGrants m.message) r.context)
      (he : r.exit = .finalize none)

theorem Context.Answers.congr {g : Bool} {c₁ : Context} (h : c.Answers t g c')
    (hc : c₁.subscriptions = c'.subscriptions) : c.Answers t g c₁ := by
  obtain ⟨hh, ho⟩ := Prod.mk.inj hc
  obtain ⟨⟨d, hd, hhandlers⟩, o, hsuback, hout⟩ := h
  exact ⟨⟨d, hd, hh.trans hhandlers⟩, o, hsuback, ho.trans hout⟩

/-- The same as before, and the coroutine fails. -/
theorem Context.Subscribes.of_err (hc : c'.subscriptions = c.subscriptions) (s : IotcState)
    (msg : Option Received) : c.Subscribes t a (subscribeErr c' t s msg) :=
  .fails (congrArg Prod.snd ((freeMessage_subscriptions c' msg).trans hc)) rfl

theorem subscribeSend_subscribes (hc : c'.subscriptions = c.subscriptions)
    (hno : t.cs = .answer → a.state ≠ .ok) (h : subscribeSend c' t s = some r) :
    c.Subscribes t a r := by
  unfold subscribeSend at h
  split at h
  · cases h
  · split at h
    · next hb =>
      obtain rfl := Option.some.inj h
      refine .waits ?_ rfl fun _ => hno
      exact (sendAndYield_subscriptions _ t _).trans ((build_subscriptions hb).trans hc)
    · next hb =>
      obtain rfl := Option.some.inj h
      exact .of_err ((build_subscriptions hb).trans hc) _ _

theorem subscribeSent_subscribes (hcs : t.cs = .sent) (h : subscribeSent c t s msg = some r) :
    c.Subscribes t a r := by
  have hno : c.layerData = true → t.cs = .answer → a.state ≠ .ok := by
    rw [hcs]
    exact fun _ h => Cs.noConfusion h
  unfold subscribeSent at h
  split at h
  · cases h
  · split at h
    · dsimp only at h
      split at h
      · split at h
        · cases h
        · next hin =>
          obtain rfl := Option.some.inj h
          exact .waits (executeTaskIn_subscriptions hin) rfl hno
        · next hin =>
          obtain rfl := Option.some.inj h
          exact .fails (s := s) (congrArg Prod.snd
            ((freeMessage_subscriptions _ msg).trans (executeTaskIn_subscriptions hin))) rfl
      · obtain rfl := Option.some.inj h
        exact .waits rfl rfl hno
    · split at h
      · cases h
      · next hin =>
        obtain rfl := Option.some.inj h
        exact .waits (executeTaskIn_subscriptions hin) rfl hno
      · next hin =>
        obtain rfl := Option.some.inj h
        exact .of_err (executeTaskIn_subscriptions hin) _ _

/-- The user is told, or there is no memory for the event of the callback. -/
theorem queue_subscribed (c : Context) (task : Nat) (handle : UserHandle) (status : UInt8)
    (s : IotcState) :
    (c.callbacks.headD true = true ∧ ∃ c', c.queue (.subscribed task handle status s) = (true, c') ∧
        c'.handlersForTopics = c.handlersForTopics ∧
        c'.out = c.out ++ [.subscribed task handle status s]) ∨
      c.callbacks.headD true = false ∧ ∃ c', c.queue (.subscribed task handle status s) = (false, c') ∧
        c'.out = c.out := by
  simp only [Context.queue]
  cases hq : c.callbacks.headD true with
  | true => exact .inl ⟨rfl, _, rfl, rfl, rfl⟩
  | false => exact .inr ⟨rfl, _, rfl, rfl⟩

theorem subscribeSuback_cases (c : Context) (t : Task) (d : SubscribeData) (status : UInt8)
    (hd : t.subscribeData = some d) :
    ((grants status = true → c.HasMemory 1) ∧ c.callbacks.headD true = true ∧
        (subscribeSuback c t d status).exit = .finalize none ∧
        c.Answers t (grants status) (subscribeSuback c t d status).context) ∨
      ¬((grants status = true → c.HasMemory 1) ∧ c.callbacks.headD true = true) ∧
        (∃ s, (subscribeSuback c t d status).exit = .finalizeThenReset s) ∧
        (subscribeSuback c t d status).context.out = c.out := by
  have hmem : c.HasMemory 1 ↔ c.mem.headD true = true := hasMemory_succ.trans (and_iff_left rfl)
  unfold subscribeSuback
  cases hg : grants status with
  | false =>
    have hstatus : ¬status ≠ 0x80 := by simpa [grants] using hg
    simp only [hstatus, if_false, if_true, Bool.false_eq_true]
    rcases queue_subscribed c t.id d.handler status .mqttSubscriptionFailed with
      ⟨hq, c', hc', hh, ho⟩ | ⟨hq, c', hc', ho⟩
    · rw [hc']
      refine .inl ⟨nofun, hq, rfl, ⟨d, hd, by simp [hh]⟩,
        .subscribed t.id d.handler status .mqttSubscriptionFailed, ?_, ?_⟩
      · exact congrArg (fun g => some (Answer.mk t.id g)) hg
      · rw [ho, List.filter_append]
        rfl
    · rw [hc']
      exact .inr ⟨fun h => Bool.false_ne_true (hq.symm.trans h.2), ⟨_, rfl⟩, ho⟩
  | true =>
    have hstatus : status ≠ 0x80 := by simpa [grants] using hg
    simp only [ne_eq, hstatus, not_false_eq_true, if_true, Context.alloc, hmem]
    cases hm : c.mem.headD true with
    | false => exact .inr ⟨by simp, ⟨_, rfl⟩, rfl⟩
    | true =>
      simp only [if_true]
      rcases queue_subscribed
        { c with mem := c.mem.tail, handlersForTopics := c.handlersForTopics ++ [⟨t.id, d⟩] } t.id
        d.handler status .mqttSubscriptionSuccessful with ⟨hq, c', hc', hh, ho⟩ | ⟨hq, c', hc', ho⟩
      · rw [hc']
        refine .inl ⟨fun _ => trivial, hq, rfl, ⟨d, hd, by simp [hh]⟩,
          .subscribed t.id d.handler status .mqttSubscriptionSuccessful, ?_, ?_⟩
        · exact congrArg (fun g => some (Answer.mk t.id g)) hg
        · rw [ho, List.filter_append]
          rfl
      · rw [hc']
        exact .inr ⟨fun h => Bool.false_ne_true (hq.symm.trans h.2), ⟨_, rfl⟩, ho⟩

theorem Context.Answers.of_eq {g : Bool} (h : c'.Answers t g r.context)
    (hc : c'.subscriptions = c.subscriptions) : c.Answers t g r.context := by
  obtain ⟨hh, ho⟩ := Prod.mk.inj hc
  obtain ⟨⟨d, hd, hhandlers⟩, o, hsuback, hout⟩ := h
  exact ⟨⟨d, hd, by rw [hhandlers, hh]⟩, o, hsuback, by rw [hout, ho]⟩

theorem subscribeAnswer_subscribes (hcs : t.cs = .answer)
    (h : subscribeAnswer c t a.state a.message = some r) : c.Subscribes t a r := by
  have hcancel := cancelTaskTimeout_subscriptions c t.id
  unfold subscribeAnswer at h
  split at h
  · next htimeout =>
    split at h
    · cases h
    · exact subscribeSend_subscribes rfl (fun _ => by rw [htimeout]; decide) h
  · dsimp only at h
    split at h
    · next hresend =>
      exact subscribeSend_subscribes hcancel (fun _ => by rw [hresend]; decide) h
    · split at h
      · obtain rfl := Option.some.inj h
        exact .of_err hcancel _ _
      · next hok =>
        split at h
        · cases h
        · next m hm =>
          split at h
          · obtain rfl := Option.some.inj h
            exact .of_err hcancel _ _
          · next htype =>
            split at h
            · next topic topics d htopics hd =>
              obtain rfl := Option.some.inj h
              have hsame : ((c.cancelTaskTimeout t.id).freeMessage (some m)).subscriptions =
                  c.subscriptions := (freeMessage_subscriptions _ _).trans hcancel
              have hgranted : subackGrants m.message = grants topic.payload := by
                simp [subackGrants, htopics]
              rcases subscribeSuback_cases _ t d topic.payload hd with
                ⟨-, -, he, hanswers⟩ | ⟨-, ⟨s, he⟩, hout⟩
              · refine .answers hcs (not_not.mp hok) hm (not_not.mp htype) ?_ he
                exact hgranted ▸ hanswers.of_eq hsame
              · refine .fails ?_ he
                rw [hout]
                exact congrArg Prod.snd hsame
            · cases h

theorem doMqttSubscribe_subscribes (h : doMqttSubscribe c t a = some r) : c.Subscribes t a r := by
  unfold doMqttSubscribe at h
  split at h
  · next hd =>
    obtain rfl := Option.some.inj h
    exact .waits (by simp) rfl fun hdata => by simp [hdata] at hd
  · split at h
    · next hcs => exact subscribeSent_subscribes hcs h
    · next hcs => exact subscribeAnswer_subscribes hcs h
    · next hcs =>
      split at h
      · cases h
      · exact subscribeSend_subscribes rfl (fun he => Cs.noConfusion (hcs.symm.trans he)) h
    · next hanswer _ => exact subscribeSend_subscribes rfl (fun he => absurd he hanswer) h

/-! ## When `err_handling` is reached -/

/-- The coroutine writes to its task after finalising it. -/
def Exit.resets : Exit → Bool
  | finalizeThenReset _ => true
  | _ => false

theorem executeTaskIn_memory {id : Nat} {timeout : TaskTimeout}
    (h : c.executeTaskIn id timeout = some (s, c')) : s = .ok ↔ c.HasMemory 2 := by
  rw [hasMemory_succ, hasMemory_succ]
  unfold Context.executeTaskIn Context.executeIn at h
  dsimp only at h
  split at h
  · next h₁ =>
    split at h
    · cases h
    · split at h <;> next h₂ =>
        obtain rfl := (Prod.mk.inj (Option.some.inj h)).1
        simp [h₁, h₂, hasMemory_zero]
  · next h₁ =>
    obtain rfl := (Prod.mk.inj (Option.some.inj h)).1
    simp [h₁]

theorem subscribeSend_resets (h : subscribeSend c t s = some r) :
    r.exit.resets = false ↔ c.HasMemory 1 := by
  rw [hasMemory_succ]
  unfold subscribeSend Context.build at h
  dsimp only at h
  cases hmem : c.alloc.1 with
  | true =>
    rw [hmem] at h
    split at h
    · cases h
    · obtain rfl := Option.some.inj h
      exact iff_of_true rfl ⟨rfl, rfl⟩
  | false =>
    rw [hmem] at h
    split at h
    · cases h
    · obtain rfl := Option.some.inj h
      exact iff_of_false (fun h => Bool.false_ne_true h.symm) fun h => Bool.false_ne_true h.1

theorem subscribeSent_resets (h : subscribeSent c t s msg = some r) :
    r.exit.resets = false ↔
      s = .written ∧ c.connection.keepaliveTimeout = 0 ∨ c.HasMemory 2 := by
  unfold subscribeSent at h
  split at h
  · cases h
  · split at h
    · next hs =>
      dsimp only at h
      split at h
      · next hkeepalive =>
        rw [or_iff_right fun h => absurd h.2 (by omega)]
        split at h
        · cases h
        · next hin =>
          obtain rfl := Option.some.inj h
          exact iff_of_true rfl ((executeTaskIn_memory hin).mp rfl)
        · next hne hin =>
          obtain rfl := Option.some.inj h
          exact iff_of_false (by decide : ¬true = false) (mt (executeTaskIn_memory hin).mpr hne)
      · next hkeepalive =>
        obtain rfl := Option.some.inj h
        exact iff_of_true rfl (.inl ⟨hs, by omega⟩)
    · next hs =>
      rw [or_iff_right fun h => hs h.1]
      split at h
      · cases h
      · next hin =>
        obtain rfl := Option.some.inj h
        exact iff_of_true rfl ((executeTaskIn_memory hin).mp rfl)
      · next hne hin =>
        obtain rfl := Option.some.inj h
        exact iff_of_false (by decide : ¬true = false) (mt (executeTaskIn_memory hin).mpr hne)

theorem cancelTaskTimeout_mem (c : Context) (id : Nat) :
    (c.cancelTaskTimeout id).mem = c.mem ∧ (c.cancelTaskTimeout id).callbacks = c.callbacks := by
  unfold Context.cancelTaskTimeout
  split <;> exact ⟨rfl, rfl⟩

theorem subscribeAnswer_resets (hcs : t.cs = .answer)
    (h : subscribeAnswer c t a.state a.message = some r) :
    r.exit.resets = false ↔ c.Serves t a := by
  obtain ⟨hmem, hcallbacks⟩ := cancelTaskTimeout_mem c t.id
  have hmemory (n : Nat) : (c.cancelTaskTimeout t.id).HasMemory n ↔ c.HasMemory n := by
    unfold Context.HasMemory
    rw [hmem]
  simp only [Context.Serves, hcs]
  unfold subscribeAnswer at h
  split at h
  · next htimeout =>
    rw [if_pos (.inl htimeout)]
    split at h
    · cases h
    · exact subscribeSend_resets h
  · next htimeout =>
    dsimp only at h
    split at h
    · next hresend =>
      rw [if_pos (.inr hresend)]
      exact (subscribeSend_resets h).trans (hmemory 1)
    · next hresend =>
      rw [if_neg (not_or.mpr ⟨htimeout, hresend⟩)]
      split at h
      · next hok =>
        obtain rfl := Option.some.inj h
        exact iff_of_false (by decide : ¬true = false) fun h => hok h.1
      · next hok =>
        rw [and_iff_right (not_not.mp hok)]
        split at h
        · cases h
        · next m hm =>
          have hexists {P : Received → Prop} : (∃ m ∈ a.message, P m) ↔ P m := by simp [hm]
          rw [hexists]
          split at h
          · next htype =>
            obtain rfl := Option.some.inj h
            exact iff_of_false (by decide : ¬true = false) fun h => htype h.1
          · next htype =>
            rw [and_iff_right (not_not.mp htype)]
            split at h
            · next topic topics d htopics hd =>
              obtain rfl := Option.some.inj h
              have hgranted : subackGrants m.message = grants topic.payload := by
                simp [subackGrants, htopics]
              have hiff : ((grants topic.payload = true →
                    ((c.cancelTaskTimeout t.id).freeMessage (some m)).HasMemory 1) ∧
                  ((c.cancelTaskTimeout t.id).freeMessage (some m)).callbacks.headD true = true) ↔
                  (subackGrants m.message = true → c.HasMemory 1) ∧ c.callbacks.headD true = true := by
                rw [hgranted, ← hcallbacks]
                exact and_congr_left' (imp_congr_right fun _ => hmemory 1)
              rw [← hiff]
              rcases subscribeSuback_cases _ t d topic.payload hd with
                ⟨hg, hq, he, -⟩ | ⟨hno, ⟨s, he⟩, -⟩
              · exact iff_of_true (by rw [he]; rfl) ⟨hg, hq⟩
              · exact iff_of_false (by rw [he]; exact fun h => Bool.false_ne_true h.symm) hno
            · cases h

/-- **When `err_handling` is not reached.** -/
theorem doMqttSubscribe_resets (hd : c.layerData = true) (h : doMqttSubscribe c t a = some r) :
    r.exit.resets = false ↔ c.Serves t a := by
  unfold doMqttSubscribe at h
  rw [hd, if_neg (by decide)] at h
  split at h
  · next hcs =>
    simp only [Context.Serves, hcs]
    exact subscribeSent_resets h
  · next hcs => exact subscribeAnswer_resets hcs h
  · next hcs =>
    simp only [Context.Serves, hcs]
    split at h
    · cases h
    · exact subscribeSend_resets h
  · next hsent hanswer hresending =>
    have hserves : c.Serves t a ↔ c.HasMemory 1 := by
      unfold Context.Serves
      split
      · next hcs => exact absurd hcs hsent
      · next hcs => exact absurd hcs hanswer
      · exact Iff.rfl
    exact (subscribeSend_resets h).trans hserves.symm

end Commands

end IotDeviceSdk.Mqtt.Logic
