import IotDeviceSdk.Mqtt.Logic.Started

/-!
# What a run of the coroutine of a PUBLISH does

`doMqttPublishQ0` and `doMqttPublishQ1` have few outcomes: they hand a message over and wait, they
wait for the answer, or they end with one call of the user's callback. Here these are listed, with
all that is done.
-/

namespace IotDeviceSdk.Mqtt.Logic

open Logic.Context

/-! ## What is done -/

/-- The event of the user's callback, as far as there is memory for it. -/
def Context.callbackEvent (c : Context) (t : Task) (s : IotcState) : List Output :=
  match t.callback with
  | some handle => if c.callbacks.headD true then [.callback t.id handle s] else []
  | none => []

/-- The event that hands a message over, as far as there is memory for it. -/
def Context.pushEvent (c : Context) (t : Task) (m : Message) : List Output :=
  if c.mem.headD true then [.push t.id m] else []

/-- The message of a PUBLISH of QoS 1. -/
def PublishData.message (d : PublishData) (msgId : Nat) (dup : Bool) : Message :=
  { commonValue := commonBits 3 dup .atLeastOnce d.retain, topicName := d.topic
    content := some d.data, messageId := msgId }

variable {c c' : Context} {t : Task} {d : PublishData} {a : Args} {s : IotcState}
  {msg : Option Received} {r : CoResult}

theorem deferUsersCallback_out (c : Context) (t : Task) (s : IotcState) :
    (c.deferUsersCallback t s).out = c.out ++ c.callbackEvent t s := by
  cases hc : t.callback with
  | none => simp [deferUsersCallback, callbackEvent, hc]
  | some handle =>
    simp only [deferUsersCallback, callbackEvent, hc, queue]
    split <;> simp [record]

theorem freeMessage_out (c : Context) (msg : Option Received) :
    (c.freeMessage msg).out = c.out ++ msg.toList.map .freeMessage := by
  cases msg <;> simp [freeMessage, record]

theorem sendAndYield_out (c : Context) (t : Task) (m : Message) :
    (sendAndYield c t m).context.out = c.out ++ c.pushEvent t m := by
  cases hm : c.mem.headD true <;>
    simp [sendAndYield_eq, pushOnPrev, continueWith, alloc, pushEvent, record, -List.headD_eq_head?_getD,
      hm]

theorem pushEvent_cases (c : Context) (t : Task) (m : Message) :
    c.pushEvent t m = [] ∨ c.pushEvent t m = [.push t.id m] := by
  unfold pushEvent
  split
  · exact .inr rfl
  · exact .inl rfl

theorem cancelTaskTimeout_callbacks (c : Context) (id : Nat) :
    (c.cancelTaskTimeout id).callbacks = c.callbacks := by
  unfold cancelTaskTimeout
  split <;> rfl

theorem callbackEvent_congr (h : c'.callbacks = c.callbacks) (t : Task) (s : IotcState) :
    c'.callbackEvent t s = c.callbackEvent t s := by
  unfold callbackEvent
  rw [h]

theorem build_out {fill e : Except IotcState Message} (h : c.build fill = (e, c')) :
    c'.out = c.out ∧ c'.callbacks = c.callbacks := by
  unfold build at h
  obtain ⟨-, rfl⟩ := Prod.mk.inj h
  exact ⟨rfl, rfl⟩

theorem executeTaskIn_out {id : Nat} {timeout : TaskTimeout}
    (h : c.executeTaskIn id timeout = some (s, c')) :
    c'.out = c.out ∧ c'.callbacks = c.callbacks ∧ (s = .ok ∨ s = .outOfMemory) := by
  rcases executeIn_eq_some h with ⟨hs, -, rfl⟩ | ⟨hs, rfl | rfl⟩
  · exact ⟨rfl, rfl, .inl hs⟩
  · exact ⟨rfl, rfl, .inr hs⟩
  · exact ⟨rfl, rfl, .inr hs⟩

/-- A message that cannot be built is too large, or there is no memory. -/
theorem build_error {fill : Except IotcState Message} {e : IotcState}
    (h : c.build fill = (.error e, c')) : fill = .error e ∨ e = .outOfMemory := by
  unfold build at h
  obtain ⟨hfill, -⟩ := Prod.mk.inj h
  split at hfill
  · exact .inl hfill
  · exact .inr (Except.error.inj hfill).symm

theorem fillWithPublishData_error {topic : Option Bytes} {cnt : Bytes} {qos : Qos} {retain dup : Bool} {id : Nat}
    {e : IotcState} (h : fillWithPublishData topic cnt qos retain dup id = .error e) :
    e = .mqttPayloadSizeTooLarge ∨ e = .outOfMemory := by
  unfold fillWithPublishData at h
  split at h
  · exact .inl (Except.error.inj h).symm
  · split at h
    · exact .inr (Except.error.inj h).symm
    · cases h

theorem fillWithPublishData_ok {retain dup : Bool} {id : Nat} {topic : Option Bytes} {cnt : Bytes}
    {m : Message} (h : fillWithPublishData topic cnt .atLeastOnce retain dup id = .ok m) :
    m = PublishData.message ⟨topic, cnt, retain⟩ id dup := by
  unfold fillWithPublishData at h
  split at h
  · cases h
  · split at h
    · cases h
    · exact (Except.ok.inj h).symm

/-! ## A PUBLISH of QoS 1 -/

/-- The attempt to send the PUBLISH is not the first. -/
def Resends (t : Task) (a : Args) : Prop := t.cs = .sent ∨ t.cs = .answer ∨ a.state = .resend

/-- **What a run of `doMqttPublishQ1` does.** -/
inductive PublishQ1Run (c : Context) (t : Task) (d : PublishData) (a : Args) (r : CoResult) : Prop
  | stopped (hst : c.stopped = true) (he : r.exit.final = false) (hcs : r.task.cs = .reset)
      (hss : r.task.sessionState = t.sessionState)
      (hout : r.context.out = c.out ++ a.message.toList.map .freeMessage)
  | sends (dup : Bool) (hst : c.stopped = false) (hdup : dup = true ↔ Resends t a)
      (he : r.exit.final = false) (hcs : r.task.cs = .sent)
      (hss : r.task.sessionState = t.sessionState) {os : List Output}
      (hos : os = [] ∨ os = [.push t.id (d.message t.msgId dup)]) (hout : r.context.out = c.out ++ os)
  | waits (hst : c.stopped = false) (hsent : t.cs = .sent) (hs : a.state = .written)
      (he : r.exit.final = false) (hcs : r.task.cs = .answer)
      (hss : r.task.sessionState = t.sessionState.afterWrite) (hout : r.context.out = c.out)
  | fails {s : IotcState} {ms : List Received} (hst : c.stopped = false) (hs : s ≠ .ok)
      (he : r.exit.final = true)
      (hout : r.context.out = c.out ++ c.callbackEvent t s ++ ms.map .freeMessage)
  | acknowledged {m : Received} (hst : c.stopped = false) (hanswer : t.cs = .answer)
      (hs : a.state = .ok) (hm : a.message = some m) (htype : m.message.type = .puback)
      (he : r.exit.final = true)
      (hout : r.context.out = c.out ++ c.callbackEvent t .ok ++ [.freeMessage m])

theorem publishQ1Err_run (hst : c.stopped = false) (hs : s ≠ .ok) (hout : c'.out = c.out)
    (hcallbacks : c'.callbacks = c.callbacks) {u : Task} (hu : u.callback = t.callback)
    (hid : u.id = t.id) : PublishQ1Run c t d a (publishQ1Err c' u s msg) := by
  have hevent : c'.callbackEvent u s = c.callbackEvent t s := by
    rw [callbackEvent_congr hcallbacks]
    unfold callbackEvent
    rw [hu, hid]
  have hout' : (publishQ1Err c' u s msg).context.out =
      c.out ++ c.callbackEvent t s ++ msg.toList.map .freeMessage := by
    change ((c'.deferUsersCallback u s).freeMessage msg).out = _
    rw [freeMessage_out, deferUsersCallback_out, hout, hevent]
  exact .fails hst hs rfl hout'

/-- A round of the loop. -/
theorem publishQ1Send_run (hst : c.stopped = false) (hd : t.publishData = some d)
    (hout : c'.out = c.out) (hcallbacks : c'.callbacks = c.callbacks)
    (hdup : s = .resend ↔ Resends t a) (h : publishQ1Send c' t s = some r) :
    PublishQ1Run c t d a r := by
  unfold publishQ1Send at h
  rw [hd] at h
  dsimp only at h
  split at h
  · next m c₁ hb =>
    obtain rfl := Option.some.inj h
    obtain ⟨-, -, hfill⟩ := build_mem hb
    obtain rfl := fillWithPublishData_ok hfill
    refine .sends (decide (s = .resend)) hst (decide_eq_true_iff.trans hdup) rfl rfl rfl
      (pushEvent_cases c₁ t _) ?_
    rw [sendAndYield_out, (build_out hb).1, hout]
  · next e c₁ hb =>
    obtain rfl := Option.some.inj h
    obtain ⟨hout₁, hcallbacks₁⟩ := build_out hb
    refine publishQ1Err_run hst ?_ (hout₁.trans hout) (hcallbacks₁.trans hcallbacks) rfl rfl
    rcases build_error hb with hfill | rfl
    · rcases fillWithPublishData_error hfill with rfl | rfl <;> decide
    · decide

theorem publishQ1Sent_run (hst : c.stopped = false) (hd : t.publishData = some d)
    (hcs : t.cs = .sent) (h : publishQ1Sent c t a.state a.message = some r) :
    PublishQ1Run c t d a r := by
  unfold publishQ1Sent at h
  split at h
  · next hs =>
    dsimp only at h
    split at h
    · cases h
    · split at h
      · split at h
        · cases h
        · next hin =>
          obtain rfl := Option.some.inj h
          exact .waits hst hcs hs rfl rfl rfl (executeTaskIn_out hin).1
        · next e c₁ hne hin =>
          obtain rfl := Option.some.inj h
          obtain ⟨hout, hcallbacks, he⟩ := executeTaskIn_out hin
          refine publishQ1Err_run hst (fun he' => ?_) hout hcallbacks rfl rfl
          exact hne he'
      · obtain rfl := Option.some.inj h
        exact .waits hst hcs hs rfl rfl rfl rfl
  · exact publishQ1Send_run hst hd rfl rfl ⟨fun _ => .inl hcs, fun _ => rfl⟩ h

theorem publishQ1Answer_run (hst : c.stopped = false) (hd : t.publishData = some d)
    (hcs : t.cs = .answer) (h : publishQ1Answer c t a.state a.message = some r) :
    PublishQ1Run c t d a r := by
  have hresends : Resends t a := .inr (.inl hcs)
  have hout := World.cancelTaskTimeout_out c t.id
  have hcallbacks := cancelTaskTimeout_callbacks c t.id
  unfold publishQ1Answer at h
  split at h
  · split at h
    · cases h
    · exact publishQ1Send_run hst hd rfl rfl ⟨fun _ => hresends, fun _ => rfl⟩ h
  · dsimp only at h
    split at h
    · next hs => exact publishQ1Send_run hst hd hout hcallbacks ⟨fun _ => hresends, fun _ => hs⟩ h
    · split at h
      · next hs =>
        obtain rfl := Option.some.inj h
        exact publishQ1Err_run hst hs hout hcallbacks rfl rfl
      · next hs =>
        split at h
        · cases h
        · next m hm =>
          split at h
          · obtain rfl := Option.some.inj h
            exact publishQ1Err_run hst (by decide) hout hcallbacks rfl rfl
          · next htype =>
            rw [hd] at h
            obtain rfl := Option.some.inj h
            have hs : a.state = .ok := not_not.mp hs
            refine .acknowledged hst hcs hs hm (not_not.mp htype) rfl ?_
            rw [hs]
            change (((c.cancelTaskTimeout t.id).deferUsersCallback t .ok).freeMessage (some m)).out = _
            rw [freeMessage_out, deferUsersCallback_out, hout, callbackEvent_congr hcallbacks]
            rfl

theorem doMqttPublishQ1_run (hd : t.publishData = some d) (h : doMqttPublishQ1 c t a = some r) :
    PublishQ1Run c t d a r := by
  unfold doMqttPublishQ1 at h
  split at h
  · next hst =>
    obtain rfl := Option.some.inj h
    refine .stopped hst rfl rfl rfl ?_
    rw [freeMessage_out, World.cancelTaskTimeout_out]
  · next hst =>
    have hst : c.stopped = false := Bool.not_eq_true _ ▸ hst
    split at h
    · next hcs => exact publishQ1Sent_run hst hd hcs h
    · next hcs => exact publishQ1Answer_run hst hd hcs h
    · next hsent hanswer =>
      split at h
      · cases h
      · refine publishQ1Send_run hst hd rfl rfl ⟨fun hs => .inr (.inr hs), fun hr => ?_⟩ h
        rcases hr with hcs | hcs | hs
        · exact absurd hcs hsent
        · exact absurd hcs hanswer
        · exact hs

/-- **A run of the coroutine of a PUBLISH of QoS 1.** -/
theorem execute_publishQ1 (hs : t.scenario = .publish (some d)) (hq : t.qos = .atLeastOnce)
    (h : execute c t a = some r) : PublishQ1Run c t d a r := by
  unfold execute at h
  split at h
  · exact doMqttPublishQ1_run (publishData_eq_some.mpr hs)
      (by simpa only [coroutine, hs, hq] using h)
  · cases h

/-- **A PUBACK ends the wait for the answer** with `OK`, and is freed. -/
theorem execute_puback {m : Received} (hst : c.stopped = false) (hs : t.scenario = .publish (some d))
    (hq : t.qos = .atLeastOnce) (hcs : t.cs = .answer) (ha : a.state = .ok)
    (hm : a.message = some m) (htype : m.message.type = .puback) (h : execute c t a = some r) :
    r.exit.final = true ∧ r.context.out = c.out ++ c.callbackEvent t .ok ++ [.freeMessage m] := by
  unfold execute at h
  split at h
  · rw [show coroutine t = doMqttPublishQ1 by simp only [coroutine, hs, hq]] at h
    unfold doMqttPublishQ1 publishQ1Answer at h
    have hne : ¬m.message.type ≠ .puback := not_not.mpr htype
    rw [if_neg (by simp [hst]), hcs, ha, hm] at h
    simp only [hne, if_false, publishData_eq_some.mpr hs] at h
    rw [if_neg (by decide), if_neg (by decide), if_neg (by decide)] at h
    obtain rfl := Option.some.inj h
    refine ⟨rfl, ?_⟩
    change (((c.cancelTaskTimeout t.id).deferUsersCallback t .ok).freeMessage (some m)).out = _
    rw [freeMessage_out, deferUsersCallback_out, World.cancelTaskTimeout_out,
      callbackEvent_congr (cancelTaskTimeout_callbacks c t.id)]
    rfl
  · cases h

/-! ## A PUBLISH of QoS 0 -/

/-- **What a run of `doMqttPublishQ0` does.** -/
inductive PublishQ0Run (c : Context) (t : Task) (a : Args) (r : CoResult) : Prop
  | stopped (hst : c.stopped = true) (he : r.exit.final = false) (ht : r.task = t)
      (hout : r.context.out = c.out)
  | sends {m : Message} (hst : c.stopped = false) (hsent : t.cs ≠ .sent) (he : r.exit.final = false)
      (hcs : r.task.cs = .sent) {os : List Output} (hos : os = [] ∨ os = [.push t.id m])
      (hout : r.context.out = c.out ++ os)
  | ends {s : IotcState} (hst : c.stopped = false) (he : r.exit.final = true)
      (hs : s = .ok → t.cs = .sent ∧ (a.state = .written ∨ a.state = .ok))
      (hout : r.context.out = c.out ++ c.callbackEvent t s)

theorem publishQ0Exit_run (hst : c.stopped = false) (hout : c'.out = c.out)
    (hcallbacks : c'.callbacks = c.callbacks)
    (hs : s = .ok → t.cs = .sent ∧ (a.state = .written ∨ a.state = .ok))
    (h : publishQ0Exit c' t s = some r) : PublishQ0Run c t a r := by
  unfold publishQ0Exit at h
  split at h
  · cases h
  · obtain rfl := Option.some.inj h
    refine .ends hst rfl hs ?_
    change (c'.deferUsersCallback t s).out = _
    rw [deferUsersCallback_out, hout, callbackEvent_congr hcallbacks]

theorem doMqttPublishQ0_run (h : doMqttPublishQ0 c t a = some r) : PublishQ0Run c t a r := by
  unfold doMqttPublishQ0 at h
  split at h
  · cases h
  · split at h
    · next hst =>
      obtain rfl := Option.some.inj h
      exact .stopped hst rfl rfl rfl
    · next hst =>
      have hst : c.stopped = false := Bool.not_eq_true _ ▸ hst
      split at h
      · next hcs =>
        refine publishQ0Exit_run hst rfl rfl (fun hs => ⟨hcs, ?_⟩) h
        split at hs
        · next hw => exact .inl hw
        · exact .inr hs
      · next hsent =>
        split at h
        · cases h
        · split at h
          · next m c₁ hb =>
            obtain rfl := Option.some.inj h
            refine .sends hst hsent rfl rfl (pushEvent_cases c₁ t m) ?_
            rw [sendAndYield_out, (build_out hb).1]
          · next e c₁ hb =>
            obtain ⟨hout, hcallbacks⟩ := build_out hb
            refine publishQ0Exit_run hst hout hcallbacks (fun he => ?_) h
            rcases build_error hb with hfill | rfl
            · rcases fillWithPublishData_error hfill with rfl | rfl <;> cases he
            · cases he

/-- **A run of the coroutine of a PUBLISH of QoS 0.** -/
theorem execute_publishQ0 {data : Option PublishData} (hs : t.scenario = .publish data)
    (hq : t.qos = .atMostOnce) (h : execute c t a = some r) : PublishQ0Run c t a r := by
  unfold execute at h
  split at h
  · exact doMqttPublishQ0_run (by simpa only [coroutine, hs, hq] using h)
  · cases h

end IotDeviceSdk.Mqtt.Logic
