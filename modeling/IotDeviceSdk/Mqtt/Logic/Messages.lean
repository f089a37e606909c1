import IotDeviceSdk.Mqtt.Logic.Fewer

/-!
# What becomes of the messages that are received

A message is consumed when it is freed, or handed to the user of its topic. A coroutine consumes the
message that it is resumed with, or does not, and consumes no other (`execute_takes`). So a message
that no task refers to is not consumed any more (`step_unheld`).
-/

namespace IotDeviceSdk.Mqtt.Logic

/-- The messages that have been consumed. -/
def Context.consumptions (c : Context) : List Received := c.out.filterMap Output.consumed

/-! ## Operations of a context -/

namespace Context

variable {c c' : Context} {t : Task} {s : IotcState}

@[simp] theorem alloc_consumptions (c : Context) : c.alloc.2.consumptions = c.consumptions := rfl

@[simp] theorem build_consumptions (c : Context) (fill : Except IotcState Message) :
    (c.build fill).2.consumptions = c.consumptions := rfl

theorem record_consumptions (c : Context) (o : Output) :
    (c.record o).consumptions = c.consumptions ++ o.consumed.toList := by
  cases h : o.consumed <;> simp [consumptions, record, h]

theorem continueWith_consumptions (c : Context) {o : Output} (ho : o.consumed = none)
    (next : LayerState) : (c.continueWith o next).2.consumptions = c.consumptions := by
  have hr := record_consumptions c.alloc.2 o
  simp only [continueWith]
  split
  · change (c.alloc.2.record o).consumptions = _
    rw [hr, ho]
    simp
  · rfl

@[simp] theorem pushOnPrev_consumptions (c : Context) (id : Nat) (m : Message) :
    (c.pushOnPrev id m).2.consumptions = c.consumptions := continueWith_consumptions c rfl _

@[simp] theorem connectOnNext_consumptions (c : Context) (s : IotcState) :
    (c.connectOnNext s).2.consumptions = c.consumptions := continueWith_consumptions c rfl _

@[simp] theorem closeOnPrev_consumptions (c : Context) (s : IotcState) :
    (c.closeOnPrev s).2.consumptions = c.consumptions := continueWith_consumptions c rfl _

@[simp] theorem close_consumptions (c : Context) (s : IotcState) :
    (Logic.close c s).2.consumptions = c.consumptions := by
  unfold Logic.close
  split
  · exact closeOnPrev_consumptions c s
  · exact continueWith_consumptions c rfl _

theorem queue_consumptions (c : Context) {o : Output} (ho : o.consumed = none) :
    (c.queue o).2.consumptions = c.consumptions := by
  simp only [queue]
  split
  · rw [record_consumptions, ho]
    exact List.append_nil _
  · rfl

@[simp] theorem deferUsersCallback_consumptions (c : Context) (t : Task) (s : IotcState) :
    (c.deferUsersCallback t s).consumptions = c.consumptions := by
  unfold deferUsersCallback
  split
  · exact queue_consumptions c rfl
  · rfl

@[simp] theorem freeMessage_consumptions (c : Context) (m : Option Received) :
    (c.freeMessage m).consumptions = c.consumptions ++ m.toList := by
  unfold freeMessage
  split
  · exact record_consumptions c _
  · simp

@[simp] theorem cancelTaskTimeout_consumptions (c : Context) (id : Nat) :
    (c.cancelTaskTimeout id).consumptions = c.consumptions := by
  unfold cancelTaskTimeout
  split <;> rfl

@[simp] theorem ioTimeoutsRemove_consumptions (c : Context) (id : Nat) :
    (c.ioTimeoutsRemove id).consumptions = c.consumptions := rfl

theorem executeIn_consumptions {taken : Context → Bool} {arm : Context → Context}
    (harm : ∀ c, (arm c).out = c.out) (h : c.executeIn taken arm = some (s, c')) :
    c'.consumptions = c.consumptions := by
  rcases executeIn_eq_some h with ⟨-, -, rfl⟩ | ⟨-, rfl | rfl⟩
  · exact congrArg (List.filterMap Output.consumed) (harm _)
  · rfl
  · rfl

theorem executeTaskIn_consumptions {id : Nat} {timeout : TaskTimeout}
    (h : c.executeTaskIn id timeout = some (s, c')) : c'.consumptions = c.consumptions := by
  refine executeIn_consumptions ?_ h
  exact fun _ => rfl

theorem executeKeepaliveIn_consumptions (h : c.executeKeepaliveIn = some (s, c')) :
    c'.consumptions = c.consumptions := by
  refine executeIn_consumptions ?_ h
  exact fun _ => rfl

theorem ioTimeoutsCreate_consumptions {id : Nat} (h : c.ioTimeoutsCreate id = some (s, c')) :
    c'.consumptions = c.consumptions := by
  unfold ioTimeoutsCreate at h
  split at h
  · cases h
  · split at h
    · next c₁ h₁ =>
      have hout := executeTaskIn_consumptions h₁
      dsimp only at h
      split at h <;> obtain ⟨-, rfl⟩ := Prod.mk.inj (Option.some.inj h) <;> exact hout
    · exact executeTaskIn_consumptions h

theorem callTopicHandler_consumptions {m : Received} (h : c.callTopicHandler (some m) = some c') :
    c'.consumptions = c.consumptions ∨ c'.consumptions = c.consumptions ++ [m] := by
  unfold callTopicHandler at h
  dsimp only at h
  split at h
  · cases h
  · split at h <;> obtain rfl := Option.some.inj h
    · simp only [queue]
      split
      · exact .inr (record_consumptions _ _)
      · exact .inl rfl
    · exact .inr (freeMessage_consumptions c (some m))

end Context

/-! ## Coroutines -/

/-- The message is consumed, or not, and no other message is. -/
def Context.Takes (msg : Option Received) (c c' : Context) : Prop :=
  c'.consumptions = c.consumptions ∨ c'.consumptions = c.consumptions ++ msg.toList

namespace Context.Takes

variable {msg : Option Received} {c c' c'' : Context}

theorem of_eq (h : c'.consumptions = c.consumptions) : Takes msg c c' := .inl h

theorem after (h : Takes msg c' c'') (hc : c'.consumptions = c.consumptions) : Takes msg c c'' := by
  unfold Takes at h ⊢
  rwa [← hc]

/-- Without a message nothing is consumed. -/
theorem eq_of_none (h : Takes none c c') : c'.consumptions = c.consumptions := by
  rcases h with h | h
  · exact h
  · rw [h]
    exact List.append_nil _

end Context.Takes

section Commands

open Logic.Context

variable {c c' : Context} {t : Task} {a : Args} {s : IotcState} {msg : Option Received} {r : CoResult}

theorem sendAndYield_consumptions (c : Context) (t : Task) (m : Message) :
    (sendAndYield c t m).context.consumptions = c.consumptions := pushOnPrev_consumptions c t.id m

theorem build_eq_consumptions {fill e : Except IotcState Message} (h : c.build fill = (e, c')) :
    c'.consumptions = c.consumptions := by
  rw [← build_consumptions c fill, h]

theorem publishQ0Exit_consumptions (h : publishQ0Exit c t s = some r) :
    r.context.consumptions = c.consumptions := by
  unfold publishQ0Exit at h
  split at h
  · cases h
  · obtain rfl := Option.some.inj h
    exact deferUsersCallback_consumptions c t s

theorem doMqttPublishQ0_takes (h : doMqttPublishQ0 c t a = some r) : Takes a.message c r.context := by
  unfold doMqttPublishQ0 at h
  split at h
  · cases h
  · split at h
    · obtain rfl := Option.some.inj h
      exact .of_eq rfl
    · split at h
      · exact .of_eq (publishQ0Exit_consumptions h)
      · split at h
        · cases h
        · split at h
          · next hb =>
            obtain rfl := Option.some.inj h
            exact .of_eq ((sendAndYield_consumptions _ t _).trans (build_eq_consumptions hb))
          · next hb =>
            exact .of_eq ((publishQ0Exit_consumptions h).trans (build_eq_consumptions hb))

theorem publishQ1Err_takes (s : IotcState) (msg : Option Received) :
    Takes msg c (publishQ1Err c t s msg).context := by
  refine .inr ?_
  simp [publishQ1Err]

theorem publishQ1Send_consumptions (h : publishQ1Send c t s = some r) :
    r.context.consumptions = c.consumptions := by
  unfold publishQ1Send at h
  split at h
  · cases h
  · split at h
    · next hb =>
      obtain rfl := Option.some.inj h
      exact (sendAndYield_consumptions _ t _).trans (build_eq_consumptions hb)
    · next hb =>
      obtain rfl := Option.some.inj h
      exact ((publishQ1Err_takes _ none).eq_of_none).trans (build_eq_consumptions hb)

theorem publishQ1Sent_takes (h : publishQ1Sent c t s msg = some r) : Takes msg c r.context := by
  unfold publishQ1Sent at h
  split at h
  · dsimp only at h
    split at h
    · cases h
    · split at h
      · split at h
        · cases h
        · next hin =>
          obtain rfl := Option.some.inj h
          exact .of_eq (executeTaskIn_consumptions hin)
        · next hin =>
          obtain rfl := Option.some.inj h
          exact (publishQ1Err_takes _ msg).after (executeTaskIn_consumptions hin)
      · obtain rfl := Option.some.inj h
        exact .of_eq rfl
  · exact .of_eq (publishQ1Send_consumptions h)

theorem publishQ1Answer_takes (h : publishQ1Answer c t s msg = some r) : Takes msg c r.context := by
  have hcancel := cancelTaskTimeout_consumptions c t.id
  unfold publishQ1Answer at h
  split at h
  · split at h
    · cases h
    · exact .of_eq (publishQ1Send_consumptions h)
  · dsimp only at h
    split at h
    · exact .of_eq ((publishQ1Send_consumptions h).trans hcancel)
    · split at h
      · obtain rfl := Option.some.inj h
        exact (publishQ1Err_takes _ msg).after hcancel
      · split at h
        · cases h
        · next m =>
          split at h
          · obtain rfl := Option.some.inj h
            exact (publishQ1Err_takes _ (some m)).after hcancel
          · split at h
            · cases h
            · obtain rfl := Option.some.inj h
              exact .inr (by simp)

theorem doMqttPublishQ1_takes (h : doMqttPublishQ1 c t a = some r) : Takes a.message c r.context := by
  unfold doMqttPublishQ1 at h
  split at h
  · obtain rfl := Option.some.inj h
    exact .inr (by simp)
  · split at h
    · exact publishQ1Sent_takes h
    · exact publishQ1Answer_takes h
    · split at h
      · cases h
      · exact .of_eq (publishQ1Send_consumptions h)

theorem subscribeErr_takes (s : IotcState) (msg : Option Received) :
    Takes msg c (subscribeErr c t s msg).context := .inr (freeMessage_consumptions c msg)

theorem subscribeSend_consumptions (h : subscribeSend c t s = some r) :
    r.context.consumptions = c.consumptions := by
  unfold subscribeSend at h
  split at h
  · cases h
  · split at h
    · next hb =>
      obtain rfl := Option.some.inj h
      exact (sendAndYield_consumptions _ t _).trans (build_eq_consumptions hb)
    · next hb =>
      obtain rfl := Option.some.inj h
      exact ((subscribeErr_takes _ none).eq_of_none).trans (build_eq_consumptions hb)

theorem subscribeSent_takes (h : subscribeSent c t s msg = some r) : Takes msg c r.context := by
  unfold subscribeSent at h
  split at h
  · cases h
  · split at h
    · dsimp only at h
      split at h
      · split at h
        · cases h
        · next hin =>
          obtain rfl := Option.some.inj h
          exact .of_eq (executeTaskIn_consumptions hin)
        · next hin =>
          obtain rfl := Option.some.inj h
          exact (subscribeErr_takes _ msg).after (executeTaskIn_consumptions hin)
      · obtain rfl := Option.some.inj h
        exact .of_eq rfl
    · split at h
      · cases h
      · next hin =>
        obtain rfl := Option.some.inj h
        exact .of_eq (executeTaskIn_consumptions hin)
      · next hin =>
        obtain rfl := Option.some.inj h
        exact (subscribeErr_takes _ msg).after (executeTaskIn_consumptions hin)

theorem subscribeSuback_consumptions (c : Context) (t : Task) (d : SubscribeData) (status : UInt8) :
    (subscribeSuback c t d status).context.consumptions = c.consumptions := by
  have hqueue (c : Context) (s : IotcState) {q : Bool × Context}
      (h : c.queue (.subscribed t.id d.handler status s) = q) : q.2.consumptions = c.consumptions :=
    h ▸ queue_consumptions c rfl
  unfold subscribeSuback
  dsimp only
  split
  · split
    · split
      · next h => exact hqueue _ _ h
      · next h => exact ((subscribeErr_takes _ none).eq_of_none).trans (hqueue _ _ h)
    · exact (subscribeErr_takes _ none).eq_of_none
  · rw [if_pos rfl]
    split
    · next h => exact hqueue _ _ h
    · next h => exact ((subscribeErr_takes _ none).eq_of_none).trans (hqueue _ _ h)

theorem subscribeAnswer_takes (h : subscribeAnswer c t s msg = some r) : Takes msg c r.context := by
  have hcancel := cancelTaskTimeout_consumptions c t.id
  unfold subscribeAnswer at h
  split at h
  · split at h
    · cases h
    · exact .of_eq (subscribeSend_consumptions h)
  · dsimp only at h
    split at h
    · exact .of_eq ((subscribeSend_consumptions h).trans hcancel)
    · split at h
      · obtain rfl := Option.some.inj h
        exact (subscribeErr_takes _ msg).after hcancel
      · split at h
        · cases h
        · next m =>
          split at h
          · obtain rfl := Option.some.inj h
            exact (subscribeErr_takes _ (some m)).after hcancel
          · split at h
            · obtain rfl := Option.some.inj h
              exact .inr (by rw [subscribeSuback_consumptions]; simp)
            · cases h

theorem doMqttSubscribe_takes (h : doMqttSubscribe c t a = some r) : Takes a.message c r.context := by
  unfold doMqttSubscribe at h
  split at h
  · obtain rfl := Option.some.inj h
    exact .inr (by simp)
  · split at h
    · exact subscribeSent_takes h
    · exact subscribeAnswer_takes h
    · split at h
      · cases h
      · exact .of_eq (subscribeSend_consumptions h)
    · exact .of_eq (subscribeSend_consumptions h)

theorem connectExit_takes (msg : Option Received) : Takes msg c (connectExit c t msg).context := by
  refine .inr ?_
  simp [connectExit]

theorem connectStart_consumptions (h : connectStart c t = some r) :
    r.context.consumptions = c.consumptions := by
  have hexit (c : Context) := (connectExit_takes (c := c) (t := t) none).eq_of_none
  unfold connectStart at h
  split at h
  · next hb =>
    obtain rfl := Option.some.inj h
    exact (hexit _).trans (build_eq_consumptions hb)
  · next hb =>
    split at h
    · split at h
      · cases h
      · next hin =>
        obtain rfl := Option.some.inj h
        exact ((sendAndYield_consumptions _ t _).trans (ioTimeoutsCreate_consumptions hin)).trans
          (build_eq_consumptions hb)
      · next hin =>
        obtain rfl := Option.some.inj h
        exact ((hexit _).trans (ioTimeoutsCreate_consumptions hin)).trans (build_eq_consumptions hb)
    · split at h
      · cases h
      · obtain rfl := Option.some.inj h
        exact (sendAndYield_consumptions _ t _).trans (build_eq_consumptions hb)

theorem connectSent_takes (s : IotcState) (msg : Option Received) :
    Takes msg c (connectSent c t s msg).context := by
  unfold connectSent
  split
  · exact .of_eq rfl
  · exact (connectExit_takes msg).after (connectOnNext_consumptions c s)

theorem connectAccepted_consumptions (h : connectAccepted c t s = some r) :
    r.context.consumptions = c.consumptions := by
  unfold connectAccepted at h
  dsimp only at h
  split at h
  · split at h
    · cases h
    · next hin =>
      obtain rfl := Option.some.inj h
      have hkeepalive := executeKeepaliveIn_consumptions hin
      exact (connectOnNext_consumptions _ _).trans hkeepalive
    · next hin =>
      obtain rfl := Option.some.inj h
      exact ((connectExit_takes none).eq_of_none).trans (executeKeepaliveIn_consumptions hin)
  · obtain rfl := Option.some.inj h
    exact connectOnNext_consumptions _ _

theorem connectAnswer_takes (h : connectAnswer c t s msg = some r) : Takes msg c r.context := by
  unfold connectAnswer at h
  split at h
  · cases h
  · next m =>
    split at h
    · dsimp only at h
      split at h
      · exact .inr (by rw [connectAccepted_consumptions h]; simp)
      · obtain rfl := Option.some.inj h
        exact (connectExit_takes (some m)).after (by simp)
    · obtain rfl := Option.some.inj h
      exact connectExit_takes (some m)

theorem doMqttConnect_takes (h : doMqttConnect c t a = some r) : Takes a.message c r.context := by
  unfold doMqttConnect at h
  split at h
  · obtain rfl := Option.some.inj h
    exact .inr (by simp)
  · split at h
    · obtain rfl := Option.some.inj h
      exact connectSent_takes _ _
    · exact connectAnswer_takes h
    · exact .of_eq (connectStart_consumptions h)

theorem doMqttConnectTimeout_consumptions (h : doMqttConnectTimeout c t = some r) :
    r.context.consumptions = c.consumptions := by
  unfold doMqttConnectTimeout at h
  dsimp only at h
  split at h
  · cases h
  · obtain rfl := Option.some.inj h
    exact connectOnNext_consumptions _ _

theorem keepaliveErr_takes (s : IotcState) (msg : Option Received) :
    Takes msg c (keepaliveErr c t s msg).context := .inr (freeMessage_consumptions c msg)

theorem keepaliveSent_takes (h : keepaliveSent c t msg = some r) : Takes msg c r.context := by
  unfold keepaliveSent at h
  split at h
  · cases h
  · split at h
    · cases h
    · next hin =>
      obtain rfl := Option.some.inj h
      exact .of_eq (executeTaskIn_consumptions hin)
    · next hin =>
      obtain rfl := Option.some.inj h
      exact (keepaliveErr_takes _ msg).after (executeTaskIn_consumptions hin)

theorem keepaliveAnswer_takes (h : keepaliveAnswer c t s msg = some r) : Takes msg c r.context := by
  have hcancel := cancelTaskTimeout_consumptions c t.id
  unfold keepaliveAnswer at h
  split at h
  · split at h
    · cases h
    · obtain rfl := Option.some.inj h
      exact .of_eq (closeOnPrev_consumptions c _)
  · dsimp only at h
    split at h
    · obtain rfl := Option.some.inj h
      exact .of_eq hcancel
    · split at h
      · cases h
      · next m =>
        split at h
        · obtain rfl := Option.some.inj h
          exact (keepaliveErr_takes _ (some m)).after hcancel
        · split at h
          · split at h
            · cases h
            · next hin =>
              obtain rfl := Option.some.inj h
              refine .inr ?_
              rw [freeMessage_consumptions, executeKeepaliveIn_consumptions hin, hcancel]
            · next hin =>
              obtain rfl := Option.some.inj h
              exact (keepaliveErr_takes _ (some m)).after
                ((executeKeepaliveIn_consumptions hin).trans hcancel)
          · obtain rfl := Option.some.inj h
            exact .inr (by simp)

theorem doMqttKeepaliveTask_takes (h : doMqttKeepaliveTask c t a = some r) :
    Takes a.message c r.context := by
  unfold doMqttKeepaliveTask at h
  split at h
  · obtain rfl := Option.some.inj h
    exact .inr (freeMessage_consumptions c _)
  · split at h
    · exact keepaliveSent_takes h
    · exact keepaliveAnswer_takes h
    · split at h
      · next hb =>
        obtain rfl := Option.some.inj h
        exact .of_eq ((sendAndYield_consumptions _ t _).trans (build_eq_consumptions hb))
      · next hb =>
        obtain rfl := Option.some.inj h
        exact .of_eq (((keepaliveErr_takes _ none).eq_of_none).trans (build_eq_consumptions hb))

theorem doShutdown_takes (h : doShutdown c t a = some r) : Takes a.message c r.context := by
  unfold doShutdown at h
  split at h
  · obtain rfl := Option.some.inj h
    exact .inr (freeMessage_consumptions c _)
  · split at h
    · obtain rfl := Option.some.inj h
      exact .of_eq (close_consumptions c _)
    · split at h
      · next hb =>
        obtain rfl := Option.some.inj h
        exact .of_eq ((sendAndYield_consumptions _ t _).trans (build_eq_consumptions hb))
      · next hb =>
        obtain rfl := Option.some.inj h
        exact .of_eq (build_eq_consumptions hb)

theorem publishQ1RecievedSend_consumptions (c : Context) (t : Task) :
    (publishQ1RecievedSend c t).context.consumptions = c.consumptions := by
  unfold publishQ1RecievedSend
  split
  · next hb => exact (sendAndYield_consumptions _ t _).trans (build_eq_consumptions hb)
  · next hb => exact build_eq_consumptions hb

theorem onPublishQ1Recieved_takes (h : onPublishQ1Recieved c t a = some r) :
    Takes a.message c r.context := by
  unfold onPublishQ1Recieved at h
  split at h
  · obtain rfl := Option.some.inj h
    exact .inr (freeMessage_consumptions c _)
  · split at h
    · split at h
      · split at h
        · next c' hc =>
          obtain rfl := Option.some.inj h
          cases hm : a.message with
          | none => simp [hm, callTopicHandler] at hc
          | some m => exact callTopicHandler_consumptions (hm ▸ hc)
        · cases h
      · obtain rfl := Option.some.inj h
        exact .of_eq (publishQ1RecievedSend_consumptions c t)
    · split at h
      · cases h
      · obtain rfl := Option.some.inj h
        exact .of_eq (publishQ1RecievedSend_consumptions c t)

theorem coroutine_takes (h : coroutine t c t a = some r) : Takes a.message c r.context := by
  cases hs : t.scenario with
  | connect => exact doMqttConnect_takes (by simpa only [coroutine, hs] using h)
  | publish d =>
    by_cases hq : t.qos = .atMostOnce
    · exact doMqttPublishQ0_takes (by simpa only [coroutine, hs, hq] using h)
    · exact doMqttPublishQ1_takes (by simpa only [coroutine, hs] using h)
  | puback => exact onPublishQ1Recieved_takes (by simpa only [coroutine, hs] using h)
  | subscribe d => exact doMqttSubscribe_takes (by simpa only [coroutine, hs] using h)
  | keepalive => exact doMqttKeepaliveTask_takes (by simpa only [coroutine, hs] using h)
  | shutdown => exact doShutdown_takes (by simpa only [coroutine, hs] using h)

/-- **A coroutine consumes the message that it is resumed with, or nothing.** -/
theorem execute_takes (h : execute c t a = some r) : Takes a.message c r.context := by
  unfold execute at h
  split at h
  · exact coroutine_takes h
  · cases h

/-- The message that a time event keeps. -/
def TaskTimeout.message : TaskTimeout → Option Received
  | .keepalive msg => msg
  | _ => none

theorem TaskTimeout.run_takes {timeout : TaskTimeout} (h : timeout.run c t = some r) :
    Takes timeout.message c r.context := by
  cases timeout with
  | resume s => exact execute_takes h
  | keepalive msg =>
    obtain ⟨r', hr, rfl⟩ := Option.map_eq_some_iff.mp h
    exact execute_takes hr
  | connect => exact .of_eq (doMqttConnectTimeout_consumptions h)

/-! ## Messages in time events -/

/-- A KEEPALIVE that is kept has the time event it had before, or one with its message. -/
theorem doMqttKeepaliveTask_pending (h : doMqttKeepaliveTask c t a = some r)
    (he : r.exit.final = false) : r.context.timeouts t.id = c.timeouts t.id ∨
      r.context.timeouts t.id = some (.keepalive a.message) := by
  unfold doMqttKeepaliveTask at h
  split at h
  · obtain rfl := Option.some.inj h
    exact .inl (by simp)
  · split at h
    · unfold keepaliveSent at h
      split at h
      · cases h
      · split at h
        · cases h
        · next hin =>
          obtain rfl := Option.some.inj h
          exact .inr (executeTaskIn_armed hin)
        · obtain rfl := Option.some.inj h
          cases he
    · unfold keepaliveAnswer at h
      split at h
      · split at h
        · cases h
        · obtain rfl := Option.some.inj h
          exact .inl (congrFun (closeOnPrev_timeouts c .timeout) t.id)
      · dsimp only at h
        split at h
        · obtain rfl := Option.some.inj h
          cases he
        · split at h
          · cases h
          · split at h
            · obtain rfl := Option.some.inj h
              cases he
            · split at h
              · split at h
                · cases h
                · obtain rfl := Option.some.inj h
                  cases he
                · obtain rfl := Option.some.inj h
                  cases he
              · obtain rfl := Option.some.inj h
                cases he
    · split at h
      · next hb =>
        obtain rfl := Option.some.inj h
        have htimeouts := build_timeouts c (.ok fillWithPingreqData)
        rw [hb] at htimeouts
        exact .inl (by rw [sendAndYield_eq, pushOnPrev_timeouts]; exact congrFun htimeouts t.id)
      · obtain rfl := Option.some.inj h
        cases he

/-- A time event that keeps a message was pending before, or keeps the message of the run. -/
theorem execute_pending (hd : t.Timed c) (h : execute c t a = some r) {i : Nat}
    {timeout : TaskTimeout} {m : Received} (hi : r.context.timeouts i = some timeout)
    (hm : timeout.message = some m) : c.timeouts i = some timeout ∨ a.message = some m := by
  have ho := execute_outcome h
  by_cases hid : i = t.id
  · subst hid
    cases he : r.exit.final with
    | true =>
      rw [ho.unarmed hd he] at hi
      cases hi
    | false =>
      have hfits := ho.timed hd he timeout (by rwa [ho.task.id])
      cases timeout with
      | resume s => cases hm
      | connect => cases hm
      | keepalive msg =>
        have hs : t.scenario = .keepalive := (ho.scenario he).symm.trans hfits.1
        unfold execute at h
        split at h
        · rcases doMqttKeepaliveTask_pending (by simpa only [coroutine, hs] using h) he with hp | hp
          · exact .inl (hp ▸ hi)
          · obtain rfl := (TaskTimeout.keepalive.inj (Option.some.inj (hp.symm.trans hi))).symm
            exact .inr hm
        · cases h
  · exact .inl (by rwa [← ho.context.timeouts i hid])

end Commands

/-! ## Messages that no task refers to -/

/-- It is another message, if any. -/
def NotMessage (n : Nat) (msg : Option Received) : Prop := ∀ m, msg = some m → m.object ≠ n

theorem notMessage_none (n : Nat) : NotMessage n none := fun _ h => by cases h

theorem notMessage_some {n : Nat} {m : Received} (h : m.object ≠ n) : NotMessage n (some m) :=
  fun _ he => Option.some.inj he ▸ h

theorem Context.Takes.countP {n : Nat} {msg : Option Received} {c c' : Context} (h : Context.Takes msg c c')
    (hn : NotMessage n msg) :
    (c'.consumptions.countP fun m => m.object = n) = c.consumptions.countP fun m => m.object = n := by
  rcases h with h | h <;> rw [h]
  cases msg with
  | none => simp
  | some m => simp [hn m rfl]

namespace World

variable {w w' : World} {t u : Task} {ts : List Task} {p : Place} {r : CoResult} {n k : Nat}

/-- No task refers to the message `n`, and no time event does; it has been consumed `k` times. -/
structure Unheld (n k : Nat) (w : World) : Prop where
  tasks : ∀ t ∈ w.held, ∀ a, t.logic = some a → NotMessage n a.message
  pending : ∀ i timeout, w.context.timeouts i = some timeout → NotMessage n timeout.message
  consumed : (w.context.consumptions.countP fun m => m.object = n) = k

/-- Other messages. -/
def without (n : Nat) : Admission :=
  ⟨fun _ _ a => NotMessage n a.message, fun m => m.object ≠ n, fun timeout => NotMessage n timeout.message,
    True⟩

theorem Cause.notMessage {a b : Args} (h : Cause (without n) t p a b) (ha : NotMessage n a.message) :
    NotMessage n b.message := by
  cases h with
  | started p hf => exact ha
  | registered m hm hf => exact ha
  | written _ a hs hA => exact hA
  | answered a m hp hid hA => exact hA
  | unnumbered a m hid hA => exact hA
  | resent a hs => exact ha
  | stopped a _ => exact ha

/-- A run with another message. -/
theorem Runs.notMessage {c : Context} (h : Runs (without n) c t p u r) (hd : t.Timed c)
    (ht : ∀ a, t.logic = some a → NotMessage n a.message)
    (hp : ∀ i timeout, c.timeouts i = some timeout → NotMessage n timeout.message) :
    (∀ a, r.task.logic = some a → NotMessage n a.message) ∧
      (∀ i timeout, r.context.timeouts i = some timeout → NotMessage n timeout.message) ∧
      (r.context.consumptions.countP fun m => m.object = n) =
        c.consumptions.countP fun m => m.object = n := by
  have ho := h.outcome
  have hud := h.resumes.timed hd
  rw [ho.task.logic]
  cases h with
  | @logic a b _ hl hb h =>
    have hmsg := hb.notMessage (ht a hl)
    refine ⟨fun a' he => Option.some.inj he ▸ hmsg, fun i timeout hi m hm => ?_,
      (execute_takes h).countP hmsg⟩
    rcases execute_pending hud h hi hm with hi | hb'
    · exact hp i timeout hi m hm
    · exact hmsg m hb'
  | @timeout timeout _ hA hf h =>
    refine ⟨ht, fun i timeout' hi m hm => ?_, (TaskTimeout.run_takes h).countP hA⟩
    cases timeout with
    | resume s =>
      rcases execute_pending hud h hi hm with hi | hb
      · exact hp i timeout' hi m hm
      · cases hb
    | keepalive msg =>
      obtain ⟨r', hr, rfl⟩ := Option.map_eq_some_iff.mp h
      rcases execute_pending hud hr hi hm with hi | hb
      · exact hp i timeout' hi m hm
      · exact hA m hb
    | connect =>
      unfold TaskTimeout.run doMqttConnectTimeout at h
      dsimp only at h
      split at h
      · cases h
      · obtain rfl := Option.some.inj h
        rw [Context.connectOnNext_timeouts] at hi
        exact hp i timeout' hi m hm

/-- The tasks and their time events are the same, or fewer, and nothing is consumed. -/
theorem Unheld.of_subset (h : w.Unheld n k)
    (htasks : ∀ t ∈ w'.held, ∀ a, t.logic = some a → NotMessage n a.message)
    (hpending : ∀ i timeout, w'.context.timeouts i = some timeout →
      w.context.timeouts i = some timeout)
    (hout : w'.context.consumptions = w.context.consumptions) : w'.Unheld n k :=
  ⟨htasks, fun i timeout hi => h.pending i timeout (hpending i timeout hi),
    by rw [hout]; exact h.consumed⟩

theorem unheld_stable (n k : Nat) : Change.Stable (without n) (Unheld n k) where
  returns _ h := ⟨h.tasks, h.pending, h.consumed⟩
  writeFreed i h := h.of_subset h.tasks (fun _ _ hi => hi)
    ((Context.record_consumptions _ _).trans (List.append_nil _))
  keep {w t u p r} hv h hp hu hr he := by
    have hid : r.task.id = t.id := hr.outcome.task.id.trans hu.id
    have hm := hp.mem_held
    obtain ⟨htask, hpending, hcount⟩ := Runs.notMessage hr (hv.timed t hm) (h.tasks t hm) h.pending
    refine ⟨fun v hvm => ?_, ?_, ?_⟩
    · rcases hv.mem_ran_held hp hid hvm with rfl | ⟨hvm, -⟩
      · exact htask
      · exact h.tasks v hvm
    · rw [ran_context]
      exact hpending
    · rw [ran_context, hcount, h.consumed]
  finish {w t u p r} hv h hp hu hr he := by
    have hm := hp.mem_held
    obtain ⟨-, hpending, hcount⟩ := Runs.notMessage hr (hv.timed t hm) (h.tasks t hm) h.pending
    refine ⟨fun v hvm => h.tasks v ((hv.mem_finished_held hp).mp hvm).1, hpending, ?_⟩
    have hout : (w.finished t p r.context).context.consumptions = r.context.consumptions :=
      (Context.record_consumptions r.context (.freeTask t.id)).trans (List.append_nil _)
    rw [hout, hcount, h.consumed]
  free {w t} hv h _ hc := by
    refine h.of_subset (fun v hvm =>
      h.tasks v ((hv.mem_finished_held (p := .current) hc).mp hvm).1) (fun i timeout hi => ?_) ?_
    · change (w.context.cancelTaskTimeout t.id).timeouts i = some timeout at hi
      rw [Context.cancelTaskTimeout_timeouts] at hi
      by_cases he : i = t.id
      · rw [he, Function.update_self] at hi
        cases hi
      · rwa [Function.update_of_ne he] at hi
    · exact ((Context.record_consumptions (w.context.cancelTaskTimeout t.id) (.freeTask t.id)).trans
        (List.append_nil _)).trans (Context.cancelTaskTimeout_consumptions _ _)
  start {w t ts} hv h hc hq _ := by
    refine h.of_subset (fun v hvm => h.tasks v ?_) (fun _ _ hi => hi)
      ((Context.record_consumptions _ _).trans (List.append_nil _))
    simpa [World.held, World.started, World.record, World.withContext, hc, hq] using hvm
  wait {w t ts} hv h hc hq _ := by
    refine h.of_subset (fun v hvm => h.tasks v ?_) (fun _ _ hi => hi) rfl
    simp only [World.held, hq, List.mem_append, List.mem_cons] at hvm ⊢
    grind
  quiet {w w'} hs h hq _ := by
    obtain ⟨os, ho, hos⟩ := hq.out
    refine ⟨fun v hvm => h.tasks v (hq.held ▸ hvm), fun i timeout hi => ?_, ?_⟩
    · rw [hq.timeouts] at hi
      exact h.pending i timeout hi
    · have hzero : (os.filterMap Output.consumed).countP (fun m => m.object = n) = 0 := by
        rw [List.countP_eq_zero]
        intro m hm
        obtain ⟨o, hom, ho⟩ := List.mem_filterMap.mp hm
        have hforeign := hos o hom
        cases o with
        | topic handle m' =>
          obtain rfl := Option.some.inj ho
          have hne : m'.object ≠ n := hforeign
          simpa using hne
        | freeMessage m' =>
          obtain rfl := Option.some.inj ho
          have hne : m'.object ≠ n := hforeign
          simpa using hne
        | _ => cases ho
      unfold Context.consumptions
      rw [ho, List.filterMap_append, List.countP_append, hzero]
      exact h.consumed
  register {w} m hm hs h := by
    refine h.of_subset (fun v hvm a ha => ?_) (fun _ _ hi => hi) rfl
    simp only [World.held, World.register, List.mem_append, List.mem_singleton] at hvm
    have hcases : v = w.answering m ∨ v ∈ w.held := by
      simp only [World.held, List.mem_append]
      grind
    rcases hcases with rfl | hvm
    · obtain rfl := Option.some.inj ha
      exact notMessage_some hm
    · exact h.tasks v hvm a ha
  disarm {w} id hs h := by
    refine h.of_subset h.tasks (fun i timeout hi => ?_) rfl
    change Function.update w.context.timeouts id none i = some timeout at hi
    by_cases he : i = id
    · rw [he, Function.update_self] at hi
      cases hi
    · rwa [Function.update_of_ne he] at hi

theorem Unheld.fewer (hf : Fewer w w') (h : w.Unheld n k) : w'.Unheld n k := by
  obtain ⟨os, ho, hos⟩ := hf.out
  refine h.of_subset (fun t ht a ha => ?_) hf.timeouts ?_
  · obtain ⟨u, hu, -, hut⟩ := hf.held t ht
    obtain ⟨b, hb, hab⟩ := hut a ha
    exact hab ▸ h.tasks u hu b hb
  · have hnil : os.filterMap Output.consumed = [] := by
      rw [List.filterMap_eq_nil_iff]
      intro o hm
      rcases hos o hm with hforeign | ⟨i, rfl⟩
      · cases o with
        | topic handle m => exact hforeign.elim
        | freeMessage m => exact hforeign.elim
        | _ => rfl
      · rfl
    rw [Context.consumptions, ho, List.filterMap_append, hnil, List.append_nil]
    rfl

/-- The message `n` does not come with this call. -/
def Spares (n : Nat) (w : World) (e : Event) : Prop :=
  ∀ m s, e = .pull (some m) s → w.nextMessage ≠ n

/-- A call that comes with another message. -/
theorem Unheld.admits (h : w.Unheld n k) {e : Event} (hn : w.Spares n e) :
    w.Admits (without n) e := by
  cases e with
  | written msgId type success =>
    intro _ p t a hnotified hl
    refine h.tasks t ?_ a hl
    unfold notified at hnotified
    split at hnotified
    · obtain ⟨u, hc, hu⟩ := Option.map_eq_some_iff.mp hnotified
      obtain ⟨rfl, rfl⟩ := Prod.mk.inj hu
      exact At.mem_held (p := .current) hc
    · obtain ⟨q, hq, hf⟩ := Option.bind_eq_some_iff.mp hnotified
      obtain ⟨u, hfind, hu⟩ := Option.map_eq_some_iff.mp hf
      obtain ⟨rfl, rfl⟩ := Prod.mk.inj hu
      exact At.mem_held (queueOf_at hq (findTask_mem hfind).1)
  | pull m s =>
    rintro m' rfl
    exact ⟨hn m' s rfl, fun _ _ _ _ _ _ _ => notMessage_some (hn m' s rfl)⟩
  | fire id => exact fun timeout hi => h.pending id timeout hi
  | _ => trivial

/-- The coroutine of a new task has no message. -/
theorem Unheld.pushed (h : w.Unheld n k) (hv : w.Valid) (hp : Pushed w.made t w')
    (hid : t.id = w.nextTask) (hn : New t) : w'.Unheld n k := by
  have hset : ∀ a, (setLogic t).logic = some a → NotMessage n a.message := by
    intro a ha
    rcases setLogic_logic hn.logic with hl | hl <;> rw [hl] at ha
    · cases ha
    · obtain rfl := Option.some.inj ha
      exact notMessage_none n
  refine (unheld_stable n k).pushed hp hv hid hn (fun _ => ?_) (fun _ _ => ?_) fun _ _ => ?_
  · exact h.of_subset h.tasks (fun _ _ hi => hi)
      ((Context.record_consumptions _ (.freeTask t.id)).trans (List.append_nil _))
  · refine h.of_subset (fun v hvm => ?_) (fun _ _ hi => hi) rfl
    have hcases : v = setLogic t ∨ v ∈ w.held := by
      cases hpriority : (setLogic t).priority <;>
        simp only [World.held, enqueue, made, hpriority, List.mem_append, List.mem_cons,
          List.not_mem_nil] at hvm ⊢ <;> grind
    rcases hcases with rfl | hvm
    · exact hset
    · exact h.tasks v hvm
  · refine h.of_subset (fun v hvm => ?_) (fun _ _ hi => hi) rfl
    simp only [World.held, track, made, List.mem_append, List.mem_singleton] at hvm
    have hcases : v = { setLogic t with msgId := (w.lastMsgId + 1) % 2 ^ 16 } ∨ v ∈ w.held := by
      simp only [World.held, List.mem_append]
      grind
    rcases hcases with rfl | hvm
    · exact hset
    · exact h.tasks v hvm

/-- **A message that no task refers to is not consumed any more.** -/
theorem step_unheld (h : w.Unheld n k) (hs : w.Sound) {e : Event × Oracle} (hn : w.Spares n e.1)
    (hstep : step w e = some w') : w'.Unheld n k :=
  (unheld_stable n k).step (fun hf h => h.fewer hf) hs (h.admits hn) h
    (fun hm hw hp => hw.pushed (hs.prepared e.2 e.1).toValid hp
      (hm.id_eq.trans (prepared_fewer w e.2 e.1).nextTask.symm) hm.new) hstep

/-! ## The next message -/

theorem nextMessage_stable (n : Nat) : Change.Stable anything fun w => n ≤ w.nextMessage where
  returns _ h := h
  writeFreed _ h := h
  keep {w t u p r} _ h _ _ _ _ := by
    have hnext : (w.ran p r).nextMessage = w.nextMessage := by cases p <;> rfl
    rwa [hnext]
  finish {w t u p r} _ h _ _ _ _ := by
    have hnext : (w.finished t p r.context).nextMessage = w.nextMessage := by cases p <;> rfl
    rwa [hnext]
  free _ h _ _ := h
  start _ h _ _ _ := h
  wait _ h _ _ _ := h
  quiet _ h hq _ := Nat.le_trans h hq.nextMessage
  register _ _ _ h := h
  disarm _ _ h := h

theorem Pushed.nextMessage (h : Pushed w t w') : w'.nextMessage = w.nextMessage := by
  cases h with
  | started s _ _ _ hs => exact hs.frame.nextMessage
  | run s _ _ _ _ hr hs => exact (hs.frame (execute_outcome hr)).nextMessage
  | _ => rfl

theorem step_nextMessage_le (hs : w.Sound) {e : Event × Oracle} (hstep : step w e = some w') :
    w.nextMessage ≤ w'.nextMessage :=
  (nextMessage_stable w.nextMessage).step (fun hf h => hf.nextMessage ▸ h) hs
    (admits_anything w e.1) (Nat.le_refl _)
    (fun _ hw hp => by rwa [hp.nextMessage]) hstep

/-- A message that is pulled has the next number. -/
theorem step_nextMessage_lt (hs : w.Sound) {m : Option Message} {s : IotcState} {o : Oracle}
    (hstep : step w (.pull m s, o) = some w') : w.nextMessage < w'.nextMessage := by
  have hs₁ : ({ w.withOracle o with nextMessage := w.nextMessage + 1 } : World).Sound :=
    { (hs.withOracle o) with }
  have hchanges : Changes anything { w.withOracle o with nextMessage := w.nextMessage + 1 } w' :=
    pull_changes hs₁ (fun _ _ => trivial) (fun _ _ _ _ _ _ _ _ _ => trivial) hstep
  exact (nextMessage_stable (w.nextMessage + 1)).changes hchanges hs₁ (Nat.le_refl _)

/-- No task refers to a message that is still to come, and none has been consumed. -/
def Unreceived (w : World) : Prop := ∀ n, w.nextMessage ≤ n → w.Unheld n 0

theorem step_unreceived (h : w.Unreceived) (hs : w.Sound) {e : Event × Oracle}
    (hstep : step w e = some w') : w'.Unreceived := by
  intro n hn
  have hle := step_nextMessage_le hs hstep
  refine step_unheld (h n (by omega)) hs (fun m s he => ?_) hstep
  obtain ⟨e, o⟩ := e
  obtain rfl : e = .pull (some m) s := he
  have := step_nextMessage_lt hs hstep
  omega

theorem initial_unreceived : ({} : World).Unreceived := fun _ _ =>
  ⟨fun _ h => (by simp [World.held] at h), fun _ _ h => (by cases h), rfl⟩

end World

end IotDeviceSdk.Mqtt.Logic
