import IotDeviceSdk.Infra.Sessions
import IotDeviceSdk.Mqtt.Logic.Fewer

/-!
# What is handed over

The trace of a layer, with the messages that are handed over and the connections that are started.

A run of a coroutine hands over one message at most, and only where it gets past the checks before
its message and finds the memory for it: `utters` says which runs these are. It then keeps its task,
so that no other task is run. A call of the layer hands over one message, unless it sends several
tasks again.
-/

namespace IotDeviceSdk.Mqtt.Logic

open Infra

/-- The start of a connection, or a message that is handed over to the layer below. -/
def Output.entry? : Output → Option (Entry Message)
  | push _ m => some (.said m)
  | initOnPrev _ => some .start
  | _ => none

/-- What has been handed over. -/
def Context.handed (c : Context) : List (Entry Message) := c.out.filterMap Output.entry?

/-- The last message of a connection. -/
def isLast (m : Message) : Bool := m.type = .disconnect

/-- The next two allocations are granted: those of a message and of the call that hands it over. -/
def Context.granted (c : Context) : Bool := c.alloc.1 && c.alloc.2.alloc.1

/-- The coroutine of `t`, resumed with these arguments, goes on to its message. -/
def speaks (c : Context) (t : Task) (a : Args) : Bool :=
  match t.scenario, t.qos with
  | .connect, _ => !c.stopped && t.cs ≠ .sent && t.cs ≠ .answer
  | .publish _, .atMostOnce => !c.stopped && t.cs ≠ .sent
  | .publish _, _ => !c.stopped && (match t.cs with
    | .sent => a.state ≠ .written
    | .answer => a.state = .timeout || a.state = .resend
    | _ => true)
  | .puback, _ => !c.stopped && (t.cs ≠ .sent || a.state ≠ .written)
  | .subscribe _, _ => c.layerData && (match t.cs with
    | .sent => false
    | .answer => a.state = .timeout || a.state = .resend
    | _ => true)
  | .keepalive, _ => c.layerData && t.cs ≠ .sent && t.cs ≠ .answer
  | .shutdown, _ => c.layerData && t.cs ≠ .sent

/-- There is a topic, and the payload is not too large for a message. -/
def Task.fits (t : Task) : Bool :=
  t.publishData.all fun d => d.topic.isSome && d.data.length ≤ maxPayloadSize

/-- It also hands its message over. -/
def utters (c : Context) (t : Task) (a : Args) : Bool := speaks c t a && c.granted && t.fits

/-- The same of a run by a time event. -/
def TaskTimeout.utters (c : Context) (t : Task) : TaskTimeout → Bool
  | .resume s => Logic.utters c t ⟨true, s, none⟩
  | .keepalive message => Logic.utters c t ⟨true, .timeout, message⟩
  | .connect => false

/-! ## Operations of a context -/

namespace Context

variable {c c' : Context} {s : IotcState}

theorem handed_congr (h : c'.out = c.out) : c'.handed = c.handed := by
  rw [handed, h, handed]

@[simp] theorem alloc_handed (c : Context) : c.alloc.2.handed = c.handed := rfl

@[simp] theorem build_handed (c : Context) (fill : Except IotcState Message) :
    (c.build fill).2.handed = c.handed := rfl

theorem record_handed (c : Context) {o : Output} (ho : o.entry? = none) :
    (c.record o).handed = c.handed := by
  simp [handed, record, ho]

theorem continueWith_handed (c : Context) {o : Output} (ho : o.entry? = none) (next : LayerState) :
    (c.continueWith o next).2.handed = c.handed := by
  simp only [continueWith]
  split
  · exact record_handed c.alloc.2 ho
  · rfl

theorem queue_handed (c : Context) {o : Output} (ho : o.entry? = none) :
    (c.queue o).2.handed = c.handed := by
  simp only [queue]
  split
  · exact record_handed _ ho
  · rfl

@[simp] theorem connectOnNext_handed (c : Context) (s : IotcState) :
    (c.connectOnNext s).2.handed = c.handed := continueWith_handed c rfl _

@[simp] theorem closeOnPrev_handed (c : Context) (s : IotcState) :
    (c.closeOnPrev s).2.handed = c.handed := continueWith_handed c rfl _

@[simp] theorem close_handed (c : Context) (s : IotcState) :
    (Logic.close c s).2.handed = c.handed := by
  unfold Logic.close
  split
  · exact closeOnPrev_handed c s
  · exact continueWith_handed c rfl _

@[simp] theorem deferUsersCallback_handed (c : Context) (t : Task) (s : IotcState) :
    (c.deferUsersCallback t s).handed = c.handed := by
  unfold deferUsersCallback
  split
  · exact queue_handed c rfl
  · rfl

@[simp] theorem freeMessage_handed (c : Context) (m : Option Received) :
    (c.freeMessage m).handed = c.handed := by
  unfold freeMessage
  split
  · exact record_handed c rfl
  · rfl

@[simp] theorem cancelTaskTimeout_handed (c : Context) (id : Nat) :
    (c.cancelTaskTimeout id).handed = c.handed := handed_congr (World.cancelTaskTimeout_out c id)

@[simp] theorem ioTimeoutsRemove_handed (c : Context) (id : Nat) :
    (c.ioTimeoutsRemove id).handed = c.handed := rfl

theorem executeIn_handed {taken : Context → Bool} {arm : Context → Context}
    (harm : ∀ c, (arm c).out = c.out) (h : c.executeIn taken arm = some (s, c')) :
    c'.handed = c.handed := by
  rcases executeIn_eq_some h with ⟨-, -, rfl⟩ | ⟨-, rfl | rfl⟩
  · exact handed_congr (harm _)
  · rfl
  · rfl

theorem executeTaskIn_handed {id : Nat} {timeout : TaskTimeout}
    (h : c.executeTaskIn id timeout = some (s, c')) : c'.handed = c.handed := by
  refine executeIn_handed ?_ h
  exact fun _ => rfl

theorem executeKeepaliveIn_handed (h : c.executeKeepaliveIn = some (s, c')) :
    c'.handed = c.handed := by
  refine executeIn_handed ?_ h
  exact fun _ => rfl

theorem ioTimeoutsCreate_handed {id : Nat} (h : c.ioTimeoutsCreate id = some (s, c')) :
    c'.handed = c.handed := by
  obtain ⟨-, ⟨-, rfl⟩ | ⟨-, hc⟩⟩ := ioTimeoutsCreate_eq_some h
  · rfl
  · rcases hc with rfl | rfl | rfl <;> rfl

theorem callTopicHandler_handed {m : Option Received} (h : c.callTopicHandler m = some c') :
    c'.handed = c.handed := by
  unfold callTopicHandler at h
  split at h
  · cases h
  · split at h
    · cases h
    · split at h <;> obtain rfl := Option.some.inj h
      · exact queue_handed c rfl
      · exact freeMessage_handed c _

theorem granted_congr (h : c'.mem = c.mem) : c'.granted = c.granted := by
  simp only [granted, alloc, h]

@[simp] theorem cancelTaskTimeout_granted (c : Context) (id : Nat) :
    (c.cancelTaskTimeout id).granted = c.granted := by
  refine granted_congr ?_
  unfold cancelTaskTimeout
  split <;> rfl

/-- The timeout of a CONNECT takes memory first. -/
theorem ioTimeoutsCreate_alloc {id : Nat} (h : c.ioTimeoutsCreate id = some (.ok, c')) :
    c.alloc.1 = true := by
  simp only [ioTimeoutsCreate, executeTaskIn, executeIn] at h
  grind

end Context

/-! ## Runs of the coroutines -/

/-- The run hands over a message at most, if `b` says so, and then keeps its task. -/
def Hands (c : Context) (b : Bool) (r : CoResult) : Prop :=
  r.context.handed = c.handed ∨
    b = true ∧ r.exit.final = false ∧ ∃ m, r.context.handed = c.handed ++ [.said m]

theorem Hands.of_eq {c c' : Context} {b b' : Bool} {r : CoResult} (h : Hands c' b' r)
    (hc : c'.handed = c.handed) (hb : b' = true → b = true) : Hands c b r := by
  rcases h with h | ⟨htrue, he, m, h⟩
  · exact .inl (h.trans hc)
  · exact .inr ⟨hb htrue, he, m, by rw [h, hc]⟩

section Commands

variable {c c' : Context} {t : Task} {a : Args} {r : CoResult} {m : Message}

theorem sendAndYield_hands (c : Context) (t : Task) (m : Message) :
    Hands c c.alloc.1 (sendAndYield c t m) := by
  rw [sendAndYield_eq]
  simp only [Context.pushOnPrev, Context.continueWith]
  split
  · next hq =>
    refine .inr ⟨hq, rfl, m, ?_⟩
    simp [Context.handed, Context.record, Context.alloc, Output.entry?]
  · exact .inl rfl

/-- The memory of a message that has been built. -/
theorem build_eq_ok {fill : Except IotcState Message} (h : c.build fill = (.ok m, c')) :
    c.alloc.1 = true ∧ c' = c.alloc.2 := by
  simp only [Context.build, Prod.mk.injEq] at h
  grind

theorem build_handed {fill e : Except IotcState Message} (h : c.build fill = (e, c')) :
    c'.handed = c.handed := by
  obtain rfl := (Prod.mk.inj h).2
  rfl

/-- A message that has been built is handed over. -/
theorem send_hands {fill : Except IotcState Message} (h : c.build fill = (.ok m, c')) :
    Hands c c.granted (sendAndYield c' t m) := by
  obtain ⟨halloc, rfl⟩ := build_eq_ok h
  refine (sendAndYield_hands c.alloc.2 t m).of_eq rfl fun hq => ?_
  rw [Context.granted, halloc, hq]
  rfl

theorem fits_of_fill {d : PublishData} {qos : Qos} {retain dup : Bool} {id : Nat}
    (hd : t.publishData = some d) (h : fillWithPublishData d.topic d.data qos retain dup id = .ok m) :
    t.fits = true := by
  unfold fillWithPublishData at h
  split at h
  · cases h
  · next hlen =>
    split at h
    · cases h
    · next htopic => simpa [Task.fits, hd, Option.isSome_iff_ne_none] using And.intro htopic hlen

/-! ### PUBLISH -/

theorem publishQ0Exit_handed {s : IotcState} (h : publishQ0Exit c t s = some r) :
    r.context.handed = c.handed := by
  unfold publishQ0Exit at h
  split at h
  · cases h
  · obtain rfl := Option.some.inj h
    exact c.deferUsersCallback_handed t s

theorem doMqttPublishQ0_hands (h : doMqttPublishQ0 c t a = some r) :
    Hands c (!c.stopped && t.cs ≠ .sent && (c.granted && t.fits)) r := by
  unfold doMqttPublishQ0 at h
  split at h
  · cases h
  · split at h
    · obtain rfl := Option.some.inj h
      exact .inl rfl
    · next hstopped =>
      split at h
      · exact .inl (publishQ0Exit_handed h)
      · next hcs =>
        split at h
        · cases h
        · next d hd =>
          split at h
          · next m c' hb =>
            obtain rfl := Option.some.inj h
            refine (send_hands hb).of_eq rfl fun hg => ?_
            have hsent : t.cs ≠ .sent := hcs
            simp [hg, hstopped, hsent, fits_of_fill hd (build_ok hb)]
          · next e c' hb => exact .inl ((publishQ0Exit_handed h).trans (build_handed hb))

theorem publishQ1Err_handed (c : Context) (t : Task) (s : IotcState) (msg : Option Received) :
    (publishQ1Err c t s msg).context.handed = c.handed := by
  simp [publishQ1Err]

theorem publishQ1Send_hands {s : IotcState} (h : publishQ1Send c t s = some r) :
    Hands c (c.granted && t.fits) r := by
  unfold publishQ1Send at h
  split at h
  · cases h
  · next d hd =>
    split at h
    · next m c' hb =>
      obtain rfl := Option.some.inj h
      refine (send_hands hb).of_eq rfl fun hg => ?_
      rw [hg, fits_of_fill hd (build_ok hb)]
      rfl
    · next e c' hb =>
      obtain rfl := Option.some.inj h
      exact .inl ((publishQ1Err_handed c' t e none).trans (build_handed hb))

theorem publishQ1Sent_hands {s : IotcState} {msg : Option Received}
    (h : publishQ1Sent c t s msg = some r) :
    Hands c (s ≠ .written && (c.granted && t.fits)) r := by
  unfold publishQ1Sent at h
  split at h
  · refine .inl ?_
    simp only at h
    split at h
    · cases h
    · split at h
      · split at h
        · cases h
        · next c' he =>
          obtain rfl := Option.some.inj h
          exact Context.executeTaskIn_handed he
        · next e c' _ he =>
          obtain rfl := Option.some.inj h
          exact (publishQ1Err_handed c' _ e msg).trans (Context.executeTaskIn_handed he)
      · obtain rfl := Option.some.inj h
        rfl
  · next hs =>
    refine (publishQ1Send_hands h).of_eq rfl fun hb => ?_
    simp [hs, hb]

theorem publishQ1Answer_hands {s : IotcState} {msg : Option Received}
    (h : publishQ1Answer c t s msg = some r) :
    Hands c ((s = .timeout || s = .resend) && (c.granted && t.fits)) r := by
  unfold publishQ1Answer at h
  split at h
  · next hs =>
    split at h
    · cases h
    · refine (publishQ1Send_hands h).of_eq rfl fun hb => ?_
      simp [hs, hb]
  · simp only at h
    split at h
    · next hs =>
      refine (publishQ1Send_hands h).of_eq (c.cancelTaskTimeout_handed t.id) fun hb => ?_
      rw [Context.cancelTaskTimeout_granted] at hb
      simp [hs, hb]
    · refine .inl ?_
      split at h
      · obtain rfl := Option.some.inj h
        rw [publishQ1Err_handed, Context.cancelTaskTimeout_handed]
      · split at h
        · cases h
        · split at h
          · obtain rfl := Option.some.inj h
            rw [publishQ1Err_handed, Context.cancelTaskTimeout_handed]
          · split at h
            · cases h
            · obtain rfl := Option.some.inj h
              simp

theorem doMqttPublishQ1_hands (h : doMqttPublishQ1 c t a = some r) :
    Hands c (!c.stopped && (match t.cs with
      | .sent => a.state ≠ .written
      | .answer => a.state = .timeout || a.state = .resend
      | _ => true) && (c.granted && t.fits)) r := by
  unfold doMqttPublishQ1 at h
  split at h
  · obtain rfl := Option.some.inj h
    exact .inl (by simp)
  · next hstopped =>
    rw [Bool.not_eq_true] at hstopped
    simp only [hstopped, Bool.not_false, Bool.true_and]
    split at h
    · next hcs => simpa only [hcs] using publishQ1Sent_hands h
    · next hcs => simpa only [hcs] using publishQ1Answer_hands h
    · next hsent hanswer =>
      split at h
      · cases h
      · refine (publishQ1Send_hands h).of_eq rfl fun hb => ?_
        cases hcs : t.cs <;> simp_all

/-! ### SUBSCRIBE -/

theorem subscribeErr_handed (c : Context) (t : Task) (s : IotcState) (msg : Option Received) :
    (subscribeErr c t s msg).context.handed = c.handed := c.freeMessage_handed msg

theorem subscribeSend_hands {s : IotcState} (h : subscribeSend c t s = some r) :
    Hands c c.granted r := by
  unfold subscribeSend at h
  split at h
  · cases h
  · split at h
    · next hb =>
      obtain rfl := Option.some.inj h
      exact send_hands hb
    · next e c' hb =>
      obtain rfl := Option.some.inj h
      exact .inl ((subscribeErr_handed c' t e none).trans (build_handed hb))

theorem subscribeSent_handed {s : IotcState} {msg : Option Received}
    (h : subscribeSent c t s msg = some r) : r.context.handed = c.handed := by
  unfold subscribeSent at h
  split at h
  · cases h
  · split at h
    · simp only at h
      split at h
      · split at h
        · cases h
        · next he =>
          obtain rfl := Option.some.inj h
          exact Context.executeTaskIn_handed he
        · next c' _ he =>
          obtain rfl := Option.some.inj h
          exact (subscribeErr_handed c' _ s msg).trans (Context.executeTaskIn_handed he)
      · obtain rfl := Option.some.inj h
        rfl
    · split at h
      · cases h
      · next he =>
        obtain rfl := Option.some.inj h
        exact Context.executeTaskIn_handed he
      · next c' _ he =>
        obtain rfl := Option.some.inj h
        exact (subscribeErr_handed c' _ s msg).trans (Context.executeTaskIn_handed he)

theorem subscribeSuback_handed (c : Context) (t : Task) (d : SubscribeData) (status : UInt8) :
    (subscribeSuback c t d status).context.handed = c.handed := by
  -- the callback is queued, or there is no memory for its event
  have hqueue {c₁ c' : Context} {s : IotcState} {b : Bool}
      (hq : c₁.queue (.subscribed t.id d.handler status s) = (b, c')) (hout : c₁.out = c.out) :
      c'.handed = c.handed := by
    obtain rfl : (c₁.queue _).2 = c' := by rw [hq]
    exact (c₁.queue_handed rfl).trans (Context.handed_congr hout)
  unfold subscribeSuback
  by_cases hg : status ≠ 0x80
  · simp only [hg, if_true, ne_eq, not_false_eq_true]
    split
    · split
      · next hq => exact hqueue hq rfl
      · next hq => exact (subscribeErr_handed _ t _ none).trans (hqueue hq rfl)
    · exact subscribeErr_handed c.alloc.2 t _ none
  · simp only [hg, if_false, if_true]
    split
    · next hq => exact hqueue hq rfl
    · next hq => exact (subscribeErr_handed _ t _ none).trans (hqueue hq rfl)

theorem subscribeAnswer_hands {s : IotcState} {msg : Option Received}
    (h : subscribeAnswer c t s msg = some r) :
    Hands c ((s = .timeout || s = .resend) && c.granted) r := by
  unfold subscribeAnswer at h
  split at h
  · next hs =>
    split at h
    · cases h
    · refine (subscribeSend_hands h).of_eq rfl fun hb => ?_
      simp [hs, hb]
  · simp only at h
    split at h
    · next hs =>
      refine (subscribeSend_hands h).of_eq (c.cancelTaskTimeout_handed t.id) fun hb => ?_
      rw [Context.cancelTaskTimeout_granted] at hb
      simp [hs, hb]
    · refine .inl ?_
      split at h
      · obtain rfl := Option.some.inj h
        rw [subscribeErr_handed, Context.cancelTaskTimeout_handed]
      · split at h
        · cases h
        · split at h
          · obtain rfl := Option.some.inj h
            rw [subscribeErr_handed, Context.cancelTaskTimeout_handed]
          · split at h
            · obtain rfl := Option.some.inj h
              rw [subscribeSuback_handed, Context.freeMessage_handed,
                Context.cancelTaskTimeout_handed]
            · cases h

theorem doMqttSubscribe_hands (h : doMqttSubscribe c t a = some r) :
    Hands c (c.layerData && (match t.cs with
      | .sent => false
      | .answer => a.state = .timeout || a.state = .resend
      | _ => true) && c.granted) r := by
  unfold doMqttSubscribe at h
  split at h
  · obtain rfl := Option.some.inj h
    exact .inl (by simp)
  · next hdata =>
    simp only [Bool.not_eq_true', Bool.not_eq_false] at hdata
    rw [hdata, Bool.true_and]
    split at h
    · exact .inl (subscribeSent_handed h)
    · next hcs => simpa only [hcs] using subscribeAnswer_hands h
    · next hcs =>
      split at h
      · cases h
      · simpa only [hcs, Bool.true_and] using subscribeSend_hands h
    · next hsent hanswer hresending =>
      refine (subscribeSend_hands h).of_eq rfl fun hb => ?_
      cases hcs : t.cs <;> simp_all

/-! ### CONNECT -/

theorem connectExit_handed (c : Context) (t : Task) (msg : Option Received) :
    (connectExit c t msg).context.handed = c.handed := by
  simp [connectExit]

theorem connectStart_hands (h : connectStart c t = some r) : Hands c c.granted r := by
  unfold connectStart at h
  split at h
  · next c' hb =>
    obtain rfl := Option.some.inj h
    exact .inl ((connectExit_handed c' t none).trans (build_handed hb))
  · next m c' hb =>
    split at h
    · split at h
      · cases h
      · next c'' he =>
        obtain rfl := Option.some.inj h
        obtain ⟨halloc, rfl⟩ := build_eq_ok hb
        have hhanded : c''.handed = c.handed := by
          have := Context.ioTimeoutsCreate_handed he
          exact this
        refine (sendAndYield_hands c'' t m).of_eq hhanded fun _ => ?_
        rw [Context.granted, halloc]
        exact Context.ioTimeoutsCreate_alloc he
      · next c'' _ he =>
        obtain rfl := Option.some.inj h
        exact .inl ((connectExit_handed c'' t none).trans
          ((Context.ioTimeoutsCreate_handed he).trans (build_handed hb)))
    · split at h
      · cases h
      · obtain rfl := Option.some.inj h
        exact send_hands hb

theorem connectSent_handed (c : Context) (t : Task) (s : IotcState) (msg : Option Received) :
    (connectSent c t s msg).context.handed = c.handed := by
  unfold connectSent
  split
  · rfl
  · rw [connectExit_handed, Context.connectOnNext_handed]

theorem connectAccepted_handed {s : IotcState} (h : connectAccepted c t s = some r) :
    r.context.handed = c.handed := by
  unfold connectAccepted at h
  simp only at h
  split at h
  · split at h
    · cases h
    · next c' he =>
      obtain rfl := Option.some.inj h
      rw [Context.connectOnNext_handed]
      have := Context.executeKeepaliveIn_handed he
      exact this
    · next c' _ he =>
      obtain rfl := Option.some.inj h
      exact (connectExit_handed c' t none).trans (Context.executeKeepaliveIn_handed he)
  · obtain rfl := Option.some.inj h
    rw [Context.connectOnNext_handed]
    rfl

theorem connectAnswer_handed {s : IotcState} {msg : Option Received}
    (h : connectAnswer c t s msg = some r) : r.context.handed = c.handed := by
  unfold connectAnswer at h
  split at h
  · cases h
  · split at h
    · simp only at h
      split at h
      · rw [connectAccepted_handed h, Context.freeMessage_handed, Context.cancelTaskTimeout_handed]
      · obtain rfl := Option.some.inj h
        rw [connectExit_handed, Context.connectOnNext_handed, Context.cancelTaskTimeout_handed]
    · obtain rfl := Option.some.inj h
      exact connectExit_handed c t _

theorem doMqttConnect_hands (h : doMqttConnect c t a = some r) :
    Hands c (!c.stopped && t.cs ≠ .sent && t.cs ≠ .answer && c.granted) r := by
  unfold doMqttConnect at h
  split at h
  · obtain rfl := Option.some.inj h
    exact .inl (by simp)
  · next hstopped =>
    split at h
    · obtain rfl := Option.some.inj h
      exact .inl (connectSent_handed c t _ _)
    · exact .inl (connectAnswer_handed h)
    · next hsent hanswer =>
      have hsent : t.cs ≠ .sent := hsent
      have hanswer : t.cs ≠ .answer := hanswer
      refine (connectStart_hands h).of_eq rfl fun hg => ?_
      simp [hg, hstopped, hsent, hanswer]

theorem doMqttConnectTimeout_handed (h : doMqttConnectTimeout c t = some r) :
    r.context.handed = c.handed := by
  unfold doMqttConnectTimeout at h
  simp only at h
  split at h
  · cases h
  · obtain rfl := Option.some.inj h
    simp

/-! ### KEEPALIVE, SHUTDOWN and the PUBLISH of the server -/

theorem keepaliveErr_handed (c : Context) (t : Task) (s : IotcState) (msg : Option Received) :
    (keepaliveErr c t s msg).context.handed = c.handed := c.freeMessage_handed msg

theorem keepaliveSent_handed {msg : Option Received} (h : keepaliveSent c t msg = some r) :
    r.context.handed = c.handed := by
  unfold keepaliveSent at h
  split at h
  · cases h
  · split at h
    · cases h
    · next he =>
      obtain rfl := Option.some.inj h
      exact Context.executeTaskIn_handed he
    · next e c' _ he =>
      obtain rfl := Option.some.inj h
      exact (keepaliveErr_handed c' t e msg).trans (Context.executeTaskIn_handed he)

theorem keepaliveAnswer_handed {s : IotcState} {msg : Option Received}
    (h : keepaliveAnswer c t s msg = some r) : r.context.handed = c.handed := by
  unfold keepaliveAnswer at h
  split at h
  · split at h
    · cases h
    · obtain rfl := Option.some.inj h
      exact c.closeOnPrev_handed .timeout
  · simp only at h
    split at h
    · obtain rfl := Option.some.inj h
      exact c.cancelTaskTimeout_handed t.id
    · split at h
      · cases h
      · split at h
        · obtain rfl := Option.some.inj h
          rw [keepaliveErr_handed, Context.cancelTaskTimeout_handed]
        · split at h
          · split at h
            · cases h
            · next he =>
              obtain rfl := Option.some.inj h
              rw [Context.freeMessage_handed, Context.executeKeepaliveIn_handed he,
                Context.cancelTaskTimeout_handed]
            · next he =>
              obtain rfl := Option.some.inj h
              rw [keepaliveErr_handed, Context.executeKeepaliveIn_handed he,
                Context.cancelTaskTimeout_handed]
          · obtain rfl := Option.some.inj h
            simp

theorem doMqttKeepaliveTask_hands (h : doMqttKeepaliveTask c t a = some r) :
    Hands c (c.layerData && t.cs ≠ .sent && t.cs ≠ .answer && c.granted) r := by
  unfold doMqttKeepaliveTask at h
  split at h
  · obtain rfl := Option.some.inj h
    exact .inl (by simp)
  · next hdata =>
    split at h
    · exact .inl (keepaliveSent_handed h)
    · exact .inl (keepaliveAnswer_handed h)
    · next hsent hanswer =>
      have hsent : t.cs ≠ .sent := hsent
      have hanswer : t.cs ≠ .answer := hanswer
      split at h
      · next hb =>
        obtain rfl := Option.some.inj h
        refine (send_hands hb).of_eq rfl fun hg => ?_
        simp_all
      · next e c' hb =>
        obtain rfl := Option.some.inj h
        exact .inl ((keepaliveErr_handed c' t e none).trans (build_handed hb))

theorem doShutdown_hands (h : doShutdown c t a = some r) :
    Hands c (c.layerData && t.cs ≠ .sent && c.granted) r := by
  unfold doShutdown at h
  split at h
  · obtain rfl := Option.some.inj h
    exact .inl (by simp)
  · next hdata =>
    split at h
    · obtain rfl := Option.some.inj h
      exact .inl (c.close_handed .ok)
    · next hsent =>
      have hsent : t.cs ≠ .sent := hsent
      split at h
      · next hb =>
        obtain rfl := Option.some.inj h
        refine (send_hands hb).of_eq rfl fun hg => ?_
        simp_all
      · next hb =>
        obtain rfl := Option.some.inj h
        exact .inl (build_handed hb)

theorem publishQ1RecievedSend_hands (c : Context) (t : Task) :
    Hands c c.granted (publishQ1RecievedSend c t) := by
  unfold publishQ1RecievedSend
  split
  · next hb => exact send_hands hb
  · next hb => exact .inl (build_handed hb)

theorem onPublishQ1Recieved_hands (h : onPublishQ1Recieved c t a = some r) :
    Hands c (!c.stopped && (t.cs ≠ .sent || a.state ≠ .written) && c.granted) r := by
  unfold onPublishQ1Recieved at h
  split at h
  · obtain rfl := Option.some.inj h
    exact .inl (by simp)
  · next hstopped =>
    split at h
    · split at h
      · split at h
        · next hcall =>
          obtain rfl := Option.some.inj h
          exact .inl (Context.callTopicHandler_handed hcall)
        · cases h
      · next hs =>
        obtain rfl := Option.some.inj h
        refine (publishQ1RecievedSend_hands c t).of_eq rfl fun hg => ?_
        simp [hg, hstopped, hs]
    · next hsent =>
      have hsent : t.cs ≠ .sent := hsent
      split at h
      · cases h
      · obtain rfl := Option.some.inj h
        refine (publishQ1RecievedSend_hands c t).of_eq rfl fun hg => ?_
        simp [hg, hstopped, hsent]

/-! ### All coroutines -/

/-- **A run of a coroutine hands over a message at most**, and only where `utters` says so. -/
theorem execute_hands (h : execute c t a = some r) : Hands c (utters c t a) r := by
  unfold execute at h
  split at h
  · have hfits (hs : ∀ d, t.scenario ≠ .publish d) : t.fits = true := by
      unfold Task.fits Task.publishData
      split
      · next d hd => exact absurd hd (hs d)
      · rfl
    unfold utters
    cases hs : t.scenario with
    | connect =>
      rw [hfits (by simp [hs]), Bool.and_true]
      simp only [speaks, hs]
      exact doMqttConnect_hands (by simpa only [coroutine, hs] using h)
    | publish d =>
      rw [Bool.and_assoc]
      by_cases hq : t.qos = .atMostOnce
      · simp only [speaks, hs, hq]
        exact doMqttPublishQ0_hands (by simpa only [coroutine, hs, hq] using h)
      · simp only [speaks, hs]
        exact doMqttPublishQ1_hands (by simpa only [coroutine, hs] using h)
    | puback =>
      rw [hfits (by simp [hs]), Bool.and_true]
      simp only [speaks, hs]
      exact onPublishQ1Recieved_hands (by simpa only [coroutine, hs] using h)
    | subscribe d =>
      rw [hfits (by simp [hs]), Bool.and_true]
      simp only [speaks, hs]
      exact doMqttSubscribe_hands (by simpa only [coroutine, hs] using h)
    | keepalive =>
      rw [hfits (by simp [hs]), Bool.and_true]
      simp only [speaks, hs]
      exact doMqttKeepaliveTask_hands (by simpa only [coroutine, hs] using h)
    | shutdown =>
      rw [hfits (by simp [hs]), Bool.and_true]
      simp only [speaks, hs]
      exact doShutdown_hands (by simpa only [coroutine, hs] using h)
  · cases h

theorem TaskTimeout.run_hands {timeout : TaskTimeout} (h : timeout.run c t = some r) :
    Hands c (timeout.utters c t) r := by
  cases timeout with
  | resume s => exact execute_hands h
  | keepalive message =>
    obtain ⟨r, hr, rfl⟩ := Option.map_eq_some_iff.mp h
    rcases execute_hands hr with hr | ⟨hb, he, m, hr⟩
    · exact .inl hr
    · refine .inr ⟨hb, ?_, m, hr⟩
      cases hexit : r.exit <;> simp_all [Exit.final, Exit.ok]
  | connect => exact .inl (doMqttConnectTimeout_handed h)

end Commands

end IotDeviceSdk.Mqtt.Logic
