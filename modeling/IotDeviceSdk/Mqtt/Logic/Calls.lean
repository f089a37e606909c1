import IotDeviceSdk.Mqtt.Logic.Disconnected
import IotDeviceSdk.Mqtt.Logic.Keepalive

/-!
# Which calls the layer makes on its neighbours

While it works the layer hands over messages, tells the layer above that it is connected, and asks to
be closed. The other calls are those of its own setup and teardown.

* `World.Works` says this of a call, and what the call leaves alone.
* `step_works` is for all calls but `init`, `close`, `close_externally` and `post_connect`.
* `init_calls`, `close_calls` and `closeExternally_calls` say what these do, if there is memory.
-/

namespace IotDeviceSdk.Mqtt.Logic

/-- An output that belongs to no setup and to no teardown. -/
def Output.Routine : Output → Prop
  | initOnPrev _ | connectOnThis _ | postConnectOnPrev _ | closeExternallyOnThis _
  | closeExternallyOnNext _ => False
  | _ => True

/-- Whatever is appended to the trace is routine. -/
def Context.Works (c c' : Context) : Prop := ∃ os, c'.out = c.out ++ os ∧ ∀ o ∈ os, o.Routine

/-! ## Operations of a context -/

namespace Context.Works

variable {c c' c'' : Context} {t : Task} {s : IotcState}

theorem of_eq (h : c'.out = c.out) : Works c c' := ⟨[], by simp [h], by simp⟩

theorem refl (c : Context) : Works c c := of_eq rfl

theorem trans (h : Works c c') (h' : Works c' c'') : Works c c'' := by
  obtain ⟨os, ho, hos⟩ := h
  obtain ⟨os', ho', hos'⟩ := h'
  refine ⟨os ++ os', by rw [ho', ho, List.append_assoc], fun o hm => ?_⟩
  rcases List.mem_append.mp hm with hm | hm
  · exact hos o hm
  · exact hos' o hm

theorem record {o : Output} (h : o.Routine) (c : Context) : Works c (c.record o) :=
  ⟨[o], rfl, by simpa using h⟩

theorem continueWith {o : Output} (h : o.Routine) (c : Context) (next : LayerState) :
    Works c (c.continueWith o next).2 := by
  simp only [Context.continueWith]
  split
  · exact record h c
  · exact .of_eq rfl

theorem queue {o : Output} (h : o.Routine) (c : Context) : Works c (c.queue o).2 := by
  simp only [Context.queue]
  split
  · exact record h c
  · exact .of_eq rfl

theorem deferUsersCallback (c : Context) (t : Task) (s : IotcState) :
    Works c (c.deferUsersCallback t s) := by
  unfold Context.deferUsersCallback
  split
  · exact queue (by trivial) c
  · exact refl c

theorem freeMessage (c : Context) (m : Option Received) : Works c (c.freeMessage m) := by
  unfold Context.freeMessage
  split
  · exact record (by trivial) c
  · exact refl c

theorem cancelTaskTimeout (c : Context) (id : Nat) : Works c (c.cancelTaskTimeout id) :=
  .of_eq (World.cancelTaskTimeout_out c id)

theorem build {fill e : Except IotcState Message} (h : c.build fill = (e, c')) : Works c c' := by
  obtain rfl : (c.build fill).2 = c' := by rw [h]
  exact .of_eq rfl

theorem executeTaskIn {id : Nat} {timeout : TaskTimeout}
    (h : c.executeTaskIn id timeout = some (s, c')) : Works c c' := by
  rcases Context.executeIn_eq_some h with ⟨-, -, rfl⟩ | ⟨-, rfl | rfl⟩ <;> exact .of_eq rfl

theorem executeKeepaliveIn (h : c.executeKeepaliveIn = some (s, c')) : Works c c' := by
  rcases Context.executeIn_eq_some h with ⟨-, -, rfl⟩ | ⟨-, rfl | rfl⟩ <;> exact .of_eq rfl

theorem ioTimeoutsCreate {id : Nat} (h : c.ioTimeoutsCreate id = some (s, c')) : Works c c' := by
  obtain ⟨-, ⟨-, rfl⟩ | ⟨-, rfl | rfl | rfl⟩⟩ := Context.ioTimeoutsCreate_eq_some h <;> exact .of_eq rfl

theorem callTopicHandler {m : Option Received} (h : c.callTopicHandler m = some c') : Works c c' := by
  unfold Context.callTopicHandler at h
  split at h
  · cases h
  · split at h
    · cases h
    · split at h <;> obtain rfl := Option.some.inj h
      · exact queue (by trivial) c
      · exact freeMessage c _

end Context.Works

/-! ## Coroutines -/

section Coroutines

open Logic.Context

variable {c c' : Context} {t : Task} {a : Args} {s : IotcState} {msg : Option Received} {r : CoResult}

theorem sendAndYield_works (c : Context) (t : Task) (m : Message) :
    Works c (sendAndYield c t m).context := .continueWith (by trivial) c _

theorem publishQ0Exit_works (h : publishQ0Exit c t s = some r) : Works c r.context := by
  unfold publishQ0Exit at h
  split at h
  · cases h
  · obtain rfl := Option.some.inj h
    exact .deferUsersCallback c t s

theorem doMqttPublishQ0_works (h : doMqttPublishQ0 c t a = some r) : Works c r.context := by
  unfold doMqttPublishQ0 at h
  split at h
  · cases h
  · split at h
    · obtain rfl := Option.some.inj h
      exact .refl c
    · split at h
      · exact publishQ0Exit_works h
      · split at h
        · cases h
        · split at h
          · next hb =>
            obtain rfl := Option.some.inj h
            exact (Works.build hb).trans (sendAndYield_works _ t _)
          · next hb => exact (Works.build hb).trans (publishQ0Exit_works h)

theorem publishQ1Err_works (c : Context) (t : Task) (s : IotcState) (msg : Option Received) :
    Works c (publishQ1Err c t s msg).context :=
  (Works.deferUsersCallback c t s).trans (.freeMessage _ msg)

theorem publishQ1Send_works (h : publishQ1Send c t s = some r) : Works c r.context := by
  unfold publishQ1Send at h
  split at h
  · cases h
  · split at h <;> obtain rfl := Option.some.inj h
    · next hb => exact (Works.build hb).trans (sendAndYield_works _ t _)
    · next hb => exact (Works.build hb).trans (publishQ1Err_works _ t _ none)

theorem publishQ1Sent_works (h : publishQ1Sent c t s msg = some r) : Works c r.context := by
  unfold publishQ1Sent at h
  split at h
  · dsimp only at h
    split at h
    · cases h
    · split at h
      · split at h
        · cases h
        · next hin =>
          obtain rfl := Option.some.inj h
          exact .executeTaskIn hin
        · next hin =>
          obtain rfl := Option.some.inj h
          exact (Works.executeTaskIn hin).trans (publishQ1Err_works _ _ _ msg)
      · obtain rfl := Option.some.inj h
        exact .refl c
  · exact publishQ1Send_works h

theorem publishQ1Answer_works (h : publishQ1Answer c t s msg = some r) : Works c r.context := by
  have hcancel := Works.cancelTaskTimeout c t.id
  unfold publishQ1Answer at h
  split at h
  · split at h
    · cases h
    · exact publishQ1Send_works h
  · dsimp only at h
    split at h
    · exact hcancel.trans (publishQ1Send_works h)
    · split at h
      · obtain rfl := Option.some.inj h
        exact hcancel.trans (publishQ1Err_works _ t _ msg)
      · split at h
        · cases h
        · next m =>
          split at h
          · obtain rfl := Option.some.inj h
            exact hcancel.trans (publishQ1Err_works _ t _ (some m))
          · split at h
            · cases h
            · obtain rfl := Option.some.inj h
              exact (hcancel.trans (.deferUsersCallback _ t s)).trans (.freeMessage _ (some m))

theorem doMqttPublishQ1_works (h : doMqttPublishQ1 c t a = some r) : Works c r.context := by
  unfold doMqttPublishQ1 at h
  split at h
  · obtain rfl := Option.some.inj h
    exact (Works.cancelTaskTimeout c t.id).trans (.freeMessage _ a.message)
  · split at h
    · exact publishQ1Sent_works h
    · exact publishQ1Answer_works h
    · split at h
      · cases h
      · exact publishQ1Send_works h

theorem subscribeErr_works (c : Context) (t : Task) (s : IotcState) (msg : Option Received) :
    Works c (subscribeErr c t s msg).context := .freeMessage c msg

theorem subscribeSend_works (h : subscribeSend c t s = some r) : Works c r.context := by
  unfold subscribeSend at h
  split at h
  · cases h
  · split at h <;> obtain rfl := Option.some.inj h
    · next hb => exact (Works.build hb).trans (sendAndYield_works _ t _)
    · next hb => exact (Works.build hb).trans (subscribeErr_works _ t _ none)

theorem subscribeSent_works (h : subscribeSent c t s msg = some r) : Works c r.context := by
  unfold subscribeSent at h
  split at h
  · cases h
  · split at h
    · dsimp only at h
      split at h
      · split at h
        · cases h
        · next hin =>
          obtain rfl := Option.some.inj h
          exact .executeTaskIn hin
        · next hin =>
          obtain rfl := Option.some.inj h
          exact (Works.executeTaskIn hin).trans (subscribeErr_works _ _ _ msg)
      · obtain rfl := Option.some.inj h
        exact .refl c
    · split at h
      · cases h
      · next hin =>
        obtain rfl := Option.some.inj h
        exact .executeTaskIn hin
      · next hin =>
        obtain rfl := Option.some.inj h
        exact (Works.executeTaskIn hin).trans (subscribeErr_works _ _ _ msg)

theorem subscribeSuback_works (c : Context) (t : Task) (d : SubscribeData) (status : UInt8) :
    Works c (subscribeSuback c t d status).context := by
  -- the event of the callback, whatever has been done for the handlers before
  have hqueue {c₀ : Context} {s : IotcState} {q : Bool × Context}
      (h : c₀.queue (.subscribed t.id d.handler status s) = q) (h₀ : c₀.out = c.out) : Works c q.2 :=
    (Works.of_eq h₀).trans (h ▸ .queue (by trivial) c₀)
  unfold subscribeSuback
  dsimp only
  split
  · split
    · split
      · next h => exact hqueue h rfl
      · next h => exact hqueue h rfl
    · exact .of_eq rfl
  · rw [if_pos rfl]
    split
    · next h => exact hqueue h rfl
    · next h => exact hqueue h rfl

theorem subscribeAnswer_works (h : subscribeAnswer c t s msg = some r) : Works c r.context := by
  have hcancel := Works.cancelTaskTimeout c t.id
  unfold subscribeAnswer at h
  split at h
  · split at h
    · cases h
    · exact subscribeSend_works h
  · dsimp only at h
    split at h
    · exact hcancel.trans (subscribeSend_works h)
    · split at h
      · obtain rfl := Option.some.inj h
        exact hcancel.trans (subscribeErr_works _ t _ msg)
      · split at h
        · cases h
        · next m =>
          split at h
          · obtain rfl := Option.some.inj h
            exact hcancel.trans (subscribeErr_works _ t _ (some m))
          · split at h
            · obtain rfl := Option.some.inj h
              exact (hcancel.trans (.freeMessage _ (some m))).trans (subscribeSuback_works _ t _ _)
            · cases h

theorem doMqttSubscribe_works (h : doMqttSubscribe c t a = some r) : Works c r.context := by
  unfold doMqttSubscribe at h
  split at h
  · obtain rfl := Option.some.inj h
    exact (Works.cancelTaskTimeout c t.id).trans (.freeMessage _ a.message)
  · split at h
    · exact subscribeSent_works h
    · exact subscribeAnswer_works h
    · split at h
      · cases h
      · exact subscribeSend_works h
    · exact subscribeSend_works h

theorem connectExit_works (c : Context) (t : Task) (msg : Option Received) :
    Works c (connectExit c t msg).context :=
  (Works.freeMessage c msg).trans (.cancelTaskTimeout _ t.id)

theorem connectOnNext_works (c : Context) (s : IotcState) : Works c (c.connectOnNext s).2 :=
  .continueWith (by trivial) c _

theorem connectStart_works (h : connectStart c t = some r) : Works c r.context := by
  unfold connectStart at h
  split at h
  · next hb =>
    obtain rfl := Option.some.inj h
    exact (Works.build hb).trans (connectExit_works _ t none)
  · next hb =>
    split at h
    · split at h
      · cases h
      · next hin =>
        obtain rfl := Option.some.inj h
        exact ((Works.build hb).trans (.ioTimeoutsCreate hin)).trans (sendAndYield_works _ t _)
      · next hin =>
        obtain rfl := Option.some.inj h
        exact ((Works.build hb).trans (.ioTimeoutsCreate hin)).trans (connectExit_works _ t none)
    · split at h
      · cases h
      · obtain rfl := Option.some.inj h
        exact (Works.build hb).trans (sendAndYield_works _ t _)

theorem connectSent_works (c : Context) (t : Task) (s : IotcState) (msg : Option Received) :
    Works c (connectSent c t s msg).context := by
  unfold connectSent
  split
  · exact .refl c
  · exact (connectOnNext_works c s).trans (connectExit_works _ t msg)

theorem connectAccepted_works (h : connectAccepted c t s = some r) : Works c r.context := by
  have hopened (c : Context) (s : IotcState) :
      Works c ({ c with connection := { c.connection with connectionState := .opened } }
        |>.connectOnNext s).2 := connectOnNext_works _ s
  unfold connectAccepted at h
  dsimp only at h
  split at h
  · split at h
    · cases h
    · next hin =>
      obtain rfl := Option.some.inj h
      exact (Works.executeKeepaliveIn hin).trans (hopened _ _)
    · next hin =>
      obtain rfl := Option.some.inj h
      exact (Works.executeKeepaliveIn hin).trans (connectExit_works _ t none)
  · obtain rfl := Option.some.inj h
    exact hopened c s

theorem connectAnswer_works (h : connectAnswer c t s msg = some r) : Works c r.context := by
  unfold connectAnswer at h
  split at h
  · cases h
  · next m =>
    split at h
    · dsimp only at h
      have hcancel := Works.cancelTaskTimeout c t.id
      split at h
      · exact (hcancel.trans (.freeMessage _ (some m))).trans (connectAccepted_works h)
      · obtain rfl := Option.some.inj h
        exact (hcancel.trans (connectOnNext_works _ _)).trans (connectExit_works _ t (some m))
    · obtain rfl := Option.some.inj h
      exact connectExit_works c t (some m)

theorem doMqttConnect_works (h : doMqttConnect c t a = some r) : Works c r.context := by
  unfold doMqttConnect at h
  split at h
  · obtain rfl := Option.some.inj h
    exact (Works.freeMessage c a.message).trans (.cancelTaskTimeout _ t.id)
  · split at h
    · obtain rfl := Option.some.inj h
      exact connectSent_works c t _ _
    · exact connectAnswer_works h
    · exact connectStart_works h

theorem doMqttConnectTimeout_works (h : doMqttConnectTimeout c t = some r) : Works c r.context := by
  unfold doMqttConnectTimeout at h
  dsimp only at h
  split at h
  · cases h
  · obtain rfl := Option.some.inj h
    exact connectOnNext_works (c.ioTimeoutsRemove t.id) _

theorem keepaliveErr_works (c : Context) (t : Task) (s : IotcState) (msg : Option Received) :
    Works c (keepaliveErr c t s msg).context := .freeMessage c msg

theorem keepaliveSent_works (h : keepaliveSent c t msg = some r) : Works c r.context := by
  unfold keepaliveSent at h
  split at h
  · cases h
  · split at h
    · cases h
    · next hin =>
      obtain rfl := Option.some.inj h
      exact .executeTaskIn hin
    · next hin =>
      obtain rfl := Option.some.inj h
      exact (Works.executeTaskIn hin).trans (keepaliveErr_works _ t _ msg)

theorem keepaliveAnswer_works (h : keepaliveAnswer c t s msg = some r) : Works c r.context := by
  have hcancel := Works.cancelTaskTimeout c t.id
  unfold keepaliveAnswer at h
  split at h
  · split at h
    · cases h
    · obtain rfl := Option.some.inj h
      exact .continueWith (by trivial) c _
  · dsimp only at h
    split at h
    · obtain rfl := Option.some.inj h
      exact hcancel
    · split at h
      · cases h
      · next m =>
        split at h
        · obtain rfl := Option.some.inj h
          exact hcancel.trans (keepaliveErr_works _ t _ (some m))
        · split at h
          · split at h
            · cases h
            · next hin =>
              obtain rfl := Option.some.inj h
              exact (hcancel.trans (.executeKeepaliveIn hin)).trans (.freeMessage _ (some m))
            · next hin =>
              obtain rfl := Option.some.inj h
              exact (hcancel.trans (.executeKeepaliveIn hin)).trans (keepaliveErr_works _ t _ (some m))
          · obtain rfl := Option.some.inj h
            exact hcancel.trans (.freeMessage _ (some m))

theorem doMqttKeepaliveTask_works (h : doMqttKeepaliveTask c t a = some r) : Works c r.context := by
  unfold doMqttKeepaliveTask at h
  split at h
  · obtain rfl := Option.some.inj h
    exact .freeMessage c a.message
  · split at h
    · exact keepaliveSent_works h
    · exact keepaliveAnswer_works h
    · split at h <;> obtain rfl := Option.some.inj h
      · next hb => exact (Works.build hb).trans (sendAndYield_works _ t _)
      · next hb => exact (Works.build hb).trans (keepaliveErr_works _ t _ none)

/-- The layer data are there, so that the layer is not closed at once. -/
theorem doShutdown_works (h : doShutdown c t a = some r) : Works c r.context := by
  unfold doShutdown at h
  split at h
  · obtain rfl := Option.some.inj h
    exact .freeMessage c a.message
  · next hd =>
    split at h
    · obtain rfl := Option.some.inj h
      have hdata : c.layerData = true := by simpa using hd
      show Works c (close c .ok).2
      rw [close, if_pos hdata]
      exact .continueWith (by trivial) c _
    · split at h <;> obtain rfl := Option.some.inj h
      · next hb => exact (Works.build hb).trans (sendAndYield_works _ t _)
      · next hb => exact .build hb

theorem publishQ1RecievedSend_works (c : Context) (t : Task) :
    Works c (publishQ1RecievedSend c t).context := by
  unfold publishQ1RecievedSend
  split
  · next hb => exact (Works.build hb).trans (sendAndYield_works _ t _)
  · next hb => exact .build hb

theorem onPublishQ1Recieved_works (h : onPublishQ1Recieved c t a = some r) : Works c r.context := by
  unfold onPublishQ1Recieved at h
  split at h
  · obtain rfl := Option.some.inj h
    exact .freeMessage c a.message
  · split at h
    · split at h
      · split at h
        · next hc =>
          obtain rfl := Option.some.inj h
          exact .callTopicHandler hc
        · cases h
      · obtain rfl := Option.some.inj h
        exact publishQ1RecievedSend_works c t
    · split at h
      · cases h
      · obtain rfl := Option.some.inj h
        exact publishQ1RecievedSend_works c t

theorem coroutine_works (h : coroutine t c t a = some r) : Works c r.context := by
  cases hs : t.scenario with
  | connect => exact doMqttConnect_works (by simpa only [coroutine, hs] using h)
  | publish d =>
    by_cases hq : t.qos = .atMostOnce
    · exact doMqttPublishQ0_works (by simpa only [coroutine, hs, hq] using h)
    · exact doMqttPublishQ1_works (by simpa only [coroutine, hs] using h)
  | puback => exact onPublishQ1Recieved_works (by simpa only [coroutine, hs] using h)
  | subscribe d => exact doMqttSubscribe_works (by simpa only [coroutine, hs] using h)
  | keepalive => exact doMqttKeepaliveTask_works (by simpa only [coroutine, hs] using h)
  | shutdown => exact doShutdown_works (by simpa only [coroutine, hs] using h)

/-- **A coroutine neither sets up nor tears down.** -/
theorem execute_works (h : execute c t a = some r) : Works c r.context := by
  unfold execute at h
  split at h
  · exact coroutine_works h
  · cases h

theorem TaskTimeout.run_works {timeout : TaskTimeout} (h : timeout.run c t = some r) :
    Works c r.context := by
  cases timeout with
  | resume s => exact execute_works h
  | keepalive msg =>
    obtain ⟨r, hr, rfl⟩ := Option.map_eq_some_iff.mp h
    show Works c r.context
    exact execute_works hr
  | connect => exact doMqttConnectTimeout_works h

end Coroutines

namespace World

variable {w w' w'' : World} {t : Task} {p : Place} {r : CoResult} {c : Context}

/-! ## What a call does while the layer works -/

/-- The layer data stay as they are, the connection stays as it is or is opened, memory is only used up
and no task is leaked. -/
structure Works (w w' : World) : Prop where
  mem : w'.context.mem <:+ w.context.mem
  layerData : w'.context.layerData = w.context.layerData
  connection : w'.context.connection = w.context.connection ∨
    w'.context.connection = { w.context.connection with connectionState := .opened }
  leaked : w.leaked = [] → w'.leaked = []
  out : w.context.Works w'.context

theorem Works.refl (w : World) : Works w w :=
  ⟨List.suffix_refl _, rfl, .inl rfl, id, .refl _⟩

theorem Works.trans (h : Works w w') (h' : Works w' w'') : Works w w'' where
  mem := h'.mem.trans h.mem
  layerData := h'.layerData.trans h.layerData
  connection := by
    rcases h.connection with h | h <;> rcases h'.connection with h' | h' <;> rw [h', h] <;> simp
  leaked hl := h'.leaked (h.leaked hl)
  out := h.out.trans h'.out

theorem Works.returns (h : Works w w') (s : IotcState) : Works w (w'.returns s) :=
  ⟨h.mem, h.layerData, h.connection, h.leaked, h.out⟩

theorem Works.withContext (hm : w.context.Moves t c) (ho : w.context.Works c) :
    Works w (w.withContext c) :=
  ⟨hm.mem, hm.layerData, hm.connection.imp_right (·.2), id, ho⟩

/-- The trace is all that changes. -/
theorem Works.of_out (os : List Output) (hm : w'.context.mem = w.context.mem)
    (hd : w'.context.layerData = w.context.layerData)
    (hc : w'.context.connection = w.context.connection) (hl : w.leaked = [] → w'.leaked = [])
    (ho : w'.context.out = w.context.out ++ os) (hos : ∀ o ∈ os, o.Routine) : Works w w' :=
  ⟨hm ▸ List.suffix_refl _, hd, .inl hc, hl, os, ho, hos⟩

theorem Works.of_eq (hc : w'.context = w.context) (hl : w.leaked = [] → w'.leaked = []) :
    Works w w' :=
  .of_out [] (by rw [hc]) (by rw [hc]) (by rw [hc]) hl (by simp [hc]) (by simp)

theorem Works.alloc (w : World) : Works w w.alloc.2 :=
  ⟨List.tail_suffix _, rfl, .inl rfl, id, .of_eq rfl⟩

theorem Works.freeTasks (w : World) (ts : List Task) : Works w (w.freeTasks ts) := by
  refine .of_out (ts.map (.freeTask ·.id)) rfl rfl rfl id rfl fun o hm => ?_
  obtain ⟨t, -, rfl⟩ := List.mem_map.mp hm
  trivial

theorem Works.ran (ho : Outcome w.context t r) (hw : w.context.Works r.context) (p : Place) :
    Works w (w.ran p r) := by
  have h := Works.withContext ho.context hw
  cases p with
  | leaked =>
    refine ⟨h.mem, h.layerData, h.connection, fun hl => ?_, h.out⟩
    show putTask r.task w.leaked = []
    rw [hl]
    rfl
  | _ => exact ⟨h.mem, h.layerData, h.connection, h.leaked, h.out⟩

theorem Works.drop (w : World) (t : Task) (p : Place) : Works w (w.drop t p) := by
  have h := Works.freeTasks w [t]
  cases p with
  | current => exact .refl w
  | leaked =>
    refine ⟨h.mem, h.layerData, h.connection, fun hl => ?_, h.out⟩
    show dropTask t.id w.leaked = []
    rw [hl]
    rfl
  | _ => exact ⟨h.mem, h.layerData, h.connection, h.leaked, h.out⟩

theorem Works.freeCurrent (w : World) : Works w w.freeCurrent := by
  unfold World.freeCurrent
  split
  · next t hc =>
    have hcancel : Works w (w.withContext (w.context.cancelTaskTimeout t.id)) :=
      .withContext (.cancelTaskTimeout t _) (.cancelTaskTimeout _ _)
    have hfree := Works.freeTasks (w.withContext (w.context.cancelTaskTimeout t.id)) [t]
    exact hcancel.trans ⟨hfree.mem, hfree.layerData, hfree.connection, hfree.leaked, hfree.out⟩
  · exact .refl w

theorem Works.started (w : World) (t : Task) (ts : List Task) : Works w (w.started t ts) :=
  .of_out [.run t.id] rfl rfl rfl id rfl (by simp [Output.Routine])

theorem Starts.works (h : Starts w w') : Works w w' := by
  induction h with
  | empty s hc hq => exact (Works.refl _).returns s
  | wait s hc hq hw => exact .of_eq rfl id
  | keep s hc hq hw hl hr he =>
    exact ((Works.started _ _ _).trans (.ran (execute_outcome hr) (execute_works hr) .current)).returns s
  | next s hc hq hw hl hr he hu h ih =>
    have hran := Works.ran (execute_outcome hr) (execute_works hr) .current
    exact ((((Works.started _ _ _).trans hran).trans (.freeCurrent _)).trans ih).returns s

theorem Settled.works (h : Settled w p r w') (ho : Outcome w.context t r)
    (hw : w.context.Works r.context) : Works w w' := by
  have hran := Works.ran ho hw p
  induction h with
  | keep s he => exact hran.returns s
  | drop s he hq hu => exact (hran.trans (.drop _ _ p)).returns s
  | next s he hq hu hd h => exact ((hran.trans (.freeCurrent _)).trans h.works).returns s
  | @reset w₁ s he h ih =>
    have hwrite : Works w₁ (w₁.record (.writeFreed r.task.id)) :=
      .of_out [.writeFreed r.task.id] rfl rfl rfl id rfl (by simp [Output.Routine])
    exact (ih.trans hwrite).returns s

/-! ## Calls that resume tasks -/

theorem resume_works (hq0 : ∀ t ∈ w.q0Tasks, t.Queued) {set : Args → Args}
    (h : w.resume p t set = some w') : Works w w' := by
  rcases resume_cases hq0 h with ⟨-, rfl⟩ | ⟨a, r, hl, hr, hsettled⟩
  · exact (Works.refl w).returns _
  · exact hsettled.works (execute_outcome hr) (execute_works hr)

theorem pushWritten_works (hs : w.Sound) {msgId : Nat} {type : MqttType} {s : IotcState}
    (h : w.pushWritten msgId type s = some w') : Works w w' := by
  unfold World.pushWritten at h
  split at h
  · exact Option.some.inj h ▸ (Works.refl w).returns _
  · split at h
    · split at h
      · exact resume_works hs.q0 h
      · exact Option.some.inj h ▸ (Works.refl w).returns _
    · split at h
      · cases h
      · split at h
        · exact resume_works hs.q0 h
        · exact Option.some.inj h ▸ (Works.refl w).returns _

theorem pullErrHandling_works (w : World) (m : Option Received) (s : IotcState) :
    Works w (w.pullErrHandling m s) :=
  (Works.withContext (.freeMessage (t := w.connectTask) _ m) (.freeMessage _ m)).returns s

theorem registerPublish_works (hs : w.Sound) {m : Received} (h : w.registerPublish m = some w') :
    Works w w' := by
  have halloc := Works.alloc w
  unfold World.registerPublish at h
  dsimp only at h
  split at h
  · split at h
    · cases h
    · have hregister : Works w.alloc.2 (w.alloc.2.register m) := .of_eq rfl id
      exact (halloc.trans hregister).trans (resume_works (w := w.alloc.2.register m) hs.q0 h)
  · obtain rfl := Option.some.inj h
    exact halloc.trans (pullErrHandling_works _ _ _)

theorem pullMessage_works (hs : w.Sound) {m : Received} (h : w.pullMessage m = some w') :
    Works w w' := by
  unfold World.pullMessage at h
  dsimp only at h
  split at h
  · unfold onPublishRecieved at h
    split at h
    · obtain ⟨c, hc, rfl⟩ := Option.map_eq_some_iff.mp h
      exact (Works.withContext (.callTopicHandler (t := w.connectTask) hc) (.callTopicHandler hc)).returns _
    · exact registerPublish_works hs h
    · exact Option.some.inj h ▸ (Works.refl w).returns _
  · split at h
    · split at h
      · exact Option.some.inj h ▸ pullErrHandling_works w _ _
      · split at h
        · exact resume_works hs.q0 h
        · exact Option.some.inj h ▸ pullErrHandling_works w _ _
    · split at h
      · cases h
      · split at h
        · cases h
        · exact resume_works hs.q0 h

/-- A routine call on another layer. -/
theorem call_works (w : World) {f : Context → IotcState × Context} {o : Output} {next : LayerState}
    (ho : o.Routine) (hf : f w.context = w.context.continueWith o next) : Works w (w.call f) := by
  have hcall : w.call f =
      (w.withContext (w.context.continueWith o next).2).returns (w.context.continueWith o next).1 := by
    rw [← hf]
    rfl
  rw [hcall]
  have hcontinue : Works w (w.withContext (w.context.continueWith o next).2) := by
    refine ⟨?_, continueWith_layerData _ _ _, .inl ?_, id, .continueWith ho _ _⟩ <;>
      simp only [World.withContext, Context.continueWith] <;> split
    · exact List.tail_suffix _
    · exact List.tail_suffix _
    · rfl
    · rfl
  exact hcontinue.returns _

theorem pull_works (hs : w.Sound) {m : Option Received} {s : IotcState} (h : w.pull m s = some w') :
    Works w w' := by
  unfold World.pull at h
  split at h
  · exact Option.some.inj h ▸ pullErrHandling_works w _ _
  · split at h
    · have hclose : Works w (w.call (·.closeOnThis .backoffTerminal)) :=
        call_works w (o := .closeOnThis .backoffTerminal) trivial rfl
      exact Option.some.inj h ▸ hclose.trans (pullErrHandling_works _ _ _)
    · split at h
      · split at h
        · cases h
        · exact pullMessage_works hs h
      · exact Option.some.inj h ▸ pullErrHandling_works w _ _

theorem fire_works (hs : w.Sound) {id : Nat} (h : w.fire id = some w') : Works w w' := by
  obtain ⟨timeout, t, p, r, -, rfl, -, hr, hsettled⟩ := fire_cases hs.q0 h
  have hdisarm : Works w (w.withContext (w.context.disarm t.id)) :=
    ⟨List.suffix_refl _, rfl, .inl rfl, fun h => h, .of_eq rfl⟩
  exact hdisarm.trans (hsettled.works (TaskTimeout.run_outcome hr) (TaskTimeout.run_works hr))

/-! ## A new task -/

theorem Pushed.works (h : Pushed w t w') : Works w w' := by
  cases h with
  | refused s _ => exact (Works.freeTasks w [t]).returns s
  | queued s _ _ _ => exact .of_eq rfl id
  | started s _ _ _ h =>
    have hqueued : Works w (w.enqueue (setLogic t)) := .of_eq rfl id
    exact (hqueued.trans h.works).returns s
  | deferred s _ _ _ => exact .of_eq rfl id
  | unset s _ _ _ _ => exact .of_eq rfl id
  | run s _ _ _ _ hr h =>
    have hqueued : Works w (w.track (setLogic t)) := .of_eq rfl id
    have hrun := h.works (w := w.track (setLogic t)) (execute_outcome hr) (execute_works hr)
    exact (hqueued.trans hrun).returns s

/-! ## Every call but those of a setup and a teardown -/

/-- A call that the layer gets while it works. -/
def Event.Routine : Event → Prop
  | .submit _ | .written .. | .pull .. | .fire _ | .keepalive => True
  | .connect s => s = .ok
  | _ => False

instance : DecidablePred Event.Routine := fun e => by
  cases e <;> unfold Event.Routine <;> infer_instance

/-- **What a call does while the layer works.** -/
theorem step_works (hs : w.Sound) {e : Event} {o : Oracle} (he : e.Routine)
    (h : step w (e, o) = some w') : Works (w.withOracle o) w' := by
  have hs₀ := hs.withOracle o
  have hmade (W : World) : Works W W.made := .of_eq rfl id
  change (w.withOracle o).stepWith e = some w' at h
  cases e with
  | submit q => exact (hmade (w.withOracle o)).trans (submit_pushed hs h).works
  | written msgId type success => exact pushWritten_works hs₀ h
  | pull m s =>
    have hnext : { w.withOracle o with nextMessage := (w.withOracle o).nextMessage + 1 }.Sound :=
      { count := hs₀.count, current := hs₀.current, q0 := hs₀.q0, q12 := hs₀.q12
        q12Recv := hs₀.q12Recv, saved := hs₀.saved, timed := hs₀.timed, fresh := hs₀.fresh
        noData := hs₀.noData, data := hs₀.data }
    have hcount : Works (w.withOracle o)
        { w.withOracle o with nextMessage := (w.withOracle o).nextMessage + 1 } := .of_eq rfl id
    exact hcount.trans (pull_works hnext h)
  | fire id => exact fire_works hs₀ h
  | keepalive =>
    have hexpired : Works (w.withOracle o)
        ((w.withOracle o).withContext { (w.withOracle o).context with keepaliveEvent := false }) :=
      ⟨List.suffix_refl _, rfl, .inl rfl, fun h => h, .of_eq rfl⟩
    obtain ⟨-, hcases⟩ := keepalive_cases hs₀ h
    rcases hcases with ⟨s, -, rfl⟩ | ⟨s, -, rfl⟩ | ⟨-, -, hpushed⟩
    · exact hexpired.returns s
    · exact (hexpired.trans (.alloc _)).returns s
    · exact ((hexpired.trans (.alloc _)).trans (hmade _)).trans hpushed.works
  | connect s =>
    rcases connect_cases hs₀ h with ⟨hne, -⟩ | ⟨s', -, rfl⟩ | ⟨-, -, hpushed⟩
    · exact absurd he hne
    · exact (Works.alloc _).returns s'
    · exact ((Works.alloc _).trans (hmade _)).trans hpushed.works
  | _ => exact he.elim

/-! ## A layer without data -/

/-- What is appended to the trace only frees something. -/
def Frees (w w' : World) (os : List Output) : Prop :=
  w'.context.out = w.context.out ++ os ∧ ∀ o ∈ os, (∃ m, o = .freeMessage m) ∨ ∃ i, o = .freeTask i

theorem Frees.nil (h : w'.context.out = w.context.out) : Frees w w' [] := ⟨by simp [h], by simp⟩

theorem pullErrHandling_frees (w : World) (m : Option Received) (s : IotcState) :
    ∃ os, Frees w (w.pullErrHandling m s) os ∧
      (w.pullErrHandling m s).context.connection = w.context.connection := by
  cases m with
  | none => exact ⟨[], .nil rfl, rfl⟩
  | some m => exact ⟨[.freeMessage m], ⟨rfl, by simp⟩, rfl⟩

/-- A new task is freed at once. -/
theorem Pushed.frees (h : Pushed w t w') (hd : w.context.layerData = false) :
    ∃ os, Frees w w' os ∧ w'.context.connection = w.context.connection := by
  have hst : ¬w.context.stopped = false := fun h => by simp [layerData_of_not_stopped h] at hd
  cases h with
  | refused s _ => exact ⟨[.freeTask t.id], ⟨rfl, by simp⟩, rfl⟩
  | queued s h _ _ => exact absurd h hst
  | started s h _ _ _ => exact absurd h hst
  | deferred s h _ _ => exact absurd h hst
  | unset s h _ _ _ => exact absurd h hst
  | run s h _ _ _ _ _ => exact absurd h hst

/-- **Without layer data nothing is done** but to free what the call comes with, as long as no task has
been leaked. -/
theorem step_frees (hs : w.Sound) (hd : w.context.layerData = false) (hl : w.leaked = []) {e : Event}
    {o : Oracle} (he : e.Routine) (h : step w (e, o) = some w') :
    ∃ os, Frees w w' os ∧ w'.context.connection = w.context.connection := by
  have hs₀ := hs.withOracle o
  have hst : (w.withOracle o).context.stopped = true := by
    simp [Context.stopped, withOracle, World.withContext, hd]
  change (w.withOracle o).stepWith e = some w' at h
  cases e with
  | submit q => exact (submit_pushed hs h).frees hd
  | written msgId type success =>
    simp only [stepWith, pushWritten, hst, if_true] at h
    exact Option.some.inj h ▸ ⟨[], .nil rfl, rfl⟩
  | pull m s =>
    simp only [stepWith, pull] at h
    rw [if_pos hst] at h
    exact Option.some.inj h ▸ pullErrHandling_frees _ _ s
  | fire id =>
    -- the task of the event would have to be one of the layer
    obtain ⟨timeout, t, p, r, -, -, hp, -, -⟩ := fire_cases hs₀.q0 h
    obtain ⟨hc, -, hq12, hrecv⟩ := hs.noData hd
    cases p with
    | current =>
      rw [show w.currentQ0Task = some t from hp] at hc
      cases hc
    | q12 =>
      rw [show (w.withOracle o).At t .q12 ↔ t ∈ w.q12Tasks from .rfl, hq12] at hp
      cases hp
    | q12Recv =>
      rw [show (w.withOracle o).At t .q12Recv ↔ t ∈ w.q12RecvTasks from .rfl, hrecv] at hp
      cases hp
    | leaked =>
      rw [show (w.withOracle o).At t .leaked ↔ t ∈ w.leaked from .rfl, hl] at hp
      cases hp
  | keepalive =>
    obtain ⟨-, hcases⟩ := keepalive_cases hs₀ h
    rcases hcases with ⟨s, -, rfl⟩ | ⟨s, -, rfl⟩ | ⟨hdata, -, -⟩
    · exact ⟨[], .nil rfl, rfl⟩
    · exact ⟨[], .nil rfl, rfl⟩
    · exact absurd (hd.symm.trans hdata) (by decide)
  | connect s =>
    rcases connect_cases hs₀ h with ⟨hne, -⟩ | ⟨s', -, rfl⟩ | ⟨-, -, hpushed⟩
    · exact absurd he hne
    · exact ⟨[], .nil rfl, rfl⟩
    · exact hpushed.frees hd
  | _ => exact he.elim

/-! ## Setup and teardown -/

/-- The call on another layer that a call ends with. -/
structure Calls (w w' : World) (os : List Output) (last : Output) : Prop where
  out : w'.context.out = w.context.out ++ (os ++ [last])
  routine : ∀ o ∈ os, o.Routine

/-- A call on another layer, if there is memory. -/
theorem call_calls (w : World) (f : Context → IotcState × Context) {last : Output} {next : LayerState}
    (hm : w.context.Unlimited) (hf : f w.context = w.context.continueWith last next) :
    Calls w (w.call f) [] last ∧ (w.call f).context.layerData = w.context.layerData ∧
      (w.call f).context.connection = w.context.connection ∧ (w.call f).leaked = w.leaked := by
  have hcall : (w.call f).context = { w.context.alloc.2.record last with layerState := next } := by
    have hsnd : (w.call f).context = (w.context.continueWith last next).2 := congrArg Prod.snd hf
    simpa only [Context.continueWith, hm.alloc, if_true] using hsnd
  refine ⟨⟨?_, by simp⟩, ?_, ?_, rfl⟩ <;> rw [hcall] <;> rfl

/-- **`iotc_mqtt_logic_layer_connect`** passes a failure on. -/
theorem connect_calls {s : IotcState} {o : Oracle} (hne : s ≠ .ok) (hm : ∀ b ∈ o.mem, b = true)
    (h : step w (.connect s, o) = some w') :
    Calls w w' [] (.connectOnNext s) ∧ w'.context.layerData = w.context.layerData ∧
      w'.context.connection = w.context.connection ∧ w'.leaked = w.leaked := by
  change (w.withOracle o).connect s = some w' at h
  rw [World.connect, if_pos hne] at h
  obtain rfl := Option.some.inj h
  obtain ⟨⟨hout, hos⟩, hdata, hconn, hl⟩ :=
    call_calls (w.withOracle o) (·.connectOnNext s) hm rfl
  exact ⟨⟨hout, hos⟩, hdata, hconn, hl⟩

/-- **`iotc_mqtt_logic_layer_close`** closes the layer below while there are layer data. -/
theorem close_calls {s : IotcState} {o : Oracle} (hm : ∀ b ∈ o.mem, b = true)
    (h : step w (.close s, o) = some w') :
    Calls w w' [] (if w.context.layerData then .closeOnPrev s else .closeExternallyOnThis s) ∧
      w'.context.layerData = w.context.layerData ∧
      w'.context.connection = w.context.connection ∧ w'.leaked = w.leaked := by
  obtain rfl := Option.some.inj h
  cases hd : w.context.layerData with
  | true =>
    have hf : Logic.close (w.withOracle o).context s = (w.withOracle o).context.continueWith
        (.closeOnPrev s) (w.withOracle o).context.layerState.afterClose := if_pos hd
    obtain ⟨⟨hout, hos⟩, hdata, hconn, hl⟩ :=
      call_calls (w.withOracle o) (Logic.close · s) hm hf
    exact ⟨⟨hout, hos⟩, hdata.trans hd, hconn, hl⟩
  | false =>
    have hf : Logic.close (w.withOracle o).context s = (w.withOracle o).context.continueWith
        (.closeExternallyOnThis s) .closed := if_neg (by simp [withOracle, World.withContext, hd])
    obtain ⟨⟨hout, hos⟩, hdata, hconn, hl⟩ :=
      call_calls (w.withOracle o) (Logic.close · s) hm hf
    exact ⟨⟨hout, hos⟩, hdata.trans hd, hconn, hl⟩

theorem restoreSession_none_leaked (hs : w.Sound) (hd : w.context.layerData = false) (hl : w.leaked = []) :
    w.restoreSession.leaked = [] := by
  unfold restoreSession
  split
  · show w.leaked ++ w.q12Tasks = []
    rw [hl, (hs.noData hd).2.2.1]
    rfl
  · exact hl

theorem restoreSession_works (w : World) :
    w.context.Works w.restoreSession.context ∧ w.restoreSession.context.mem = w.context.mem := by
  unfold restoreSession
  split
  · exact ⟨.refl _, rfl⟩
  · exact ⟨(Works.freeTasks w w.savedQ12Tasks).out, rfl⟩

/-- **`iotc_mqtt_logic_layer_init`** sets the layer data up and initialises the layer below. -/
theorem init_calls (hs : w.Sound) (hd : w.context.layerData = false) (hl : w.leaked = [])
    {s : IotcState} {o : Oracle} (hm : ∀ b ∈ o.mem, b = true) (h : step w (.init s, o) = some w') :
    (∃ os, Calls w w' os (.initOnPrev s)) ∧ w'.context.layerData = true ∧
      w'.context.connection.connectionState = .opening ∧ w'.leaked = [] := by
  have hm₀ : (w.withOracle o).context.Unlimited := hm
  have hm₁ : (w.withOracle o).alloc.2.context.Unlimited := hm₀.of_suffix (List.tail_suffix _)
  obtain ⟨⟨os, hos, hroutine⟩, hmem⟩ := restoreSession_works (w.withOracle o).alloc.2
  have hm₂ : (w.withOracle o).alloc.2.restoreSession.context.Unlimited :=
    hm₁.of_suffix (hmem ▸ List.suffix_refl _)
  have hleaked := restoreSession_none_leaked (hs.withOracle o).alloc hd hl
  -- the last call, once the session has been restored
  have hlast {W : World} (hW : W.context.Unlimited) (ho : W.context.out = w.context.out ++ os)
      (hl : W.leaked = []) (hs : List TopicHandler) :
      let w' := (W.withContext { W.context with
        layerData := true
        handlersForTopics := hs
        connection := { W.context.connection with connectionState := .opening } }).call (·.initOnPrev s)
      (∃ os, Calls w w' os (.initOnPrev s)) ∧ w'.context.layerData = true ∧
        w'.context.connection.connectionState = .opening ∧ w'.leaked = [] := by
    obtain ⟨hc, hdata, hconn, hleaked⟩ := call_calls (W.withContext { W.context with
      layerData := true
      handlersForTopics := hs
      connection := { W.context.connection with connectionState := .opening } })
      (·.initOnPrev s) hW rfl
    refine ⟨⟨os, ⟨?_, hroutine⟩⟩, hdata, by rw [hconn]; rfl, hleaked.trans hl⟩
    exact (hc.out.trans (congrArg (· ++ [Output.initOnPrev s]) ho)).trans (List.append_assoc ..)
  change some ((w.withOracle o).init s) = some w' at h
  obtain rfl := Option.some.inj h
  have hdata : (w.withOracle o).context.layerData = false := hd
  have halloc : (w.withOracle o).alloc.1 = true := hm₀.alloc
  simp only [World.init, hdata, Bool.false_eq_true, if_false, halloc, if_true]
  cases (w.withOracle o).alloc.2.initialHandlers with
  | some hs =>
    simp only [Option.isSome_some, if_true]
    exact hlast hm₂ hos hleaked hs
  | none =>
    have halloc₂ : (w.withOracle o).alloc.2.restoreSession.alloc.1 = true := hm₂.alloc
    simp only [Option.isSome_none, Bool.false_eq_true, if_false, halloc₂, if_true]
    have hm₃ : (w.withOracle o).alloc.2.restoreSession.alloc.2.context.Unlimited :=
      hm₂.of_suffix (List.tail_suffix _)
    exact hlast hm₃ hos hleaked []

theorem saved_works (h : w.saved = some w') : Works w w' := by
  obtain ⟨-, -, hout, -, hdata, hmem⟩ := saved_frame h
  obtain ⟨hcontext, -, hleaked⟩ := saved_context h
  have hconn : w'.context.connection = w.context.connection := by
    rw [hcontext]
    exact (cancelTimeouts_frame _ _).2.1
  exact ⟨hmem ▸ List.suffix_refl _, hdata, .inl hconn, fun hl => hleaked.trans hl, .of_eq hout⟩

theorem stopCurrent_works (hq0 : ∀ t ∈ w.q0Tasks, t.Queued) (h : w.stopCurrent = some w') :
    Works w w' := by
  rcases stopCurrent_cases h with ⟨-, rfl⟩ | ⟨t, w₁, -, h₁, rfl⟩
  · exact .refl _
  · have hdisarm : Works w (w.withContext (w.context.disarm t.id)) :=
      ⟨List.suffix_refl _, rfl, .inl rfl, fun h => h, .of_eq rfl⟩
    have hresume := resume_works (w := w.withContext (w.context.disarm t.id)) hq0 h₁
    have hdrop : Works w₁ { w₁ with currentQ0Task := none } := .of_eq rfl id
    exact ((hdisarm.trans hresume).trans hdrop).trans (.freeTasks _ _)

/-- **`iotc_mqtt_logic_layer_close_externally`** closes the layer above once the layer data are freed. A
layer that is connecting tells the layer above first. -/
theorem closeExternally_calls (hs : w.Sound) {s : IotcState} {o : Oracle} (hm : ∀ b ∈ o.mem, b = true)
    (h : step w (.closeExternally s, o) = some w') :
    (s ≠ .ok ∧ Calls w w' [] (.connectOnThis s) ∧ w'.context.layerData = w.context.layerData ∧
      w'.context.connection = w.context.connection ∧ w'.leaked = w.leaked) ∨
    ((∃ os, Calls w w' os (.closeExternallyOnNext s)) ∧ w'.context.layerData = false ∧
      (w'.context.connection = w.context.connection ∨
        w'.context.connection = { w.context.connection with connectionState := .opened }) ∧
      (w.leaked = [] → w'.leaked = [])) := by
  change (w.withOracle o).closeExternally s = some w' at h
  rcases closeExternally_cases h with ⟨hne, -, rfl⟩ | ⟨hd, rfl⟩ |
    ⟨w₁, w₂, w₃, -, -, h₁, h₂, h₃, rfl⟩
  · obtain ⟨⟨hout, hos⟩, hdata, hconn, hl⟩ :=
      call_calls (w.withOracle o) (·.connectOnThis s) hm rfl
    exact .inl ⟨hne, ⟨hout, hos⟩, hdata, hconn, hl⟩
  · obtain ⟨⟨hout, hos⟩, hdata, hconn, hl⟩ :=
      call_calls (w.withOracle o) (·.closeExternallyOnNext s) hm rfl
    exact .inr ⟨⟨[], hout, hos⟩, hdata.trans hd, .inl hconn, fun h => hl.trans h⟩
  · have hq0 : ∀ t ∈ w₁.q0Tasks, t.Queued := (saved_frame h₁).1 ▸ (hs.withOracle o).q0
    have hworks := (saved_works h₁).trans (stopCurrent_works hq0 h₂)
    obtain rfl := freeLayerData_eq_some h₃
    have hfree := hworks.trans (.freeTasks w₂ (w₂.q12Tasks ++ w₂.q12RecvTasks ++ w₂.q0Tasks))
    obtain ⟨os, hout, hos⟩ := hfree.out
    have hm₀ : (w.withOracle o).context.Unlimited := hm
    have hm₃ : w₂.context.Unlimited := hm₀.of_suffix hworks.mem
    -- the last call, once the data are freed
    let w₃ : World := { w₂.freeTasks (w₂.q12Tasks ++ w₂.q12RecvTasks ++ w₂.q0Tasks) with
      context := { (w₂.freeTasks (w₂.q12Tasks ++ w₂.q12RecvTasks ++ w₂.q0Tasks)).context with
        layerData := false, handlersForTopics := [], keepaliveEvent := false }
      q12Tasks := [], q12RecvTasks := [], q0Tasks := [], currentQ0Task := none, lastMsgId := 0 }
    obtain ⟨hcalls, hdata, hconn, hl⟩ := call_calls w₃ (·.closeExternallyOnNext s) hm₃ rfl
    have hlast : (w₃.call (·.closeExternallyOnNext s)).context.out =
        w.context.out ++ (os ++ [.closeExternallyOnNext s]) :=
      (hcalls.out.trans (congrArg (· ++ [Output.closeExternallyOnNext s]) hout)).trans
        (List.append_assoc ..)
    refine .inr ⟨⟨os, hlast, hos⟩, hdata, ?_, fun h => hl.trans (hfree.leaked h)⟩
    rw [hconn]
    exact hfree.connection

/-! ## `post_connect` of the layer below -/

/-- The layer below is not told of the connection. -/
def NoPost (w w' : World) : Prop :=
  ∃ os, w'.context.out = w.context.out ++ os ∧ ∀ s, Output.postConnectOnPrev s ∉ os

theorem NoPost.of_eq (h : w'.context.out = w.context.out) : NoPost w w' := ⟨[], by simp [h], by simp⟩

theorem NoPost.trans (h : NoPost w w') (h' : NoPost w' w'') : NoPost w w'' := by
  obtain ⟨os, ho, hos⟩ := h
  obtain ⟨os', ho', hos'⟩ := h'
  refine ⟨os ++ os', by rw [ho', ho, List.append_assoc], fun s hm => ?_⟩
  exact (List.mem_append.mp hm).elim (hos s) (hos' s)

theorem Works.noPost (h : Works w w') : NoPost w w' := by
  obtain ⟨os, ho, hos⟩ := h.out
  exact ⟨os, ho, fun s hm => hos _ hm⟩

theorem call_noPost (w : World) (f : Context → IotcState × Context) {o : Output} {next : LayerState}
    (ho : ∀ s, o ≠ .postConnectOnPrev s) (hf : f w.context = w.context.continueWith o next) :
    NoPost w (w.call f) := by
  have hcall : (w.call f).context = (w.context.continueWith o next).2 := congrArg Prod.snd hf
  unfold NoPost
  rw [hcall, Context.continueWith]
  dsimp only
  split
  · exact ⟨[o], rfl, fun s hm => ho s (List.mem_singleton.mp hm).symm⟩
  · exact ⟨[], (List.append_nil _).symm, by simp⟩

theorem init_noPost (w : World) (s : IotcState) : NoPost w (w.init s) := by
  have hrestored (w₀ : World) : NoPost w₀ w₀.restoreSession := by
    obtain ⟨⟨os, ho, hos⟩, -⟩ := restoreSession_works w₀
    exact ⟨os, ho, fun s hm => hos _ hm⟩
  rcases init_cases w s with ⟨-, -, h⟩ | ⟨w₀, hw₀, hinit⟩
  · exact h ▸ .of_eq rfl
  · have hout : NoPost w w₀ := by
      rcases hw₀ with ⟨-, rfl⟩ | ⟨-, -, rfl⟩ <;> exact .of_eq rfl
    rcases hinit with ⟨mem, h⟩ | ⟨-, -, h⟩
    · have hdata : NoPost w₀.restoreSession (w₀.initialised mem) := .of_eq rfl
      have hcall := call_noPost (w₀.initialised mem) (·.initOnPrev s) (o := .initOnPrev s)
        (fun _ => by simp) rfl
      exact h ▸ ((hout.trans (hrestored w₀)).trans hdata).trans hcall
    · have herr : NoPost w₀.restoreSession w₀.restoreSession.alloc.2.initErrHandling := .of_eq rfl
      exact h ▸ (hout.trans (hrestored w₀)).trans herr

/-- **Only `post_connect` tells the layer below** that the connection is there. -/
theorem step_noPost (hs : w.Sound) {e : Event} {o : Oracle} (he : ∀ s, e ≠ .postConnect s)
    (h : step w (e, o) = some w') : NoPost w w' := by
  have horacle : NoPost w (w.withOracle o) := .of_eq rfl
  by_cases hroutine : e.Routine
  · exact horacle.trans (step_works hs hroutine h).noPost
  · refine horacle.trans ?_
    change (w.withOracle o).stepWith e = some w' at h
    cases e with
    | connectTo d =>
      change (if _ then _ else _ : Option World) = some w' at h
      split at h <;> exact Option.some.inj h ▸ .of_eq rfl
    | init s => exact Option.some.inj h ▸ init_noPost _ s
    | connect s =>
      have hne : s ≠ .ok := hroutine
      change World.connect _ s = some w' at h
      rw [World.connect, if_pos hne] at h
      exact Option.some.inj h ▸
        call_noPost _ (·.connectOnNext s) (o := .connectOnNext s) (fun _ => by simp) rfl
    | postConnect s => exact absurd rfl (he s)
    | close s =>
      obtain rfl := Option.some.inj h
      cases hd : w.context.layerData with
      | true =>
        exact call_noPost (w.withOracle o) (Logic.close · s) (o := .closeOnPrev s) (fun _ => by simp)
          (if_pos hd)
      | false =>
        exact call_noPost (w.withOracle o) (Logic.close · s) (o := .closeExternallyOnThis s)
          (fun _ => by simp) (if_neg (by simp [withOracle, World.withContext, hd]))
    | closeExternally s =>
      change (w.withOracle o).closeExternally s = some w' at h
      rcases closeExternally_cases h with ⟨-, -, rfl⟩ | ⟨-, rfl⟩ | ⟨w₁, w₂, w₃, -, -, h₁, h₂, h₃, rfl⟩
      · exact call_noPost _ (·.connectOnThis s) (o := .connectOnThis s) (fun _ => by simp) rfl
      · exact call_noPost _ (·.closeExternallyOnNext s) (o := .closeExternallyOnNext s)
          (fun _ => by simp) rfl
      · have hq0 : ∀ t ∈ w₁.q0Tasks, t.Queued := (saved_frame h₁).1 ▸ (hs.withOracle o).q0
        have hworks := (saved_works h₁).trans (stopCurrent_works hq0 h₂)
        have hfreed : NoPost w₂ w₃ := by
          obtain rfl := freeLayerData_eq_some h₃
          exact (Works.freeTasks w₂ (w₂.q12Tasks ++ w₂.q12RecvTasks ++ w₂.q0Tasks)).noPost
        exact (hworks.noPost.trans hfreed).trans (call_noPost w₃ (·.closeExternallyOnNext s)
          (o := .closeExternallyOnNext s) (fun _ => by simp) rfl)
    | closing => exact Option.some.inj h ▸ .of_eq rfl
    | closed => exact Option.some.inj h ▸ .of_eq rfl
    | _ => exact absurd trivial hroutine

end World

end IotDeviceSdk.Mqtt.Logic
