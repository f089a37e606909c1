import IotDeviceSdk.Mqtt.Logic.MessageIds

/-!
# Time events after a teardown

`iotc_mqtt_logic_layer_close_externally` frees the tasks and the layer data. It cancels the timeouts
of the current task before it resumes the task for the last time, not after, so what a coroutine sets
then stays pending: a KEEPALIVE that waits for its write sets its timeout whatever it is resumed
with, and a CONNECT that starts sets one, too.

In every other teardown nothing that is freed has a pending time event (`noDangling`).
-/

namespace IotDeviceSdk.Mqtt.Logic

variable {c : Context} {t : Task} {a : Args} {r : CoResult}

/-! ## The coroutines of QoS 0 -/

theorem pushOnPrev_layerState (c : Context) (id : Nat) (m : Message) :
    (c.pushOnPrev id m).2.layerState = c.layerState := by
  simp only [Context.pushOnPrev, Context.continueWith]
  split <;> rfl

theorem stopped_eq {c c' : Context} (hl : c'.layerState = c.layerState)
    (hd : c'.layerData = c.layerData) : c'.stopped = c.stopped := by
  simp only [Context.stopped, hl, hd]

theorem sendAndYield_stopped (c : Context) (t : Task) (m : Message) :
    (sendAndYield c t m).context.stopped = c.stopped :=
  stopped_eq (pushOnPrev_layerState c t.id m) (World.continueWith_layerData _ _ _)

theorem build_stopped {fill e : Except IotcState Message} {c' : Context}
    (hb : c.build fill = (e, c')) : c'.stopped = c.stopped := by
  obtain rfl : (c.build fill).2 = c' := by rw [hb]
  rfl

theorem executeKeepaliveIn_stopped {s : IotcState} {c' : Context}
    (h : c.executeKeepaliveIn = some (s, c')) : c'.stopped = c.stopped := by
  rcases Context.executeIn_eq_some h with ⟨-, -, rfl⟩ | ⟨-, rfl | rfl⟩ <;> rfl

theorem keepaliveAnswer_stopped {s : IotcState} {msg : Option Received}
    (h : keepaliveAnswer c t s msg = some r) (hs : c.stopped = true) : r.context.stopped = true := by
  unfold keepaliveAnswer at h
  split at h
  · split at h
    · cases h
    · change some ⟨(c.closeOnPrev .timeout).2, { t with cs := .exit },
        .keep (c.closeOnPrev .timeout).1⟩ = some r at h
      obtain rfl := Option.some.inj h
      exact continueWith_stopped _ notOperational_afterClose hs
  · have hcancel := (cancelTaskTimeout_stopped c t.id).trans hs
    dsimp only at h
    split at h
    · obtain rfl := Option.some.inj h
      exact hcancel
    · split at h
      · cases h
      · split at h
        · obtain rfl := Option.some.inj h
          exact (freeMessage_stopped _ _).trans hcancel
        · split at h
          · split at h
            · cases h
            · next hin =>
              obtain rfl := Option.some.inj h
              exact (freeMessage_stopped _ _).trans ((executeKeepaliveIn_stopped hin).trans hcancel)
            · next hin =>
              obtain rfl := Option.some.inj h
              exact (freeMessage_stopped _ _).trans ((executeKeepaliveIn_stopped hin).trans hcancel)
          · obtain rfl := Option.some.inj h
            exact (freeMessage_stopped _ _).trans hcancel

theorem doMqttKeepaliveTask_stopped (h : doMqttKeepaliveTask c t a = some r)
    (hs : c.stopped = true) : r.context.stopped = true := by
  unfold doMqttKeepaliveTask at h
  split at h
  · obtain rfl := Option.some.inj h
    exact (freeMessage_stopped _ _).trans hs
  · split at h
    · unfold keepaliveSent at h
      split at h
      · cases h
      · split at h
        · cases h
        · next hin =>
          obtain rfl := Option.some.inj h
          exact (executeTaskIn_stopped hin).trans hs
        · next hin =>
          obtain rfl := Option.some.inj h
          exact (freeMessage_stopped _ _).trans ((executeTaskIn_stopped hin).trans hs)
    · exact keepaliveAnswer_stopped h hs
    · split at h
      · next hb =>
        obtain rfl := Option.some.inj h
        exact (sendAndYield_stopped _ _ _).trans ((build_stopped hb).trans hs)
      · next hb =>
        obtain rfl := Option.some.inj h
        exact (freeMessage_stopped _ _).trans ((build_stopped hb).trans hs)

theorem doShutdown_stopped (h : doShutdown c t a = some r) (hs : c.stopped = true) :
    r.context.stopped = true := by
  unfold doShutdown at h
  split at h
  · obtain rfl := Option.some.inj h
    exact (freeMessage_stopped _ _).trans hs
  · split at h
    · obtain rfl := Option.some.inj h
      exact close_stopped hs
    · split at h
      · next hb =>
        obtain rfl := Option.some.inj h
        exact (sendAndYield_stopped _ _ _).trans ((build_stopped hb).trans hs)
      · next hb =>
        obtain rfl := Option.some.inj h
        exact (build_stopped hb).trans hs

theorem doMqttConnect_stopped (h : doMqttConnect c t a = some r) (hs : c.stopped = true) :
    r.context = (c.freeMessage a.message).cancelTaskTimeout t.id := by
  unfold doMqttConnect at h
  rw [if_pos hs] at h
  obtain rfl := Option.some.inj h
  rfl

theorem doMqttPublishQ0_stopped (h : doMqttPublishQ0 c t a = some r) (hs : c.stopped = true) :
    r.context = c := by
  unfold doMqttPublishQ0 at h
  rw [if_pos hs] at h
  split at h
  · cases h
  · obtain rfl := Option.some.inj h
    rfl

/-! ## The other coroutines -/

theorem subscribeSend_stopped {s : IotcState} (h : subscribeSend c t s = some r) :
    r.context.stopped = c.stopped := by
  unfold subscribeSend at h
  split at h
  · cases h
  · split at h
    · next hb =>
      obtain rfl := Option.some.inj h
      exact (sendAndYield_stopped _ _ _).trans (build_stopped hb)
    · next hb =>
      obtain rfl := Option.some.inj h
      exact (freeMessage_stopped _ _).trans (build_stopped hb)

theorem subscribeSent_stopped {s : IotcState} {msg : Option Received}
    (h : subscribeSent c t s msg = some r) : r.context.stopped = c.stopped := by
  unfold subscribeSent at h
  dsimp only at h
  repeat' split at h
  all_goals first
    | cases h; done
    | (obtain rfl := Option.some.inj h; first
        | rfl
        | exact executeTaskIn_stopped ‹_›
        | exact (freeMessage_stopped _ _).trans (executeTaskIn_stopped ‹_›))

theorem queue_stopped (c : Context) (o : Output) : (c.queue o).2.stopped = c.stopped := by
  unfold Context.queue
  dsimp only
  split <;> rfl

theorem subscribeSuback_stopped (c : Context) (t : Task) (d : SubscribeData) (status : UInt8) :
    (subscribeSuback c t d status).context.stopped = c.stopped := by
  have hqueue {c₀ c' : Context} {o : Output} {b : Bool} (hq : c₀.queue o = (b, c'))
      (hs : c₀.stopped = c.stopped) : c'.stopped = c.stopped := by
    obtain rfl : (c₀.queue o).2 = c' := by rw [hq]
    exact (queue_stopped c₀ o).trans hs
  unfold subscribeSuback
  by_cases hg : status ≠ 0x80
  · simp only [hg, if_true, ne_eq, not_false_eq_true]
    split
    · split
      · next hq => exact hqueue hq rfl
      · next hq => exact (freeMessage_stopped _ none).trans (hqueue hq rfl)
    · rfl
  · simp only [hg, if_false, if_true]
    split
    · next hq => exact hqueue hq rfl
    · next hq => exact (freeMessage_stopped _ none).trans (hqueue hq rfl)

theorem subscribeAnswer_stopped {s : IotcState} {msg : Option Received}
    (h : subscribeAnswer c t s msg = some r) : r.context.stopped = c.stopped := by
  unfold subscribeAnswer at h
  have hcancel := cancelTaskTimeout_stopped c t.id
  dsimp only at h
  split at h
  · split at h
    · cases h
    · exact subscribeSend_stopped h
  · split at h
    · exact (subscribeSend_stopped h).trans hcancel
    · split at h
      · obtain rfl := Option.some.inj h
        exact (freeMessage_stopped _ _).trans hcancel
      · split at h
        · cases h
        · split at h
          · obtain rfl := Option.some.inj h
            exact (freeMessage_stopped _ _).trans hcancel
          · split at h
            · obtain rfl := Option.some.inj h
              exact (subscribeSuback_stopped _ _ _ _).trans ((freeMessage_stopped _ _).trans hcancel)
            · cases h

theorem doMqttSubscribe_stopped (h : doMqttSubscribe c t a = some r) :
    r.context.stopped = c.stopped := by
  unfold doMqttSubscribe at h
  split at h
  · obtain rfl := Option.some.inj h
    exact (freeMessage_stopped _ _).trans (cancelTaskTimeout_stopped c t.id)
  · split at h
    · exact subscribeSent_stopped h
    · exact subscribeAnswer_stopped h
    · split at h
      · cases h
      · exact subscribeSend_stopped h
    · exact subscribeSend_stopped h

theorem doMqttPublishQ1_stopped (h : doMqttPublishQ1 c t a = some r) (hs : c.stopped = true) :
    r.context.stopped = true := by
  unfold doMqttPublishQ1 at h
  rw [if_pos hs] at h
  obtain rfl := Option.some.inj h
  exact (freeMessage_stopped _ _).trans ((cancelTaskTimeout_stopped c t.id).trans hs)

theorem onPublishQ1Recieved_stopped (h : onPublishQ1Recieved c t a = some r) (hs : c.stopped = true) :
    r.context.stopped = true := by
  unfold onPublishQ1Recieved at h
  rw [if_pos hs] at h
  obtain rfl := Option.some.inj h
  exact (freeMessage_stopped c _).trans hs

/-- **A layer that is stopped stays stopped**, whatever a task does. -/
theorem execute_stays_stopped (h : execute c t a = some r) (hs : c.stopped = true) :
    r.context.stopped = true := by
  unfold execute at h
  split at h
  · cases hsc : t.scenario with
    | connect =>
      rw [doMqttConnect_stopped (t := t) (a := a) (by simpa only [coroutine, hsc] using h) hs,
        cancelTaskTimeout_stopped, freeMessage_stopped, hs]
    | publish d =>
      by_cases hq : t.qos = .atMostOnce
      · rw [doMqttPublishQ0_stopped (t := t) (a := a)
          (by simpa only [coroutine, hsc, hq] using h) hs, hs]
      · exact doMqttPublishQ1_stopped (by simpa only [coroutine, hsc] using h) hs
    | puback => exact onPublishQ1Recieved_stopped (by simpa only [coroutine, hsc] using h) hs
    | subscribe d =>
      rw [doMqttSubscribe_stopped (by simpa only [coroutine, hsc] using h), hs]
    | keepalive => exact doMqttKeepaliveTask_stopped (by simpa only [coroutine, hsc] using h) hs
    | shutdown => exact doShutdown_stopped (by simpa only [coroutine, hsc] using h) hs
  · cases h

theorem TaskTimeout.run_stays_stopped {timeout : TaskTimeout} (h : timeout.run c t = some r)
    (hs : c.stopped = true) : r.context.stopped = true := by
  cases timeout with
  | resume s => exact execute_stays_stopped h hs
  | keepalive msg =>
    obtain ⟨r', hr, rfl⟩ := Option.map_eq_some_iff.mp h
    have hrun := execute_stays_stopped hr hs
    exact hrun
  | connect =>
    unfold TaskTimeout.run doMqttConnectTimeout at h
    dsimp only at h
    split at h
    · cases h
    · obtain rfl := Option.some.inj h
      exact continueWith_stopped _ (fun _ => rfl) hs

/-! ## What they set -/

/-- A KEEPALIVE that does not wait for its write sets no timeout of its own. -/
theorem keepalive_cs (h : doMqttKeepaliveTask c t a = some r) (hd : c.layerData = true)
    (hs : t.cs ≠ .sent) (hf : r.exit.final = false) : r.task.cs ≠ .answer := by
  unfold doMqttKeepaliveTask at h
  split at h
  · next hn => simp [hd] at hn
  · split at h
    · next hc => exact absurd hc hs
    · unfold keepaliveAnswer at h
      dsimp only at h
      repeat' split at h
      all_goals first
        | cases h; done
        | (obtain rfl := Option.some.inj h; simp [Exit.final, keepaliveErr] at hf ⊢)
    · split at h
      · obtain rfl := Option.some.inj h
        simp [sendAndYield_eq]
      · obtain rfl := Option.some.inj h
        simp [keepaliveErr, Exit.final] at hf

/-- A CONNECT that is not written does not set a timeout, if it does not start with one. -/
theorem doMqttConnect_unarmed (h : doMqttConnect c t a = some r) (hf : r.exit.final = false)
    (hn : c.timeouts t.id = none) (hw : t.cs = .sent → a.state ≠ .written)
    (hc : c.stopped = false → c.connection.connectionTimeout > 0 → t.cs = .sent ∨ t.cs = .answer) :
    r.context.timeouts t.id = none := by
  cases hs : c.stopped with
  | true =>
    rw [doMqttConnect_stopped h hs]
    simp
  | false =>
    unfold doMqttConnect at h
    rw [hs, if_neg (by decide)] at h
    split at h
    · next hsent =>
      obtain rfl := Option.some.inj h
      simp [connectSent, hw hsent, connectExit, Exit.final] at hf
    · unfold connectAnswer at h
      dsimp only at h
      repeat' split at h
      · cases h
      · unfold connectAccepted at h
        dsimp only at h
        repeat' split at h
        all_goals first
          | cases h; done
          | (obtain rfl := Option.some.inj h; simp [Exit.final, connectExit] at hf)
      · obtain rfl := Option.some.inj h
        simp [Exit.final, connectExit] at hf
      · obtain rfl := Option.some.inj h
        simp [Exit.final, connectExit] at hf
    · next hsent hanswer =>
      unfold connectStart at h
      split at h
      · obtain rfl := Option.some.inj h
        simp [Exit.final, connectExit] at hf
      · next c' hb =>
        obtain rfl : (c.build (fillWithConnectData c.connection)).2 = c' := by rw [hb]
        split at h
        · next hpos => exact absurd (hc hs hpos) (not_or.mpr ⟨hsent, hanswer⟩)
        · split at h
          · cases h
          · obtain rfl := Option.some.inj h
            simpa [sendAndYield_eq] using hn

/-- The handle has no pending time event of this kind. -/
def Context.Unset (K : TaskTimeout → Prop) (c : Context) (id : Nat) : Prop :=
  ∀ timeout, c.timeouts id = some timeout → ¬K timeout

/-- What must not be, for a task of QoS 0 to set no timeout of the kind. -/
structure Task.Silent (K : TaskTimeout → Prop) (c : Context) (t : Task) : Prop where
  keepalive : (∃ m, K (.keepalive m)) → t.scenario = .keepalive → t.cs ≠ .sent
  connect : K .connect → t.scenario = .connect → c.stopped = false →
    c.connection.connectionTimeout > 0 → t.cs = .sent ∨ t.cs = .answer

section Kind

variable {K : TaskTimeout → Prop}

theorem Context.Unset.of_none {id : Nat} (h : c.timeouts id = none) : c.Unset K id := by
  intro timeout ht
  rw [h] at ht
  cases ht

/-- **It sets none, then**, unless its message has been written. -/
theorem Task.Serving.unset (ht : t.Serving) (hq : t.Silent K c) (h : execute c t a = some r)
    (hd : c.layerData = true) (hn : c.timeouts t.id = none) (hw : t.cs = .sent → a.state ≠ .written) :
    r.context.Unset K t.id := by
  have ho := execute_outcome h
  cases hf : r.exit.final with
  | true => exact .of_none (ho.unarmed (.of_none hn) hf)
  | false =>
    have htimed := ho.timed (.of_none hn) hf
    have hscenario := ho.scenario hf
    have hid := ho.task.id
    unfold execute at h
    split at h
    · unfold coroutine at h
      rcases ht.scenario with hsc | ⟨d, hsc⟩ | hsc | hsc <;> simp only [hsc, ht.qos] at h
      · intro timeout htimeout hK
        have hfits := htimed timeout (hid ▸ htimeout)
        obtain rfl : timeout = .connect := by
          cases timeout <;> simp [TaskTimeout.Fits, hscenario, hsc] at hfits ⊢
        rw [doMqttConnect_unarmed h hf hn hw (hq.connect hK hsc)] at htimeout
        cases htimeout
      · rw [hsc] at hscenario
        exact .of_none (hid ▸ htimed.publishQ0 hscenario (ho.task.qos.trans ht.qos))
      · intro timeout htimeout hK
        have hfits := htimed timeout (hid ▸ htimeout)
        obtain ⟨m, rfl⟩ : ∃ m, timeout = .keepalive m := by
          cases timeout <;> simp [TaskTimeout.Fits, hscenario, hsc] at hfits ⊢
        exact keepalive_cs h hd (hq.keepalive ⟨m, hK⟩ hsc) hf hfits.2
      · exact .of_none (hid ▸ htimed.plain (.inl (hscenario.trans hsc)))
    · cases h

/-! ## The whole queue -/

/-- No time event of the kind is set, and the layer is not started. -/
structure Context.Calm (K : TaskTimeout → Prop) (c c' : Context) : Prop where
  unset : ∀ i, c.Unset K i → c'.Unset K i
  stopped : c.stopped = true → c'.stopped = true
  connectionTimeout : c'.connection.connectionTimeout = c.connection.connectionTimeout
  layerData : c'.layerData = c.layerData

namespace Context.Calm

variable {c c' c'' : Context} {t : Task}

theorem of_eq (ht : c'.timeouts = c.timeouts) (hs : c'.stopped = c.stopped)
    (hc : c'.connection = c.connection) (hd : c'.layerData = c.layerData) : Calm K c c' where
  unset i hi := by rwa [Unset, ht]
  stopped h := hs.trans h
  connectionTimeout := by rw [hc]
  layerData := hd

theorem refl (c : Context) : Calm K c c := of_eq rfl rfl rfl rfl

theorem trans (h : Calm K c c') (h' : Calm K c' c'') : Calm K c c'' where
  unset i hi := h'.unset i (h.unset i hi)
  stopped hs := h'.stopped (h.stopped hs)
  connectionTimeout := h'.connectionTimeout.trans h.connectionTimeout
  layerData := h'.layerData.trans h.layerData

/-- A handle that is freed. -/
theorem of_update {id : Nat} (ht : c'.timeouts = Function.update c.timeouts id none)
    (hs : c'.stopped = c.stopped) (hc : c'.connection = c.connection)
    (hd : c'.layerData = c.layerData) : Calm K c c' where
  unset i hi := by
    unfold Unset
    rw [ht]
    by_cases he : i = id
    · rw [he, Function.update_self]
      intro timeout h
      cases h
    · rwa [Function.update_of_ne he]
  stopped h := hs.trans h
  connectionTimeout := by rw [hc]
  layerData := hd

theorem cancelTaskTimeout (c : Context) (id : Nat) : Calm K c (c.cancelTaskTimeout id) :=
  of_update (Context.cancelTaskTimeout_timeouts c id) (cancelTaskTimeout_stopped c id)
    (World.cancelTaskTimeout_connection c id) (World.cancelTaskTimeout_layerData c id)

theorem disarm (c : Context) (id : Nat) : Calm K c (c.disarm id) := of_update rfl rfl rfl rfl

end Context.Calm

theorem Task.Silent.of_calm {c c' : Context} (h : t.Silent K c) (hc : c.Calm K c') :
    t.Silent K c' where
  keepalive := h.keepalive
  connect hK hsc hs hpos := by
    refine h.connect hK hsc ?_ (hc.connectionTimeout ▸ hpos)
    cases hstopped : c.stopped with
    | true => rw [hc.stopped hstopped] at hs; cases hs
    | false => rfl

/-- **A silent task leaves everything calm.** -/
theorem Task.Serving.calm (ht : t.Serving) (hq : t.Silent K c) (h : execute c t a = some r)
    (hd : c.layerData = true) (hn : c.timeouts t.id = none) (hw : t.cs = .sent → a.state ≠ .written) :
    c.Calm K r.context where
  unset i hi := by
    by_cases hid : i = t.id
    · exact hid ▸ ht.unset hq h hd hn hw
    · unfold Context.Unset
      rw [(execute_outcome h).context.timeouts i hid]
      exact hi
  stopped := execute_stays_stopped h
  connectionTimeout := by
    rcases (execute_outcome h).context.connection with hc | ⟨-, hc⟩ <;> rw [hc]
  layerData := (execute_outcome h).context.layerData

end Kind

namespace World

variable {w w' : World} {t u : Task} {ts : List Task} {p : Place} {r : CoResult}
  {K : TaskTimeout → Prop}

theorem freeCurrent_calm (w : World) : w.context.Calm K w.freeCurrent.context := by
  unfold freeCurrent
  split
  · exact (Context.Calm.cancelTaskTimeout w.context _).trans (.of_eq rfl rfl rfl rfl)
  · exact .refl _

theorem Queued.unarmed (hv : w.Valid) (hm : t ∈ w.q0Tasks) : w.context.timeouts t.id = none := by
  have hqueued := hv.q0 t hm
  have hheld : t ∈ w.held := (mem_held .current).mpr (.inr (List.mem_append_left _ hm))
  cases htimeout : w.context.timeouts t.id with
  | none => rfl
  | some timeout =>
    have hfits := hv.timed t hheld timeout htimeout
    cases timeout <;> simp [TaskTimeout.Fits, hqueued.cs] at hfits

theorem Starts.calm (h : Starts w w') (hv : w.Valid) (hd : w.context.layerData = true)
    (hq : ∀ t ∈ w.q0Tasks, t.Silent K w.context) : w.context.Calm K w'.context := by
  have hrun {w : World} {t : Task} {ts : List Task} {a : Args} {r : CoResult} (hv : w.Valid)
      (hd : w.context.layerData = true) (hts : w.q0Tasks = t :: ts)
      (hq : ∀ t ∈ w.q0Tasks, t.Silent K w.context)
      (hr : execute (w.started t ts).context t a = some r) : w.context.Calm K r.context := by
    have hm : t ∈ w.q0Tasks := hts ▸ List.mem_cons_self
    have hcs : t.cs ≠ .sent := by rw [(hv.q0 t hm).cs]; decide
    have hstart : w.context.Calm K (w.started t ts).context := .of_eq rfl rfl rfl rfl
    have hunarmed := Queued.unarmed hv hm
    have hn : (w.started t ts).context.timeouts t.id = none := hunarmed
    exact hstart.trans ((hv.q0 t hm).serving.calm ((hq t hm).of_calm hstart) hr hd hn
      fun h => absurd h hcs)
  induction h with
  | empty s hc hts => exact .refl _
  | wait s hc hts hw => exact .refl _
  | keep s hc hts hw hl hr he => exact hrun hv hd hts hq hr
  | @next w w' t ts a r s hc hts hw hl hr he hu h ih =>
    have ho := execute_outcome hr
    have hcalm := (hrun hv hd hts hq hr).trans
      (freeCurrent_calm ((w.started t ts).ran .current r))
    have hv₁ := (hv.started hc hts).finished_of_outcome (p := .current) rfl (.refl _) ho
    rw [← ran_freeCurrent ho.task.id hu] at hv₁
    refine hcalm.trans (ih hv₁ (hcalm.layerData.trans hd) fun u hu => (hq u ?_).of_calm hcalm)
    rw [freeCurrent_q0Tasks, ran_q0Tasks] at hu
    rw [hts]
    exact List.mem_cons_of_mem _ hu

/-- The starting of tasks of QoS 0 does not touch the other queues. -/
theorem Starts.others (h : Starts w w') : w'.q12Tasks = w.q12Tasks ∧
    w'.q12RecvTasks = w.q12RecvTasks ∧ w'.leaked = w.leaked := by
  have hfree (w : World) : w.freeCurrent.q12Tasks = w.q12Tasks ∧
      w.freeCurrent.q12RecvTasks = w.q12RecvTasks ∧ w.freeCurrent.leaked = w.leaked := by
    unfold freeCurrent
    split <;> exact ⟨rfl, rfl, rfl⟩
  induction h with
  | empty s hc hts => exact ⟨rfl, rfl, rfl⟩
  | wait s hc hts hw => exact ⟨rfl, rfl, rfl⟩
  | keep s hc hts hw hl hr he => exact ⟨rfl, rfl, rfl⟩
  | next s hc hts hw hl hr he hu h ih =>
    obtain ⟨h1, h2, h3⟩ := hfree (((_ : World).started _ _).ran .current _)
    exact ⟨ih.1.trans h1, ih.2.1.trans h2, ih.2.2.trans h3⟩

/-- The same for all that follows a run of the current task. -/
theorem Settled.calm (h : Settled w .current r w') (hv : w.Valid) (hc : w.currentQ0Task = some t)
    (hu : t.Resumes u) (ho : Outcome w.context u r) (hd : w.context.layerData = true)
    (hrun : w.context.Calm K r.context) (hq : ∀ t ∈ w.q0Tasks, t.Silent K w.context) :
    w.context.Calm K w'.context := by
  induction h with
  | keep s he => exact hrun
  | drop s he hq' hu' => exact hrun
  | next s he hq' hu' hd' h =>
    have hid : r.task.id = t.id := ho.task.id.trans hu.id
    have hv₁ := hv.finished_of_outcome (p := .current) hc hu ho
    rw [← ran_freeCurrent hid hu'] at hv₁
    have hcalm := hrun.trans (freeCurrent_calm (w.ran .current r))
    exact hcalm.trans (h.calm hv₁ (hcalm.layerData.trans hd) fun u hu =>
      (hq u (by simpa using hu)).of_calm hcalm)
  | reset s he h ih => exact ih.trans (.of_eq rfl rfl rfl rfl)

theorem Settled.others (h : Settled w .current r w') : w'.q12Tasks = w.q12Tasks ∧
    w'.q12RecvTasks = w.q12RecvTasks ∧ w'.leaked = w.leaked := by
  induction h with
  | keep s he => exact ⟨rfl, rfl, rfl⟩
  | drop s he hq hu => exact ⟨rfl, rfl, rfl⟩
  | next s he hq hu hd h =>
    obtain ⟨h1, h2, h3⟩ := h.others
    exact ⟨h1, h2, h3⟩
  | reset s he h ih => exact ih

/-! ## The teardown -/

/-- The teardown resumes no task that sets a timeout of the kind. -/
def SilentTasks (K : TaskTimeout → Prop) (w : World) : Prop :=
  ∀ t ∈ w.currentQ0Task.toList ++ w.q0Tasks, t.Silent K w.context

/-- No pending time event is of a task, or of layer data, that has been freed in between. -/
structure NoDangling (w w' : World) : Prop where
  tasks : ∀ i, w.freed i < w'.freed i → w'.context.timeouts i = none
  layerData : w.context.layerData = true → w'.context.layerData = false →
    w'.context.keepaliveEvent = false

theorem stopCurrent_calm (hv : w.Valid) (hd : w.context.layerData = true) (hq : w.SilentTasks K)
    (h : w.stopCurrent = some w') : w.context.Calm K w'.context ∧
      (∀ t, w.currentQ0Task = some t → w'.context.Unset K t.id) ∧
      w'.q12Tasks = w.q12Tasks ∧ w'.q12RecvTasks = w.q12RecvTasks ∧ w'.leaked = w.leaked := by
  rcases stopCurrent_cases h with ⟨hc, rfl⟩ | ⟨t, w₁, hc, h₁, rfl⟩
  · refine ⟨.refl _, fun t ht => ?_, rfl, rfl, rfl⟩
    rw [hc] at ht
    cases ht
  · have hdisarm : w.context.Calm K (w.context.disarm t.id) := .disarm _ _
    have hv₁ := hv.disarm t.id
    have hnone : (w.context.disarm t.id).timeouts t.id = none := by simp
    have hq₁ (u : Task) (hu : u ∈ w.q0Tasks) : u.Silent K (w.context.disarm t.id) :=
      (hq u (List.mem_append_right _ hu)).of_calm hdisarm
    have hcalm : (w.context.disarm t.id).Calm K w₁.context ∧ w₁.q12Tasks = w.q12Tasks ∧
        w₁.q12RecvTasks = w.q12RecvTasks ∧ w₁.leaked = w.leaked := by
      rcases resume_cases hv₁.q0 h₁ with ⟨-, rfl⟩ | ⟨a, r, hl, hr, hsettled⟩
      · exact ⟨.refl _, rfl, rfl, rfl⟩
      · have hserving : Task.Serving { t with logic := some { a with state := .timeout } } := by
          obtain ⟨hqos, ⟨s, m, hlogic⟩, hscenario⟩ := hv.current t hc
          obtain rfl := Option.some.inj (hl.symm.trans hlogic)
          exact ⟨hqos, ⟨_, _, rfl⟩, hscenario⟩
        have ht := (hq t (List.mem_append_left _ (by simp [hc]))).of_calm hdisarm
        have hrun := hserving.calm ⟨ht.keepalive, ht.connect⟩ hr hd hnone fun _ h => by cases h
        have hset := Task.Resumes.set (b := { a with state := .timeout }) hl ⟨fun h => h, fun h => h⟩
        exact ⟨hsettled.calm hv₁ hc hset (execute_outcome hr) hd hrun hq₁, hsettled.others⟩
    refine ⟨hdisarm.trans (hcalm.1.trans (.of_eq rfl rfl rfl rfl)), fun u hu => ?_, hcalm.2⟩
    obtain rfl := Option.some.inj (hc.symm.trans hu)
    exact hcalm.1.unset _ (.of_none hnone)

/-- Cancelling and saving sets nothing. -/
theorem saved_calm (h : w.saved = some w') :
    w'.context = cancelTimeouts (w.q12Tasks ++ w.q12RecvTasks) w.context ∧
      w'.currentQ0Task = w.currentQ0Task ∧ w'.q0Tasks = w.q0Tasks ∧ w'.leaked = w.leaked := by
  rcases saved_cases h with ⟨-, h⟩ | ⟨-, rfl⟩
  · unfold World.saveSession at h
    split at h
    · cases h
    · obtain rfl := Option.some.inj h
      exact ⟨rfl, rfl, rfl, rfl⟩
  · exact ⟨rfl, rfl, rfl, rfl⟩

theorem cancelTimeouts_calm (ts : List Task) (c : Context) : c.Calm K (cancelTimeouts ts c) := by
  induction ts generalizing c with
  | nil => exact .refl c
  | cons t ts ih => exact (Context.Calm.cancelTaskTimeout c t.id).trans (ih _)

/-- What is freed at last has no pending time event, and `keepalive_event` is cancelled. -/
theorem freeLayerData_calm (h : w.freeLayerData = some w') :
    w'.context.timeouts = w.context.timeouts ∧ w'.context.keepaliveEvent = false ∧
      w'.leaked = w.leaked := by
  unfold World.freeLayerData at h
  split at h
  · cases h
  · obtain rfl := Option.some.inj h
    exact ⟨rfl, rfl, rfl⟩

/-- A teardown frees the layer data with `keepalive_event` cancelled. -/
theorem closeExternally_keepaliveEvent {s : IotcState} (h : w.closeExternally s = some w')
    (hd : w.context.layerData = true) (hd' : w'.context.layerData = false) :
    w'.context.keepaliveEvent = false := by
  rcases closeExternally_cases h with ⟨-, -, rfl⟩ | ⟨hn, -⟩ | ⟨w₁, w₂, w₃, -, -, h₁, h₂, h₃, rfl⟩
  · have hquiet := Quiet.call (R := nothing) w (f := (·.connectOnThis s)) (o := .connectOnThis s) trivial rfl
    rw [hquiet.layerData, hd] at hd'
    cases hd'
  · rw [hd] at hn
    cases hn
  · have hquiet := Quiet.call (R := nothing) w₃ (f := (·.closeExternallyOnNext s)) (o := .closeExternallyOnNext s)
      trivial rfl
    exact hquiet.keepaliveEvent.trans (freeLayerData_calm h₃).2.1

/-- **A teardown that resumes no task that sets a timeout of the kind frees no task with one.** -/
theorem Sound.closeExternally_unset (hs : w.Sound) {s : IotcState}
    (hq : w.TearsDown s → w.SilentTasks K) (h : w.closeExternally s = some w') (i : Nat) :
    (w.context.Unset K i → w'.context.Unset K i) ∧
      (w.freed i < w'.freed i → w'.context.Unset K i) := by
  have hs' := hs.closeExternally h
  rcases closeExternally_cases h with ⟨-, -, rfl⟩ | ⟨-, rfl⟩ |
    ⟨w₁, w₂, w₃, hd, htd, h₁, h₂, h₃, rfl⟩
  · have hquiet := Quiet.call (R := nothing) w (f := (·.connectOnThis s)) (o := .connectOnThis s) trivial rfl
    refine ⟨fun hu => ?_, fun hi => ?_⟩
    · rwa [Context.Unset, hquiet.timeouts]
    · rw [hquiet.freed] at hi
      omega
  · have hquiet := Quiet.call (R := nothing) w (f := (·.closeExternallyOnNext s)) (o := .closeExternallyOnNext s)
      trivial rfl
    refine ⟨fun hu => ?_, fun hi => ?_⟩
    · rwa [Context.Unset, hquiet.timeouts]
    · rw [hquiet.freed] at hi
      omega
  · have hv₁ := hs.valid_of_saved hd h₁
    obtain ⟨hc₁, hcurrent₁, hq0₁, hleaked₁⟩ := saved_calm h₁
    have hcalm₁ : w.context.Calm K w₁.context := hc₁ ▸ cancelTimeouts_calm _ _
    have hq₁ : w₁.SilentTasks K := fun t ht =>
      (hq htd t (by rwa [hcurrent₁, hq0₁] at ht)).of_calm hcalm₁
    obtain ⟨hcalm₂, hstopped, -, -, hleaked₂⟩ :=
      stopCurrent_calm hv₁ (hcalm₁.layerData.trans hd) hq₁ h₂
    obtain ⟨htimeouts₃, -, hleaked₃⟩ := freeLayerData_calm h₃
    have hquiet := Quiet.call (R := nothing) w₃ (f := (·.closeExternallyOnNext s)) (o := .closeExternallyOnNext s)
      trivial rfl
    have hleaked := hquiet.leaked.trans (hleaked₃.trans (hleaked₂.trans hleaked₁))
    unfold Context.Unset
    rw [hquiet.timeouts, htimeouts₃]
    change (w.context.Unset K i → w₂.context.Unset K i) ∧ (_ → w₂.context.Unset K i)
    refine ⟨fun hu => hcalm₂.unset i (hcalm₁.unset i hu), fun hi => ?_⟩
    have hcount := hs.count i
    split at hcount
    · next hlt =>
      have hcount' := hs'.count i
      have hzero : countId i (w₃.call (·.closeExternallyOnNext s)).held = 0 := by
        split at hcount' <;> omega
      obtain ⟨t, ht, rfl⟩ := countId_pos.mp (show 0 < countId i w.held by split at hcount' <;> omega)
      simp only [held, List.mem_append] at ht
      rcases ht with ht | ht | ht | ht | ht | ht
      · exact hstopped t (hcurrent₁.trans (by simpa using ht))
      · exact hcalm₂.unset _ (hcalm₁.unset _ (.of_none (Queued.unarmed hs.toValid ht)))
      · refine hcalm₂.unset _ (.of_none ?_)
        rw [hc₁]
        exact mem_cancelTimeouts_unarmed (List.mem_append_left _ ht)
      · refine hcalm₂.unset _ (.of_none ?_)
        rw [hc₁]
        exact mem_cancelTimeouts_unarmed (List.mem_append_right _ ht)
      · rw [hs.data hd] at ht
        cases ht
      · have hmem := (mem_held .leaked).mpr (.inl (hleaked.symm ▸ ht))
        exact absurd rfl (countId_eq_zero.mp hzero t hmem)
    · next hlt =>
      exact hcalm₂.unset i (hcalm₁.unset i (.of_none (hs.fresh i (Nat.le_of_not_lt hlt))))

/-- **From every reachable state, a teardown that resumes no task that sets a timeout leaves no
pending time event of what it has freed.** -/
theorem noDangling (hw : w.Reachable) {s : IotcState} {o : Oracle}
    (hq : w.TearsDown s → w.SilentTasks fun _ => True)
    (h : step w (.closeExternally s, o) = some w') : NoDangling w w' where
  tasks i hi := by
    have hq₀ (hd : w.TearsDown s) : (w.withOracle o).SilentTasks fun _ => True :=
      fun t ht => (hq hd t ht).of_calm (.of_eq rfl rfl rfl rfl)
    have hunset := ((hw.sound.withOracle o).closeExternally_unset hq₀ h i).2 hi
    cases htimeout : w'.context.timeouts i with
    | none => rfl
    | some timeout => exact absurd trivial (hunset timeout htimeout)
  layerData := closeExternally_keepaliveEvent (w := w.withOracle o) h

/-- A KEEPALIVE has been handed over. -/
def keepaliveRun : List Event := opening { client with keepaliveTimeout := 60 } ++ [.keepalive]

/-- The connection is open, and a KEEPALIVE waits for its answer. -/
def alive (out : List Output) : World :=
  { context := { layerState := .connected, layerData := true, out
                 timeouts := Function.update (fun _ => none) 1 (some (.keepalive none))
                 connection := { client with keepaliveTimeout := 60, connectionState := .opened } }
    currentQ0Task := some
      { id := 1, scenario := .keepalive, qos := .atMostOnce, cs := .answer
        logic := some ⟨true, .written, none⟩ }
    nextTask := 2, nextMessage := 1 }

theorem run_alive : ∃ out,
    Infra.run step {} (calls (keepaliveRun ++ [.written 0 .pingreq true])) = some (alive out) :=
  ⟨_, rfl⟩

/-- A KEEPALIVE waits for its answer. -/
theorem noDangling_alive : ∃ w w',
    Infra.run step {} (calls (keepaliveRun ++ [.written 0 .pingreq true])) = some w ∧
    step w (.closeExternally .connectionResetByPeerError, {}) = some w' ∧ NoDangling w w' := by
  obtain ⟨out, h⟩ := run_alive
  obtain ⟨w', h'⟩ : ∃ w', step (alive out) (.closeExternally .connectionResetByPeerError, {}) =
    some w' := ⟨_, rfl⟩
  refine ⟨alive out, w', h, h', noDangling ⟨_, h⟩ (fun _ t ht => ?_) h'⟩
  obtain rfl := List.mem_singleton.mp ht
  exact ⟨fun _ _ h => absurd h (by decide), fun _ h => absurd h (by decide)⟩

/-- It waits for its write. -/
theorem noDangling_fails : ∃ w w', Infra.run step {} (calls keepaliveRun) = some w ∧
    step w (.closeExternally .connectionResetByPeerError, {}) = some w' ∧ ¬NoDangling w w' := by
  refine ⟨_, _, rfl, rfl, fun h => ?_⟩
  have hnone := h.tasks 1 (by decide)
  cases hnone

/-! ## The defect -/

theorem cancelTimeouts_mem (ts : List Task) (c : Context) : (cancelTimeouts ts c).mem = c.mem := by
  induction ts generalizing c with
  | nil => rfl
  | cons t ts ih =>
    refine (ih (c.cancelTaskTimeout t.id)).trans ?_
    unfold Context.cancelTaskTimeout
    split <;> rfl

theorem freed_freeLayerData (h : w.freeLayerData = some w') (i : Nat) : w.freed i ≤ w'.freed i := by
  unfold World.freeLayerData at h
  split at h
  · cases h
  · obtain rfl := Option.some.inj h
    exact freed_freeTasks w _ i ▸ Nat.le_add_right _ _

/-- A KEEPALIVE that waits for its write sets its timeout, if there is memory. -/
theorem keepaliveSent_armed {c : Context} {a : Args} {r : CoResult}
    (hsc : t.scenario = .keepalive) (hcs : t.cs = .sent) (hn : c.timeouts t.id = none)
    (hd : c.layerData = true) (hmem : c.mem = []) (h : execute c t a = some r) :
    r.exit.final = false ∧ r.task.id = t.id ∧ r.context.timeouts t.id = some (.keepalive a.message) := by
  unfold execute at h
  split at h
  · simp only [coroutine, hsc, doMqttKeepaliveTask, hd, hcs, keepaliveSent, Context.armed, hn,
      Context.executeTaskIn, Context.executeIn, Context.alloc, hmem] at h
    obtain rfl := Option.some.inj h
    simp [Exit.final]
  · cases h

/-- **A KEEPALIVE that waits for its write is freed with its timeout pending**, if there is memory
for it. -/
theorem Sound.dangling (hs : w.Sound) {s : IotcState} (hc : w.currentQ0Task = some t)
    (hsc : t.scenario = .keepalive) (hcs : t.cs = .sent) (hmem : w.context.mem = [])
    (hclose : s = .ok ∨ w.context.layerState ≠ .connecting) (h : w.closeExternally s = some w') :
    ¬NoDangling w w' := by
  have hd : w.context.layerData = true := by
    cases hd : w.context.layerData with
    | true => rfl
    | false =>
      rw [(hs.noData hd).1] at hc
      cases hc
  rcases closeExternally_cases h with ⟨hne, hl, -⟩ | ⟨hd', -⟩ | ⟨w₁, w₂, w₃, -, -, h₁, h₂, h₃, rfl⟩
  · exact absurd hl (hclose.resolve_left hne)
  · rw [hd] at hd'
    cases hd'
  · obtain ⟨hc₁, hcurrent₁, -, -⟩ := saved_calm h₁
    have hv₁ := hs.valid_of_saved hd h₁
    have hdata₁ : w₁.context.layerData = true := by rw [hc₁, (cancelTimeouts_frame _ _).1, hd]
    have hmem₁ : w₁.context.mem = [] := by rw [hc₁, cancelTimeouts_mem, hmem]
    have hc' := hcurrent₁.trans hc
    rcases stopCurrent_cases h₂ with ⟨hn, -⟩ | ⟨u, w₄, hu, h₄, rfl⟩
    · rw [hc'] at hn
      cases hn
    · obtain rfl := Option.some.inj (hc'.symm.trans hu)
      have hfreed : w.freed t.id = 0 := by
        have hcount := hs.count t.id
        have hpos := countId_pos.mpr ⟨t, At.mem_held (p := .current) hc, rfl⟩
        split at hcount <;> omega
      rcases resume_cases (hv₁.disarm t.id).q0 h₄ with ⟨hl, -⟩ | ⟨a, r, hl, hr, hsettled⟩
      · obtain ⟨s, m, hlogic⟩ := (hs.current t hc).logic
        rw [hlogic] at hl
        cases hl
      · have hnone : (w₁.context.disarm t.id).timeouts t.id = none := by simp
        obtain ⟨hkeep, hid, harmed⟩ := keepaliveSent_armed
          (t := { t with logic := some { a with state := .timeout } }) hsc hcs hnone hdata₁ hmem₁ hr
        have hran : ∃ s, w₄ = ((w₁.withContext (w₁.context.disarm t.id)).ran .current r).returns s := by
          cases hsettled with
          | keep s he => exact ⟨s, rfl⟩
          | drop s he => rw [hkeep] at he; cases he
          | next s he => rw [hkeep] at he; cases he
          | reset s he => rw [hkeep] at he; cases he
        obtain ⟨s', rfl⟩ := hran
        obtain ⟨htimeouts₃, -, -⟩ := freeLayerData_calm h₃
        have hquiet := Quiet.call (R := nothing) w₃ (f := (·.closeExternallyOnNext s))
          (o := .closeExternallyOnNext s) trivial rfl
        have hpending := (congrFun (hquiet.timeouts.trans htimeouts₃) t.id).trans harmed
        have hfreed₂ := freed_freeTasks { (w₁.withContext (w₁.context.disarm t.id)).ran .current r with
          currentQ0Task := none, result := s' } [r.task] t.id
        rw [countId_cons, if_pos hid] at hfreed₂
        have hfreed₃ : 0 < w₃.freed t.id :=
          Nat.lt_of_lt_of_le (hfreed₂ ▸ Nat.succ_pos _) (freed_freeLayerData h₃ t.id)
        intro hdangling
        have hnone := hdangling.tasks t.id (by rw [hfreed, hquiet.freed]; exact hfreed₃)
        rw [hpending] at hnone
        cases hnone

end World

end IotDeviceSdk.Mqtt.Logic
