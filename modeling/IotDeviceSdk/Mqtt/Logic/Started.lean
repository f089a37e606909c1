import IotDeviceSdk.Mqtt.Logic.Each

/-!
# Which tasks have been started

A PUBLISH of QoS 1 or a SUBSCRIBE is run at once if the connection is open. If it is not, the task
waits in `q12Tasks`, and nothing runs it later: `iotc_mqtt_logic_layer_post_connect` resumes only the
tasks of the last session.

* `submitted_started` says that every task of `q12Tasks` has been started, if no task is submitted too
  early.
* `submitted_started_fails` is a run in which one is.
-/

namespace IotDeviceSdk.Mqtt.Logic

/-! ## How far a coroutine is -/

/-- A task of a user that the server acknowledges. -/
def Task.Acknowledged (t : Task) : Prop :=
  t.qos = .atLeastOnce ∧ ((∃ d, t.scenario = .publish d) ∨ ∃ d, t.scenario = .subscribe d)

section Commands

variable {c c' : Context} {t u : Task} {a : Args} {s : IotcState} {msg : Option Received}
  {r : CoResult}

/-- After a round of the loop the message waits to be written, or the task has ended. -/
theorem publishQ1Send_cs (h : publishQ1Send c t s = some r) : r.task.cs ≠ .fresh := by
  unfold publishQ1Send at h
  split at h
  · cases h
  · split at h <;> obtain rfl := Option.some.inj h
    · exact (by decide : Cs.sent ≠ .fresh)
    · exact (by decide : Cs.reset ≠ .fresh)

theorem publishQ1Sent_cs (h : publishQ1Sent c t s msg = some r) : r.task.cs ≠ .fresh := by
  unfold publishQ1Sent at h
  split at h
  · dsimp only at h
    split at h
    · cases h
    · split at h
      · split at h
        · cases h
        · obtain rfl := Option.some.inj h
          exact (by decide : Cs.answer ≠ .fresh)
        · obtain rfl := Option.some.inj h
          exact (by decide : Cs.reset ≠ .fresh)
      · obtain rfl := Option.some.inj h
        exact (by decide : Cs.answer ≠ .fresh)
  · exact publishQ1Send_cs h

theorem publishQ1Answer_cs (h : publishQ1Answer c t s msg = some r) : r.task.cs ≠ .fresh := by
  unfold publishQ1Answer at h
  split at h
  · split at h
    · cases h
    · exact publishQ1Send_cs h
  · dsimp only at h
    split at h
    · exact publishQ1Send_cs h
    · split at h
      · obtain rfl := Option.some.inj h
        exact (by decide : Cs.reset ≠ .fresh)
      · split at h
        · cases h
        · split at h
          · obtain rfl := Option.some.inj h
            exact (by decide : Cs.reset ≠ .fresh)
          · split at h
            · cases h
            · obtain rfl := Option.some.inj h
              exact (by decide : Cs.exit ≠ .fresh)

/-- Whatever resumes a PUBLISH of QoS 1, it has been started then. -/
theorem doMqttPublishQ1_cs (h : doMqttPublishQ1 c t a = some r) : r.task.cs ≠ .fresh := by
  unfold doMqttPublishQ1 at h
  split at h
  · obtain rfl := Option.some.inj h
    exact (by decide : Cs.reset ≠ .fresh)
  · split at h
    · exact publishQ1Sent_cs h
    · exact publishQ1Answer_cs h
    · split at h
      · cases h
      · exact publishQ1Send_cs h

theorem subscribeSend_cs (h : subscribeSend c t s = some r) (he : r.exit.final = false) :
    r.task.cs ≠ .fresh := by
  unfold subscribeSend at h
  split at h
  · cases h
  · split at h <;> obtain rfl := Option.some.inj h
    · exact (by decide : Cs.sent ≠ .fresh)
    · cases he

theorem subscribeSent_cs (h : subscribeSent c t s msg = some r) (he : r.exit.final = false) :
    r.task.cs ≠ .fresh := by
  unfold subscribeSent at h
  split at h
  · cases h
  · split at h
    · dsimp only at h
      split at h
      · split at h
        · cases h
        · obtain rfl := Option.some.inj h
          exact (by decide : Cs.answer ≠ .fresh)
        · obtain rfl := Option.some.inj h
          cases he
      · obtain rfl := Option.some.inj h
        exact (by decide : Cs.answer ≠ .fresh)
    · split at h
      · cases h
      · obtain rfl := Option.some.inj h
        exact (by decide : Cs.resending ≠ .fresh)
      · obtain rfl := Option.some.inj h
        cases he

theorem subscribeSuback_final (c : Context) (t : Task) (d : SubscribeData) (status : UInt8) :
    (subscribeSuback c t d status).exit.final = true := by
  unfold subscribeSuback
  dsimp only
  split
  · split
    · split <;> rfl
    · rfl
  · rw [if_pos rfl]
    split <;> rfl

theorem subscribeAnswer_cs (h : subscribeAnswer c t s msg = some r) (he : r.exit.final = false) :
    r.task.cs ≠ .fresh := by
  unfold subscribeAnswer at h
  split at h
  · split at h
    · cases h
    · exact subscribeSend_cs h he
  · dsimp only at h
    split at h
    · exact subscribeSend_cs h he
    · split at h
      · obtain rfl := Option.some.inj h
        cases he
      · split at h
        · cases h
        · split at h
          · obtain rfl := Option.some.inj h
            cases he
          · split at h
            · obtain rfl := Option.some.inj h
              rw [subscribeSuback_final] at he
              cases he
            · cases h

/-- A SUBSCRIBE that is kept has been started, if it had been before or the layer has its data. -/
theorem doMqttSubscribe_cs (h : doMqttSubscribe c t a = some r) (he : r.exit.final = false)
    (hcs : t.cs ≠ .fresh ∨ c.layerData = true) : r.task.cs ≠ .fresh := by
  unfold doMqttSubscribe at h
  split at h
  · next hd =>
    obtain rfl := Option.some.inj h
    exact hcs.resolve_right fun hl => by simp [hl] at hd
  · split at h
    · exact subscribeSent_cs h he
    · exact subscribeAnswer_cs h he
    · split at h
      · cases h
      · exact subscribeSend_cs h he
    · exact subscribeSend_cs h he

/-- The coroutine of such a task does not forget that it has been started. -/
theorem execute_cs (ht : t.Acknowledged) (h : execute c t a = some r) (he : r.exit.final = false)
    (hcs : t.cs ≠ .fresh ∨ c.layerData = true) : r.task.cs ≠ .fresh := by
  obtain ⟨hq, hs⟩ := ht
  unfold execute at h
  split at h
  · rcases hs with ⟨d, hs⟩ | ⟨d, hs⟩ <;> simp only [coroutine, hs, hq] at h
    · exact doMqttPublishQ1_cs h
    · exact doMqttSubscribe_cs h he hcs
  · cases h

/-! ## The first run -/

theorem build_mem {fill : Except IotcState Message} {m : Message} (h : c.build fill = (.ok m, c')) :
    c.mem.headD true = true ∧ c'.mem = c.mem.tail ∧ fill = .ok m := by
  unfold Context.build Context.alloc at h
  dsimp only at h
  obtain ⟨hfill, rfl⟩ := Prod.mk.inj h
  split at hfill
  · next hm => exact ⟨hm, rfl, hfill⟩
  · cases hfill

/-- There is memory to hand the message over. -/
theorem sendAndYield_push (t : Task) (m : Message) (h : c.mem.headD true = true) :
    Output.push t.id m ∈ (sendAndYield c t m).context.out := by
  simp only [sendAndYield_eq, Context.pushOnPrev, Context.continueWith, Context.alloc, h,
    if_true, Context.record]
  exact List.mem_append_right _ (List.mem_singleton_self _)

/-- The message of the task can be built: there is a topic, and the payload is not too large. -/
def Task.Fits (t : Task) : Prop :=
  ∀ d, t.scenario = .publish (some d) → d.topic.isSome = true ∧ d.data.length ≤ maxPayloadSize

/-- Enough memory for the first message of the task, once it has been built. -/
def Context.HandsOver (c : Context) (t : Task) : Prop :=
  c.mem.headD true = true → t.Fits → c.mem.tail.headD true = true

/-- **The first run of such a task hands its message over**, or the task ends. -/
theorem execute_push (ht : t.Acknowledged) (hcs : t.cs = .fresh) (hst : c.stopped = false)
    (hmem : c.HandsOver t) (h : execute c t a = some r) (he : r.exit.final = false) :
    ∃ m, Output.push t.id m ∈ r.context.out := by
  obtain ⟨hq, hs⟩ := ht
  unfold execute at h
  split at h
  · rcases hs with ⟨d, hs⟩ | ⟨d, hs⟩ <;> simp only [coroutine, hs, hq] at h
    · unfold doMqttPublishQ1 at h
      rw [if_neg (by simp [hst]), hcs] at h
      dsimp only at h
      split at h
      · cases h
      · unfold publishQ1Send at h
        split at h
        · cases h
        · next d' hd =>
          split at h <;> obtain rfl := Option.some.inj h
          · next m _ hb =>
            obtain ⟨hhead, htail, hfill⟩ := build_mem hb
            refine ⟨m, sendAndYield_push t m (htail ▸ hmem hhead fun d₁ hd₁ => ?_)⟩
            obtain rfl : d' = d₁ := by
              rw [publishData_eq_some.mp hd] at hd₁
              simpa using hd₁
            unfold fillWithPublishData at hfill
            split at hfill
            · cases hfill
            · next hsize =>
              split at hfill
              · cases hfill
              · next htopic => exact ⟨Option.isSome_iff_ne_none.mpr (by simpa using htopic), Nat.not_lt.mp hsize⟩
          · cases he
    · unfold doMqttSubscribe at h
      rw [if_neg (by simp [World.layerData_of_not_stopped hst]), hcs] at h
      dsimp only at h
      unfold subscribeSend at h
      split at h
      · cases h
      · split at h <;> obtain rfl := Option.some.inj h
        · next m _ hb =>
          obtain ⟨hhead, htail, -⟩ := build_mem hb
          refine ⟨m, sendAndYield_push t m (htail ▸ hmem hhead fun d₁ hd₁ => ?_)⟩
          rw [hs] at hd₁
          cases hd₁
        · cases he
  · cases h

end Commands

namespace World

variable {w w' : World} {t u : Task} {p : Place} {r : CoResult} {A : Admission}

/-! ## Every task -/

/-- If the server acknowledges the task, it has been started and a message handed over. -/
def HasStarted (os : List Output) (t : Task) : Prop :=
  t.Acknowledged → t.cs ≠ .fresh ∧ ∃ m, Output.push t.id m ∈ os

/-- What a run of a coroutine does to `cs`. -/
theorem Runs.cs {c : Context} (h : Runs A c t p u r) (ht : t.Acknowledged)
    (he : r.exit.final = false) (hcs : t.cs ≠ .fresh) : r.task.cs ≠ .fresh := by
  cases h with
  | @logic a b _ hl hb h =>
    have ht' : Task.Acknowledged { t with logic := some b } := ht
    exact execute_cs ht' h he (.inl hcs)
  | @timeout timeout _ _ hf h =>
    cases timeout with
    | resume s => exact execute_cs ht h he (.inl hcs)
    | keepalive msg =>
      rcases ht.2 with ⟨d, hs⟩ | ⟨d, hs⟩ <;> cases hf.1.symm.trans hs
    | connect =>
      rcases ht.2 with ⟨d, hs⟩ | ⟨d, hs⟩ <;> cases hf.1.symm.trans hs

theorem hasStarted_rule : TaskRule anything (fun _ => True) HasStarted fun _ _ => True where
  other _ h ht := by
    obtain ⟨hcs, m, hm⟩ := h ht
    exact ⟨hcs, m, List.mem_append_left _ hm⟩
  otherGone _ _ := trivial
  logic l h := h
  start hq _ ht := by
    have := ht.1
    rw [hq.qos] at this
    cases this
  keep {w t u p r} hv hp hr he h ht := by
    have ho := hr.outcome
    have hqos : t.qos = .atLeastOnce := (hr.resumes.qos.symm.trans ho.task.qos.symm).trans ht.1
    have he : r.exit.final = false := he.resolve_right fun hq => by
      rw [hq.2] at hqos
      cases hqos
    have hscenario : r.task.scenario = t.scenario := (ho.scenario he).trans hr.resumes.scenario
    have ht' : t.Acknowledged := ⟨hqos, hscenario ▸ ht.2⟩
    obtain ⟨hcs, m, hm⟩ := h ht'
    obtain ⟨os, hout, -⟩ := hr.out
    refine ⟨hr.cs ht' he hcs, m, ?_⟩
    rw [hout, ho.task.id, hr.resumes.id]
    exact List.mem_append_left _ hm
  finish _ _ _ _ _ := trivial
  free _ := trivial
  refused _ _ := trivial
  queued {os t} _ _ hq _ ht := by
    have := ht.1
    rw [setLogic_qos, hq] at this
    cases this
  answering m _ _ ht := by
    rcases ht.2 with ⟨d, hs⟩ | ⟨d, hs⟩ <;> cases hs

/-! ## The claim about runs -/

/-- **No task is submitted too early**: if the layer takes a PUBLISH of QoS 1 or a SUBSCRIBE, the
connection is open, and there is memory to hand its message over. -/
def SubmitsInTime (w : World) (e : Event × Oracle) : Prop :=
  ∀ q, e.1 = .submit q → (q.task w.nextTask).Acknowledged → w.context.stopped = false →
    w.context.connection.connectionState = .opened ∧
      (w.withOracle e.2).context.HandsOver (q.task w.nextTask)

/-- Every task that waits for the server has been started, and a message of it handed over. -/
def AllStarted (w : World) : Prop :=
  ∀ t ∈ w.q12Tasks, t.qos = .atLeastOnce →
    t.cs ≠ .fresh ∧ ∃ m, Output.push t.id m ∈ w.context.out ∧ t.Sends m

theorem step_hasStarted (h : w.Each HasStarted fun _ _ => True) (hs : w.Sound)
    {e : Event × Oracle} (hin : w.SubmitsInTime e) (hstep : step w e = some w') :
    w'.Each HasStarted fun _ _ => True := by
  refine h.step hasStarted_rule hs (fun _ _ => trivial) (admits_anything w e.1) (fun q he hq hst => ?_) hstep
  by_cases hack : (q.task w.nextTask).Acknowledged
  · obtain ⟨hopened, hmem⟩ := hin q he hack hst
    have hn := Request.task_new w.nextTask q
    have hset : (w.withOracle e.2).tracked (q.task w.nextTask) =
        { q.task w.nextTask with
          logic := some ⟨true, .ok, none⟩, msgId := (w.lastMsgId + 1) % 2 ^ 16 } := by
      rcases hack.2 with ⟨d, hd⟩ | ⟨d, hd⟩ <;>
        simp [tracked, setLogic, hd, hack.1, withOracle, World.withContext]
    refine .inr ⟨hopened, ?_, fun r hr => ⟨fun he' _ => ?_, fun _ => trivial⟩⟩
    · have := congrArg Task.logic hset
      exact fun hno => by simp [tracked, hno] at this
    · rw [hset] at hr
      have ho := execute_outcome hr
      have hack' : Task.Acknowledged { q.task w.nextTask with
          logic := some ⟨true, .ok, none⟩, msgId := (w.lastMsgId + 1) % 2 ^ 16 } := hack
      have hst' : (w.withOracle e.2).context.stopped = false := hst
      refine ⟨execute_cs hack' hr he' (.inr (layerData_of_not_stopped hst')), ?_⟩
      rw [ho.task.id]
      exact execute_push hack' hn.cs hst' hmem hr he'
  · refine .inl fun ht => absurd ?_ hack
    refine ⟨by simpa [tracked] using ht.1, ?_⟩
    have h2 := ht.2
    unfold tracked setLogic at h2
    dsimp only at h2
    split at h2
    · next hex =>
      have := ht.1
      simp [tracked, hex] at this
    · exact h2

/-- **If no task is submitted too early, all tasks have been started.** -/
theorem submitted_started {es : List (Event × Oracle)} (h : Infra.run step {} es = some w)
    (hin : Infra.AllSteps step SubmitsInTime {} es) : w.AllStarted := by
  have hinv := Infra.run_invariant_of
    (P := fun w : World => (w.Each HasStarted fun _ _ => True) ∧ w.Sound)
    (fun w e w' hw hin hstep => ⟨step_hasStarted hw.1 hw.2 hin hstep, step_sound hw.2 hstep⟩)
    ⟨initial_each, initial_sound⟩ hin h
  intro t ht hq
  have htracked := hinv.2.q12 t ht
  have hheld : t ∈ w.held := At.mem_held (p := .q12) ht
  have hack : t.Acknowledged := by
    refine ⟨hq, ?_⟩
    rcases htracked.scenario with ⟨hs | hs, -⟩ | ⟨hs, -⟩
    · obtain ⟨d, hs⟩ := hs
      exact .inl ⟨_, hs⟩
    · obtain ⟨d, hs⟩ := hs
      exact .inr ⟨_, hs⟩
    · exact .inl ⟨_, hs⟩
  obtain ⟨hcs, m, hm⟩ := hinv.1.held t hheld hack
  refine ⟨hcs, m, hm, ?_⟩
  have hlive : t ∈ w.live := mem_live_of_at (p := .q12) ht (by decide)
  exact ((Reachable.sent ⟨es, h⟩) t.id m hm).2 t hlive rfl

/-- A PUBLISH is submitted once the connection is open. -/
theorem submitted_started_publish : ∃ w,
    Infra.run step {} (calls (opening client) ++ calls [publishing]) = some w ∧
      w.q12Tasks.length = 1 ∧ w.AllStarted := by
  obtain ⟨out₁, h₁⟩ := run_opening
  obtain ⟨out₂, h₂⟩ := step_publishing 0 1 1 out₁
  have hrun : Infra.run step {} (calls (opening client) ++ calls [publishing]) =
      some (waiting ((0 + 1) % 2 ^ 16) 1 1 .sent .unset .ok out₂) := by
    rw [Infra.run_append, h₁]
    simp [calls, h₂]
  refine ⟨_, hrun, rfl, submitted_started hrun
    (.append (.of_forall fun w e he => ?_) h₁ (.cons ?_ h₂ trivial))⟩
  · intro q hq
    simp only [calls, opening, List.map_cons, List.map_nil, List.mem_cons, List.not_mem_nil,
      or_false] at he
    rcases he with rfl | rfl | rfl | rfl | rfl <;> cases hq
  · exact fun q hq _ _ => ⟨rfl, fun _ _ => rfl⟩

/-- **A PUBLISH is submitted while the connection is being opened.** Once it is open, and
`iotc_mqtt_logic_layer_post_connect` has run, the coroutine of the task has still not been run,
nothing has been handed over, and no time event will run it. -/
theorem submitted_started_fails : ∃ w,
    Infra.run step {} (calls [.connectTo client, .init .ok, publishing, .connect .ok,
      .written 0 .connect true, .pull (some connack) .ok, .postConnect .ok]) = some w ∧
    w.context.connection.connectionState = .opened ∧
    (∃ t ∈ w.q12Tasks, t.qos = .atLeastOnce ∧ t.cs = .fresh ∧ w.context.timeouts t.id = none ∧
      ∀ m, Output.push t.id m ∉ w.context.out) ∧ ¬w.AllStarted := by
  refine ⟨_, rfl, rfl, ⟨_, List.mem_singleton_self _, rfl, rfl, rfl, fun m hm => ?_⟩, fun h => ?_⟩
  · rcases hm with _ | ⟨_, _ | ⟨_, _ | ⟨_, _ | ⟨_, _ | ⟨_, _ | ⟨_, _ | ⟨_, hm⟩⟩⟩⟩⟩⟩⟩
    cases hm
  · exact (h _ (List.mem_singleton_self _) rfl).1 rfl

end World

end IotDeviceSdk.Mqtt.Logic
