import IotDeviceSdk.Mqtt.Logic.Submitted

/-!
# Messages that no task waits for

The layer hands a message of the server to the task with its id, or to the current task if it has
none, and the coroutine of that task takes it wherever it waits. Not every coroutine can take one at
every place. `World.Survives` says which messages do no harm, and `Sound.receive_isSome` that each
other one ends in a failing assertion or at a `NULL` pointer.

* `messages_survived_iff`: from every reachable state the messages of a sequence are all taken if and
  only if each of them does no harm in the state that it finds.
* `messages_survived_fails` is a PINGRESP that comes while no task runs.
-/

namespace IotDeviceSdk.Mqtt.Logic

open Logic.Context

variable {c : Context} {t : Task} {m : Received}

/-! ## The coroutines -/

/-- The handle `keepalive_event` can be used for a new event: it is free, or there is no memory for
the event anyway. -/
def Context.KeepaliveFree (c : Context) : Prop := c.keepaliveEvent = true → c.mem.headD true = false

/-- **The coroutine of the task can take the message.** That of a PUBLISH of QoS 0 takes none, that of
a SUBSCRIBE none while it waits to send again. -/
def Task.Survives (c : Context) (m : Message) (t : Task) : Prop :=
  match t.scenario with
  | .connect => t.cs = .answer → m.type = .connack → m.returnCode = 0 →
      c.connection.keepaliveTimeout > 0 → c.KeepaliveFree
  | .publish _ => t.qos ≠ .atMostOnce
  | .subscribe _ => t.cs ≠ .resending ∧ (t.cs = .answer → m.type = .suback → m.topics ≠ [])
  | .keepalive => t.cs = .answer → m.type = .pingresp →
      c.connection.connectionState = .opened → c.KeepaliveFree
  | .puback | .shutdown => True

theorem executeKeepaliveIn_isSome : c.executeKeepaliveIn.isSome = true ↔ c.KeepaliveFree := by
  unfold executeKeepaliveIn executeIn KeepaliveFree
  dsimp only [alloc]
  cases hm : c.mem.headD true with
  | false => simp
  | true =>
    cases hk : c.keepaliveEvent with
    | false =>
      simp only [if_true, Bool.false_eq_true, if_false, false_implies, iff_true]
      split <;> rfl
    | true => simp

theorem keepaliveFree_cancelTaskTimeout (c : Context) (id : Nat) :
    (c.cancelTaskTimeout id).KeepaliveFree ↔ c.KeepaliveFree := by
  unfold KeepaliveFree cancelTaskTimeout
  split <;> rfl

theorem publishQ1Send_isSome (hd : t.publishData.isSome = true) (s : IotcState) :
    (publishQ1Send c t s).isSome = true := by
  obtain ⟨d, hd⟩ := Option.isSome_iff_exists.mp hd
  unfold publishQ1Send
  rw [hd]
  dsimp only
  split <;> rfl

theorem subscribeSend_isSome (hd : t.subscribeData.isSome = true) (s : IotcState) :
    (subscribeSend c t s).isSome = true := by
  obtain ⟨d, hd⟩ := Option.isSome_iff_exists.mp hd
  unfold subscribeSend
  rw [hd]
  dsimp only
  split <;> rfl

theorem doMqttPublishQ1_isSome (hst : c.stopped = false) (hd : t.publishData.isSome = true)
    (ht : t.cs = .answer ∨ c.armed t.id = false) :
    (doMqttPublishQ1 c t ⟨true, .ok, some m⟩).isSome = true := by
  unfold doMqttPublishQ1
  rw [hst, if_neg (by decide)]
  split
  · -- a message is taken for a failed write
    unfold publishQ1Sent
    dsimp only
    rw [if_neg (by decide)]
    exact publishQ1Send_isSome hd _
  · obtain ⟨d, hd⟩ := Option.isSome_iff_exists.mp hd
    unfold publishQ1Answer
    dsimp only
    rw [if_neg (by decide), if_neg (by decide), if_neg (by decide)]
    split
    · rfl
    · rw [hd]
      rfl
  · next hanswer =>
    rw [ht.resolve_left hanswer, if_neg (by decide)]
    exact publishQ1Send_isSome hd _

theorem doMqttSubscribe_isSome (hl : c.layerData = true) (hd : t.subscribeData.isSome = true)
    (ht : t.cs = .answer ∨ t.cs = .resending ∨ c.armed t.id = false) :
    (doMqttSubscribe c t ⟨true, .ok, some m⟩).isSome = true ↔
      t.cs ≠ .resending ∧ (t.cs = .answer → m.message.type = .suback → m.message.topics ≠ []) := by
  unfold doMqttSubscribe
  rw [hl, if_neg (by decide)]
  cases hcs : t.cs with
  | sent =>
    have hfree : c.armed t.id = false := by simpa [hcs] using ht
    obtain ⟨s, c', h, -⟩ := executeTaskIn_still (.resume .resend) hfree
    unfold subscribeSent
    simp only [hfree, h, Bool.false_eq_true, if_false, reduceCtorEq, ne_eq, not_false_eq_true,
      false_implies, and_self, iff_true]
    split <;> first | rfl | (next heq => cases heq)
  | answer =>
    obtain ⟨d, hd⟩ := Option.isSome_iff_exists.mp hd
    unfold subscribeAnswer
    simp only [reduceCtorEq, if_false, ne_eq, not_true_eq_false, not_false_eq_true, true_and,
      forall_const]
    by_cases htype : m.message.type = .suback
    · rw [if_neg (not_not.mpr htype)]
      cases htopics : m.message.topics with
      | nil => simp [htype]
      | cons topic topics => simp [htype, hd]
    · rw [if_pos htype]
      simp [htype]
  | resending => simp
  | fresh => simp [subscribeSend_isSome hd]
  | exit => simp [subscribeSend_isSome hd]
  | reset => simp [subscribeSend_isSome hd]

theorem connectAccepted_isSome (s : IotcState) : (connectAccepted c t s).isSome = true ↔
    (c.connection.keepaliveTimeout > 0 → c.KeepaliveFree) := by
  unfold connectAccepted
  dsimp only
  split
  · next hk =>
    rw [← executeKeepaliveIn_isSome, forall_prop_of_true hk]
    split <;> next h => rw [h]; rfl
  · next hk => exact iff_of_true rfl fun h => absurd h hk

theorem doMqttConnect_isSome (hst : c.stopped = false)
    (ht : t.cs = .sent ∨ t.cs = .answer ∨ c.armed t.id = false) :
    (doMqttConnect c t ⟨true, .ok, some m⟩).isSome = true ↔
      (t.cs = .answer → m.message.type = .connack → m.message.returnCode = 0 →
        c.connection.keepaliveTimeout > 0 → c.KeepaliveFree) := by
  unfold doMqttConnect
  rw [hst, if_neg (by decide)]
  split
  · next hcs => simp [hcs]
  · next hcs =>
    rw [forall_prop_of_true hcs]
    unfold connectAnswer
    dsimp only
    split
    · next htype =>
      rw [forall_prop_of_true htype]
      split
      · next hcode =>
        rw [forall_prop_of_true hcode, connectAccepted_isSome]
        have hsame : (c.cancelTaskTimeout t.id).connection = c.connection :=
          World.cancelTaskTimeout_connection c t.id
        change ((c.cancelTaskTimeout t.id).connection.keepaliveTimeout > 0 →
          (c.cancelTaskTimeout t.id).KeepaliveFree) ↔ _
        rw [hsame, keepaliveFree_cancelTaskTimeout]
      · next hcode => exact iff_of_true rfl fun h => absurd h hcode
    · next htype => exact iff_of_true rfl fun h => absurd h htype
  · next hsent hanswer =>
    obtain ⟨r, hr, -⟩ := connectStart_still ((ht.resolve_left hsent).resolve_left hanswer)
    rw [hr]
    exact iff_of_true rfl fun h => absurd h hanswer

theorem doMqttKeepaliveTask_isSome (hl : c.layerData = true)
    (ht : t.cs = .answer ∨ c.armed t.id = false) :
    (doMqttKeepaliveTask c t ⟨true, .ok, some m⟩).isSome = true ↔
      (t.cs = .answer → m.message.type = .pingresp →
        c.connection.connectionState = .opened → c.KeepaliveFree) := by
  unfold doMqttKeepaliveTask
  rw [hl, if_neg (by decide)]
  split
  · next hcs =>
    have hfree : c.armed t.id = false := ht.resolve_left (by rw [hcs]; decide)
    obtain ⟨s, c', h, -⟩ := executeTaskIn_still (.keepalive (some m)) hfree
    refine iff_of_true ?_ fun h => absurd (hcs.symm.trans h) (by decide)
    unfold keepaliveSent
    rw [hfree, if_neg (by decide), h]
    split <;> first | rfl | (next heq => cases heq)
  · next hcs =>
    rw [forall_prop_of_true hcs]
    unfold keepaliveAnswer
    dsimp only
    rw [if_neg (by decide), if_neg (by decide)]
    split
    · next htype => exact iff_of_true rfl fun h => absurd h htype
    · next htype =>
      rw [forall_prop_of_true (not_not.mp htype)]
      have hsame : (c.cancelTaskTimeout t.id).connection = c.connection :=
        World.cancelTaskTimeout_connection c t.id
      rw [hsame]
      split
      · next ho =>
        rw [forall_prop_of_true ho, ← keepaliveFree_cancelTaskTimeout c t.id,
          ← executeKeepaliveIn_isSome]
        split <;> next h => rw [h]; rfl
      · next ho => exact iff_of_true rfl fun h => absurd h ho
  · next hsent hanswer =>
    refine iff_of_true ?_ fun h => absurd h hanswer
    split <;> rfl

theorem doShutdown_isSome (a : Args) : (doShutdown c t a).isSome = true := by
  unfold doShutdown
  split
  · rfl
  · split
    · rfl
    · split <;> rfl

theorem onPublishQ1Recieved_isSome :
    (onPublishQ1Recieved c t ⟨true, .ok, some m⟩).isSome = true := by
  unfold onPublishQ1Recieved
  split
  · rfl
  · split
    · rw [if_neg (by simp)]
      rfl
    · rfl

/-- Where the coroutine of a task with a pending time event waits. -/
theorem Task.Timed.waits (h : t.Timed c) : c.armed t.id = false ∨ t.cs = .answer ∨
    (t.cs = .resending ∧ ∃ d, t.scenario = .subscribe d) ∨ t.cs = .sent ∧ t.scenario = .connect := by
  cases ht : c.timeouts t.id with
  | none => exact .inl (armed_eq_false.mpr ht)
  | some timeout =>
    have hfits := h timeout ht
    cases timeout with
    | resume s =>
      rcases hfits with ⟨-, -, -, hcs⟩ | ⟨hs, ⟨-, hcs⟩ | ⟨-, hcs⟩⟩
      · exact .inr (.inl hcs)
      · exact .inr (.inl hcs)
      · exact .inr (.inr (.inl ⟨hcs, hs⟩))
    | keepalive msg => exact .inr (.inl hfits.2)
    | connect =>
      rcases hfits with ⟨hs, hcs | hcs⟩
      · exact .inr (.inr (.inr ⟨hcs, hs⟩))
      · exact .inr (.inl hcs)

/-- The tasks that a message can be for. -/
def Task.Receiving (t : Task) : Prop :=
  t.qos = .atMostOnce ∧ (t.scenario = .connect ∨ (∃ d, t.scenario = .publish (some d)) ∨
      t.scenario = .keepalive ∨ t.scenario = .shutdown) ∨
    t.qos = .atLeastOnce ∧ ((∃ d, t.scenario = .publish (some d)) ∨
      (∃ d, t.scenario = .subscribe (some d)) ∨ t.scenario = .puback)

theorem Task.Serving.receiving (h : t.Serving) : t.Receiving := .inl ⟨h.qos, h.scenario⟩

theorem Task.Answering.receiving (h : t.Answering) : t.Receiving :=
  .inr ⟨h.qos, .inr (.inr h.scenario)⟩

theorem Task.Tracked.receiving (h : t.Tracked) (hl : t.logic.isSome = true) : t.Receiving := by
  rcases h.scenario with ⟨hd | hd, -, hq⟩ | ⟨-, hnone, -⟩
  · exact .inr ⟨hq, .inl hd⟩
  · exact .inr ⟨hq, .inr (.inl hd)⟩
  · rw [hnone] at hl
    cases hl

/-- **A coroutine that is resumed with a message.** -/
theorem coroutine_isSome (hst : c.stopped = false) (ht : t.Timed c) (hk : t.Receiving) :
    (coroutine t c t ⟨true, .ok, some m⟩).isSome = true ↔ t.Survives c m.message := by
  have hl := World.layerData_of_not_stopped hst
  have hwaits := ht.waits
  unfold Task.Survives
  rcases hk with ⟨hq, hs | ⟨d, hs⟩ | hs | hs⟩ | ⟨hq, ⟨d, hs⟩ | ⟨d, hs⟩ | hs⟩ <;>
    simp only [coroutine, hs, hq, reduceCtorEq, and_false, exists_false, or_false, false_or]
      at hwaits ⊢
  · exact doMqttConnect_isSome hst (by grind)
  · simp [doMqttPublishQ0]
  · exact doMqttKeepaliveTask_isSome hl (by grind)
  · exact iff_of_true (doShutdown_isSome _) trivial
  · exact iff_of_true (doMqttPublishQ1_isSome hst (by simp [Task.publishData, hs]) (by grind))
      (by decide)
  · exact doMqttSubscribe_isSome hl (by simp [Task.subscribeData, hs]) (by grind)
  · exact iff_of_true onPublishQ1Recieved_isSome trivial

namespace World

variable {w w' : World} {u : Task} {p : Place} {r : CoResult}

/-! ## What follows the run -/

/-- The end of the current task starts the next ones. -/
theorem Valid.runNextQ0Task_isSome (hv : w.Valid) (hp : w.At t .current) (hid : r.task.id = t.id)
    (htimeouts : ∀ i, i ≠ t.id → r.context.timeouts i = w.context.timeouts i)
    (hd : r.context.layerData = w.context.layerData) :
    (w.ran .current r).runNextQ0Task.isSome = true := by
  have hc : w.currentQ0Task = some t := hp
  have hdata : (w.ran .current r).context.layerData = true := by
    rw [ran_context, hd]
    by_contra hno
    exact Option.some_ne_none t (hc.symm.trans (hv.noData (Bool.not_eq_true _ ▸ hno)).1)
  have hne {v : Task} (hm : v ∈ w.q0Tasks) : v.id ≠ t.id :=
    hv.ne_of_rest hp (List.mem_append_left _ hm)
  have hunarmed (v : Task) (hm : v ∈ w.q0Tasks) : r.context.timeouts v.id = none :=
    (htimeouts v.id (hne hm)).trans (Queued.unarmed hv hm)
  obtain ⟨w₁, h₁, -⟩ := runQ0Tasks_first (w := w.ran .current r) hv.q0 hv.distinct_q0 hunarmed
    fun v hv' x hx he => by
      obtain rfl := Option.some.inj hv'
      exact hne hx (he.symm.trans hid)
  unfold runNextQ0Task
  rw [if_pos hdata]
  exact Option.isSome_iff_exists.mpr ⟨w₁, h₁⟩

/-- A task without an id that is run is the current one. -/
theorem Valid.place_of_qos (hv : w.Valid) (hp : w.At t p) (hl : p ≠ .leaked)
    (hq : t.qos = .atMostOnce) : p = .current := by
  cases p with
  | current => rfl
  | q12 => exact absurd hq (hv.q12 t hp).qos
  | q12Recv => exact absurd (hq.symm.trans (hv.q12Recv t hp).qos) (by decide)
  | leaked => exact absurd rfl hl

/-- **What follows a run of a coroutine never fails.** -/
theorem Valid.settle_isSome (hv : w.Valid) (hp : w.At t p) (hl : p ≠ .leaked) (hu : t.Resumes u)
    (ho : Outcome w.context u r) : (w.settle p r).isSome = true := by
  have hid : r.task.id = t.id := ho.task.id.trans hu.id
  have hunarmed (he : r.exit.final = true) : (w.ran p r).context.armed r.task.id = false := by
    rw [ran_context, armed_eq_false, hid.trans hu.id.symm]
    exact ho.unarmed (hu.timed (hv.timed t hp.mem_held)) he
  have hfinalize : (finalizeTask r.task p (w.ran p r)).isSome = true := by
    unfold finalizeTask
    split
    · next hq =>
      obtain rfl := hv.place_of_qos hp hl ((ho.task.qos.trans hu.qos).symm.trans hq)
      exact hv.runNextQ0Task_isSome hp hid (fun i hi => ho.context.timeouts i (hu.id ▸ hi))
        ho.context.layerData
    · rfl
  change ((w.ran p r).leave r.task.id (finalizeTask r.task p) r.exit).isSome = true
  unfold leave
  split
  · rfl
  · next he =>
    rw [hunarmed (by rw [he]; rfl), if_neg (by decide), Option.isSome_map]
    exact hfinalize
  · next he =>
    rw [hunarmed (by rw [he]; rfl), if_neg (by decide), Option.isSome_map]
    exact hfinalize

theorem Valid.bind_settle_isSome (hv : w.Valid) (hp : w.At t p) (hl : p ≠ .leaked)
    (hu : t.Resumes u) (a : Args) :
    ((execute w.context u a).bind (w.settle p)).isSome = true ↔
      (execute w.context u a).isSome = true := by
  cases hr : execute w.context u a with
  | none => rfl
  | some r => exact iff_of_true (hv.settle_isSome hp hl hu (execute_outcome hr)) rfl

/-- **A task that is resumed with a message.** -/
theorem Valid.resume_isSome (hv : w.Valid) (hp : w.At t p) (hl : p ≠ .leaked)
    (hst : w.context.stopped = false) (hk : t.logic.isSome = true → t.Receiving) (m : Received) :
    (w.resume p t fun a => { a with state := .ok, message := some m }).isSome = true ↔
      ∀ a ∈ t.logic, a.context = true ∧ t.Survives w.context m.message := by
  unfold World.resume
  cases hlogic : t.logic with
  | none => simp
  | some a =>
    obtain ⟨context, s, old⟩ := a
    have hu : t.Resumes { t with logic := some ⟨context, .ok, some m⟩ } :=
      .set hlogic ⟨fun h => h, fun _ => rfl⟩
    simp only [Option.map_some, Option.mem_some_iff, forall_eq']
    rw [hv.bind_settle_isSome hp hl hu]
    unfold execute
    dsimp only
    cases context with
    | false => simp
    | true =>
      rw [if_pos rfl, eq_self_iff_true, true_and]
      exact coroutine_isSome hst (hu.timed (hv.timed t hp.mem_held)) (hk (by rw [hlogic]; rfl))

theorem Valid.receiving (hv : w.Valid) (hp : w.At t p) (hl : p ≠ .leaked)
    (hlogic : t.logic.isSome = true) : t.Receiving := by
  cases p with
  | current => exact (hv.current t hp).receiving
  | q12 => exact (hv.q12 t hp).receiving hlogic
  | q12Recv => exact (hv.q12Recv t hp).receiving
  | leaked => exact absurd rfl hl

/-! ## A message -/

/-- **A message that does no harm.** A PUBLISH of QoS 1 does none as long as the last one with its id
has been acknowledged, or there is no memory to register it. An answer does none if the task that it
is for can take it, or if it has an id that no task has. -/
def Survives (w : World) (m : Message) : Prop :=
  if m.type = .publish then
    m.qos = 1 → w.context.mem.headD true = true → findTask m.messageId w.q12RecvTasks = none
  else
    match w.answered m with
    | some (_, t) => ∀ a ∈ t.logic, a.context = true ∧ t.Survives w.context m
    | none => 0 < m.getMessageId

theorem Sound.registerPublish_isSome (hs : w.Sound) (hst : w.context.stopped = false) :
    (w.registerPublish m).isSome = true ↔
      (w.context.mem.headD true = true → findTask m.message.messageId w.q12RecvTasks = none) := by
  unfold World.registerPublish
  dsimp only [World.alloc]
  split
  · next hmem =>
    have hmem : w.context.mem.headD true = true := hmem
    rw [forall_prop_of_true hmem]
    split
    · next hfind =>
      have hfind : (findTask m.message.messageId w.q12RecvTasks).isSome = true := hfind
      refine iff_of_false (by simp) fun h => ?_
      rw [h] at hfind
      cases hfind
    · next hfind =>
      have hfind : ¬(findTask m.message.messageId w.q12RecvTasks).isSome = true := hfind
      refine iff_of_true ?_ (Option.not_isSome_iff_eq_none.mp hfind)
      -- the coroutine of the new task is run for the first time
      have hv : (w.alloc.2.register m).Valid :=
        hs.alloc.toValid.registered m (layerData_of_not_stopped hst) rfl
      have hat : (w.alloc.2.register m).At (w.alloc.2.answering m) .q12Recv :=
        List.mem_append_right _ (List.mem_singleton_self _)
      refine (hv.bind_settle_isSome hat (by decide) (.refl _) ⟨true, .ok, some m⟩).mpr ?_
      unfold execute
      rw [if_pos rfl]
      exact onPublishQ1Recieved_isSome (c := (w.alloc.2.register m).context)
        (t := w.alloc.2.answering m)
  · next hmem => exact iff_of_true rfl fun h => absurd h hmem

theorem Sound.pullMessage_isSome (hs : w.Sound) (hst : w.context.stopped = false) :
    (w.pullMessage m).isSome = true ↔ w.Survives m.message := by
  unfold World.pullMessage Survives
  dsimp only
  split
  · next htype =>
    unfold onPublishRecieved
    split
    · next hq =>
      refine iff_of_true ?_ fun h => absurd (hq.symm.trans h) (by decide)
      rw [Option.isSome_map]
      unfold callTopicHandler
      dsimp only
      rw [if_neg fun h => h.1 htype]
      split <;> rfl
    · next hq =>
      rw [forall_prop_of_true hq]
      exact hs.registerPublish_isSome hst
    · next hq => exact iff_of_true rfl fun h => absurd h hq
  · next htype =>
    unfold World.answered
    rw [if_neg htype]
    split
    · next hz =>
      split
      · next hq =>
        rw [hq]
        exact iff_of_true rfl hz
      · next p ts hq =>
        rw [hq, Option.bind_some]
        dsimp only
        split
        · next t ht =>
          rw [ht]
          have hp := queueOf_at hq (findTask_mem ht).1
          have hl : p ≠ .leaked := by rcases queueOf_place hq with rfl | rfl <;> decide
          exact hs.toValid.resume_isSome hp hl hst (hs.toValid.receiving hp hl) m
        · next ht =>
          rw [ht]
          exact iff_of_true rfl hz
    · next hz =>
      split
      · next hc =>
        rw [hc]
        exact iff_of_false (by decide) hz
      · next t hc =>
        have hp : w.At t .current := hc
        obtain ⟨s, m', hlogic⟩ := (hs.current t hc).logic
        rw [hc, if_neg (by simp [hlogic])]
        exact hs.toValid.resume_isSome hp (by decide) hst (hs.toValid.receiving hp (by decide)) m

/-! ## Every sequence of messages -/

/-- The codec layer passes a message up. -/
def receive (w : World) (x : Message × Oracle) : Option World := step w (.pull (some x.1) .ok, x.2)

/-- **Which messages end in a failing assertion or at a `NULL` pointer**, in every sound state. -/
theorem Sound.receive_isSome (hs : w.Sound) (x : Message × Oracle) :
    (w.receive x).isSome = true ↔ (w.context.stopped = false → (w.withOracle x.2).Survives x.1) := by
  have hs₁ : ({ w.withOracle x.2 with nextMessage := w.nextMessage + 1 } : World).Sound :=
    { (hs.withOracle x.2) with }
  change (World.pull { w.withOracle x.2 with nextMessage := w.nextMessage + 1 }
    (some ⟨w.nextMessage, x.1⟩) .ok).isSome = true ↔ _
  unfold World.pull
  split
  · next hst => exact iff_of_true rfl fun h => absurd (hst.symm.trans h) (by decide)
  · next hst =>
    have hst : w.context.stopped = false := Bool.not_eq_true _ ▸ hst
    rw [forall_prop_of_true hst, if_neg (by decide), if_pos rfl]
    exact hs₁.pullMessage_isSome hst

theorem Reachable.receive (hw : w.Reachable) {x : Message × Oracle} (h : w.receive x = some w') :
    w'.Reachable := by
  obtain ⟨es, hes⟩ := hw
  refine ⟨es ++ [(.pull (some x.1) .ok, x.2)], ?_⟩
  rw [Infra.run_concat, hes]
  exact h

/-- **From every reachable state the messages are taken if and only if each of them does no harm** in
the state that it finds. -/
theorem messages_survived_iff (hw : w.Reachable) (ms : List (Message × Oracle)) :
    (Infra.run receive w ms).isSome = true ↔
      Infra.AllSteps receive
        (fun w x => w.context.stopped = false → (w.withOracle x.2).Survives x.1) w ms :=
  Infra.run_isSome_iff.trans (Infra.allSteps_iff (I := Reachable)
    (fun _ _ _ hw _ h => hw.receive h) (fun _ x hw => hw.sound.receive_isSome x) hw)

/-- A PUBACK for a PUBLISH that has not been written yet. -/
theorem messages_survived_iff_puback : ∃ w,
    Infra.run step {} (calls (opening client) ++ calls [publishing]) = some w ∧
      (Infra.run receive w [(puback 1, {})]).isSome = true := by
  obtain ⟨out, h⟩ := run_opening
  obtain ⟨out', h'⟩ := step_publishing 0 1 1 out
  have hrun : Infra.run step {} (calls (opening client) ++ calls [publishing]) =
      some (waiting 1 1 1 .sent .unset .ok out') := by
    rw [Infra.run_append, h]
    exact h'
  refine ⟨_, hrun, (messages_survived_iff ⟨_, hrun⟩ _).mpr ⟨fun _ a ha => ?_, fun _ _ => trivial⟩⟩
  obtain rfl := Option.some.inj ha
  exact ⟨rfl, Qos.noConfusion⟩

/-- A PINGRESP. -/
def pingresp : Message := { commonValue := 0xD0 }

/-- **A PINGRESP that nobody has asked for.** The connection is open and no task runs. -/
theorem messages_survived_fails : ∃ w, Infra.run step {} (calls (opening client)) = some w ∧
    w.context.stopped = false ∧ Infra.run receive w [(pingresp, {})] = none :=
  ⟨_, rfl, rfl, rfl⟩

end World

end IotDeviceSdk.Mqtt.Logic
