import IotDeviceSdk.Mqtt.Logic.MessageIds
import IotDeviceSdk.Mqtt.Logic.Messages
import IotDeviceSdk.Mqtt.Logic.Publish

/-!
# A PUBLISH of QoS 1 from its submission to its end

Beside a run, `Publishes` notes each PUBLISH of QoS 1 that the layer has accepted, and each PUBACK
that has come for one. `do_mqtt_publish_q1` waits at two places and takes any event but `WRITTEN` for
a failed write at the first one, so that a PUBACK which overtakes `WRITTEN` is lost.

* `publishes_acknowledged`: if each PUBACK finds its task waiting for it, the callback of a PUBLISH is
  run at most once, and with `OK` only after a PUBACK; each PUBACK ends its task; and what is sent is
  the same message, with DUP clear the first time and set from then on.
* `publishes_acknowledged_fails` is a run in which a PUBACK is lost.
-/

namespace IotDeviceSdk.Mqtt.Logic

/-- The message, if the task `i` hands it over. -/
def Output.pushOf (i : Nat) : Output → Option Message
  | push task m => if task = i then some m else none
  | _ => none

/-- What the callback of the task `i` is told. -/
def Output.toldOf (i : Nat) : Output → Option IotcState
  | callback task _ s => if task = i then some s else none
  | _ => none

/-- The messages that the task has handed over. -/
def pushes (i : Nat) (os : List Output) : List Message := os.filterMap (Output.pushOf i)

/-- What the callback of the task has been told. -/
def told (i : Nat) (os : List Output) : List IotcState := os.filterMap (Output.toldOf i)

theorem pushes_append (i : Nat) (os os' : List Output) :
    pushes i (os ++ os') = pushes i os ++ pushes i os' := List.filterMap_append

theorem told_append (i : Nat) (os os' : List Output) : told i (os ++ os') = told i os ++ told i os' :=
  List.filterMap_append

theorem pushOf_eq_some {i : Nat} {o : Output} {m : Message} (h : o.pushOf i = some m) :
    o = .push i m := by
  unfold Output.pushOf at h
  split at h
  · split at h
    · next he => exact he ▸ Option.some.inj h ▸ rfl
    · cases h
  · cases h

theorem toldOf_eq_some {i : Nat} {o : Output} {s : IotcState} (h : o.toldOf i = some s) :
    ∃ handle, o = .callback i handle s := by
  unfold Output.toldOf at h
  split at h
  · next handle _ =>
    split at h
    · next he => exact ⟨handle, he ▸ Option.some.inj h ▸ rfl⟩
    · cases h
  · cases h

/-- What does not belong to the task. -/
theorem pushes_eq_nil {i : Nat} {os : List Output} (h : ∀ o ∈ os, ¬o.About i) : pushes i os = [] := by
  refine List.filterMap_eq_nil_iff.mpr fun o hm => ?_
  cases ho : o.pushOf i with
  | none => rfl
  | some m => exact absurd rfl (pushOf_eq_some ho ▸ h o hm)

theorem told_eq_nil {i : Nat} {os : List Output} (h : ∀ o ∈ os, ¬o.About i) : told i os = [] := by
  refine List.filterMap_eq_nil_iff.mpr fun o hm => ?_
  cases ho : o.toldOf i with
  | none => rfl
  | some s =>
    obtain ⟨handle, rfl⟩ := toldOf_eq_some ho
    exact absurd rfl (h _ hm)

theorem pushes_freeMessages (i : Nat) (ms : List Received) : pushes i (ms.map .freeMessage) = [] :=
  pushes_eq_nil fun o hm => by
    obtain ⟨m, -, rfl⟩ := List.mem_map.mp hm
    exact id

theorem told_freeMessages (i : Nat) (ms : List Received) : told i (ms.map .freeMessage) = [] :=
  told_eq_nil fun o hm => by
    obtain ⟨m, -, rfl⟩ := List.mem_map.mp hm
    exact id

/-- One call of the callback at most. -/
theorem told_callbackEvent (c : Context) (t : Task) (s : IotcState) :
    told t.id (c.callbackEvent t s) = [] ∨ told t.id (c.callbackEvent t s) = [s] := by
  unfold Context.callbackEvent
  split
  · split
    · exact .inr (by simp [told, Output.toldOf])
    · exact .inl rfl
  · exact .inl rfl

theorem told_callbackEvent_of_queued {c : Context} {t : Task} {s : IotcState}
    (hcallback : t.callback.isSome = true) (hqueued : c.callbacks.headD true = true) :
    told t.id (c.callbackEvent t s) = [s] := by
  obtain ⟨handle, hhandle⟩ := Option.isSome_iff_exists.mp hcallback
  unfold Context.callbackEvent
  rw [hhandle]
  dsimp only
  rw [if_pos hqueued]
  simp [told, Output.toldOf]

theorem pushes_callbackEvent (i : Nat) (c : Context) (t : Task) (s : IotcState) :
    pushes i (c.callbackEvent t s) = [] := by
  unfold Context.callbackEvent
  split
  · split <;> rfl
  · rfl

/-- No message is consumed by it. -/
theorem consumed_callbackEvent (c : Context) (t : Task) (s : IotcState) :
    (c.callbackEvent t s).filterMap Output.consumed = [] := by
  unfold Context.callbackEvent
  split
  · split <;> rfl
  · rfl

namespace World

variable {w w' : World} {t u p : Task} {d : PublishData} {os : List Output} {ks : List Ack}

/-! ## What holds of one PUBLISH -/

/-- **The messages of a PUBLISH**: those of the attempts to send it for which there was memory. DUP is
clear in the first attempt and set in each later one. -/
def Attempts (d : PublishData) (msgId : Nat) (ms : List Message) : Prop :=
  ∃ n, ms.Sublist (d.message msgId false :: List.replicate n (d.message msgId true))

theorem Attempts.again {ms : List Message} {msgId : Nat} (h : Attempts d msgId ms) :
    Attempts d msgId (ms ++ [d.message msgId true]) := by
  obtain ⟨n, h⟩ := h
  refine ⟨n + 1, ?_⟩
  rw [List.replicate_succ', ← List.cons_append]
  exact h.append (.refl _)

/-- A PUBLISH of QoS 1, with its data. -/
def IsPublishQ1 (t : Task) : Prop := t.qos = .atLeastOnce ∧ t.publishData.isSome = true

instance (t : Task) : Decidable (IsPublishQ1 t) := inferInstanceAs (Decidable (_ ∧ _))

theorem isPublishQ1_iff : IsPublishQ1 t ↔
    t.qos = .atLeastOnce ∧ ∃ d, t.scenario = .publish (some d) := by
  unfold IsPublishQ1
  rw [Option.isSome_iff_exists]
  simp only [publishData_eq_some]

/-- A PUBACK that has come for the PUBLISH `task`, as it was then, and whether there was memory for
the event of its callback. -/
structure Ack where
  task : Task
  message : Received
  queued : Bool

/-- A PUBACK for the task is noted. -/
def Acked (ks : List Ack) (i msgId : Nat) : Prop := ∃ k ∈ ks, k.task.id = i ∧
  k.message.message.type = .puback ∧ k.message.message.messageId = msgId

/-- **In time**: a PUBLISH whose coroutine has been reset is not notified, nor answered, and a PUBACK
finds it waiting for the answer. -/
def inTime (ks : List Ack) : Admission where
  resumed t _ a := IsPublishQ1 t → t.cs ≠ .reset ∧
    (a.state = .ok → ∀ m, a.message = some m → m.message.type = .puback →
      t.cs = .answer ∧ ∃ k ∈ ks, k.task.id = t.id ∧ k.message = m)
  received _ := True
  fired _ := True
  stops := True

/-- The task `t` is the PUBLISH `p`, and waits. -/
structure Pending (p : Task) (d : PublishData) (os : List Output) (t : Task) : Prop where
  scenario : t.scenario = .publish (some d)
  qos : t.qos = .atLeastOnce
  msgId : t.msgId = p.msgId
  callback : t.callback = p.callback
  told : Logic.told p.id os = []
  sends : Attempts d p.msgId (pushes p.id os)
  fresh : t.cs = .fresh → pushes p.id os = [] ∧ t.sessionState ≠ .store
  waits : t.cs = .fresh ∨ t.cs = .sent ∨ t.cs = .answer ∨ t.cs = .reset

/-- The PUBLISH `p` has ended. -/
structure Settles (ks : List Ack) (p : Task) (d : PublishData) (os : List Output) : Prop where
  once : (Logic.told p.id os).length ≤ 1
  acknowledged : .ok ∈ Logic.told p.id os → Acked ks p.id p.msgId
  sends : Attempts d p.msgId (pushes p.id os)

theorem Pending.isPublishQ1 (h : Pending p d os t) : IsPublishQ1 t :=
  isPublishQ1_iff.mpr ⟨h.qos, d, h.scenario⟩

theorem Pending.settles (h : Pending p d os t) : Settles ks p d os where
  once := by simp [h.told]
  acknowledged hok := by simp [h.told] at hok
  sends := h.sends

theorem Settles.append {os' : List Output} (h : Settles ks p d os) (hos : ∀ o ∈ os', ¬o.About p.id) :
    Settles ks p d (os ++ os') where
  once := by
    rw [told_append, told_eq_nil hos, List.append_nil]
    exact h.once
  acknowledged hok := by
    rw [told_append, told_eq_nil hos, List.append_nil] at hok
    exact h.acknowledged hok
  sends := by
    rw [pushes_append, pushes_eq_nil hos, List.append_nil]
    exact h.sends

theorem Settles.mono {ks' : List Ack} (h : Settles ks p d os) (hks : ∀ k ∈ ks, k ∈ ks') :
    Settles ks' p d os where
  once := h.once
  acknowledged hok := by
    obtain ⟨k, hk, hid⟩ := h.acknowledged hok
    exact ⟨k, hks k hk, hid⟩
  sends := h.sends

theorem Pending.append {os' : List Output} (h : Pending p d os t) (hos : ∀ o ∈ os', ¬o.About p.id) :
    Pending p d (os ++ os') t :=
  { h with
    told := by rw [told_append, told_eq_nil hos, h.told, List.append_nil]
    sends := by
      rw [pushes_append, pushes_eq_nil hos, List.append_nil]
      exact h.sends
    fresh := by
      rw [pushes_append, pushes_eq_nil hos, List.append_nil]
      exact h.fresh }

/-- A PUBLISH of QoS 1 is in `q12Tasks`, or leaked. -/
theorem Valid.publish_place {pl : Place} (hv : w.Valid) (hp : w.At t pl) (ht : IsPublishQ1 t) :
    pl = .q12 ∨ pl = .leaked := by
  obtain ⟨hq, d, hs⟩ := isPublishQ1_iff.mp ht
  cases pl with
  | current => exact absurd (hq.symm.trans (hv.current t hp).qos) (by decide)
  | q12 => exact .inl rfl
  | q12Recv => cases hs.symm.trans (hv.q12Recv t hp).scenario
  | leaked => exact .inr rfl

/-- **How the coroutine of a pending PUBLISH is run.** It has been run before, or is to resend, unless
it is fresh; and a PUBACK that it is resumed with has its id. -/
theorem Pending.run {c : Context} {pl : Place} {r : CoResult} (h : Pending p d os t)
    (hpl : pl = .q12 ∨ pl = .leaked) (hr : Runs (inTime ks) c t pl u r) :
    ∃ a, PublishQ1Run c u d a r ∧ (Resends u a ∨ t.cs = .fresh) ∧
      (a.state = .ok → ∀ m, a.message = some m → m.message.type = .puback →
        Acked ks t.id p.msgId) := by
  have hs := hr.resumes.scenario.trans h.scenario
  have hq := hr.resumes.qos.trans h.qos
  have hcs := hr.resumes.cs
  have hpublish := h.isPublishQ1
  have hresends (a : Args) (hreset : t.cs ≠ .reset) : Resends u a ∨ t.cs = .fresh := by
    rcases h.waits with hc | hc | hc | hc
    · exact .inr hc
    · exact .inl (.inl (hcs.trans hc))
    · exact .inl (.inr (.inl (hcs.trans hc)))
    · exact absurd hc hreset
  have hplace : pl ≠ .q12Recv ∧ pl ≠ .current := by
    rcases hpl with rfl | rfl <;> decide
  cases hr with
  | @logic a b _ hl hb hexec =>
    refine ⟨b, execute_publishQ1 hs hq hexec, ?_⟩
    cases hb with
    | started _ hf => exact ⟨.inr hf, fun _ m hm => by cases hm⟩
    | registered m hm hf => exact absurd rfl hplace.1
    | written _ a hw hA =>
      refine ⟨hresends _ (hA hpublish).1, fun hok => ?_⟩
      rcases hw with rfl | rfl <;> cases hok
    | answered a m hp hid hA =>
      refine ⟨hresends _ (hA hpublish).1, fun _ m' hm' htype => ?_⟩
      obtain rfl := Option.some.inj hm'
      obtain ⟨-, k, hk, hkid, rfl⟩ := (hA hpublish).2 rfl m hm' htype
      have hget : k.message.message.getMessageId = k.message.message.messageId := by
        simp only [Message.getMessageId, htype]
      exact ⟨k, hk, hkid, htype, (hget.symm.trans hid).trans h.msgId⟩
    | unnumbered a m hid hA => exact absurd rfl hplace.2
    | resent a hstore => exact ⟨.inl (.inr (.inr rfl)), fun hok => by cases hok⟩
    | stopped a _ => exact absurd rfl hplace.2
  | @timeout timeout _ hA hf hexec =>
    cases timeout with
    | resume s =>
      refine ⟨⟨true, s, none⟩, execute_publishQ1 hs hq hexec, ?_, fun _ m hm => by cases hm⟩
      rcases hf with ⟨-, -, -, hanswer⟩ | ⟨⟨d', hsubscribe⟩, -⟩
      · exact .inl (.inr (.inl hanswer))
      · cases h.scenario.symm.trans hsubscribe
    | keepalive msg => cases h.scenario.symm.trans hf.1
    | connect => cases h.scenario.symm.trans hf.1

/-- A run that keeps the task. -/
theorem Pending.keep {c : Context} {pl : Place} {r : CoResult} (h : Pending p d c.out t)
    (hid : t.id = p.id) (hpl : pl = .q12 ∨ pl = .leaked) (hr : Runs (inTime ks) c t pl u r)
    (he : r.exit.final = false) : Pending p d r.context.out r.task := by
  have ho := hr.outcome
  have hu := hr.resumes
  have huid : u.id = p.id := hu.id.trans hid
  obtain ⟨a, hrun, hfirst, -⟩ := h.run hpl hr
  have hsame (htold : Logic.told p.id r.context.out = [])
      (hsends : Attempts d p.msgId (pushes p.id r.context.out))
      (hcs : r.task.cs = .sent ∨ r.task.cs = .answer ∨ r.task.cs = .reset) :
      Pending p d r.context.out r.task :=
    { scenario := ((ho.scenario he).trans hu.scenario).trans h.scenario
      qos := (ho.task.qos.trans hu.qos).trans h.qos
      msgId := (ho.task.msgId.trans hu.msgId).trans h.msgId
      callback := (ho.task.callback.trans hu.callback).trans h.callback
      told := htold
      sends := hsends
      fresh := fun hf => by rcases hcs with hcs | hcs | hcs <;> rw [hcs] at hf <;> cases hf
      waits := .inr hcs }
  cases hrun with
  | stopped _ _ hcs _ hout =>
    refine hsame ?_ ?_ (.inr (.inr hcs)) <;> rw [hout]
    · rw [told_append, h.told, told_freeMessages]
      rfl
    · rw [pushes_append, pushes_freeMessages, List.append_nil]
      exact h.sends
  | sends dup _ hdup _ hcs _ hos hout =>
    have hpush : pushes p.id r.context.out = pushes p.id c.out ∨
        pushes p.id r.context.out = pushes p.id c.out ++ [d.message p.msgId dup] := by
      rw [hout, pushes_append, ← huid]
      rcases hos with rfl | rfl
      · exact .inl (List.append_nil _)
      · exact .inr (by simp [pushes, Output.pushOf, hu.msgId, h.msgId])
    refine hsame ?_ ?_ (.inl hcs)
    · rw [hout, told_append, h.told]
      rcases hos with rfl | rfl <;> rfl
    · rcases hpush with hpush | hpush <;> rw [hpush]
      · exact h.sends
      · rcases hfirst with hresends | hfresh
        · rw [hdup.mpr hresends]
          exact h.sends.again
        · -- the first attempt, or a fresh task that is to resend
          rw [(h.fresh hfresh).1]
          cases dup with
          | false => exact ⟨0, .refl _⟩
          | true => exact ⟨1, .cons _ (.refl _)⟩
  | waits _ _ _ _ hcs _ hout =>
    refine hsame ?_ ?_ (.inr (.inl hcs)) <;> rw [hout]
    · exact h.told
    · exact h.sends
  | fails _ _ he' _ => cases he.symm.trans he'
  | acknowledged _ _ _ _ _ he' _ => cases he.symm.trans he'

/-- A run that ends the task. -/
theorem Pending.finish {c : Context} {pl : Place} {r : CoResult} (h : Pending p d c.out t)
    (hid : t.id = p.id) (hpl : pl = .q12 ∨ pl = .leaked) (hr : Runs (inTime ks) c t pl u r)
    (he : r.exit.final = true) : Settles ks p d r.context.out := by
  have huid : u.id = p.id := hr.resumes.id.trans hid
  obtain ⟨a, hrun, -, hpuback⟩ := h.run hpl hr
  cases hrun with
  | stopped _ he' _ _ _ => cases he.symm.trans he'
  | sends _ _ _ he' _ _ _ _ => cases he.symm.trans he'
  | waits _ _ _ he' _ _ _ => cases he.symm.trans he'
  | @fails s ms _ hs _ hout =>
    have htold : Logic.told p.id r.context.out = Logic.told u.id (c.callbackEvent u s) := by
      rw [hout, told_append, told_append, h.told, told_freeMessages, ← huid]
      simp
    have hpushes : pushes p.id r.context.out = pushes p.id c.out := by
      rw [hout, pushes_append, pushes_append, pushes_callbackEvent, pushes_freeMessages]
      simp
    refine ⟨?_, fun hok => ?_, hpushes ▸ h.sends⟩ <;> rcases told_callbackEvent c u s with hc | hc
    · simp [htold, hc]
    · simp [htold, hc]
    · simp [htold, hc] at hok
    · rw [htold, hc, List.mem_singleton] at hok
      exact absurd hok.symm hs
  | @acknowledged m _ _ hs hm htype _ hout =>
    have htold : Logic.told p.id r.context.out = Logic.told u.id (c.callbackEvent u .ok) := by
      have hfree : Logic.told p.id [.freeMessage m] = [] := rfl
      rw [hout, told_append, told_append, h.told, hfree, ← huid]
      simp
    have hpushes : pushes p.id r.context.out = pushes p.id c.out := by
      have hfree : pushes p.id [.freeMessage m] = [] := rfl
      rw [hout, pushes_append, pushes_append, pushes_callbackEvent, hfree]
      simp
    refine ⟨?_, fun _ => hid ▸ hpuback hs m hm htype, hpushes ▸ h.sends⟩
    rcases told_callbackEvent c u .ok with hc | hc <;> simp [htold, hc]

/-- The task of the PUBLISH `p` waits, or has ended. -/
theorem publish_rule (ks : List Ack) (p : Task) (d : PublishData) :
    TaskRule (inTime ks) (· ≠ p.id) (fun os t => t.id = p.id → Pending p d os t)
      fun os i => i = p.id → Settles ks p d os where
  other hos h hid := (h hid).append (hid ▸ hos)
  otherGone hos h hid := (h hid).append (hid ▸ hos)
  logic l h hid := { h hid with }
  start {os t} hq h hid := by
    have := (h hid).qos
    rw [hq.qos] at this
    cases this
  keep {w t u pl r} hv hp hr he h hid := by
    have hid' : t.id = p.id := (hr.resumes.id.symm.trans hr.outcome.task.id.symm).trans hid
    have hpending := h hid'
    have he : r.exit.final = false := he.resolve_right fun hq => by
      have := hpending.qos
      rw [hq.2] at this
      cases this
    exact hpending.keep hid' (hv.publish_place hp hpending.isPublishQ1) hr he
  finish {w t u pl r} hv hp hr he h hid :=
    (h hid).finish hid (hv.publish_place hp (h hid).isPublishQ1) hr he
  free h hid := (h hid).settles
  refused hne _ hid := absurd hid hne
  queued hne _ _ _ hid := absurd ((setLogic_id _).symm.trans hid) hne
  answering m hne _ hid := absurd hid hne

/-! ## A PUBACK that comes in time -/

/-- The layer resumes the task that the message answers. -/
theorem pull_answered {m : Received} {pl : Place} (hst : w.context.stopped = false)
    (ha : w.answered m.message = some (pl, t)) (h : w.pull (some m) .ok = some w') :
    w.resume pl t (fun a => { a with state := .ok, message := some m }) = some w' := by
  unfold World.pull pullMessage at h
  unfold answered at ha
  simp only [hst, Bool.false_eq_true, if_false, show IotcState.isTerminal .ok = false from rfl,
    if_true] at h
  split at ha
  · cases ha
  · next htype =>
    rw [if_neg htype] at h
    split at ha
    · next hid =>
      rw [if_pos hid] at h
      obtain ⟨⟨p, ts⟩, hq, ha⟩ := Option.bind_eq_some_iff.mp ha
      obtain ⟨v, hfind, ha⟩ := Option.map_eq_some_iff.mp ha
      obtain ⟨rfl, rfl⟩ := Prod.mk.inj ha
      simpa only [hq, hfind] using h
    · next hid =>
      rw [if_neg hid] at h
      obtain ⟨v, hc, ha⟩ := Option.map_eq_some_iff.mp ha
      obtain ⟨rfl, rfl⟩ := Prod.mk.inj ha
      simp only [hc] at h
      split at h
      · cases h
      · exact h

/-- A task that is answered is where it is looked for. -/
theorem answered_at {m : Message} {pl : Place} (ha : w.answered m = some (pl, t)) :
    w.At t pl ∧ pl ≠ .leaked := by
  unfold answered at ha
  split at ha
  · cases ha
  · split at ha
    · obtain ⟨⟨p, ts⟩, hq, ha⟩ := Option.bind_eq_some_iff.mp ha
      obtain ⟨v, hfind, ha⟩ := Option.map_eq_some_iff.mp ha
      obtain ⟨rfl, rfl⟩ := Prod.mk.inj ha
      refine ⟨queueOf_at hq (findTask_mem hfind).1, ?_⟩
      rcases queueOf_place hq with rfl | rfl <;> exact fun hp => by cases hp
    · obtain ⟨v, hc, ha⟩ := Option.map_eq_some_iff.mp ha
      obtain ⟨rfl, rfl⟩ := Prod.mk.inj ha
      exact ⟨hc, by decide⟩

/-- What is left when a task with an id has ended. -/
theorem Settled.ended {pl : Place} {r : CoResult} (h : Settled w pl r w') (hp : pl ≠ .current)
    (hq : r.task.qos ≠ .atMostOnce) (hid : r.task.id = t.id) (he : r.exit.final = true) :
    w'.held = (w.finished t pl r.context).held ∧ w'.nextTask = w.nextTask ∧
      w'.context.timeouts = r.context.timeouts ∧
      ∃ os, w'.context.out = r.context.out ++ .freeTask t.id :: os ∧ ∀ o ∈ os, o = .writeFreed t.id := by
  induction h with
  | keep s he' => cases he.symm.trans he'
  | drop s _ _ _ =>
    rw [ran_drop hp hid]
    exact ⟨rfl, by cases pl <;> rfl, rfl, [], rfl, fun o ho => by cases ho⟩
  | next s _ hq' _ _ _ => exact absurd hq' hq
  | reset s _ _ ih =>
    obtain ⟨hheld, hnext, htimeouts, os, hout, hos⟩ := ih
    refine ⟨hheld, hnext, htimeouts, os ++ [.writeFreed t.id], ?_, fun o ho => ?_⟩
    · simp [record, returns, World.withContext, Context.record, hout, hid]
    · rcases List.mem_append.mp ho with ho | ho
      · exact hos o ho
      · exact List.mem_singleton.mp ho

/-- What a PUBACK leaves that has found its task waiting for it. -/
structure Acknowledges (w : World) (k : Ack) (w' : World) : Prop where
  gone : ∀ t ∈ w'.held, t.id ≠ k.task.id
  freed : .freeMessage k.message ∈ w'.context.out
  told : Logic.told k.task.id w.context.out = [] → k.task.callback.isSome = true → k.queued = true →
    Logic.told k.task.id w'.context.out = [.ok]
  unheld : w.Unheld k.message.object 0 → w'.Unheld k.message.object 1

/-- **A PUBACK that comes in time ends its task.** -/
theorem step_acknowledges (hs : w.Sound) {m : Message} {o : Oracle} {pl : Place}
    (hst : w.context.stopped = false) (ha : w.answered m = some (pl, t)) (ht : IsPublishQ1 t)
    (htype : m.type = .puback) (hcs : t.cs = .answer) (h : step w (.pull (some m) .ok, o) = some w') :
    w.Acknowledges ⟨t, ⟨w.nextMessage, m⟩, o.callbacks.headD true⟩ w' := by
  obtain ⟨hat, hleaked⟩ := answered_at ha
  obtain rfl := (hs.publish_place hat ht).resolve_right hleaked
  obtain ⟨hqos, d, hscenario⟩ := isPublishQ1_iff.mp ht
  have hresume := pull_answered (w := { w.withOracle o with nextMessage := w.nextMessage + 1 })
    (m := ⟨w.nextMessage, m⟩) hst ha h
  have hv : ({ w.withOracle o with nextMessage := w.nextMessage + 1 } : World).Valid :=
    { (hs.withOracle o).toValid with }
  rcases resume_cases hv.q0 hresume with ⟨hl, -⟩ | ⟨a, r, hl, hr, hsettled⟩
  · rcases (hs.q12 t hat).scenario with ⟨-, hlogic, -⟩ | ⟨hnone, -, -⟩
    · simp [hl] at hlogic
    · cases hscenario.symm.trans hnone
  have ho := execute_outcome hr
  have hst' : (w.withOracle o).context.stopped = false := hst
  obtain ⟨he, hout⟩ := execute_puback (a := ⟨a.context, .ok, some ⟨w.nextMessage, m⟩⟩)
    (t := { t with logic := some ⟨a.context, .ok, some ⟨w.nextMessage, m⟩⟩ }) hst' hscenario hqos hcs
    rfl rfl htype hr
  have hq : r.task.qos ≠ .atMostOnce := by
    rw [ho.task.qos]
    exact fun hq => by cases hqos.symm.trans hq
  obtain ⟨hheld, -, htimeouts, os, hout', hos⟩ := hsettled.ended (by decide) hq ho.task.id he
  have hmem (u : Task) (hu : u ∈ w'.held) : u ∈ w.held ∧ u.id ≠ t.id :=
    (hv.mem_finished_held (p := .q12) hat).mp (hheld ▸ hu)
  have habout : told t.id (.freeTask t.id :: os) = [] := told_eq_nil fun o ho' => by
    rcases List.mem_cons.mp ho' with rfl | ho'
    · exact id
    · rw [hos o ho']
      exact id
  refine ⟨fun u hu => (hmem u hu).2, ?_, fun hnone hcallback hqueued => ?_, fun hu => ⟨?_, ?_, ?_⟩⟩
  · rw [hout', hout]
    exact List.mem_append_left _ (List.mem_append_right _ (List.mem_singleton_self _))
  · have hevent := told_callbackEvent_of_queued (c := (w.withOracle o).context) (s := .ok)
      (t := { t with logic := some ⟨a.context, .ok, some ⟨w.nextMessage, m⟩⟩ }) hcallback hqueued
    have hbefore : told t.id (w.withOracle o).context.out = [] := hnone
    rw [hout', hout, told_append, habout, List.append_nil, told_append, told_append]
    exact (congrArg₂ _ (congrArg₂ _ hbefore hevent) rfl).trans rfl
  · intro u hu' a ha'
    exact hu.tasks u (hmem u hu').1 a ha'
  · intro i timeout hi
    rw [htimeouts] at hi
    by_cases hit : i = t.id
    · subst hit
      have := ho.unarmed (hv.timed t hat.mem_held) he
      rw [show r.context.timeouts t.id = none from this] at hi
      cases hi
    · rw [ho.context.timeouts i hit] at hi
      exact hu.pending i timeout hi
  · have hos : (Output.freeTask t.id :: os).filterMap Output.consumed = [] := by
      refine List.filterMap_eq_nil_iff.mpr fun o ho' => ?_
      rcases List.mem_cons.mp ho' with rfl | ho'
      · rfl
      · rw [hos o ho']
        rfl
    rw [Context.consumptions, hout', hout, List.filterMap_append, hos, List.append_nil,
      List.filterMap_append, List.filterMap_append, consumed_callbackEvent, List.append_nil,
      List.countP_append]
    have hzero : ((w.context.out.filterMap Output.consumed).countP
      fun m' => m'.object = w.nextMessage) = 0 := hu.consumed
    change ((w.context.out.filterMap Output.consumed).countP _) + _ = 1
    rw [hzero]
    simp [Output.consumed]

/-! ## Beside a run -/

/-- The PUBLISHes of QoS 1 that the layer has accepted, and the PUBACKs that have come for them. -/
structure Publishes where
  accepted : List Task := []
  acks : List Ack := []

/-- What a call adds. -/
def Publishes.observe (w : World) (e : Event × Oracle) (_ : World) (P : Publishes) : Publishes :=
  match e.1 with
  | .submit q =>
    if w.context.stopped = false ∧ IsPublishQ1 (w.tracked (q.task w.nextTask)) then
      { P with accepted := P.accepted ++ [w.tracked (q.task w.nextTask)] }
    else P
  | .pull (some m) .ok =>
    match w.answered m with
    | some (_, t) =>
      if w.context.stopped = false ∧ m.type = .puback ∧ IsPublishQ1 t then
        { P with acks := P.acks ++ [⟨t, ⟨w.nextMessage, m⟩, e.2.callbacks.headD true⟩] }
      else P
    | none => P
  | _ => P

/-- The call resumes the task with a notification or a message. -/
def Reaches (w : World) (t : Task) : Event → Prop
  | .written msgId type _ => ∃ p, w.notified msgId type = some (p, t)
  | .pull (some m) .ok => ∃ p, w.answered m = some (p, t)
  | _ => False

/-- A PUBACK is received. -/
def Event.IsPuback : Event → Prop
  | .pull (some m) .ok => m.type = .puback
  | _ => False

/-- **No PUBLISH is resumed too early**: a PUBACK finds it waiting for the answer, and nothing finds
its coroutine reset. -/
def AcksInTime (w : World) (e : Event × Oracle) : Prop :=
  w.context.stopped = false → ∀ t, w.Reaches t e.1 → IsPublishQ1 t →
    t.cs ≠ .reset ∧ (e.1.IsPuback → t.cs = .answer)

/-- **What the claim says of the PUBLISHes.** -/
structure Publishes.Hold (P : Publishes) (w : World) : Prop where
  once : ∀ p ∈ P.accepted, (told p.id w.context.out).length ≤ 1
  acknowledged : ∀ p ∈ P.accepted, .ok ∈ told p.id w.context.out → Acked P.acks p.id p.msgId
  ended : ∀ k ∈ P.acks, ∀ t ∈ w.held, t.id ≠ k.task.id
  answered : ∀ k ∈ P.acks, k.task.callback.isSome = true → k.queued = true →
    told k.task.id w.context.out = [.ok]
  freed : ∀ k ∈ P.acks, w.context.out.count (.freeMessage k.message) = 1
  sends : ∀ p ∈ P.accepted, ∀ d, p.publishData = some d →
    Attempts d p.msgId (pushes p.id w.context.out)

variable {P P' : Publishes} {k : Ack} {e : Event × Oracle}

theorem Publishes.observe_accepted (w w' : World) (e : Event × Oracle) (P : Publishes) {p : Task}
    (hp : p ∈ (P.observe w e w').accepted) : p ∈ P.accepted ∨
      ∃ q, e.1 = .submit q ∧ w.context.stopped = false ∧ p = w.tracked (q.task w.nextTask) ∧
        IsPublishQ1 p := by
  unfold Publishes.observe at hp
  split at hp
  · next q he =>
    split at hp
    · next hc =>
      rcases List.mem_append.mp hp with hp | hp
      · exact .inl hp
      · obtain rfl := List.mem_singleton.mp hp
        exact .inr ⟨q, he, hc.1, rfl, hc.2⟩
    · exact .inl hp
  · split at hp
    · split at hp <;> exact .inl hp
    · exact .inl hp
  · exact .inl hp

theorem Publishes.observe_acks (w w' : World) (e : Event × Oracle) (P : Publishes) {k : Ack}
    (hk : k ∈ (P.observe w e w').acks) : k ∈ P.acks ∨
      ∃ m pl t, e.1 = .pull (some m) .ok ∧ w.answered m = some (pl, t) ∧ w.context.stopped = false ∧
        m.type = .puback ∧ IsPublishQ1 t ∧
        k = ⟨t, ⟨w.nextMessage, m⟩, e.2.callbacks.headD true⟩ := by
  unfold Publishes.observe at hk
  split at hk
  · split at hk <;> exact .inl hk
  · next m he =>
    split at hk
    · next pl t ha =>
      split at hk
      · next hc =>
        rcases List.mem_append.mp hk with hk | hk
        · exact .inl hk
        · exact .inr ⟨m, pl, t, he, ha, hc.1, hc.2.1, hc.2.2, List.mem_singleton.mp hk⟩
      · exact .inl hk
    · exact .inl hk
  · exact .inl hk

/-- Nothing is forgotten. -/
theorem Publishes.subset_observe (w w' : World) (e : Event × Oracle) (P : Publishes) :
    (∀ p ∈ P.accepted, p ∈ (P.observe w e w').accepted) ∧
      ∀ k ∈ P.acks, k ∈ (P.observe w e w').acks := by
  unfold Publishes.observe
  split
  · split
    · exact ⟨fun p hp => List.mem_append_left _ hp, fun k hk => hk⟩
    · exact ⟨fun p hp => hp, fun k hk => hk⟩
  · split
    · split
      · exact ⟨fun p hp => hp, fun k hk => List.mem_append_left _ hk⟩
      · exact ⟨fun p hp => hp, fun k hk => hk⟩
    · exact ⟨fun p hp => hp, fun k hk => hk⟩
  · exact ⟨fun p hp => hp, fun k hk => hk⟩

/-- What comes in time is admitted, once it has been noted. -/
theorem AcksInTime.admits (hin : w.AcksInTime e) (w' : World) (P : Publishes) :
    w.Admits (inTime (P.observe w e w').acks) e.1 := by
  obtain ⟨e, o⟩ := e
  cases e with
  | written msgId type success =>
    intro hst pl t a ha _ ht
    refine ⟨(hin hst t ⟨pl, ha⟩ ht).1, fun hok => ?_⟩
    cases success <;> cases hok
  | pull m s =>
    intro m' hm
    refine ⟨trivial, fun hs hst pl t a ha _ ht => ?_⟩
    subst hm hs
    obtain ⟨hreset, hanswer⟩ := hin hst t ⟨pl, ha⟩ ht
    refine ⟨hreset, fun _ m hm htype => ?_⟩
    obtain rfl := Option.some.inj hm
    refine ⟨hanswer htype, ⟨t, ⟨w.nextMessage, m'⟩, o.callbacks.headD true⟩, ?_, rfl, rfl⟩
    unfold Publishes.observe
    simp only [ha]
    rw [if_pos ⟨hst, htype, ht⟩]
    exact List.mem_append_right _ (List.mem_singleton_self _)
  | fire id => exact fun _ _ => trivial
  | _ => trivial

/-! ## What each step preserves -/

/-- Every PUBLISH of QoS 1 has been accepted. -/
theorem accepted_rule (ps : List Task) : TaskRule anything (fun _ => True)
    (fun _ t => IsPublishQ1 t → ∃ p ∈ ps, p.id = t.id) fun _ _ => True where
  other _ h := h
  otherGone _ _ := trivial
  logic _ h := h
  start _ h := h
  keep {w t u pl r} _ _ hr he h ht := by
    have ho := hr.outcome
    have hqos : t.qos = r.task.qos := hr.resumes.qos.symm.trans ho.task.qos.symm
    have he : r.exit.final = false := he.resolve_right fun hq => by
      cases (hqos.symm.trans hq.2).symm.trans ht.1
    have hscenario : t.scenario = r.task.scenario :=
      hr.resumes.scenario.symm.trans (ho.scenario he).symm
    rw [ho.task.id, hr.resumes.id]
    rw [isPublishQ1_iff, ← hqos, ← hscenario] at ht
    exact h (isPublishQ1_iff.mpr ht)
  finish _ _ _ _ _ := trivial
  free _ := trivial
  refused _ _ := trivial
  queued _ _ hq _ ht := by
    have := ht.1
    rw [setLogic_qos, hq] at this
    cases this
  answering m _ _ ht := by cases (isPublishQ1_iff.mp ht).2.choose_spec

/-- The task `i` is gone, and stays so. -/
theorem gone_rule (i : Nat) (ss : List IotcState) : TaskRule anything (· ≠ i) (fun _ t => t.id ≠ i)
    fun os j => j = i → told i os = ss where
  other _ h := h
  otherGone hos h hj := by
    subst hj
    rw [told_append, told_eq_nil hos, List.append_nil, h rfl]
  logic _ h := h
  start _ h := h
  keep _ _ hr _ h := by rwa [hr.outcome.task.id, hr.resumes.id]
  finish _ _ _ _ h hj := absurd hj h
  free h hj := absurd hj h
  refused h _ hj := absurd hj h
  queued h _ _ _ := by rwa [setLogic_id]
  answering _ h _ := h

/-- The task of the PUBLISH `p` waits, or has ended. -/
abbrev Follows (ks : List Ack) (p : Task) (d : PublishData) (w : World) : Prop :=
  w.Each (fun os t => t.id = p.id → Pending p d os t) fun os i => i = p.id → Settles ks p d os

/-- A task that has ended with a PUBACK, and the message. -/
structure Ended (k : Ack) (w : World) : Prop where
  known : k.task.id < w.nextTask
  received : k.message.object < w.nextMessage
  freed : .freeMessage k.message ∈ w.context.out
  unheld : w.Unheld k.message.object 1
  gone : ∃ ss, (k.task.callback.isSome = true → k.queued = true → ss = [.ok]) ∧
    w.Each (fun _ t => t.id ≠ k.task.id) fun os j => j = k.task.id → told k.task.id os = ss

/-- **The invariant of a run** beside which the PUBLISHes are noted. -/
structure Publishes.Inv (P : Publishes) (w : World) : Prop where
  sound : w.Sound
  unreceived : w.Unreceived
  accepted : w.Each (fun _ t => IsPublishQ1 t → ∃ p ∈ P.accepted, p.id = t.id) fun _ _ => True
  follows : ∀ p ∈ P.accepted, p.id < w.nextTask ∧ ∃ d, p.publishData = some d ∧ w.Follows P.acks p d
  ended : ∀ k ∈ P.acks, w.Ended k

theorem Ended.step (h : w.Ended k) (hs : w.Sound) (hstep : step w e = some w') : w'.Ended k where
  known := Nat.lt_of_lt_of_le h.known (step_nextTask_le hs hstep)
  received := Nat.lt_of_lt_of_le h.received (step_nextMessage_le hs hstep)
  freed := (step_out hs hstep).subset h.freed
  unheld := step_unheld h.unheld hs (fun m s he => Nat.ne_of_gt h.received) hstep
  gone := by
    obtain ⟨ss, hss, hgone⟩ := h.gone
    refine ⟨ss, hss, hgone.step (gone_rule k.task.id ss) hs ?_ (admits_anything w e.1)
      (fun q _ _ _ => .inl ?_) hstep⟩
    · exact fun i hi => Nat.ne_of_gt (Nat.lt_of_lt_of_le h.known hi)
    · have hid : ((w.withOracle e.2).tracked (q.task w.nextTask)).id = w.nextTask :=
        (setLogic_id _).trans (Request.task_id _ q)
      exact hid.trans_ne (Nat.ne_of_gt h.known)

theorem Follows.mono {ks' : List Ack} (h : w.Follows ks p d) (hks : ∀ k ∈ ks, k ∈ ks') :
    w.Follows ks' p d :=
  ⟨h.known, h.held, fun i hi hgone hip => (h.gone i hi hgone hip).mono hks⟩

/-- A PUBLISH that has been accepted before. -/
theorem Follows.step (h : w.Follows P.acks p d) (hp : p.id < w.nextTask) (hs : w.Sound)
    (hin : w.AcksInTime e) (hstep : World.step w e = some w') :
    w'.Follows (P.observe w e w').acks p d := by
  refine Each.step (publish_rule _ p d) (h.mono (Publishes.subset_observe w w' e P).2) hs
    (fun i hi => Nat.ne_of_gt (Nat.lt_of_lt_of_le hp hi)) (hin.admits w' P) (fun q _ _ _ => .inl fun hid => ?_)
    hstep
  have hid' : ((w.withOracle e.2).tracked (q.task w.nextTask)).id = w.nextTask :=
    (setLogic_id _).trans (Request.task_id _ q)
  exact absurd (hid'.symm.trans hid) (Nat.ne_of_gt hp)

/-- A PUBLISH that is accepted now. -/
theorem follows_submit (h : P.Inv w) {q : Request} {o : Oracle} (hst : w.context.stopped = false)
    (hp : p = w.tracked (q.task w.nextTask)) (hq : IsPublishQ1 p) (hd : p.publishData = some d)
    (hstep : World.step w (.submit q, o) = some w') :
    p.id < w'.nextTask ∧ w'.Follows ks p d := by
  have hid : p.id = w.nextTask := by
    rw [hp]
    exact (setLogic_id _).trans (Request.task_id _ q)
  have hn := Request.task_new w.nextTask q
  have hnew : w.Follows ks p d := by
    refine ⟨h.accepted.known, fun t ht he => ?_, fun i hi _ he => ?_⟩
    · have := h.sound.toValid.id_lt ht
      omega
    · omega
  have hfresh := h.accepted.not_about_next
  have hqos : (q.task w.nextTask).qos ≠ .atMostOnce := by
    have hq := hq.1
    rw [hp] at hq
    have hq' : (setLogic (q.task w.nextTask)).qos = .atLeastOnce := hq
    rw [setLogic_qos] at hq'
    rw [hq']
    decide
  have hpushed := submit_pushed h.sound hstep
  have hnext : w'.nextTask = w.nextTask + 1 := hpushed.nextTask
  have h₀ : (w.withOracle o).Follows ks p d := ⟨hnew.known, hnew.held, hnew.gone⟩
  refine ⟨by omega, h₀.pushed (publish_rule ks p d) (h.sound.withOracle o).toValid (fun i hi => ?_)
    (fun hno => ?_) hpushed (Request.task_id _ q) hn fun _ _ => .inl fun _ => ?_⟩
  · have hi : w.nextTask < i := hi
    omega
  · rcases hno with hno | hno
    · exact absurd hno hqos
    · exact absurd (hno.symm.trans hst) (by decide)
  · have hp' : (w.withOracle o).tracked (q.task w.nextTask) = p := hp.symm
    rw [hp']
    have hcs : p.cs = .fresh := by
      rw [hp]
      exact (setLogic_cs _).trans hn.cs
    have hnone : pushes p.id w.context.out = [] := pushes_eq_nil (hid ▸ hfresh)
    exact
      { scenario := publishData_eq_some.mp hd
        qos := hq.1
        msgId := rfl
        callback := rfl
        told := told_eq_nil (hid ▸ hfresh)
        sends := ⟨0, by rw [show pushes p.id (w.withOracle o).context.out = [] from hnone]; simp⟩
        fresh := fun _ => ⟨hnone, by
          rw [hp]
          exact fun hstore => by simp [tracked, hn.sessionState] at hstore⟩
        waits := .inl hcs }

/-- Every PUBLISH of QoS 1 has been accepted. -/
theorem step_accepted (h : P.Inv w) (hstep : World.step w e = some w') :
    w'.Each (fun _ t => IsPublishQ1 t → ∃ p ∈ (P.observe w e w').accepted, p.id = t.id)
      fun _ _ => True := by
  have hmono := (Publishes.subset_observe w w' e P).1
  have hw : w.Each (fun _ t => IsPublishQ1 t → ∃ p ∈ (P.observe w e w').accepted, p.id = t.id)
      fun _ _ => True := by
    refine ⟨h.accepted.known, fun t ht hq => ?_, fun _ _ _ => trivial⟩
    obtain ⟨p, hp, hid⟩ := h.accepted.held t ht hq
    exact ⟨p, hmono p hp, hid⟩
  refine hw.step (accepted_rule _) h.sound (fun _ _ => trivial) (admits_anything w e.1)
    (fun q he _ hst => .inl fun hq => ?_) hstep
  refine ⟨w.tracked (q.task w.nextTask), ?_, rfl⟩
  have hq' : IsPublishQ1 (w.tracked (q.task w.nextTask)) := hq
  unfold Publishes.observe
  rw [he]
  dsimp only
  rw [if_pos ⟨hst, hq'⟩]
  exact List.mem_append_right _ (List.mem_singleton_self _)

/-- A PUBACK that is noted now. -/
theorem ended_pull (h : P.Inv w) (hin : w.AcksInTime e) {m : Message} {pl : Place}
    (he : e.1 = .pull (some m) .ok) (ha : w.answered m = some (pl, t))
    (hst : w.context.stopped = false) (htype : m.type = .puback) (ht : IsPublishQ1 t)
    (hstep : World.step w e = some w') :
    w'.Ended ⟨t, ⟨w.nextMessage, m⟩, e.2.callbacks.headD true⟩ := by
  obtain ⟨e, o⟩ := e
  obtain rfl : e = .pull (some m) .ok := he
  have hcs : t.cs = .answer := (hin hst t ⟨pl, ha⟩ ht).2 htype
  have hheld := (answered_at ha).1.mem_held
  have hlt := h.sound.toValid.id_lt hheld
  have hack := step_acknowledges h.sound hst ha ht htype hcs hstep
  obtain ⟨p, hp, hid⟩ := h.accepted.held t hheld ht
  obtain ⟨-, d, -, hfollows⟩ := h.follows p hp
  have hnone : told t.id w.context.out = [] := hid ▸ (hfollows.held t hheld hid.symm).told
  exact
    { known := Nat.lt_of_lt_of_le hlt (step_nextTask_le h.sound hstep)
      received := step_nextMessage_lt h.sound hstep
      freed := hack.freed
      unheld := hack.unheld (h.unreceived _ (Nat.le_refl _))
      gone := ⟨_, fun hcallback hqueued => hack.told hnone hcallback hqueued,
        (step_accepted h hstep).known, fun u hu => hack.gone u hu, fun _ _ _ _ => rfl⟩ }

/-- **Each step keeps the invariant**, if it resumes no PUBLISH too early. -/
theorem step_publishes (h : P.Inv w) (hin : w.AcksInTime e) (hstep : World.step w e = some w') :
    (P.observe w e w').Inv w' where
  sound := step_sound h.sound hstep
  unreceived := step_unreceived h.unreceived h.sound hstep
  accepted := step_accepted h hstep
  follows p hp := by
    rcases Publishes.observe_accepted w w' e P hp with hp | ⟨q, he, hst, hpq, hq⟩
    · obtain ⟨hlt, d, hd, hfollows⟩ := h.follows p hp
      exact ⟨Nat.lt_of_lt_of_le hlt (step_nextTask_le h.sound hstep), d, hd,
        hfollows.step hlt h.sound hin hstep⟩
    · obtain ⟨e, o⟩ := e
      obtain rfl : e = .submit q := he
      obtain ⟨d, hd⟩ := Option.isSome_iff_exists.mp hq.2
      obtain ⟨hlt, hfollows⟩ := follows_submit h hst hpq hq hd hstep
      exact ⟨hlt, d, hd, hfollows⟩
  ended k hk := by
    rcases Publishes.observe_acks w w' e P hk with hk | ⟨m, pl, t, he, ha, hst, htype, ht, rfl⟩
    · exact (h.ended k hk).step h.sound hstep
    · exact ended_pull h hin he ha hst htype ht hstep

/-- A message that has been consumed once, and freed, has been freed once. -/
theorem count_freeMessage {c : Context} {m : Received} (hfreed : .freeMessage m ∈ c.out)
    (hone : (c.consumptions.countP fun m' => m'.object = m.object) = 1) :
    c.out.count (.freeMessage m) = 1 := by
  refine Nat.le_antisymm ?_ (List.count_pos_iff.mpr hfreed)
  rw [← hone, Context.consumptions, List.countP_filterMap, List.count]
  refine List.countP_mono_left fun o _ ho => ?_
  obtain rfl := beq_iff_eq.mp ho
  simp [Output.consumed]

theorem Publishes.Inv.hold (h : P.Inv w) : P.Hold w := by
  have hsettles (p : Task) (hp : p ∈ P.accepted) :
      ∃ d, p.publishData = some d ∧ Settles P.acks p d w.context.out := by
    obtain ⟨hlt, d, hd, hfollows⟩ := h.follows p hp
    refine ⟨d, hd, ?_⟩
    by_cases hheld : ∃ t ∈ w.held, t.id = p.id
    · obtain ⟨t, ht, hid⟩ := hheld
      exact (hfollows.held t ht hid).settles
    · exact hfollows.gone p.id hlt (fun t ht hid => hheld ⟨t, ht, hid⟩) rfl
  refine ⟨fun p hp => ?_, fun p hp hok => ?_, fun k hk => ?_, fun k hk hcallback hqueued => ?_,
    fun k hk => ?_, fun p hp d hd => ?_⟩
  · exact (hsettles p hp).choose_spec.2.once
  · exact (hsettles p hp).choose_spec.2.acknowledged hok
  · exact (h.ended k hk).gone.choose_spec.2.held
  · obtain ⟨ss, hss, hgone⟩ := (h.ended k hk).gone
    rw [← hss hcallback hqueued]
    exact hgone.gone _ (h.ended k hk).known hgone.held rfl
  · exact count_freeMessage (h.ended k hk).freed (h.ended k hk).unheld.consumed
  · obtain ⟨d', hd', hs⟩ := hsettles p hp
    obtain rfl := Option.some.inj (hd'.symm.trans hd)
    exact hs.sends

theorem initial_publishes : ({} : Publishes).Inv {} where
  sound := initial_sound
  unreceived := initial_unreceived
  accepted := initial_each
  follows p hp := by cases hp
  ended k hk := by cases hk

/-! ## The claim about runs -/

/-- A world with the PUBLISHes that are noted beside it. -/
abbrev observedPublishes : World × Publishes → Event × Oracle → Option (World × Publishes) :=
  Infra.observed step Publishes.observe

/-- A task that is resumed with a notification or a message is held. -/
theorem Reaches.mem_held {e : Event} (h : w.Reaches t e) : t ∈ w.held := by
  unfold Reaches at h
  split at h
  · obtain ⟨p, hp⟩ := h
    unfold notified at hp
    split at hp
    · obtain ⟨v, hc, hp⟩ := Option.map_eq_some_iff.mp hp
      obtain ⟨rfl, rfl⟩ := Prod.mk.inj hp
      exact At.mem_held (p := .current) hc
    · obtain ⟨⟨p, ts⟩, hq, hp⟩ := Option.bind_eq_some_iff.mp hp
      obtain ⟨v, hfind, hp⟩ := Option.map_eq_some_iff.mp hp
      obtain ⟨rfl, rfl⟩ := Prod.mk.inj hp
      exact (queueOf_at hq (findTask_mem hfind).1).mem_held
  · obtain ⟨p, hp⟩ := h
    exact (answered_at hp).1.mem_held
  · exact h.elim

/-- Without a PUBLISH no call is too early. -/
theorem allSteps_acksInTime : ∀ {es : List (Event × Oracle)} {s : World × Publishes}, s.2.Inv s.1 →
    s.2.accepted = [] → (∀ e ∈ es, ∀ q, e.1 ≠ .submit q) →
    Infra.AllSteps observedPublishes (fun s e => s.1.AcksInTime e) s es
  | [], _, _, _, _ => trivial
  | e :: es, s, hs, hnone, hes => by
    have hin : s.1.AcksInTime e := fun _ t hreach ht => by
      obtain ⟨p, hp, -⟩ := hs.accepted.held t hreach.mem_held ht
      rw [hnone] at hp
      cases hp
    refine ⟨hin, fun s' hstep => ?_⟩
    obtain ⟨hstep, hobserve⟩ := Infra.observed_eq_some hstep
    have hs' := step_publishes hs hin hstep
    rw [← hobserve] at hs'
    refine allSteps_acksInTime hs' ?_ fun e he => hes e (List.mem_cons_of_mem _ he)
    refine List.eq_nil_iff_forall_not_mem.mpr fun p hp => ?_
    rw [hobserve] at hp
    rcases Publishes.observe_accepted _ _ _ _ hp with hp | ⟨q, he, -⟩
    · rw [hnone] at hp
      cases hp
    · exact hes e List.mem_cons_self q he

end World

end IotDeviceSdk.Mqtt.Logic
