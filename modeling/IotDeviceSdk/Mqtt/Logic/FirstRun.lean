import IotDeviceSdk.Mqtt.Logic.Handed
import IotDeviceSdk.Mqtt.Logic.PublishQ1
import IotDeviceSdk.Mqtt.Logic.Teardown

/-!
# The first run of a task

A task that has not been run yet waits for nothing, so that no assertion of its coroutine fails.

* `FirstPublish` says what the first run of a PUBLISH leaves, and `doMqttSubscribe_first` what that of
  a SUBSCRIBE leaves.
* `runQ0Tasks_first`: the queue of the tasks of QoS 0 can always be run, and nothing but its tasks is
  touched.
* `runQ0Tasks_concat`: the last task of the queue has its turn when the ones before it all end at
  once, and else it stays in the queue.
-/

namespace IotDeviceSdk.Mqtt.Logic

variable {c c' : Context} {t u : Task} {r : CoResult} {i : Nat}

/-! ## The first run of a task -/

/-- The state of the layer and the connection data are the same. -/
structure Context.Still (c c' : Context) : Prop where
  layerState : c'.layerState = c.layerState
  connection : c'.connection = c.connection
  layerData : c'.layerData = c.layerData

namespace Context

theorem Still.refl (c : Context) : Still c c := ⟨rfl, rfl, rfl⟩

theorem Still.trans {c'' : Context} (h : Still c c') (h' : Still c' c'') : Still c c'' :=
  ⟨h'.layerState.trans h.layerState, h'.connection.trans h.connection,
    h'.layerData.trans h.layerData⟩

theorem Still.stopped (h : Still c c') : c'.stopped = c.stopped := by
  unfold Context.stopped
  rw [h.layerState, h.layerData]

theorem still_alloc (c : Context) : Still c c.alloc.2 := ⟨rfl, rfl, rfl⟩

theorem still_queue (c : Context) (o : Output) : Still c (c.queue o).2 := by
  unfold queue
  dsimp only
  split <;> exact ⟨rfl, rfl, rfl⟩

theorem still_deferUsersCallback (c : Context) (t : Task) (s : IotcState) :
    Still c (c.deferUsersCallback t s) := by
  unfold deferUsersCallback
  split
  · exact still_queue c _
  · exact .refl c

theorem still_cancelTaskTimeout (c : Context) (id : Nat) : Still c (c.cancelTaskTimeout id) := by
  unfold cancelTaskTimeout
  split <;> exact ⟨rfl, rfl, rfl⟩

theorem still_build {fill : Except IotcState Message} {m : Except IotcState Message}
    (h : c.build fill = (m, c')) : Still c c' := by
  obtain rfl := (Prod.mk.inj h).2
  exact still_alloc c

/-- The handle of the task is free, so that no assertion fails. -/
theorem executeTaskIn_still {id : Nat} (timeout : TaskTimeout) (h : c.armed id = false) :
    ∃ s c', c.executeTaskIn id timeout = some (s, c') ∧ Still c c' := by
  unfold executeTaskIn executeIn
  dsimp only
  have harmed : c.alloc.2.armed id = false := h
  split
  · simp only [harmed, Bool.false_eq_true, if_false]
    split
    · exact ⟨_, _, rfl, ⟨rfl, rfl, rfl⟩⟩
    · exact ⟨_, _, rfl, ⟨rfl, rfl, rfl⟩⟩
  · exact ⟨_, _, rfl, still_alloc c⟩

theorem ioTimeoutsCreate_still {id : Nat} (h : c.armed id = false) :
    ∃ s c', c.ioTimeoutsCreate id = some (s, c') ∧ Still c c' := by
  unfold ioTimeoutsCreate
  rw [h, if_neg (by decide)]
  obtain ⟨s, c₁, h₁, hstill⟩ := executeTaskIn_still .connect h
  rw [h₁]
  split
  · next c₂ heq =>
    obtain ⟨rfl, rfl⟩ := Prod.mk.inj (Option.some.inj heq)
    dsimp only
    split
    · exact ⟨_, _, rfl, hstill.trans ⟨rfl, rfl, rfl⟩⟩
    · exact ⟨_, _, rfl, hstill.trans (still_alloc _)⟩
  · exact ⟨s, c₁, rfl, hstill⟩

end Context

open Logic.Context

theorem sendAndYield_still (c : Context) (t : Task) (m : Message) :
    Still c (sendAndYield c t m).context := by
  unfold sendAndYield pushOnPrev continueWith
  dsimp only
  split <;> exact ⟨rfl, rfl, rfl⟩

theorem connectExit_still (c : Context) (t : Task) : Still c (connectExit c t none).context :=
  still_cancelTaskTimeout c t.id

theorem connectStart_still (ha : c.armed t.id = false) :
    ∃ r, connectStart c t = some r ∧ Still c r.context := by
  unfold connectStart
  split
  · next c₁ hb => exact ⟨_, rfl, (still_build hb).trans (connectExit_still c₁ t)⟩
  · next m c₁ hb =>
    have hstill := still_build hb
    have harmed : c₁.armed t.id = false := by
      obtain rfl := (Prod.mk.inj hb).2
      exact ha
    split
    · obtain ⟨s, c₂, h₂, hstill₂⟩ := ioTimeoutsCreate_still harmed
      rw [h₂]
      split
      · next heq => cases heq
      · next c₃ heq =>
        obtain ⟨-, rfl⟩ := Prod.mk.inj (Option.some.inj heq)
        exact ⟨_, rfl, (hstill.trans hstill₂).trans (sendAndYield_still c₂ t m)⟩
      · next c₃ _ heq =>
        obtain ⟨-, rfl⟩ := Prod.mk.inj (Option.some.inj heq)
        exact ⟨_, rfl, (hstill.trans hstill₂).trans (connectExit_still c₂ t)⟩
    · rw [harmed, if_neg (by decide)]
      exact ⟨_, rfl, hstill.trans (sendAndYield_still c₁ t m)⟩

theorem doMqttConnect_first (hcs : t.cs = .fresh) (ha : c.armed t.id = false) :
    ∃ r, doMqttConnect c t ⟨true, .ok, none⟩ = some r ∧ Still c r.context := by
  unfold doMqttConnect
  split
  · exact ⟨_, rfl, still_cancelTaskTimeout c t.id⟩
  · rw [hcs]
    exact connectStart_still ha

theorem doMqttPublishQ0_first (hcs : t.cs = .fresh) (hd : t.publishData.isSome = true) :
    ∃ r, doMqttPublishQ0 c t ⟨true, .ok, none⟩ = some r ∧ Still c r.context := by
  obtain ⟨d, hd⟩ := Option.isSome_iff_exists.mp hd
  unfold doMqttPublishQ0
  rw [if_neg (by decide)]
  split
  · exact ⟨_, rfl, .refl c⟩
  · rw [hcs, hd]
    dsimp only
    split
    · next m c₁ hb => exact ⟨_, rfl, (still_build hb).trans (sendAndYield_still c₁ t m)⟩
    · next e c₁ hb =>
      unfold publishQ0Exit
      rw [hd]
      exact ⟨_, rfl, (still_build hb).trans (still_deferUsersCallback c₁ t e)⟩

theorem doMqttKeepaliveTask_first (hcs : t.cs = .fresh) :
    ∃ r, doMqttKeepaliveTask c t ⟨true, .ok, none⟩ = some r ∧ Still c r.context := by
  unfold doMqttKeepaliveTask
  split
  · exact ⟨_, rfl, .refl c⟩
  · rw [hcs]
    dsimp only
    split
    · next m c₁ hb => exact ⟨_, rfl, (still_build hb).trans (sendAndYield_still c₁ t m)⟩
    · next e c₁ hb => exact ⟨_, rfl, still_build hb⟩

theorem doShutdown_first (hcs : t.cs = .fresh) :
    ∃ r, doShutdown c t ⟨true, .ok, none⟩ = some r ∧ Still c r.context := by
  unfold doShutdown
  split
  · exact ⟨_, rfl, .refl c⟩
  · rw [hcs]
    dsimp only
    split
    · next m c₁ hb => exact ⟨_, rfl, (still_build hb).trans (sendAndYield_still c₁ t m)⟩
    · next e c₁ hb => exact ⟨_, rfl, still_build hb⟩

/-- A task of `q0Tasks` can always be run. -/
theorem Task.Queued.first_run (hq : t.Queued) (ha : c.armed t.id = false) :
    ∃ r, execute c t ⟨true, .ok, none⟩ = some r ∧ Still c r.context := by
  unfold execute
  rw [if_pos rfl]
  rcases hq.scenario with hs | ⟨d, hs⟩ | hs | hs <;> simp only [coroutine, hs, hq.qos]
  · exact doMqttConnect_first hq.cs ha
  · exact doMqttPublishQ0_first hq.cs (by simp [Task.publishData, hs])
  · exact doMqttKeepaliveTask_first hq.cs
  · exact doShutdown_first hq.cs

/-! ## The first run of a task of a user -/

/-- The callback of the task can be queued. -/
def Context.tells (c : Context) (t : Task) : Bool := t.callback.isSome && c.callbacks.headD true

/-- There is memory for the message of the task, and it can be built. -/
def Context.builds (c : Context) (t : Task) : Bool := c.mem.headD true && t.fits

theorem told_callbackEvent_eq (c : Context) (t : Task) (s : IotcState) :
    told t.id (c.callbackEvent t s) = if c.tells t then [s] else [] := by
  unfold callbackEvent tells
  cases t.callback with
  | none => rfl
  | some handle => cases c.callbacks.headD true <;> simp [told, Output.toldOf]

/-- The message of a PUBLISH. -/
theorem build_publish {d : PublishData} (hd : t.publishData = some d) (qos : Qos) (dup : Bool)
    (id : Nat) :
    (∃ m, c.build (fillWithPublishData d.topic d.data qos d.retain dup id) = (.ok m, c.alloc.2)) ∧
        c.builds t = true ∨
      (∃ e, c.build (fillWithPublishData d.topic d.data qos d.retain dup id) = (.error e, c.alloc.2)) ∧
        c.builds t = false := by
  cases hb : (c.build (fillWithPublishData d.topic d.data qos d.retain dup id)).1 with
  | ok m =>
    have hok : c.build (fillWithPublishData d.topic d.data qos d.retain dup id) = (.ok m, c.alloc.2) :=
      Prod.ext hb rfl
    have hmem : c.mem.headD true = true := (build_eq_ok hok).1
    exact .inl ⟨⟨m, hok⟩, by rw [builds, hmem, fits_of_fill hd (build_ok hok)]; rfl⟩
  | error e =>
    refine .inr ⟨⟨e, Prod.ext hb rfl⟩, ?_⟩
    have hfill : (if c.alloc.1 then fillWithPublishData d.topic d.data qos d.retain dup id
        else .error .outOfMemory) = .error e := hb
    unfold builds
    cases hm : c.mem.headD true with
    | false => rfl
    | true =>
      rw [show c.alloc.1 = true from hm, if_pos rfl] at hfill
      rw [Bool.true_and]
      unfold fillWithPublishData at hfill
      unfold Task.fits
      rw [hd, Option.all_some]
      split at hfill
      · next hlong => simp [Nat.not_le.mpr hlong]
      · split at hfill
        · next htopic => simp [Option.isNone_iff_eq_none.mp htopic]
        · cases hfill

/-- **What the first run of a PUBLISH leaves**: the task waits for the write of its message, or it has
ended, and the user is told if there is memory for that. -/
structure FirstPublish (c : Context) (t : Task) (r : CoResult) : Prop where
  sends : c.builds t = true → r.exit.final = false ∧ r.task = { t with cs := .sent }
  fails : c.builds t = false →
    (∃ s, r.exit = .finalize s) ∧ ∃ s, told t.id r.context.out =
      told t.id c.out ++ if c.tells t then [s] else []

theorem doMqttPublishQ0_firstPublish {d : PublishData} (hd : t.publishData = some d)
    (hcs : t.cs = .fresh) (hst : c.stopped = false) :
    ∃ r, doMqttPublishQ0 c t ⟨true, .ok, none⟩ = some r ∧ FirstPublish c t r := by
  unfold doMqttPublishQ0
  rw [if_neg (by decide), hst, if_neg (by decide), hcs, hd]
  dsimp only
  rcases build_publish hd .atMostOnce false 0 with ⟨⟨m, hb⟩, hbuilds⟩ | ⟨⟨e, hb⟩, hbuilds⟩
  · rw [hb]
    exact ⟨_, rfl, fun _ => ⟨rfl, rfl⟩, fun hf => absurd hf (by simp [hbuilds])⟩
  · rw [hb]
    unfold publishQ0Exit
    rw [hd]
    refine ⟨_, rfl, fun ht => absurd ht (by simp [hbuilds]), fun _ => ⟨⟨none, rfl⟩, e, ?_⟩⟩
    change told t.id (c.alloc.2.deferUsersCallback t e).out = _
    rw [deferUsersCallback_out, told_append, told_callbackEvent_eq]
    rfl

theorem doMqttPublishQ1_firstPublish {d : PublishData} (hd : t.publishData = some d)
    (hcs : t.cs = .fresh) (hst : c.stopped = false) (ha : c.armed t.id = false) :
    ∃ r, doMqttPublishQ1 c t ⟨true, .ok, none⟩ = some r ∧ FirstPublish c t r := by
  unfold doMqttPublishQ1
  rw [hst, if_neg (by decide), hcs, ha]
  dsimp only
  rw [if_neg (by decide)]
  unfold publishQ1Send
  rw [hd]
  dsimp only
  rcases build_publish hd .atLeastOnce (IotcState.ok = .resend) t.msgId with
    ⟨⟨m, hb⟩, hbuilds⟩ | ⟨⟨e, hb⟩, hbuilds⟩
  · rw [hb]
    exact ⟨_, rfl, fun _ => ⟨rfl, rfl⟩, fun hf => absurd hf (by simp [hbuilds])⟩
  · rw [hb]
    refine ⟨_, rfl, fun ht => absurd ht (by simp [hbuilds]), fun _ => ⟨⟨some e, rfl⟩, e, ?_⟩⟩
    change told t.id ((c.alloc.2.deferUsersCallback t e).freeMessage none).out = _
    rw [freeMessage_out, deferUsersCallback_out, told_append, told_append, told_callbackEvent_eq]
    simp [told, tells, alloc]

/-- The first run of a SUBSCRIBE. A task that ends at once tells nobody. -/
theorem doMqttSubscribe_first {d : SubscribeData} (hd : t.subscribeData = some d)
    (hcs : t.cs = .fresh) (hst : c.stopped = false) :
    ∃ r, doMqttSubscribe c t ⟨true, .ok, none⟩ = some r ∧
      (c.mem.headD true = true → r.exit.final = false ∧ r.task = { t with cs := .sent }) ∧
      (c.mem.headD true = false →
        (∃ s, r.exit = .finalizeThenReset s) ∧ r.context.out = c.out) := by
  unfold doMqttSubscribe
  rw [World.layerData_of_not_stopped hst, hcs]
  dsimp only [Bool.not_true]
  rw [if_neg (by decide)]
  unfold subscribeSend
  rw [hd]
  dsimp only
  cases hm : c.mem.headD true with
  | true =>
    rw [show c.build _ = (.ok _, c.alloc.2) from Prod.ext (if_pos hm) rfl]
    exact ⟨_, rfl, fun _ => ⟨rfl, rfl⟩, fun hf => Bool.noConfusion hf⟩
  | false =>
    have hno : ¬c.alloc.1 = true := fun ht => Bool.noConfusion (hm.symm.trans ht)
    rw [show c.build _ = (.error .outOfMemory, c.alloc.2) from Prod.ext (if_neg hno) rfl]
    exact ⟨_, rfl, fun ht => Bool.noConfusion ht, fun _ => ⟨⟨_, rfl⟩, rfl⟩⟩

namespace World

variable {w w' w₁ : World} {ts : List Task}

/-! ## The tasks of QoS 0 before a new one -/

theorem freeCurrent_of_none (h : w.currentQ0Task = none) : w.freeCurrent = w := by
  unfold freeCurrent
  rw [h]

theorem freeCurrent_with (w : World) (q0 : List Task) (s : IotcState) :
    ({ w with q0Tasks := q0, result := s } : World).freeCurrent =
      { w.freeCurrent with q0Tasks := q0, result := s } := by
  unfold freeCurrent
  cases hc : w.currentQ0Task <;> simp [hc, freeTasks, withContext]

/-- Neither the queue that is stored nor the last result is read. -/
theorem runQ0Tasks_congr (ts : List Task) (w : World) (q0 : List Task) (s : IotcState) :
    runQ0Tasks ts { w with q0Tasks := q0, result := s } = runQ0Tasks ts w := by
  induction ts generalizing w q0 s with
  | nil =>
    unfold runQ0Tasks
    rw [freeCurrent_with]
    rfl
  | cons t ts ih =>
    unfold runQ0Tasks
    rw [freeCurrent_with]
    dsimp only [record, withContext]
    split
    · rfl
    · split
      · rfl
      · split
        · rfl
        · next r _ =>
          -- only the rest of the queue is run with the stored result
          have hrest := ih { w.freeCurrent with
            context := r.context, q0Tasks := ts, currentQ0Task := some r.task } ts s
          unfold leave
          dsimp only
          split
          · rfl
          · rw [hrest]
          · rw [hrest]

/-- What follows the end of a task without a time event. -/
theorem leave_finalize (id : Nat) {finalise : World → Option World} {s : Option IotcState}
    (h : w.context.timeouts id = none) (hf : finalise w = some w') :
    ∃ s', w.leave id finalise (.finalize s) = some (w'.returns s') := by
  unfold leave
  dsimp only
  rw [if_neg (by simp [Context.armed, h]), hf]
  exact ⟨_, rfl⟩

/-- Other tasks than `i` have been run, or nothing has been done: the handle of the task `i` and what
its callback has been told are as before. -/
structure Bystander (i : Nat) (c c' : Context) : Prop where
  timeouts : c'.timeouts i = c.timeouts i
  told : Logic.told i c'.out = Logic.told i c.out

theorem Bystander.trans {c'' : Context} (h : Bystander i c c') (h' : Bystander i c' c'') :
    Bystander i c c'' :=
  ⟨h'.timeouts.trans h.timeouts, h'.told.trans h.told⟩

theorem told_of_other {os : List Output} (h : ∀ o ∈ os, o.Of t) (hi : t.id ≠ i) : told i os = [] :=
  told_eq_nil fun o ho ha => hi ((h o ho).about ha).symm

theorem bystander_of_outcome (h : Outcome c t r) (hi : t.id ≠ i) : Bystander i c r.context := by
  obtain ⟨os, hout, hos⟩ := h.context.out
  refine ⟨h.context.timeouts i hi.symm, ?_⟩
  rw [hout, told_append, told_of_other hos hi, List.append_nil]

/-- What the end of the current task does to the rest. -/
theorem freeCurrent_still (w : World) : w.context.Still w.freeCurrent.context ∧
    ∀ i, (∀ u, w.currentQ0Task = some u → u.id ≠ i) → Bystander i w.context w.freeCurrent.context := by
  unfold freeCurrent
  split
  · next u hu =>
    refine ⟨(still_cancelTaskTimeout w.context u.id).trans ⟨rfl, rfl, rfl⟩, fun i hi => ⟨?_, ?_⟩⟩
    · change (w.context.cancelTaskTimeout u.id).timeouts i = _
      rw [cancelTaskTimeout_timeouts, Function.update_of_ne (hi u hu).symm]
    · change told i ((w.context.cancelTaskTimeout u.id).out ++ [.freeTask u.id]) = _
      rw [told_append, cancelTaskTimeout_out]
      exact List.append_nil _
  · exact ⟨.refl _, fun i _ => ⟨rfl, rfl⟩⟩

/-- **The queue can always be run**, and nothing but its tasks is touched. -/
theorem runQ0Tasks_first : ∀ {ts : List Task} {w : World}, (∀ u ∈ ts, u.Queued) → DistinctIds ts →
    (∀ u ∈ ts, w.context.timeouts u.id = none) →
    (∀ u, w.currentQ0Task = some u → ∀ v ∈ ts, u.id ≠ v.id) →
    ∃ w₁, runQ0Tasks ts w = some w₁ ∧ w.context.Still w₁.context ∧
      ∀ i, (∀ u ∈ ts, u.id ≠ i) → (∀ u, w.currentQ0Task = some u → u.id ≠ i) →
        Bystander i w.context w₁.context
  | [], w, _, _, _, _ => by
    obtain ⟨hstill, hother⟩ := w.freeCurrent_still
    exact ⟨_, rfl, hstill, fun i _ hi => hother i hi⟩
  | t :: ts, w, hts, hd, ht, hc => by
    obtain ⟨hnotin, hd⟩ := List.nodup_cons.mp hd
    obtain ⟨hstill, hother⟩ := w.freeCurrent_still
    have hqueued := hts t List.mem_cons_self
    have htimeout : w.freeCurrent.context.timeouts t.id = none := by
      rw [(hother t.id fun u hu => hc u hu t List.mem_cons_self).timeouts]
      exact ht t List.mem_cons_self
    unfold runQ0Tasks
    dsimp only
    split
    · exact ⟨_, rfl, hstill, fun i _ hi => hother i hi⟩
    · rw [hqueued.logic]
      dsimp only
      have hstarted : w.context.Still (w.freeCurrent.record (.run t.id)).context :=
        hstill.trans ⟨rfl, rfl, rfl⟩
      have hrun (i : Nat) :
          Bystander i w.freeCurrent.context (w.freeCurrent.record (.run t.id)).context := by
        refine ⟨rfl, ?_⟩
        change told i (w.freeCurrent.context.out ++ [.run t.id]) = _
        rw [told_append]
        exact List.append_nil _
      obtain ⟨r, hr, hstill₁⟩ := hqueued.first_run
        (c := (w.freeCurrent.record (.run t.id)).context) (Context.armed_eq_false.mpr htimeout)
      rw [hr]
      dsimp only
      have ho := execute_outcome hr
      have hid := ho.task.id
      have hother₁ : ∀ i, (∀ u ∈ t :: ts, u.id ≠ i) →
          (∀ u, w.currentQ0Task = some u → u.id ≠ i) → Bystander i w.context r.context :=
        fun i hi hcur => ((hother i hcur).trans (hrun i)).trans
          (bystander_of_outcome ho (hi t List.mem_cons_self))
      cases he : r.exit with
      | keep s => exact ⟨_, rfl, hstarted.trans hstill₁, hother₁⟩
      | finalizeThenReset s => exact absurd he (hqueued.not_reset hr s)
      | finalize s =>
        have hunarmed := ho.unarmed (.of_none htimeout) (by rw [he]; rfl)
        -- the rest of the queue is run without the task that has ended
        obtain ⟨w₁, h₁, hstill₂, hother₂⟩ := runQ0Tasks_first
          (w := { w.freeCurrent.record (.run t.id) with
            context := r.context, q0Tasks := ts, currentQ0Task := some r.task })
          (fun u hu => hts u (List.mem_cons_of_mem _ hu)) hd
          (fun u hu => by
            have hne : u.id ≠ t.id := fun he => hnotin (he ▸ List.mem_map_of_mem hu)
            have hsame := (hother u.id fun v hv =>
              hc v hv u (List.mem_cons_of_mem _ hu)).timeouts
            change r.context.timeouts u.id = none
            rw [ho.context.timeouts u.id hne]
            exact hsame.trans (ht u (List.mem_cons_of_mem _ hu)))
          (fun u hu v hv he => by
            obtain rfl := Option.some.inj hu
            exact hnotin (hid ▸ he ▸ List.mem_map_of_mem hv))
        obtain ⟨s', h'⟩ := leave_finalize r.task.id (s := s) (hid ▸ hunarmed) h₁
        refine ⟨_, h', (hstarted.trans hstill₁).trans hstill₂, fun i hi hcur => ?_⟩
        refine (hother₁ i hi hcur).trans (hother₂ i (fun u hu => hi u (List.mem_cons_of_mem _ hu)) ?_)
        intro u hu
        obtain rfl := Option.some.inj hu
        exact hid ▸ hi t List.mem_cons_self

/-- **A task at the end of the queue** has its turn when the tasks before it all end at once, and
else it stays in the queue. -/
theorem runQ0Tasks_concat (t : Task) : ∀ {ts : List Task} {w w₁ : World}, (∀ u ∈ ts, u.Queued) →
    runQ0Tasks ts w = some w₁ →
    (w₁.currentQ0Task = none ∧ w₁.q0Tasks = []) ∧
        (∃ f : World → IotcState,
          runQ0Tasks (ts ++ [t]) w = (runQ0Tasks [t] w₁).map fun w => w.returns (f w)) ∨
      ¬(w₁.currentQ0Task = none ∧ w₁.q0Tasks = []) ∧
        ∃ w', runQ0Tasks (ts ++ [t]) w = some w' ∧ t ∈ w'.q0Tasks
  | [], w, w₁, _, h => by
    obtain rfl := Option.some.inj h
    refine .inl ⟨⟨freeCurrent_currentQ0Task w, rfl⟩, fun w => w.result, ?_⟩
    have hfree : w.freeCurrent.freeCurrent = w.freeCurrent :=
      freeCurrent_of_none (freeCurrent_currentQ0Task w)
    have hone : runQ0Tasks [t] w = runQ0Tasks [t] w.freeCurrent := by
      unfold runQ0Tasks
      rw [hfree]
    have hsame : (runQ0Tasks [t] { w.freeCurrent with q0Tasks := [], result := .ok }).map
        (fun w => w.returns w.result) = runQ0Tasks [t] w := by
      rw [runQ0Tasks_congr, ← hone]
      cases runQ0Tasks [t] w <;> rfl
    exact hsame.symm
  | u :: ts, w, w₁, hts, h => by
    have hqueued := hts u List.mem_cons_self
    rw [List.cons_append]
    generalize hall : runQ0Tasks (u :: (ts ++ [t])) w = all
    unfold runQ0Tasks at h hall
    dsimp only at h hall
    split at h
    · next hw =>
      obtain rfl := Option.some.inj h
      rw [if_pos hw] at hall
      exact .inr ⟨fun he => List.append_ne_nil_of_right_ne_nil ts (by simp) he.2, _, hall.symm,
        by simp [returns]⟩
    · next hw =>
      rw [if_neg hw] at hall
      rw [hqueued.logic] at h hall
      dsimp only at h hall
      split at h
      · cases h
      · next r hr =>
        rw [hr] at hall
        dsimp only at hall
        rcases leave_cases h with ⟨s, he, rfl⟩ | ⟨he, hu, w₂, s, hw₂, rfl | ⟨⟨s', he'⟩, -⟩⟩
        · rw [he] at hall
          exact .inr ⟨fun he => (Option.some_ne_none _ he.1), _, hall.symm, by simp [returns]⟩
        · cases hexit : r.exit with
          | keep s₀ =>
            rw [hexit] at he
            cases he
          | finalizeThenReset s₀ => exact absurd hexit (hqueued.not_reset hr s₀)
          | finalize s₀ =>
            rw [hexit] at hall
            unfold leave at hall
            dsimp only at hall
            rw [if_neg (by simp [Context.armed, show r.context.timeouts r.task.id = none from hu])]
              at hall
            have hrest := runQ0Tasks_congr (ts ++ [t])
              { w.freeCurrent.record (.run u.id) with
                context := r.context, q0Tasks := ts, currentQ0Task := some r.task } (ts ++ [t])
              (w.freeCurrent.record (.run u.id)).result
            rw [show runQ0Tasks (ts ++ [t]) _ = _ from hrest] at hall
            rcases runQ0Tasks_concat t (fun v hv => hts v (List.mem_cons_of_mem _ hv)) hw₂ with
              ⟨hthrough, f, hf⟩ | ⟨hthrough, w', hw', hmem⟩
            · refine .inl ⟨hthrough, fun w => s₀.getD (f w), ?_⟩
              have hone : runQ0Tasks [t] (w₂.returns s) = runQ0Tasks [t] w₂ :=
                runQ0Tasks_congr [t] w₂ w₂.q0Tasks s
              rw [hone, ← hall, hf, Option.map_map]
              rfl
            · refine .inr ⟨hthrough, w'.returns (s₀.getD w'.result), ?_, hmem⟩
              rw [← hall, hw']
              rfl
        · exact absurd he' (hqueued.not_reset hr s')

end World

end IotDeviceSdk.Mqtt.Logic
