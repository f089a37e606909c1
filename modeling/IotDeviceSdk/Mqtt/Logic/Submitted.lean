import IotDeviceSdk.Mqtt.Logic.FirstRun

/-!
# A task that a user submits

`iotc_mqtt_logic_layer_push` runs a new task at once when nothing is before it, so that the task may
have ended by the time the call returns. `submit_owns_iff` says when the layer owns the task then,
or has ended it and told the user; the call itself never fails.

`World.turn` is the state in which a task of QoS 0 has its turn, if the ones before it all end at
once.
-/

namespace IotDeviceSdk.Mqtt.Logic

open Logic.Context

namespace World

variable {w w' w₁ : World} {t u : Task} {ts : List Task} {r : CoResult} {p : Place} {i : Nat}

/-! ## What becomes of a new task -/

/-- The tasks that wait for their turn, are run, or wait for an answer. -/
def owned (w : World) : List Task := w.currentQ0Task.toList ++ (w.q0Tasks ++ w.q12Tasks)

/-- The layer owns exactly one task with the id of `t`. It has the data and the callback of `t`, and
a coroutine that can be run. -/
def Holds (w : World) (t : Task) : Prop :=
  ∃ u, w.owned.filter (·.id = t.id) = [u] ∧ u.scenario = t.scenario ∧ u.callback = t.callback ∧
    u.logic.isSome = true

/-- The task has ended, and its callback has been queued once. -/
def Concluded (w : World) (i : Nat) : Prop :=
  (∀ u ∈ w.held, u.id ≠ i) ∧ w.freed i = 1 ∧ ∃ s, told i w.context.out = [s]

/-- **The layer owns the task, or it has run it and told the user.** -/
def Owns (w : World) (t : Task) : Prop := w.Holds t ∨ w.Concluded t.id

theorem mem_held_of_owned (hu : u ∈ w.owned) : u ∈ w.held := by
  unfold owned at hu
  unfold held
  simp only [List.mem_append] at hu ⊢
  rcases hu with hu | hu | hu
  · exact .inl hu
  · exact .inr (.inl hu)
  · exact .inr (.inr (.inl hu))

theorem countId_owned_le (w : World) (i : Nat) : countId i w.owned ≤ countId i w.held := by
  unfold owned held
  simp only [countId_append]
  omega

theorem Valid.owned_eq (hv : w.Valid) (hu : u ∈ w.owned) :
    w.owned.filter (·.id = u.id) = [u] := by
  have hle : (w.owned.filter (·.id = u.id)).length ≤ 1 := by
    rw [← List.countP_eq_length_filter]
    exact Nat.le_trans (w.countId_owned_le u.id) (hv.count_le u.id)
  have hmem : u ∈ w.owned.filter (·.id = u.id) := List.mem_filter.mpr ⟨hu, by simp⟩
  obtain ⟨v, hv'⟩ : ∃ v, w.owned.filter (·.id = u.id) = [v] :=
    List.length_eq_one_iff.mp (Nat.le_antisymm hle (List.length_pos_of_mem hmem))
  rw [hv', List.mem_singleton] at hmem
  rw [hv', hmem]

/-- A task with the data of `t` is where it can be run. -/
theorem Valid.holds (hv : w.Valid) (hu : u ∈ w.owned) (hid : u.id = t.id)
    (hs : u.scenario = t.scenario) (hc : u.callback = t.callback) (hl : u.logic.isSome = true) :
    w.Holds t :=
  ⟨u, hid ▸ hv.owned_eq hu, hs, hc, hl⟩

theorem Holds.mem_held (h : w.Holds t) : ∃ u ∈ w.held, u.id = t.id ∧ u.logic.isSome = true := by
  obtain ⟨u, hu, -, -, hl⟩ := h
  have hmem : u ∈ w.owned.filter (·.id = t.id) := by simp [hu]
  obtain ⟨hm, hid⟩ := List.mem_filter.mp hmem
  exact ⟨u, mem_held_of_owned hm, of_decide_eq_true hid, hl⟩

/-- A task that has been freed is not held. -/
theorem Valid.not_held (hv : w.Valid) (hf : .freeTask i ∈ w.context.out) :
    (∀ u ∈ w.held, u.id ≠ i) ∧ w.freed i = 1 := by
  have hcount := hv.count i
  have hpos : 0 < w.freed i := List.count_pos_iff.mpr hf
  split at hcount
  · exact ⟨countId_eq_zero.mp (by omega), by omega⟩
  · omega

/-- Whether the user has been told decides about a task that has been freed. -/
theorem Valid.owns_freed (hv : w.Valid) (hf : .freeTask t.id ∈ w.context.out) :
    w.Owns t ↔ ∃ s, told t.id w.context.out = [s] := by
  obtain ⟨hheld, hfreed⟩ := hv.not_held hf
  constructor
  · rintro (h | h)
    · obtain ⟨u, hu, hid, -⟩ := h.mem_held
      exact absurd hid (hheld u hu)
    · exact h.2.2
  · exact fun h => .inr ⟨hheld, hfreed, h⟩

theorem owns_returns (s : IotcState) : (w.returns s).Owns t ↔ w.Owns t := Iff.rfl

/-! ## A PUBLISH of QoS 0 -/

/-- The state in which a new task of QoS 0 has its turn in the same call: the tasks before it have all
been run, and have ended at once. -/
def turn (w : World) : Option World :=
  if w.currentQ0Task.isSome then none
  else (runQ0Tasks w.q0Tasks w).filter fun w₁ => w₁.currentQ0Task.isNone && w₁.q0Tasks.isEmpty

/-- The head of the queue is run. -/
theorem runQ0Tasks_started (hq : t.Queued) (hc : w.currentQ0Task = none) (hw : ¬w.waits t)
    (hr : execute (w.record (.run t.id)).context t ⟨true, .ok, none⟩ = some r) :
    runQ0Tasks (t :: ts) w =
      { w.record (.run t.id) with context := r.context, q0Tasks := ts, currentQ0Task := some r.task }.leave
        r.task.id (runQ0Tasks ts) r.exit := by
  rw [runQ0Tasks, freeCurrent_of_none hc]
  dsimp only
  rw [if_neg (show ¬(_ ∧ _) from hw), hq.logic]
  dsimp only
  rw [hr]

/-- The last task of the queue has its turn. -/
theorem runQ0Tasks_publish {d : PublishData} (hq : t.Queued) (hd : t.publishData = some d)
    (hc : w.currentQ0Task = none) (hst : w.context.stopped = false)
    (ht : w.context.timeouts t.id = none) :
    ∃ w', runQ0Tasks [t] w = some w' ∧
      (w.context.connection.connectionState = .opening → t ∈ w'.q0Tasks) ∧
      (w.context.connection.connectionState ≠ .opening →
        (w.context.builds t = true → w'.currentQ0Task = some { t with cs := .sent }) ∧
        (w.context.builds t = false → .freeTask t.id ∈ w'.context.out ∧
          ∃ s, told t.id w'.context.out =
            told t.id w.context.out ++ if w.context.tells t then [s] else [])) := by
  have hs : t.scenario = .publish (some d) := publishData_eq_some.mp hd
  by_cases ho : w.context.connection.connectionState = .opening
  · rw [runQ0Tasks, freeCurrent_of_none hc]
    dsimp only
    rw [if_pos ⟨ho, by simp [hs]⟩]
    exact ⟨_, rfl, fun _ => by simp [returns], fun hno => absurd ho hno⟩
  · obtain ⟨r, hr, hfirst⟩ := doMqttPublishQ0_firstPublish
      (c := (w.record (.run t.id)).context) hd hq.cs hst
    have hrun : execute (w.record (.run t.id)).context t ⟨true, .ok, none⟩ = some r := by
      unfold execute
      rw [if_pos rfl]
      simp only [coroutine, hs, hq.qos]
      exact hr
    rw [runQ0Tasks_started hq hc (fun h => ho h.1) hrun]
    have hid := (execute_outcome hrun).task.id
    have hbuilds : (w.record (.run t.id)).context.builds t = w.context.builds t := rfl
    cases hb : w.context.builds t with
    | true =>
      obtain ⟨he, htask⟩ := hfirst.sends (hbuilds.trans hb)
      cases hexit : r.exit with
      | keep s =>
        refine ⟨_, rfl, fun h => absurd h ho, fun _ => ⟨fun _ => ?_, fun h => Bool.noConfusion h⟩⟩
        exact congrArg some htask
      | finalize s => rw [hexit] at he; cases he
      | finalizeThenReset s => rw [hexit] at he; cases he
    | false =>
      obtain ⟨⟨s, he⟩, s', htold⟩ := hfirst.fails (hbuilds.trans hb)
      have hunarmed : r.context.timeouts r.task.id = none := by
        rw [hid]
        exact (execute_outcome hrun).unarmed (.of_none ht) (by rw [he]; rfl)
      -- the task is freed by the start of the next one, and there is none
      have hout : ({ w.record (.run t.id) with
          context := r.context, q0Tasks := [], currentQ0Task := some r.task } : World).freeCurrent.context.out =
          r.context.out ++ [.freeTask t.id] := by
        have hfree := ran_freeCurrent (w := { w.record (.run t.id) with q0Tasks := [] }) hid hunarmed
        exact congrArg (fun w : World => w.context.out) hfree
      rw [he]
      obtain ⟨s₁, h₁⟩ := leave_finalize _ (s := s) hunarmed (show runQ0Tasks []
        { w.record (.run t.id) with context := r.context, q0Tasks := [], currentQ0Task := some r.task } =
          some _ from rfl)
      refine ⟨_, h₁, fun h => absurd h ho, fun _ => ⟨fun h => Bool.noConfusion h, fun _ => ⟨?_, s', ?_⟩⟩⟩
      · exact (congrArg (Output.freeTask t.id ∈ ·) hout).mpr (by simp)
      · have hrest : told t.id [.freeTask t.id] = [] := rfl
        refine (congrArg (told t.id) hout).trans ?_
        rw [told_append, hrest, List.append_nil, htold]
        change told t.id (w.context.out ++ [.run t.id]) ++ _ = _
        have hstart : told t.id [.run t.id] = [] := rfl
        rw [told_append, hstart, List.append_nil]
        rfl

/-! ## The call -/

/-- A task of a user that the layer takes. -/
theorem pushTask_user (hst : w.context.stopped = false)
    (hs : (∃ d, t.scenario = .publish d) ∨ ∃ d, t.scenario = .subscribe d) :
    w.pushTask t .ok = (w.runTask (setLogic t)).map (·.returns .ok) := by
  unfold pushTask
  rw [hst, if_neg (by decide), if_neg (by decide)]
  rcases hs with ⟨d, hs⟩ | ⟨d, hs⟩ <;> rw [hs, if_neg (by simp), if_neg (by simp)]

theorem runTask_q0 (hq : t.qos = .atMostOnce) (hp : t.priority = .normal)
    (hst : w.context.stopped = false) :
    w.runTask t =
      if w.currentQ0Task.isNone then runQ0Tasks (w.q0Tasks ++ [t]) w
      else some ({ w with q0Tasks := w.q0Tasks ++ [t] }.returns .ok) := by
  unfold runTask
  rw [if_pos hq, hp]
  dsimp only
  split
  · unfold runNextQ0Task
    rw [if_pos (layerData_of_not_stopped hst)]
    exact runQ0Tasks_congr (w.q0Tasks ++ [t]) w (w.q0Tasks ++ [t]) w.result
  · rfl

theorem runTask_q12 (hq : t.qos ≠ .atMostOnce) :
    w.runTask t =
      if w.context.connection.connectionState = .opened then
        (w.track t).resume .q12 { t with msgId := (w.lastMsgId + 1) % 2 ^ 16 } id
      else some ((w.track t).returns .ok) := by
  unfold runTask
  rw [if_neg hq]
  rfl

/-- The layer does not work: the task is freed, and nobody is told. -/
theorem submit_stopped {q : Request} {o : Oracle} (hst : w.context.stopped = true) :
    step w (.submit q, o) =
      some (((w.withOracle o).made.freeTasks [q.task w.nextTask]).returns .ok) := by
  change (w.withOracle o).made.pushTask (q.task w.nextTask) .ok = _
  unfold pushTask
  exact if_pos hst

theorem not_owns_stopped {q : Request} {o : Oracle} (hs : w.Sound) (hst : w.context.stopped = true)
    (htold : told w.nextTask w.context.out = []) :
    ∃ w', step w (.submit q, o) = some w' ∧ ¬w'.Owns (q.task w.nextTask) := by
  refine ⟨_, submit_stopped hst, fun h => ?_⟩
  have hv := (step_sound hs (submit_stopped (q := q) (o := o) hst)).toValid
  have hid := q.task_id w.nextTask
  obtain ⟨s, hs'⟩ := (hv.owns_freed (by simp [returns, freeTasks, World.withContext])).mp h
  change told _ (w.context.out ++ [.freeTask (q.task w.nextTask).id]) = [s] at hs'
  rw [told_append, hid, htold] at hs'
  cases hs'

/-- A PUBLISH of QoS 0 is kept: its turn does not come, or its message is built, or its user is told. -/
def KeepsQ0 (w : World) (t : Task) : Prop :=
  ∀ w₁, w.turn = some w₁ → w.context.connection.connectionState = .opening ∨
    w₁.context.builds t = true ∨ w₁.context.tells t = true

theorem Valid.distinct_q0 (hv : w.Valid) : DistinctIds w.q0Tasks := by
  refine List.nodup_iff_count.mpr fun i => ?_
  have hle := Nat.le_trans (w.countId_owned_le i) (hv.count_le i)
  unfold owned at hle
  rw [countId_append, countId_append] at hle
  have hcount : (w.q0Tasks.map Task.id).count i = countId i w.q0Tasks := by
    simp [countId, List.count, List.countP_map, Function.comp_def, beq_eq_decide]
  omega

theorem Valid.ne_of_q0 (hv : w.Valid) (hu : u ∈ w.q0Tasks) : u.id ≠ w.nextTask :=
  Nat.ne_of_lt (hv.id_lt (mem_held_of_owned (List.mem_append_right _ (List.mem_append_left _ hu))))

theorem submit_publishQ0 (topic : Option Bytes) (data : Bytes) (retain : Bool)
    (callback : Option UserHandle) (o : Oracle) (hs : w.Sound) (hst : w.context.stopped = false)
    (htold : told w.nextTask w.context.out = []) :
    let q := Request.publish topic data .atMostOnce retain callback
    ∃ w', step w (.submit q, o) = some w' ∧
      (w'.Owns (q.task w.nextTask) ↔ (w.withOracle o).made.KeepsQ0 (q.task w.nextTask)) := by
  intro q
  let t := setLogic (q.task w.nextTask)
  have hv := hs.toValid
  have hq : t.Queued := (Request.task_new w.nextTask q).queued rfl
  have hpush : step w (.submit q, o) =
      (if w.currentQ0Task.isNone then runQ0Tasks (w.q0Tasks ++ [t]) (w.withOracle o).made
        else some ({ (w.withOracle o).made with q0Tasks := w.q0Tasks ++ [t] }.returns .ok)).map
          (·.returns .ok) := by
    refine (pushTask_user (w := (w.withOracle o).made) hst (.inl ⟨_, rfl⟩)).trans ?_
    exact congrArg (Option.map (·.returns .ok))
      (runTask_q0 (w := (w.withOracle o).made) hq.qos rfl hst)
  have howns {w' : World} (h : step w (.submit q, o) = some w') {u : Task} (hu : u ∈ w'.owned)
      (hid : u.id = t.id) (hscenario : u.scenario = t.scenario) (hcb : u.callback = t.callback)
      (hl : u.logic = t.logic) : w'.Owns (q.task w.nextTask) :=
    .inl ((step_sound hs h).holds hu hid hscenario hcb (hl ▸ rfl))
  split at hpush
  · next hc =>
    have hc : w.currentQ0Task = none := Option.isNone_iff_eq_none.mp hc
    have hunarmed : w.context.timeouts t.id = none := hv.unarmed rfl
    have hnone (u : Task) : (w.withOracle o).made.currentQ0Task ≠ some u := fun hu =>
      Option.some_ne_none u (hu.symm.trans hc)
    obtain ⟨w₁, h₁, hstill, hother⟩ := runQ0Tasks_first (w := (w.withOracle o).made) hv.q0
      hv.distinct_q0 (fun u hu => Queued.unarmed (w := w) hv hu)
      (fun u hu => absurd hu (hnone u))
    have hbystander : Bystander t.id (w.withOracle o).made.context w₁.context :=
      hother t.id (fun u hu => hv.ne_of_q0 hu) fun u hu => absurd hu (hnone u)
    have hturn : (w.withOracle o).made.turn =
        (some w₁).filter fun w₁ => w₁.currentQ0Task.isNone && w₁.q0Tasks.isEmpty := by
      unfold turn
      rw [if_neg (by simp [show (w.withOracle o).made.currentQ0Task = none from hc]), ← h₁]
      rfl
    rcases runQ0Tasks_concat t hv.q0 h₁ with ⟨⟨hc₁, hq₁⟩, f, hf⟩ | ⟨hthrough, w', hw', hmem⟩
    · -- its turn comes
      have hturn : (w.withOracle o).made.turn = some w₁ := by
        rw [hturn, Option.filter_some, if_pos (by simp [hc₁, hq₁])]
      obtain ⟨w₂, h₂, hwait, hrun⟩ := runQ0Tasks_publish hq (d := ⟨topic, data, retain⟩) rfl hc₁
        (hstill.stopped.trans hst) (hbystander.timeouts.trans hunarmed)
      rw [hstill.connection] at hwait hrun
      change w.context.connection.connectionState = .opening → _ at hwait
      change w.context.connection.connectionState ≠ .opening → _ at hrun
      rw [hf, h₂] at hpush
      refine ⟨_, hpush, ?_⟩
      have hkeeps : (w.withOracle o).made.KeepsQ0 (q.task w.nextTask) ↔
          w.context.connection.connectionState = .opening ∨ w₁.context.builds t = true ∨
            w₁.context.tells t = true := by
        refine ⟨fun h => h w₁ hturn, fun h w₃ h₃ => ?_⟩
        obtain rfl := Option.some.inj (hturn.symm.trans h₃)
        exact h
      rw [hkeeps]
      by_cases ho : w.context.connection.connectionState = .opening
      · exact iff_of_true (howns hpush (u := t) (List.mem_append_right _
          (List.mem_append_left _ (hwait ho))) rfl rfl rfl rfl) (.inl ho)
      · obtain ⟨hbuilt, hfailed⟩ := hrun ho
        cases hb : w₁.context.builds t with
        | true =>
          have hcurrent := hbuilt hb
          refine iff_of_true (howns hpush (u := { t with cs := .sent }) ?_ rfl rfl rfl rfl)
            (.inr (.inl rfl))
          exact List.mem_append_left _ (by simp [returns, hcurrent])
        | false =>
          obtain ⟨hfree, s, hs₂⟩ := hfailed hb
          have hfreed := (step_sound hs hpush).owns_freed (t := q.task w.nextTask) hfree
          rw [hfreed]
          have htold₂ : told (q.task w.nextTask).id w₂.context.out =
              if w₁.context.tells t = true then [s] else [] := by
            rw [show told (q.task w.nextTask).id _ = _ from hs₂, hbystander.told,
              show told t.id (w.withOracle o).made.context.out = _ from htold, List.nil_append]
          change (∃ s, told (q.task w.nextTask).id w₂.context.out = [s]) ↔ _
          rw [htold₂]
          cases w₁.context.tells t <;> simp [ho]
    · -- a task before it is kept, or the queue has to wait
      rw [hw'] at hpush
      refine ⟨_, hpush, iff_of_true ?_ fun w₂ h₂ => ?_⟩
      · exact howns hpush (u := t) (List.mem_append_right _ (List.mem_append_left _ hmem))
          rfl rfl rfl rfl
      · rw [hturn, Option.filter_some, if_neg (by simpa using hthrough)] at h₂
        cases h₂
  · next hc =>
    refine ⟨_, hpush, fun _ w₁ h₁ => ?_, fun _ => ?_⟩
    · unfold turn at h₁
      have hsome : (w.withOracle o).made.currentQ0Task.isSome = true :=
        Option.isSome_iff_ne_none.mpr fun h => hc (Option.isNone_iff_eq_none.mpr h)
      rw [if_pos hsome] at h₁
      cases h₁
    · exact howns hpush (u := t) (by simp [owned, returns]) rfl rfl rfl rfl

/-! ## A task with an id of its own -/

/-- The task as it is queued. -/
theorem submit_tracked {q : Request} {o : Oracle} (hst : w.context.stopped = false)
    (hq : (q.task w.nextTask).qos ≠ .atMostOnce) :
    step w (.submit q, o) =
      (if w.context.connection.connectionState = .opened then
        ((w.withOracle o).made.track (setLogic (q.task w.nextTask))).resume .q12
          (w.tracked (q.task w.nextTask)) id
        else some (((w.withOracle o).made.track (setLogic (q.task w.nextTask))).returns .ok)).map
          (·.returns .ok) := by
  have hs : (∃ d, (q.task w.nextTask).scenario = .publish d) ∨
      ∃ d, (q.task w.nextTask).scenario = .subscribe d := by
    cases q with
    | publish topic data qos retain callback => exact .inl ⟨_, rfl⟩
    | subscribe topic qos handler => exact .inr ⟨_, rfl⟩
    | shutdown => exact absurd rfl hq
  refine (pushTask_user (w := (w.withOracle o).made) hst hs).trans ?_
  exact congrArg (Option.map (·.returns .ok))
    (runTask_q12 (w := (w.withOracle o).made) (by rw [setLogic_qos]; exact hq))

theorem tracked_mem_owned (w : World) (o : Oracle) (q : Request) (s s' : IotcState) :
    w.tracked (q.task w.nextTask) ∈
      ((((w.withOracle o).made.track (setLogic (q.task w.nextTask))).returns s).returns s').owned :=
  List.mem_append_right _ (List.mem_append_right _ (List.mem_append_right _ (List.mem_singleton_self _)))

/-- The task is kept by its run. -/
theorem settle_keep {s : IotcState} (he : r.exit = .keep s) :
    w.settle p r = some ((w.ran p r).returns s) := by
  unfold settle
  rw [he]
  rfl

/-- The task has ended. -/
theorem settle_finalize {s : Option IotcState} (he : r.exit = .finalize s)
    (hq : r.task.qos ≠ .atMostOnce) (hu : r.context.timeouts r.task.id = none) :
    ∃ w', w.settle .q12 r = some w' ∧
      w'.context.out = r.context.out ++ [.freeTask r.task.id] := by
  unfold settle
  rw [he]
  have hend : finalizeTask r.task .q12 ((w.withContext r.context).put r.task .q12) = some _ :=
    if_neg hq
  obtain ⟨s', h'⟩ := leave_finalize r.task.id (s := s) hu hend
  exact ⟨_, h', rfl⟩

/-- The task has ended, and is written to then. -/
theorem settle_reset {s : IotcState} (he : r.exit = .finalizeThenReset s)
    (hq : r.task.qos ≠ .atMostOnce) (hu : r.context.timeouts r.task.id = none) :
    ∃ w', w.settle .q12 r = some w' ∧
      w'.context.out = r.context.out ++ [.freeTask r.task.id, .writeFreed r.task.id] := by
  unfold settle leave
  rw [he]
  dsimp only
  have harmed : ((w.withContext r.context).put r.task .q12).context.armed r.task.id = false :=
    Context.armed_eq_false.mpr hu
  rw [harmed, if_neg (by decide)]
  unfold finalizeTask
  rw [if_neg hq]
  refine ⟨_, rfl, ?_⟩
  exact List.append_assoc _ _ _

/-- The first run of the task. -/
theorem resume_tracked {o : Oracle} (hl : (setLogic t).logic = some ⟨true, .ok, none⟩)
    (hr : execute (w.withOracle o).context (w.tracked t) ⟨true, .ok, none⟩ = some r) :
    ((w.withOracle o).made.track (setLogic t)).resume .q12 (w.tracked t) id =
      ((w.withOracle o).made.track (setLogic t)).settle .q12 r := by
  have hset : { w.tracked t with logic := some ⟨true, .ok, none⟩ } = w.tracked t := by
    unfold tracked
    rw [← hl]
  unfold resume
  rw [show (w.tracked t).logic = _ from hl]
  dsimp only [Option.map_some, id]
  have hexecute : execute ((w.withOracle o).made.track (setLogic t)).context (w.tracked t)
      ⟨true, .ok, none⟩ = some r := hr
  rw [hset, hexecute]
  rfl

theorem ran_mem_owned (w : World) (o : Oracle) (hid : r.task.id = t.id) (s s' : IotcState) :
    r.task ∈ (((((w.withOracle o).made.track (setLogic t)).ran .q12 r).returns s).returns s').owned :=
  List.mem_append_right _ (List.mem_append_right _ (mem_putTask.mpr (.inl ⟨rfl, w.tracked t,
    List.mem_append_right _ (List.mem_singleton_self _), by rw [hid]; exact setLogic_id t⟩)))

theorem submit_publishQ1 (topic : Option Bytes) (data : Bytes) (retain : Bool)
    (callback : Option UserHandle) (o : Oracle) (hs : w.Sound) (hst : w.context.stopped = false)
    (htold : told w.nextTask w.context.out = []) :
    let q := Request.publish topic data .atLeastOnce retain callback
    ∃ w', step w (.submit q, o) = some w' ∧
      (w'.Owns (q.task w.nextTask) ↔ w.context.connection.connectionState ≠ .opened ∨
        (w.withOracle o).context.builds (q.task w.nextTask) = true ∨
        (w.withOracle o).context.tells (q.task w.nextTask) = true) := by
  intro q
  have hqos : (q.task w.nextTask).qos ≠ .atMostOnce := fun h => Qos.noConfusion h
  have hsubmit := submit_tracked (w := w) (q := q) (o := o) hst hqos
  by_cases ho : w.context.connection.connectionState = .opened
  · obtain ⟨r, hr, hfirst⟩ := doMqttPublishQ1_firstPublish (c := (w.withOracle o).context)
      (t := w.tracked (q.task w.nextTask)) (d := ⟨topic, data, retain⟩) rfl rfl hst
      (Context.armed_eq_false.mpr (hs.toValid.unarmed (t := w.tracked (q.task w.nextTask)) rfl))
    have hrun : execute (w.withOracle o).context (w.tracked (q.task w.nextTask)) ⟨true, .ok, none⟩ =
        some r := hr
    have hout := execute_outcome hrun
    have hid : r.task.id = (q.task w.nextTask).id := hout.task.id
    rw [if_pos ho, resume_tracked rfl hrun] at hsubmit
    cases hb : (w.withOracle o).context.builds (w.tracked (q.task w.nextTask)) with
    | true =>
      obtain ⟨he, htask⟩ := hfirst.sends hb
      cases hexit : r.exit with
      | keep s =>
        rw [settle_keep hexit] at hsubmit
        refine ⟨_, hsubmit, iff_of_true (.inl ?_) (.inr (.inl hb))⟩
        exact (step_sound hs hsubmit).holds (ran_mem_owned w o hid s .ok) hid (by rw [htask]; rfl)
          (by rw [htask]; rfl) (by rw [htask]; rfl)
      | finalize s => rw [hexit] at he; cases he
      | finalizeThenReset s => rw [hexit] at he; cases he
    | false =>
      obtain ⟨⟨s, he⟩, s', htold'⟩ := hfirst.fails hb
      have hu : r.context.timeouts r.task.id = none := by
        rw [hid]
        exact hout.unarmed (.of_none (hs.toValid.unarmed rfl)) (by rw [he]; rfl)
      obtain ⟨w', hw', hout'⟩ := settle_finalize he (hout.task.qos ▸ hqos) hu
      rw [hw'] at hsubmit
      refine ⟨_, hsubmit, ?_⟩
      rw [(step_sound hs hsubmit).owns_freed (by rw [← hid]; simp [returns, hout'])]
      have htold₂ : told (q.task w.nextTask).id w'.context.out =
          if (w.withOracle o).context.tells (q.task w.nextTask) = true then [s'] else [] := by
        have hrest : told (q.task w.nextTask).id [.freeTask r.task.id] = [] := rfl
        rw [hout', told_append, hrest, List.append_nil]
        refine htold'.trans ?_
        rw [show told (w.tracked (q.task w.nextTask)).id (w.withOracle o).context.out = [] from htold]
        rfl
      change (∃ s, told (q.task w.nextTask).id w'.context.out = [s]) ↔ _
      have hb' : (w.withOracle o).context.builds (q.task w.nextTask) = false := hb
      rw [htold₂, hb']
      cases (w.withOracle o).context.tells (q.task w.nextTask) <;> simp [ho]
  · rw [if_neg ho] at hsubmit
    refine ⟨_, hsubmit, iff_of_true (.inl ?_) (.inl ho)⟩
    exact (step_sound hs hsubmit).holds (tracked_mem_owned w o q .ok .ok) rfl rfl rfl rfl

/-- A PUBLISH of QoS 2 gets no coroutine, and its data are freed. -/
theorem submit_publishQ2 (topic : Option Bytes) (data : Bytes) (retain : Bool)
    (callback : Option UserHandle) (o : Oracle) (hs : w.Sound) (hst : w.context.stopped = false) :
    let q := Request.publish topic data .exactlyOnce retain callback
    ∃ w', step w (.submit q, o) = some w' ∧ ¬w'.Owns (q.task w.nextTask) := by
  intro q
  have hqos : (q.task w.nextTask).qos ≠ .atMostOnce := fun h => Qos.noConfusion h
  have hsubmit := submit_tracked (w := w) (q := q) (o := o) hst hqos
  have hresume : ((w.withOracle o).made.track (setLogic (q.task w.nextTask))).resume .q12
      (w.tracked (q.task w.nextTask)) id =
        some (((w.withOracle o).made.track (setLogic (q.task w.nextTask))).returns
          .unsetHandlerError) := rfl
  rw [hresume] at hsubmit
  have hnot {s : IotcState}
      (h : step w (.submit q, o) =
        some ((((w.withOracle o).made.track (setLogic (q.task w.nextTask))).returns s).returns .ok)) :
      ¬((((w.withOracle o).made.track (setLogic (q.task w.nextTask))).returns s).returns .ok).Owns
        (q.task w.nextTask) := by
    have hv := step_sound hs h
    have hmem := mem_held_of_owned (tracked_mem_owned w o q s .ok)
    rintro (hholds | hconcluded)
    · obtain ⟨u, hu, hid, hl⟩ := hholds.mem_held
      obtain rfl := hv.eq_of_held hmem hu hid
      cases hl
    · exact hconcluded.1 _ hmem rfl
  split at hsubmit
  · exact ⟨_, hsubmit, hnot hsubmit⟩
  · exact ⟨_, hsubmit, hnot hsubmit⟩

theorem submit_subscribe (topic : Bytes) (qos : Qos) (handler : UserHandle) (o : Oracle)
    (hs : w.Sound) (hst : w.context.stopped = false) (htold : told w.nextTask w.context.out = []) :
    let q := Request.subscribe topic qos handler
    ∃ w', step w (.submit q, o) = some w' ∧
      (w'.Owns (q.task w.nextTask) ↔ w.context.connection.connectionState ≠ .opened ∨
        o.mem.headD true = true) := by
  intro q
  have hqos : (q.task w.nextTask).qos ≠ .atMostOnce := fun h => Qos.noConfusion h
  have hsubmit := submit_tracked (w := w) (q := q) (o := o) hst hqos
  by_cases ho : w.context.connection.connectionState = .opened
  · obtain ⟨r, hr, hsends, hfails⟩ := doMqttSubscribe_first (c := (w.withOracle o).context)
      (t := w.tracked (q.task w.nextTask)) (d := ⟨topic, handler, qos⟩) rfl rfl hst
    have hrun : execute (w.withOracle o).context (w.tracked (q.task w.nextTask)) ⟨true, .ok, none⟩ =
        some r := hr
    have hout := execute_outcome hrun
    have hid : r.task.id = (q.task w.nextTask).id := hout.task.id
    rw [if_pos ho, resume_tracked rfl hrun] at hsubmit
    cases hm : o.mem.headD true with
    | true =>
      obtain ⟨he, htask⟩ := hsends hm
      cases hexit : r.exit with
      | keep s =>
        rw [settle_keep hexit] at hsubmit
        refine ⟨_, hsubmit, iff_of_true (.inl ?_) (.inr rfl)⟩
        exact (step_sound hs hsubmit).holds (ran_mem_owned w o hid s .ok) hid (by rw [htask]; rfl)
          (by rw [htask]; rfl) (by rw [htask]; rfl)
      | finalize s => rw [hexit] at he; cases he
      | finalizeThenReset s => rw [hexit] at he; cases he
    | false =>
      obtain ⟨⟨s, he⟩, hsame⟩ := hfails hm
      have hu : r.context.timeouts r.task.id = none := by
        rw [hid]
        exact hout.unarmed (.of_none (hs.toValid.unarmed rfl)) (by rw [he]; rfl)
      obtain ⟨w', hw', hout'⟩ := settle_reset he (hout.task.qos ▸ hqos) hu
      rw [hw'] at hsubmit
      refine ⟨_, hsubmit, iff_of_false ?_ (by simp [ho])⟩
      rw [(step_sound hs hsubmit).owns_freed (by rw [← hid]; simp [returns, hout'])]
      rintro ⟨s', hs'⟩
      have hrest : told (q.task w.nextTask).id [.freeTask r.task.id, .writeFreed r.task.id] = [] := rfl
      have hnone : told (q.task w.nextTask).id w'.context.out = [] := by
        rw [hout', told_append, hrest, List.append_nil, hsame]
        exact htold
      rw [show told (q.task w.nextTask).id w'.context.out = [s'] from hs'] at hnone
      cases hnone
  · rw [if_neg ho] at hsubmit
    refine ⟨_, hsubmit, iff_of_true (.inl ?_) (.inl ho)⟩
    exact (step_sound hs hsubmit).holds (tracked_mem_owned w o q .ok .ok) rfl rfl rfl rfl

/-! ## Every request -/

/-- **What a new task needs to be kept**: the layer works, the task has a coroutine, and if it is run
in the call and its message cannot be built, its user is told, which a SUBSCRIBE never does. -/
def Keeps (w : World) (o : Oracle) (q : Request) : Prop :=
  w.context.stopped = false ∧ match q with
  | .publish _ _ .atMostOnce _ _ => (w.withOracle o).made.KeepsQ0 (q.task w.nextTask)
  | .publish _ _ .atLeastOnce _ _ => w.context.connection.connectionState ≠ .opened ∨
      (w.withOracle o).context.builds (q.task w.nextTask) = true ∨
      (w.withOracle o).context.tells (q.task w.nextTask) = true
  | .publish _ _ .exactlyOnce _ _ => False
  | .subscribe .. => w.context.connection.connectionState ≠ .opened ∨ o.mem.headD true = true
  | .shutdown => False

/-- **The layer owns the task of a user, or has run it and told the user**, exactly when it keeps it. -/
theorem submit_owns_iff {q : Request} {o : Oracle} (hs : w.Sound) (hq : q ≠ .shutdown)
    (htold : told w.nextTask w.context.out = []) :
    ∃ w', step w (.submit q, o) = some w' ∧ (w'.Owns (q.task w.nextTask) ↔ w.Keeps o q) := by
  cases hst : w.context.stopped with
  | true =>
    obtain ⟨w', h, hno⟩ := not_owns_stopped (q := q) (o := o) hs hst htold
    refine ⟨w', h, iff_of_false hno fun hk => ?_⟩
    rw [hk.1] at hst
    cases hst
  | false =>
    have hkeeps {P : Prop} (hP : P ↔ w.Keeps o q) {w' : World} (h : w'.Owns (q.task w.nextTask) ↔ P) :
        w'.Owns (q.task w.nextTask) ↔ w.Keeps o q := h.trans hP
    cases q with
    | shutdown => exact absurd rfl hq
    | subscribe topic qos handler =>
      obtain ⟨w', h, hiff⟩ := submit_subscribe topic qos handler o hs hst htold
      exact ⟨w', h, hkeeps (by simp [Keeps, hst]) hiff⟩
    | publish topic data qos retain callback =>
      cases qos with
      | atMostOnce =>
        obtain ⟨w', h, hiff⟩ := submit_publishQ0 topic data retain callback o hs hst htold
        exact ⟨w', h, hkeeps (by simp [Keeps, hst]) hiff⟩
      | atLeastOnce =>
        obtain ⟨w', h, hiff⟩ := submit_publishQ1 topic data retain callback o hs hst htold
        exact ⟨w', h, hkeeps (by simp [Keeps, hst]) hiff⟩
      | exactlyOnce =>
        obtain ⟨w', h, hno⟩ := submit_publishQ2 topic data retain callback o hs hst
        exact ⟨w', h, iff_of_false hno fun hk => hk.2⟩

/-! ## Every reachable state -/

/-- Nothing is asked of the tasks. -/
theorem anything_rule : TaskRule anything (fun _ => True) (fun _ _ => True) fun _ _ => True where
  other _ _ := trivial
  otherGone _ _ := trivial
  logic _ _ := trivial
  start _ _ := trivial
  keep _ _ _ _ _ := trivial
  finish _ _ _ _ _ := trivial
  free _ := trivial
  refused _ _ := trivial
  queued _ _ _ _ := trivial
  answering _ _ _ := trivial

/-- A task that is still to be made has told nobody anything. -/
theorem Reachable.told_next (h : w.Reachable) : told w.nextTask w.context.out = [] := by
  obtain ⟨es, h⟩ := h
  have hinv := Infra.run_invariant (P := fun w : World =>
      (w.Each (fun _ _ => True) fun _ _ => True) ∧ w.Sound)
    (fun w e w' hw hstep => ⟨hw.1.step anything_rule hw.2 (fun _ _ => trivial)
      (admits_anything w e.1) (fun _ _ _ _ => .inl trivial) hstep, step_sound hw.2 hstep⟩)
    ⟨initial_each, initial_sound⟩ h
  exact told_eq_nil hinv.1.not_about_next

end World

end IotDeviceSdk.Mqtt.Logic
