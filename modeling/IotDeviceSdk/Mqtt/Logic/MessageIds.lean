import Mathlib.Data.List.Nodup
import IotDeviceSdk.Mqtt.Logic.Sent

/-!
# The ids of the messages

`run_task` counts the ids up in sixteen bits. A task that is acknowledged late, or not at all, may
still have an id when the counter comes around to it, and the counter comes around to 0, which
stands for the current task of QoS 0.

In every run in which each new id is new (`FreshId`), the tasks of `q12Tasks` have different ids and
none has 0 (`IdsOk`), so that a notification or a response finds the task that it is for.
-/

namespace IotDeviceSdk.Mqtt.Logic.World

variable {w w' : World} {t u : Task} {ts : List Task} {p : Place} {r : CoResult}

/-- The tasks can be told apart by their ids, and from the tasks of QoS 0. -/
structure DistinctMsgIds (ts : List Task) : Prop where
  nonzero : ∀ t ∈ ts, t.msgId ≠ 0
  nodup : (ts.map Task.msgId).Nodup

theorem DistinctMsgIds.of_map_eq {us : List Task} (h : DistinctMsgIds ts)
    (hmap : us.map Task.msgId = ts.map Task.msgId) : DistinctMsgIds us where
  nonzero u hu := by
    have hm : u.msgId ∈ ts.map Task.msgId := hmap ▸ List.mem_map_of_mem hu
    obtain ⟨t, ht, hid⟩ := List.mem_map.mp hm
    exact hid ▸ h.nonzero t ht
  nodup := hmap ▸ h.nodup

theorem DistinctMsgIds.sublist {us : List Task} (h : DistinctMsgIds ts) (hs : us.Sublist ts) :
    DistinctMsgIds us where
  nonzero u hu := h.nonzero u (hs.subset hu)
  nodup := h.nodup.sublist (hs.map _)

theorem distinctMsgIds_nil : DistinctMsgIds [] := ⟨by simp, by simp⟩

theorem DistinctMsgIds.append (h : DistinctMsgIds ts) (hz : t.msgId ≠ 0)
    (hne : ∀ u ∈ ts, u.msgId ≠ t.msgId) : DistinctMsgIds (ts ++ [t]) where
  nonzero u hu := by
    rcases List.mem_append.mp hu with hu | hu
    · exact h.nonzero u hu
    · exact List.mem_singleton.mp hu ▸ hz
  nodup := by
    rw [List.map_append, List.map_singleton, List.nodup_append]
    refine ⟨h.nodup, List.nodup_singleton _, fun a ha b hb => ?_⟩
    obtain ⟨u, hu, rfl⟩ := List.mem_map.mp ha
    exact List.mem_singleton.mp hb ▸ hne u hu

/-- The task with an id is the one that is found for it. -/
theorem DistinctMsgIds.findTask (h : DistinctMsgIds ts) (hm : t ∈ ts) :
    findTask t.msgId ts = some t := by
  cases hf : World.findTask t.msgId ts with
  | none =>
    have := List.find?_eq_none.mp hf t hm
    simp at this
  | some u =>
    obtain ⟨hu, hid⟩ := findTask_mem hf
    exact congrArg some (List.inj_on_of_nodup_map h.nodup hu hm hid)

/-- The tasks in flight, and those for the next session. -/
structure IdsOk (w : World) : Prop where
  q12 : DistinctMsgIds w.q12Tasks
  saved : DistinctMsgIds w.savedQ12Tasks

theorem IdsOk.of_eq (h : w.IdsOk) (hq : w'.q12Tasks = w.q12Tasks)
    (hs : w'.savedQ12Tasks = w.savedQ12Tasks) : w'.IdsOk :=
  ⟨hq ▸ h.q12, hs ▸ h.saved⟩

/-- A task keeps its id. -/
theorem Valid.map_msgId_putTask (hv : w.Valid) (hp : w.At t .q12) (hid : u.id = t.id)
    (hmsg : u.msgId = t.msgId) :
    (putTask u w.q12Tasks).map Task.msgId = w.q12Tasks.map Task.msgId := by
  unfold putTask
  rw [List.map_map]
  refine List.map_congr_left fun v hm => ?_
  by_cases hvid : v.id = u.id
  · have hvt := hv.eq_of_listAt hp hm (hvid.trans hid)
    rw [Function.comp_apply, if_pos hvid, hmsg, hvt]
  · rw [Function.comp_apply, if_neg hvid]

theorem idsOk_stable : Change.Stable anything IdsOk where
  returns _ h := h.of_eq rfl rfl
  writeFreed _ h := h.of_eq rfl rfl
  keep {w t u p r} hv hw hp hu hr _ := by
    have ht := hr.outcome.task
    cases p with
    | q12 =>
      exact ⟨hw.q12.of_map_eq
        (hv.map_msgId_putTask hp (ht.id.trans hu.id) (ht.msgId.trans hu.msgId)), hw.saved⟩
    | current => exact hw.of_eq rfl rfl
    | q12Recv => exact hw.of_eq rfl rfl
    | leaked => exact hw.of_eq rfl rfl
  finish {w t u p r} hv hw hp hu hr _ := by
    cases p with
    | q12 => exact ⟨hw.q12.sublist List.filter_sublist, hw.saved⟩
    | current => exact hw.of_eq rfl rfl
    | q12Recv => exact hw.of_eq rfl rfl
    | leaked => exact hw.of_eq rfl rfl
  free _ hw _ _ := hw.of_eq rfl rfl
  start _ hw _ _ _ := hw.of_eq rfl rfl
  wait _ hw _ _ _ := hw.of_eq rfl rfl
  quiet _ hw h _ := hw.of_eq h.q12Tasks h.savedQ12Tasks
  register _ _ _ hw := hw.of_eq rfl rfl
  disarm _ _ hw := hw.of_eq rfl rfl

/-- **The next id is new**: it is not 0, and no task has it that is still in flight. -/
def FreshId (w : World) : Event × Oracle → Prop
  | (.submit q, _) =>
    (q.task w.nextTask).qos ≠ .atMostOnce → w.context.stopped = false →
      (w.lastMsgId + 1) % 2 ^ 16 ≠ 0 ∧ ∀ t ∈ w.q12Tasks, t.msgId ≠ (w.lastMsgId + 1) % 2 ^ 16
  | _ => True

/-! ## Every call -/

theorem Pushed.idsOk (h : Pushed w.made t w') (hw : w.IdsOk) (hs : w.Sound)
    (hid : t.id = w.nextTask) (hn : New t)
    (hfresh : t.qos ≠ .atMostOnce → w.context.stopped = false →
      (w.lastMsgId + 1) % 2 ^ 16 ≠ 0 ∧ ∀ u ∈ w.q12Tasks, u.msgId ≠ (w.lastMsgId + 1) % 2 ^ 16) :
    w'.IdsOk := by
  refine idsOk_stable.pushed h hs.toValid hid hn (fun _ => hw.of_eq rfl rfl) (fun _ _ => ?_)
    fun hq hst => ?_
  · exact hw.of_eq rfl rfl
  · obtain ⟨hz, hne⟩ := hfresh hq hst
    exact ⟨hw.q12.append hz hne, hw.saved⟩

theorem restoreSession_idsOk (h : w.IdsOk) : w.restoreSession.IdsOk := by
  unfold restoreSession
  split
  · exact ⟨h.saved, distinctMsgIds_nil⟩
  · exact ⟨h.q12, distinctMsgIds_nil⟩

theorem IdsOk.init (h : w.IdsOk) (s : IotcState) : (w.init s).IdsOk := by
  rcases init_cases w s with ⟨-, -, hinit⟩ | ⟨w₀, hw₀, hinit⟩
  · rw [hinit]
    exact h.of_eq rfl rfl
  · have h₀ : w₀.restoreSession.IdsOk := by
      rcases hw₀ with ⟨-, rfl⟩ | ⟨-, -, rfl⟩
      · exact restoreSession_idsOk h
      · exact restoreSession_idsOk (h.of_eq rfl rfl)
    rcases hinit with ⟨mem, hinit⟩ | ⟨-, -, hinit⟩
    · rw [hinit]
      exact h₀.of_eq rfl rfl
    · rw [hinit]
      exact ⟨distinctMsgIds_nil, h₀.saved⟩

/-- The teardown only takes tasks away. -/
theorem IdsOk.saveSession (h : w.IdsOk) (hs : w.saveSession = some w') : w'.IdsOk := by
  unfold World.saveSession at hs
  split at hs
  · cases hs
  · obtain rfl := Option.some.inj hs
    refine ⟨h.q12.sublist List.filter_sublist, ?_⟩
    exact (h.q12.sublist List.filter_sublist).of_map_eq (by rw [List.map_map]; rfl)

theorem IdsOk.stopCurrent (h : w.IdsOk) (hv : w.Valid) (hs : w.stopCurrent = some w') :
    w'.IdsOk :=
  idsOk_stable.stopCurrent trivial hs hv h (fun _ => h.of_eq rfl rfl) fun _ _ h₁ => h₁.of_eq rfl rfl

theorem IdsOk.savedFor (h : w.IdsOk) (hs : w.saved = some w') : w'.IdsOk := by
  have hcancel : (w.withContext
      (cancelTimeouts (w.q12Tasks ++ w.q12RecvTasks) w.context)).IdsOk := h.of_eq rfl rfl
  rcases saved_cases hs with ⟨-, hs⟩ | ⟨-, rfl⟩
  · exact hcancel.saveSession hs
  · exact hcancel

theorem step_idsOk (h : w.IdsOk) (hs : w.Sound) {e : Event × Oracle} (hf : w.FreshId e)
    (hstep : step w e = some w') : w'.IdsOk := by
  obtain ⟨e, o⟩ := e
  cases step_anything hs hstep with
  | changes he hc => exact idsOk_stable.changes hc (hs.withOracle o) (h.of_eq rfl rfl)
  | expired o' s hk hd => exact h.of_eq rfl rfl
  | @pushed _ t _ hm hk hp =>
    obtain ⟨mem, callbacks, k, heq⟩ := prepared_eq w o e
    have h₀ : (w.prepared o e).IdsOk := by
      rw [heq]
      exact h.of_eq rfl rfl
    have hid : (w.prepared o e).nextTask = w.nextTask := by rw [heq]; rfl
    refine hp.idsOk h₀ (hs.prepared o e) (hm.id_eq.trans hid.symm) hm.new fun hq hst => ?_
    -- only a user makes a task with an id
    cases e with
    | submit q => exact hf (by rwa [show q.task w.nextTask = t from hm.symm]) hst
    | keepalive => exact absurd (congrArg Task.qos hm) hq
    | connect s => exact absurd (congrArg Task.qos hm.2) hq
    | _ => exact hm.elim
  | connection he => exact h.of_eq rfl rfl
  | init s =>
    have h₀ : (w.withOracle o).IdsOk := h.of_eq rfl rfl
    exact h₀.init s
  | teardown s hd htd h₁ h₂ h₃ =>
    have h₀ : (w.withOracle o).IdsOk := h.of_eq rfl rfl
    have hok₂ := (h₀.savedFor h₁).stopCurrent ((hs.withOracle o).valid_of_saved hd h₁) h₂
    obtain rfl := freeLayerData_eq_some h₃
    exact ⟨distinctMsgIds_nil, hok₂.saved⟩

/-! ## The task that a notification or a response is for -/

/-- Each task in flight is the one that its id stands for: its messages carry the id, and what comes
for the id resumes it. -/
structure MessageIds (w : World) : Prop where
  nonzero : ∀ t ∈ w.q12Tasks, t.msgId ≠ 0
  distinct : ∀ t ∈ w.q12Tasks, ∀ u ∈ w.q12Tasks, t.msgId = u.msgId → t = u
  sent : ∀ t ∈ w.q12Tasks, ∀ m, Output.push t.id m ∈ w.context.out → m.messageId = t.msgId
  written : ∀ t ∈ w.q12Tasks, ∀ type, type = .publish ∨ type = .subscribe → ∀ s,
    w.context.stopped = false →
      w.pushWritten t.msgId type s = w.resume .q12 t fun a => { a with state := s }
  response : ∀ t ∈ w.q12Tasks, ∀ m : Received,
    m.message.type = .puback ∨ m.message.type = .suback → m.message.messageId = t.msgId →
      w.context.stopped = false →
        w.pull (some m) .ok =
          w.resume .q12 t fun a => { a with state := .ok, message := some m }

/-- A task of `q12Tasks` sends its id. -/
theorem messageId_of_sends {m : Message} (ht : t.Tracked) (hm : t.Sends m) :
    m.messageId = t.msgId := by
  obtain ⟨-, ⟨⟨d, hs⟩ | ⟨d, hs⟩, -, hq⟩ | ⟨hs, -⟩⟩ := ht
  · simp only [Task.Sends, hs, hq] at hm
    obtain ⟨dup, hm⟩ := hm
    unfold fillWithPublishData at hm
    split at hm
    · cases hm
    · split at hm
      · cases hm
      · rw [← Except.ok.inj hm]
  · simp only [Task.Sends, hs] at hm
    obtain ⟨dup, rfl⟩ := hm
    rfl
  · simp only [Task.Sends, hs] at hm

/-- A notification resumes the task that is found for its id. -/
theorem pushWritten_eq_resume {id : Nat} {type : MqttType} (hst : w.context.stopped = false)
    (hz : id ≠ 0) (hclass : classMsgTypeSending type = .toServer)
    (ht : World.findTask id w.q12Tasks = some t) (s : IotcState) :
    w.pushWritten id type s = w.resume .q12 t fun a => { a with state := s } := by
  unfold World.pushWritten
  rw [hst, if_neg (by decide), if_neg hz, hclass]
  simp only [queueOf, ht]

/-- A response does so, too. -/
theorem pull_eq_resume {id : Nat} {m : Received} (hst : w.context.stopped = false) (hz : id ≠ 0)
    (hclass : classMsgTypeReceiving m.message.type = .toServer)
    (hid : m.message.getMessageId = id) (ht : World.findTask id w.q12Tasks = some t) :
    w.pull (some m) .ok = w.resume .q12 t fun a => { a with state := .ok, message := some m } := by
  have hpublish : m.message.type ≠ .publish := by
    intro he
    rw [he] at hclass
    cases hclass
  subst hid
  have hpos : m.message.getMessageId > 0 := Nat.pos_of_ne_zero hz
  unfold World.pull World.pullMessage
  rw [hst, if_neg (by decide), if_neg (by decide), if_pos rfl]
  simp only [if_neg hpublish, if_pos hpos, hclass, queueOf, ht]

theorem IdsOk.found (h : w.IdsOk) (hs : w.Sound) (hsent : w.Sent) : w.MessageIds where
  nonzero := h.q12.nonzero
  distinct t ht u hu hid := List.inj_on_of_nodup_map h.q12.nodup ht hu hid
  sent t ht m hm := by
    have hlive := mem_live_of_at (p := .q12) ht (by decide)
    exact messageId_of_sends (hs.q12 t ht) ((hsent t.id m hm).2 t hlive rfl)
  written t ht type htype s hst := by
    have hclass : classMsgTypeSending type = .toServer := by
      rcases htype with rfl | rfl <;> rfl
    exact pushWritten_eq_resume hst (h.q12.nonzero t ht) hclass (h.q12.findTask ht) s
  response t ht m htype hid hst := by
    have hclass : classMsgTypeReceiving m.message.type = .toServer := by
      rcases htype with hm | hm <;> rw [hm] <;> rfl
    have hget : m.message.getMessageId = t.msgId := by
      unfold Message.getMessageId
      rcases htype with hm | hm <;> rw [hm] <;> exact hid
    exact pull_eq_resume hst (h.q12.nonzero t ht) hclass hget (h.q12.findTask ht)

/-- **In every run in which each new id is new, each task in flight is found by its id**, whatever
else happens. -/
theorem messageIds {es : List (Event × Oracle)} (h : Infra.run step {} es = some w)
    (hfresh : Infra.AllSteps step FreshId {} es) : w.MessageIds := by
  have hinit : ({} : World).IdsOk := ⟨distinctMsgIds_nil, distinctMsgIds_nil⟩
  have hinv := Infra.run_invariant_of (C := FreshId) (P := fun w => w.Sound ∧ w.IdsOk)
    (fun _ _ _ hs hf h => ⟨step_sound hs.1 h, step_idsOk hs.2 hs.1 hf h⟩) ⟨initial_sound, hinit⟩
    hfresh h
  exact hinv.2.found hinv.1 (Reachable.sent ⟨es, h⟩)

/-! ## Runs over one connection -/

/-- A PUBACK. -/
def puback (id : Nat) : Message := { commonValue := 0x40, messageId := id }

/-- A PUBLISH is submitted, written and acknowledged. -/
def acknowledged (id : Nat) : List Event :=
  [publishing, .written id .publish true, .pull (some (puback id)) .ok]

/-- A PUBLISH is submitted once the connection is open. -/
theorem messageIds_publish : ∃ w,
    Infra.run step {} (calls (opening client) ++ calls [publishing]) = some w ∧ w.MessageIds := by
  obtain ⟨out₁, h₁⟩ := run_opening
  obtain ⟨out₂, h₂⟩ := step_publishing 0 1 1 out₁
  have hrun : Infra.run step {} (calls (opening client) ++ calls [publishing]) =
      some (waiting ((0 + 1) % 2 ^ 16) 1 1 .sent .unset .ok out₂) := by
    rw [Infra.run_append, h₁]
    simp [calls, h₂]
  refine ⟨_, hrun, messageIds hrun (.append (.of_forall fun w e he => ?_) h₁ (.cons ?_ h₂ trivial))⟩
  · simp only [calls, opening, List.map_cons, List.map_nil, List.mem_cons, List.not_mem_nil,
      or_false] at he
    rcases he with rfl | rfl | rfl | rfl | rfl <;> trivial
  · exact fun _ _ => ⟨Nat.one_ne_zero, fun t ht => by cases ht⟩

theorem step_written {n nt nm : Nat} {out : List Output} (hn : n ≠ 0) :
    ∃ out', step (waiting n nt nm .sent .unset .ok out) (.written n .publish true, {}) =
      some (waiting n nt nm .answer .store .written out') := by
  constructor
  simp [client, idle, waiting, step, stepWith, withContext, pushWritten, Context.stopped,
    LayerState.notOperational, hn, queueOf, classMsgTypeSending, findTask, resume, execute, coroutine,
    doMqttPublishQ1, publishQ1Sent, SessionState.afterWrite, Context.armed, settle, put, putTask,
    leave, returns]
  rfl

theorem step_puback {n nt nm : Nat} {out : List Output} (hn : n ≠ 0) :
    ∃ out', step (waiting n nt nm .answer .store .written out) (.pull (some (puback n)) .ok, {}) =
      some (idle n (nt + 1) (nm + 1) out') := by
  have htype : (puback n).type = .puback := by
    change MqttType.ofBits ((0x40 : UInt8).toNat / 16) = .puback
    decide
  have hid : (puback n).messageId = n := rfl
  constructor
  simp [client, idle, waiting, step, stepWith, withContext, pull, pullMessage, Context.stopped,
    LayerState.notOperational, IotcState.isTerminal, Message.getMessageId, htype, hid,
    Nat.pos_of_ne_zero hn, queueOf, classMsgTypeReceiving, findTask, resume, execute, coroutine,
    doMqttPublishQ1, publishQ1Answer, Context.cancelTaskTimeout, Context.armed, Task.publishData,
    Task.freeData, Context.deferUsersCallback, Context.freeMessage, Context.record, settle, put,
    putTask, leave, finalizeTask, drop, dropTask, freeTasks, returns]
  rfl

theorem run_acknowledged {n nt nm : Nat} {out : List Output} (hn : n + 1 < 2 ^ 16) :
    ∃ out', Infra.run step (idle n nt nm out) (calls (acknowledged (n + 1))) =
      some (idle (n + 1) (nt + 1) (nm + 1) out') := by
  obtain ⟨out₁, h₁⟩ := step_publishing n nt nm out
  obtain ⟨out₂, h₂⟩ := @step_written (n + 1) nt nm out₁ (by omega)
  obtain ⟨out₃, h₃⟩ := @step_puback (n + 1) nt nm out₂ (by omega)
  rw [Nat.mod_eq_of_lt hn] at h₁
  exact ⟨out₃, by simp [calls, acknowledged, h₁, h₂, h₃]⟩

/-- Each PUBLISH counts the ids up by one. -/
theorem run_idle : ∀ {n nt nm : Nat} {out : List Output}, n < 2 ^ 16 →
    ∃ out', Infra.run step (idle 0 nt nm out)
      (calls ((List.range n).flatMap fun i => acknowledged (i + 1))) = some (idle n (nt + n) (nm + n) out')
  | 0, nt, nm, out, _ => ⟨out, rfl⟩
  | n + 1, nt, nm, out, hn => by
    obtain ⟨out₁, h₁⟩ := @run_idle n nt nm out (by omega)
    obtain ⟨out₂, h₂⟩ := @run_acknowledged n (nt + n) (nm + n) out₁ hn
    refine ⟨out₂, ?_⟩
    unfold calls at h₁ h₂ ⊢
    rw [List.range_succ, List.flatMap_append, List.map_append, Infra.run_append, h₁, Option.bind_some,
      List.flatMap_singleton, h₂]
    rfl

/-- **After 65535 tasks the next one has the id 0.** -/
theorem messageIds_fails : ∃ w, Infra.run step {} (calls (opening client) ++
      calls ((List.range 65535).flatMap fun i => acknowledged (i + 1)) ++ calls [publishing]) = some w ∧
    ∃ t ∈ w.q12Tasks, t.cs = .sent ∧ t.msgId = 0 := by
  obtain ⟨out₁, h₁⟩ := run_opening
  obtain ⟨out₂, h₂⟩ := @run_idle 65535 1 1 out₁ (by omega)
  obtain ⟨out₃, h₃⟩ := step_publishing 65535 (1 + 65535) (1 + 65535) out₂
  refine ⟨waiting ((65535 + 1) % 2 ^ 16) (1 + 65535) (1 + 65535) .sent .unset .ok out₃, ?_, _,
    List.mem_singleton_self _, rfl, rfl⟩
  rw [Infra.run_append, Infra.run_append, h₁, Option.bind_some, h₂, Option.bind_some]
  simp [calls, h₃]

end IotDeviceSdk.Mqtt.Logic.World
