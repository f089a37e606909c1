import IotDeviceSdk.Mqtt.Logic.Change

/-!
# Who has sent what

The trace says for each message which task has handed it over. In every reachable state the messages
of a task are its messages: a PUBLISH carries its topic, its payload and its id each time, a
SUBSCRIBE likewise, and so on (`Reachable.sent`).
-/

namespace IotDeviceSdk.Mqtt.Logic.World

variable {w w' : World} {t u : Task} {ts : List Task} {p : Place} {r : CoResult}

/-- The tasks that the layer or the next session can still find. -/
def live (w : World) : List Task :=
  w.currentQ0Task.toList ++ (w.q0Tasks ++ (w.q12Tasks ++ (w.q12RecvTasks ++ w.savedQ12Tasks)))

/-- Each message that has been handed over is one of its task. -/
def Sent (w : World) : Prop :=
  ∀ i m, Output.push i m ∈ w.context.out → i < w.nextTask ∧ ∀ t ∈ w.live, t.id = i → t.Sends m

theorem mem_held_of_live (h : t ∈ w.live) : t ∈ w.held := by
  simp only [live, held, List.mem_append] at h ⊢
  tauto

theorem mem_live_of_at (hp : w.At t p) (hl : p ≠ .leaked) : t ∈ w.live := by
  cases p with
  | current =>
    have hc : w.currentQ0Task = some t := hp
    simp [live, hc]
  | q12 => simp [live, show t ∈ w.q12Tasks from hp]
  | q12Recv => simp [live, show t ∈ w.q12RecvTasks from hp]
  | leaked => exact absurd rfl hl

/-- After the run the task is there as it has been left, and the others are. -/
theorem Valid.mem_ran_live (hv : w.Valid) (hp : w.At t p) (hid : r.task.id = t.id)
    (hu : u ∈ (w.ran p r).live) : (u = r.task ∧ p ≠ .leaked) ∨ u ∈ w.live ∧ u.id ≠ t.id := by
  have hne := fun hm => hv.ne_of_rest (u := u) hp hm
  cases p with
  | current =>
    simp only [live, World.ran, put, World.withContext, Option.toList_some, List.mem_append,
      List.mem_singleton] at hu
    rcases hu with rfl | hu
    · exact .inl ⟨rfl, by decide⟩
    · refine .inr ⟨?_, hne ?_⟩
      · simp only [live, List.mem_append]
        tauto
      · simp only [rest, List.mem_append]
        tauto
  | q12 =>
    simp only [live, World.ran, put, World.withContext, List.mem_append, mem_putTask] at hu
    simp only [rest, List.mem_append] at hne
    simp only [live, List.mem_append]
    rcases hu with hu | hu | (⟨rfl, -⟩ | ⟨hu, hid'⟩) | hu | hu
    · exact .inr ⟨.inl hu, hne (.inl hu)⟩
    · exact .inr ⟨.inr (.inl hu), hne (.inr (.inl hu))⟩
    · exact .inl ⟨rfl, by decide⟩
    · exact .inr ⟨.inr (.inr (.inl hu)), hid ▸ hid'⟩
    · exact .inr ⟨.inr (.inr (.inr (.inl hu))), hne (.inr (.inr (.inl hu)))⟩
    · exact .inr ⟨.inr (.inr (.inr (.inr hu))), hne (.inr (.inr (.inr (.inl hu))))⟩
  | q12Recv =>
    simp only [live, World.ran, put, World.withContext, List.mem_append, mem_putTask] at hu
    simp only [rest, List.mem_append] at hne
    simp only [live, List.mem_append]
    rcases hu with hu | hu | hu | (⟨rfl, -⟩ | ⟨hu, hid'⟩) | hu
    · exact .inr ⟨.inl hu, hne (.inl hu)⟩
    · exact .inr ⟨.inr (.inl hu), hne (.inr (.inl hu))⟩
    · exact .inr ⟨.inr (.inr (.inl hu)), hne (.inr (.inr (.inl hu)))⟩
    · exact .inl ⟨rfl, by decide⟩
    · exact .inr ⟨.inr (.inr (.inr (.inl hu))), hid ▸ hid'⟩
    · exact .inr ⟨.inr (.inr (.inr (.inr hu))), hne (.inr (.inr (.inr (.inl hu))))⟩
  | leaked => exact .inr ⟨hu, hne hu⟩

theorem Valid.mem_finished_live (hv : w.Valid) (hp : w.At t p) {c : Context}
    (hu : u ∈ (w.finished t p c).live) : u ∈ w.live ∧ u.id ≠ t.id := by
  refine ⟨?_, ((hv.mem_finished_held hp).mp (mem_held_of_live hu)).2⟩
  cases p <;> simp only [live, World.finished, remove, freeTasks, World.withContext,
    List.mem_append, mem_dropTask] at hu ⊢ <;> tauto

/-- What a task sends does not depend on how far it is. -/
theorem Sends.congr {m : Message} (hs : u.scenario = t.scenario) (hq : u.qos = t.qos)
    (hi : u.msgId = t.msgId) : u.Sends m ↔ t.Sends m := by
  unfold Task.Sends
  rw [hs, hq, hi]

/-- A message is an old one or one that the coroutine of the task has handed over. -/
theorem Moves.push_mem {c c' : Context} {i : Nat} {m : Message} (h : c.Moves t c')
    (hm : Output.push i m ∈ c'.out) : Output.push i m ∈ c.out ∨ i = t.id ∧ t.Sends m := by
  obtain ⟨os, ho, hos⟩ := h.out
  rw [ho, List.mem_append] at hm
  exact hm.imp_right fun hm => hos (.push i m) hm

theorem Quiet.push_mem {R : Received → Prop} {i : Nat} {m : Message} (h : Quiet R w w')
    (hm : Output.push i m ∈ w'.context.out) : Output.push i m ∈ w.context.out := by
  obtain ⟨os, ho, hos⟩ := h.out
  rw [ho, List.mem_append] at hm
  exact hm.resolve_right fun hm => hos (.push i m) hm

theorem Quiet.live {R : Received → Prop} (h : Quiet R w w') : w'.live = w.live := by
  simp only [World.live, h.currentQ0Task, h.q0Tasks, h.q12Tasks, h.q12RecvTasks, h.savedQ12Tasks]

/-- More tasks are freed, or found no more, and nothing is sent. -/
theorem Sent.mono (h : w.Sent) (hnext : w.nextTask ≤ w'.nextTask)
    (hout : ∀ i m, Output.push i m ∈ w'.context.out → Output.push i m ∈ w.context.out)
    (hlive : ∀ t ∈ w'.live, w.nextTask ≤ t.id ∨ ∃ u ∈ w.live, u.id = t.id ∧ ∀ m, u.Sends m → t.Sends m) :
    w'.Sent := by
  intro i m hm
  obtain ⟨hlt, hsends⟩ := h i m (hout i m hm)
  refine ⟨by omega, fun t ht hid => ?_⟩
  rcases hlive t ht with hle | ⟨u, hu, huid, himp⟩
  · omega
  · exact himp m (hsends u hu (huid.trans hid))

theorem Sent.of_subset (h : w.Sent) (hnext : w.nextTask ≤ w'.nextTask)
    (hout : ∀ i m, Output.push i m ∈ w'.context.out → Output.push i m ∈ w.context.out)
    (hlive : ∀ t ∈ w'.live, t ∈ w.live) : w'.Sent :=
  h.mono hnext hout fun t ht => .inr ⟨t, hlive t ht, rfl, fun _ h => h⟩

theorem sent_stable : Change.Stable anything Sent where
  returns _ h := h
  writeFreed i h := h.of_subset (Nat.le_refl _)
    (fun _ _ hm => by simpa [World.record, World.withContext, Context.record] using hm) fun _ ht => ht
  keep {w t u p r} hv hw hp hu hr he := by
    have ho := hr.outcome
    have hid : r.task.id = t.id := ho.task.id.trans hu.id
    have hnext : (w.ran p r).nextTask = w.nextTask := by cases p <;> rfl
    intro i m hm
    rw [ran_context] at hm
    rw [hnext]
    rcases Moves.push_mem ho.context hm with hm | ⟨rfl, hsend⟩
    · obtain ⟨hlt, hsends⟩ := hw i m hm
      refine ⟨hlt, fun v hmem hvid => ?_⟩
      rcases hv.mem_ran_live hp hid hmem with ⟨rfl, hl⟩ | ⟨hmem, -⟩
      · have hscenario := (ho.scenario (he.resolve_right fun h => hl h.1)).trans hu.scenario
        refine (Sends.congr hscenario (ho.task.qos.trans hu.qos) ?_).mpr
          (hsends t (mem_live_of_at hp hl) (hid ▸ hvid))
        exact ho.task.msgId.trans hu.msgId
      · exact hsends v hmem hvid
    · refine ⟨hu.id ▸ hv.id_lt hp.mem_held, fun v hmem hvid => ?_⟩
      rcases hv.mem_ran_live hp hid hmem with ⟨rfl, hl⟩ | ⟨-, hne⟩
      · exact (Sends.congr (ho.scenario (he.resolve_right fun h => hl h.1)) ho.task.qos ho.task.msgId).mpr hsend
      · exact absurd (hvid.trans hu.id) hne
  finish {w t u p r} hv hw hp hu hr he := by
    have ho := hr.outcome
    have hnext : (w.finished t p r.context).nextTask = w.nextTask := by cases p <;> rfl
    intro i m hm
    rw [hnext]
    have hm : Output.push i m ∈ r.context.out := by
      simpa [World.finished, freeTasks, World.withContext] using hm
    rcases Moves.push_mem ho.context hm with hm | ⟨rfl, -⟩
    · obtain ⟨hlt, hsends⟩ := hw i m hm
      exact ⟨hlt, fun v hmem => hsends v (hv.mem_finished_live hp hmem).1⟩
    · refine ⟨hu.id ▸ hv.id_lt hp.mem_held, fun v hmem hvid => ?_⟩
      exact absurd (hvid.trans hu.id) (hv.mem_finished_live hp hmem).2
  free {w t} hv hw _ hc := hw.of_subset (Nat.le_refl _)
    (fun _ _ hm => by
      simpa [World.finished, freeTasks, World.withContext, cancelTaskTimeout_out] using hm)
    fun v hm => (hv.mem_finished_live (p := .current) hc hm).1
  start hv hw hc hq _ := hw.of_subset (Nat.le_refl _)
    (fun _ _ hm => by
      simpa [World.started, World.record, World.withContext, Context.record] using hm)
    fun v hm => by
      simpa [live, World.started, World.record, World.withContext, hc, hq, eq_comm] using hm
  wait hv hw hc hq _ := hw.of_subset (Nat.le_refl _) (fun _ _ hm => hm) fun v hm => by
    simp only [live, hq, List.mem_append, List.mem_cons] at hm ⊢
    tauto
  quiet hs hw h _ := hw.of_subset (Nat.le_of_eq h.nextTask.symm) (fun _ _ hm => h.push_mem hm)
    fun v hm => h.live ▸ hm
  register {w} m _ hs hw := hw.mono (Nat.le_succ _) (fun _ _ hm => hm) fun v hm => by
    have hm : v = w.answering m ∨ v ∈ w.live := by
      simp only [live, World.register, List.mem_append, List.mem_singleton] at hm ⊢
      tauto
    rcases hm with rfl | hm
    · exact .inl (Nat.le_refl _)
    · exact .inr ⟨v, hm, rfl, fun _ h => h⟩
  disarm id hs hw := hw.of_subset (Nat.le_refl _) (fun _ _ hm => hm) fun _ hm => hm

/-! ## Every call -/

/-- The queued task is a new one; nothing is sent for it yet. -/
theorem Sent.pushed (h : w.Sent) (hs : w.Sound) (hid : t.id = w.nextTask) (hn : New t)
    (hp : Pushed w.made t w') : w'.Sent := by
  have henqueue : (w.made.enqueue (setLogic t)).Sent :=
    h.mono (Nat.le_succ _) (fun _ _ hm => hm) fun v hm => by
      have hm : v = setLogic t ∨ v ∈ w.live := by
        cases ht : (setLogic t).priority <;>
          simp only [live, enqueue, made, ht, List.mem_append, List.mem_cons,
            List.not_mem_nil] at hm ⊢ <;> tauto
      rcases hm with rfl | hm
      · exact .inl (by simp [hid])
      · exact .inr ⟨v, hm, rfl, fun _ h => h⟩
  have htrack : (w.made.track (setLogic t)).Sent :=
    h.mono (Nat.le_succ _) (fun _ _ hm => hm) fun v hm => by
      have hm : v.id = t.id ∨ v ∈ w.live := by
        simp only [live, track, made, List.mem_append, List.mem_singleton] at hm ⊢
        rcases hm with hm | hm | (hm | rfl) | hm
        · tauto
        · tauto
        · tauto
        · exact .inl (setLogic_id t)
        · tauto
      rcases hm with hm | hm
      · exact .inl (by omega)
      · exact .inr ⟨v, hm, rfl, fun _ h => h⟩
  refine sent_stable.pushed hp hs.toValid hid hn (fun _ => ?_) (fun _ _ => henqueue) fun _ _ => htrack
  exact h.of_subset (Nat.le_succ _)
    (fun _ _ hm => by simpa [freeTasks, made, World.withContext] using hm) fun _ hm => hm

theorem restoreSession_out {i : Nat} {m : Message}
    (h : Output.push i m ∈ w.restoreSession.context.out) : Output.push i m ∈ w.context.out := by
  unfold restoreSession at h
  split at h
  · exact h
  · simpa [freeTasks, World.withContext] using h

theorem mem_restoreSession_live (h : t ∈ w.restoreSession.live) : t ∈ w.live := by
  unfold restoreSession at h
  split at h <;>
    simp only [live, freeTasks, World.withContext, List.mem_append, List.not_mem_nil] at h ⊢ <;>
    tauto

theorem Sent.init (h : w.Sent) (hs : w.Sound) (s : IotcState) : (w.init s).Sent := by
  rcases init_cases w s with ⟨-, -, hinit⟩ | ⟨w₀, hw₀, hinit⟩
  · rw [hinit]
    exact h
  · have h₀ : w₀.Sent := by
      rcases hw₀ with ⟨-, rfl⟩ | ⟨-, -, rfl⟩
      · exact h
      · exact h
    have hrestore : w₀.restoreSession.Sent :=
      h₀.of_subset (Nat.le_of_eq (restoreSession_nextTask w₀).symm)
        (fun _ _ hm => restoreSession_out hm) fun _ hm => mem_restoreSession_live hm
    rcases hinit with ⟨mem, hinit⟩ | ⟨-, -, hinit⟩
    · rw [hinit]
      have hquiet := Quiet.call (R := nothing) (w₀.initialised mem) (f := (·.initOnPrev s)) (o := .initOnPrev s)
        trivial rfl
      have h₁ : (w₀.initialised mem).Sent := hrestore
      exact h₁.of_subset (Nat.le_of_eq hquiet.nextTask.symm) (fun _ _ hm => hquiet.push_mem hm)
        fun v hm => hquiet.live ▸ hm
    · rw [hinit]
      refine hrestore.of_subset (Nat.le_refl _) (fun _ _ hm => hm) fun v hm => ?_
      simp only [live, initErrHandling, World.alloc, World.withContext, List.mem_append,
        List.not_mem_nil, Option.toList_none] at hm ⊢
      tauto

theorem Sent.saveSession (h : w.Sent) (hs : w.saveSession = some w') : w'.Sent := by
  unfold World.saveSession at hs
  split at hs
  · cases hs
  · obtain rfl := Option.some.inj hs
    refine h.mono (Nat.le_refl _) (fun _ _ hm => hm) fun v hm => .inr ?_
    simp only [live, List.mem_append, List.mem_filter, List.mem_map] at hm
    rcases hm with hm | hm | ⟨hm, -⟩ | hm | ⟨u, ⟨hm, -⟩, rfl⟩
    · exact ⟨v, by simp [live, hm], rfl, fun _ h => h⟩
    · exact ⟨v, by simp [live, hm], rfl, fun _ h => h⟩
    · exact ⟨v, by simp [live, hm], rfl, fun _ h => h⟩
    · exact ⟨v, by simp [live, hm], rfl, fun _ h => h⟩
    · exact ⟨u, by simp [live, hm], rfl, fun _ h => (Sends.congr rfl rfl rfl).mpr h⟩

theorem Sent.stopCurrent (h : w.Sent) (hv : w.Valid) (hs : w.stopCurrent = some w') : w'.Sent := by
  refine sent_stable.stopCurrent trivial hs hv h (fun _ => h) fun w₁ _ h₁ => ?_
  refine h₁.of_subset (Nat.le_refl _) (fun _ _ hm => ?_) fun v hm => ?_
  · simpa [freeTasks, World.withContext] using hm
  · simp only [live, freeTasks, World.withContext, List.mem_append, Option.toList_none,
      List.not_mem_nil] at hm ⊢
    tauto

theorem Sent.quiet (h : w.Sent) (hq : Quiet nothing w w') : w'.Sent :=
  h.of_subset (Nat.le_of_eq hq.nextTask.symm) (fun _ _ hm => hq.push_mem hm) fun _ hm =>
    hq.live ▸ hm

theorem Sent.freeLayerData (h : w.Sent) (hf : w.freeLayerData = some w') : w'.Sent := by
  unfold World.freeLayerData at hf
  split at hf
  · cases hf
  · obtain rfl := Option.some.inj hf
    refine h.of_subset (Nat.le_refl _) (fun _ _ hm => ?_) fun v hm => ?_
    · simpa [freeTasks, World.withContext] using hm
    · simp only [live, freeTasks, World.withContext, List.mem_append, Option.toList_none,
        List.not_mem_nil] at hm ⊢
      tauto

theorem Sent.saved (h : w.Sent) (hs : w.saved = some w') : w'.Sent := by
  have hcancel : (w.withContext (cancelTimeouts (w.q12Tasks ++ w.q12RecvTasks) w.context)).Sent :=
    h.of_subset (Nat.le_refl _)
      (fun _ _ hm => by rwa [World.withContext, (cancelTimeouts_frame _ _).2.2] at hm)
      fun _ hm => hm
  rcases saved_cases hs with ⟨-, hs⟩ | ⟨-, rfl⟩
  · exact hcancel.saveSession hs
  · exact hcancel

theorem step_sent (h : w.Sent) (hs : w.Sound) {e : Event × Oracle} (hstep : step w e = some w') :
    w'.Sent := by
  obtain ⟨e, o⟩ := e
  cases step_anything hs hstep with
  | changes he hc => exact sent_stable.changes hc (hs.withOracle o) h
  | expired o' s hk hd => exact h
  | pushed hm hk hp =>
    obtain ⟨mem, callbacks, k, heq⟩ := prepared_eq w o e
    have h₀ : (w.prepared o e).Sent := by
      rw [heq]
      exact h
    have hid : (w.prepared o e).nextTask = w.nextTask := by rw [heq]; rfl
    exact h₀.pushed (hs.prepared o e) (hm.id_eq.trans hid.symm) hm.new hp
  | connection he => exact h
  | init s =>
    have h₀ : (w.withOracle o).Sent := h
    exact h₀.init (hs.withOracle o) s
  | teardown s hd htd h₁ h₂ h₃ =>
    have h₀ : (w.withOracle o).Sent := h
    have hv₁ := (hs.withOracle o).valid_of_saved hd h₁
    exact (((h₀.saved h₁).stopCurrent hv₁ h₂).freeLayerData h₃).quiet
      (.call _ (o := .closeExternallyOnNext s) trivial rfl)

theorem initial_sent : ({} : World).Sent := fun _ _ h => by cases h

/-- **In every reachable state the messages of a task are its messages.** -/
theorem Reachable.sent (h : w.Reachable) : w.Sent := by
  obtain ⟨es, h⟩ := h
  have hinv := Infra.run_invariant (P := fun w => w.Sound ∧ w.Sent)
    (fun _ _ _ hs h => ⟨step_sound hs.1 h, step_sent hs.2 hs.1 h⟩) ⟨initial_sound, initial_sent⟩ h
  exact hinv.2

end IotDeviceSdk.Mqtt.Logic.World
