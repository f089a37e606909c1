import IotDeviceSdk.Mqtt.Logic.Change

/-!
# What a setup and a teardown leave

`iotc_mqtt_logic_layer_init` and `close_externally` move tasks, free them and cancel their timeouts;
apart from the last run of the current task they do nothing else to tasks. `World.Fewer` says so. A
property that survives this, and what `Change.Stable` asks for, survives every call
(`Change.Stable.step`).
-/

namespace IotDeviceSdk.Mqtt.Logic.World

variable {w w' w'' : World} {t u : Task} {ts : List Task} {A : Admission} {P : World → Prop}

/-- The task is `u`; its handle may have been told to forget the context. -/
def Forgets (u t : Task) : Prop := t = { u with logic := t.logic } ∧
  ∀ a, t.logic = some a → ∃ b, u.logic = some b ∧ a.message = b.message

theorem Forgets.refl (u : Task) : Forgets u u := ⟨rfl, fun a h => ⟨a, h, rfl⟩⟩

theorem Forgets.trans {t₁ t₂ t₃ : Task} (h : Forgets t₁ t₂) (h' : Forgets t₂ t₃) : Forgets t₁ t₃ := by
  constructor
  · rw [h'.1, h.1]
  · intro a ha
    obtain ⟨b, hb, hab⟩ := h'.2 a ha
    obtain ⟨b', hb', hbb'⟩ := h.2 b hb
    exact ⟨b', hb', hab.trans hbb'⟩

/-- **Tasks are moved or freed**, timeouts are cancelled, and nothing else happens to the tasks. -/
structure Fewer (w w' : World) : Prop where
  held : ∀ t ∈ w'.held, ∃ u ∈ w.held, Forgets u t
  timeouts : ∀ i timeout, w'.context.timeouts i = some timeout → w.context.timeouts i = some timeout
  out : ∃ os, w'.context.out = w.context.out ++ os ∧
    ∀ o ∈ os, o.Foreign nothing ∨ ∃ i, o = .freeTask i
  nextTask : w'.nextTask = w.nextTask
  nextMessage : w'.nextMessage = w.nextMessage

namespace Fewer

theorem of_held (hheld : ∀ t ∈ w'.held, t ∈ w.held)
    (htimeouts : w'.context.timeouts = w.context.timeouts) (hout : w'.context.out = w.context.out)
    (hnext : w'.nextTask = w.nextTask) (hmessage : w'.nextMessage = w.nextMessage) : Fewer w w' where
  held t ht := ⟨t, hheld t ht, .refl t⟩
  timeouts i timeout h := htimeouts ▸ h
  out := ⟨[], by simp [hout], by simp⟩
  nextTask := hnext
  nextMessage := hmessage

theorem refl (w : World) : Fewer w w := of_held (fun _ h => h) rfl rfl rfl rfl

theorem trans (h : Fewer w w') (h' : Fewer w' w'') : Fewer w w'' where
  held t ht := by
    obtain ⟨u, hu, hut⟩ := h'.held t ht
    obtain ⟨v, hv, hvu⟩ := h.held u hu
    exact ⟨v, hv, hvu.trans hut⟩
  timeouts i timeout hi := h.timeouts i timeout (h'.timeouts i timeout hi)
  out := by
    obtain ⟨os, ho, hos⟩ := h.out
    obtain ⟨os', ho', hos'⟩ := h'.out
    refine ⟨os ++ os', by rw [ho', ho, List.append_assoc], fun o hm => ?_⟩
    rcases List.mem_append.mp hm with hm | hm
    · exact hos o hm
    · exact hos' o hm
  nextTask := h'.nextTask.trans h.nextTask
  nextMessage := h'.nextMessage.trans h.nextMessage

/-- Only the context changes, in what the tasks do not depend on. -/
theorem of_context {c : Context} (ht : c.timeouts = w.context.timeouts)
    (ho : c.out = w.context.out) : Fewer w (w.withContext c) :=
  of_held (fun _ h => h) ht ho rfl rfl

/-- A call on another layer. -/
theorem call (w : World) {f : Context → IotcState × Context} {o : Output} (ho : o.Foreign nothing)
    {next : LayerState} (hf : f w.context = w.context.continueWith o next) : Fewer w (w.call f) := by
  have hcall : w.call f = (w.withContext (w.context.continueWith o next).2).returns
      (w.context.continueWith o next).1 := by
    rw [← hf]
    rfl
  obtain ⟨os, hout, hos⟩ := (QuietContext.continueWith ho w.context next).out
  rw [hcall]
  refine ⟨fun t ht => ⟨t, ht, .refl t⟩, fun i timeout hi => ?_, ⟨os, hout, fun o hm => .inl (hos o hm)⟩,
    rfl, rfl⟩
  rw [← (QuietContext.continueWith ho w.context next).timeouts]
  exact hi

/-- Tasks are freed. -/
theorem of_freed {os : List Task} (hheld : ∀ t ∈ w'.held, t ∈ w.held)
    (htimeouts : w'.context.timeouts = w.context.timeouts)
    (hout : w'.context.out = w.context.out ++ os.map (.freeTask ·.id))
    (hnext : w'.nextTask = w.nextTask) (hmessage : w'.nextMessage = w.nextMessage) : Fewer w w' where
  held t ht := ⟨t, hheld t ht, .refl t⟩
  timeouts i timeout h := htimeouts ▸ h
  out := by
    refine ⟨_, hout, fun o hm => ?_⟩
    obtain ⟨t, -, rfl⟩ := List.mem_map.mp hm
    exact .inr ⟨t.id, rfl⟩
  nextTask := hnext
  nextMessage := hmessage

end Fewer

/-! ## Teardown -/

theorem cancelTimeouts_fewer (ts : List Task) (w : World) :
    Fewer w (w.withContext (cancelTimeouts ts w.context)) where
  held t ht := ⟨t, ht, .refl t⟩
  timeouts i timeout h := by
    change (cancelTimeouts ts w.context).timeouts i = some timeout at h
    rw [cancelTimeouts_timeouts] at h
    split at h
    · exact h
    · cases h
  out := ⟨[], by simp [World.withContext, (cancelTimeouts_frame ts w.context).2.2], by simp⟩
  nextTask := rfl
  nextMessage := rfl

theorem saved_fewer (h : w.saved = some w') : Fewer w w' := by
  refine (cancelTimeouts_fewer (w.q12Tasks ++ w.q12RecvTasks) w).trans ?_
  rcases saved_cases h with ⟨-, h⟩ | ⟨-, rfl⟩
  · unfold saveSession at h
    split at h
    · cases h
    · obtain rfl := Option.some.inj h
      refine ⟨fun t ht => ?_, fun _ _ h => h, ⟨[], by simp, by simp⟩, rfl, rfl⟩
      simp only [World.held, World.withContext, List.mem_append, List.mem_filter, List.mem_map] at ht ⊢
      rcases ht with ht | ht | ⟨ht, -⟩ | ht | ⟨v, ⟨hv, -⟩, rfl⟩ | ht
      · exact ⟨t, .inl ht, .refl t⟩
      · exact ⟨t, .inr (.inl ht), .refl t⟩
      · exact ⟨t, .inr (.inr (.inl ht)), .refl t⟩
      · exact ⟨t, .inr (.inr (.inr (.inl ht))), .refl t⟩
      · refine ⟨v, .inr (.inr (.inl hv)), rfl, fun a ha => ?_⟩
        obtain ⟨b, hb, rfl⟩ := Option.map_eq_some_iff.mp ha
        exact ⟨b, hb, rfl⟩
      · exact ⟨t, .inr (.inr (.inr (.inr (.inr ht)))), .refl t⟩
  · exact .refl _

/-- The end of what is the current task when a teardown has stopped the one before. -/
theorem freed_current_fewer (w : World) :
    Fewer w ({ w with currentQ0Task := none }.freeTasks w.currentQ0Task.toList) :=
  .of_freed (fun t ht => by
    simp only [World.held, freeTasks, World.withContext, List.mem_append, Option.toList_none,
      List.not_mem_nil, false_or] at ht ⊢
    exact .inr ht) rfl rfl rfl rfl

theorem freeLayerData_fewer (h : w.freeLayerData = some w') : Fewer w w' := by
  obtain rfl := freeLayerData_eq_some h
  refine .of_freed (fun t ht => ?_) rfl rfl rfl rfl
  simp only [World.held, freeTasks, World.withContext, List.mem_append, Option.toList_none,
    List.not_mem_nil, false_or] at ht ⊢
  exact .inr (.inr (.inr (.inr ht)))

/-! ## Setup -/

theorem restoreSession_fewer (w : World) : Fewer w w.restoreSession := by
  have hout : ∃ os : List Task, w.restoreSession.context.out =
      w.context.out ++ os.map (.freeTask ·.id) := by
    unfold restoreSession
    split
    · exact ⟨[], by simp⟩
    · exact ⟨_, rfl⟩
  obtain ⟨os, hout⟩ := hout
  refine .of_freed (fun t ht => mem_restoreSession_held ht) (restoreSession_timeouts w) hout
    (restoreSession_nextTask w) ?_
  unfold restoreSession
  split <;> rfl

theorem init_fewer (w : World) (s : IotcState) : Fewer w (w.init s) := by
  rcases init_cases w s with ⟨-, -, hinit⟩ | ⟨w₀, hw₀, hinit⟩
  · rw [hinit]
    exact .of_held (fun _ h => h) rfl rfl rfl rfl
  · have h₀ : Fewer w w₀ := by
      rcases hw₀ with ⟨-, rfl⟩ | ⟨-, -, rfl⟩
      · exact .refl w₀
      · exact .of_held (fun _ h => h) rfl rfl rfl rfl
    refine (h₀.trans (restoreSession_fewer w₀)).trans ?_
    rcases hinit with ⟨mem, hinit⟩ | ⟨-, -, hinit⟩
    · rw [hinit]
      have h₁ : Fewer w₀.restoreSession (w₀.initialised mem) := .of_held (fun _ h => h) rfl rfl rfl rfl
      exact h₁.trans (.call _ (o := .initOnPrev s) trivial rfl)
    · rw [hinit]
      refine .of_held (fun t ht => ?_) rfl rfl rfl rfl
      simp only [World.held, initErrHandling, World.alloc, World.withContext, List.mem_append,
        List.not_mem_nil, Option.toList_none, false_or] at ht ⊢
      grind

/-! ## Every call -/

theorem prepared_fewer (w : World) (o : Oracle) (e : Event) : Fewer w (w.prepared o e) := by
  obtain ⟨mem, callbacks, k, heq⟩ := prepared_eq w o e
  rw [heq]
  exact .of_context rfl rfl

/-- **What the changes of a call and the loss of tasks preserve, every call preserves**, if the task
that it makes does. -/
theorem Change.Stable.step (hP : Change.Stable A P) (hfewer : ∀ {w w' : World}, Fewer w w' → P w → P w')
    (hs : w.Sound) {e : Event} {o : Oracle} (hA : w.Admits A e) (hw : P w)
    (hpush : ∀ {t : Task} {w' : World}, e.Makes w.nextTask t → P (w.prepared o e) →
      Pushed (w.prepared o e).made t w' → P w')
    (h : World.step w (e, o) = some w') : P w' := by
  cases step_called hs hA h with
  | changes he hc =>
    exact hP.changes hc (hs.withOracle o) (hfewer (.of_context rfl rfl) hw)
  | expired o' s hk hd => exact hfewer (.of_held (w := w) (fun _ h => h) rfl rfl rfl rfl) hw
  | pushed hm hk hp => exact hpush hm (hfewer (prepared_fewer w o e) hw) hp
  | connection he => exact hfewer (.of_held (w := w) (fun _ h => h) rfl rfl rfl rfl) hw
  | init s =>
    have h₀ : Fewer w (w.withOracle o) := .of_context rfl rfl
    exact hfewer (h₀.trans (init_fewer _ s)) hw
  | @teardown w₁ w₂ w₃ s hd htd h₁ h₂ h₃ =>
    have h₀ : Fewer w (w.withOracle o) := .of_context rfl rfl
    have hv₁ := (hs.withOracle o).valid_of_saved hd h₁
    have hw₁ : P w₁ := hfewer (h₀.trans (saved_fewer h₁)) hw
    have hw₂ : P w₂ := by
      refine hP.stopCurrent hA h₂ hv₁ hw₁ (fun id => hfewer ?_ hw₁) fun w _ hw =>
        hfewer (freed_current_fewer w) hw
      refine ⟨fun t ht => ⟨t, ht, .refl t⟩, fun i timeout hi => ?_, ⟨[], ?_, by simp⟩, rfl, rfl⟩
      · change Function.update w₁.context.timeouts id none i = some timeout at hi
        by_cases he : i = id
        · subst he
          rw [Function.update_self] at hi
          cases hi
        · rwa [Function.update_of_ne he] at hi
      · exact (List.append_nil _).symm
    exact hfewer ((freeLayerData_fewer h₃).trans (.call _ (o := .closeExternallyOnNext s) trivial rfl))
      hw₂

/-! ## What has been done -/

/-- More may have been done. -/
theorem prefix_of_append {os os₁ os₂ : List Output} {R : Output → Prop} (h : os <+: os₁)
    (hout : ∃ os', os₂ = os₁ ++ os' ∧ ∀ o ∈ os', R o) : os <+: os₂ := by
  obtain ⟨os', rfl, -⟩ := hout
  exact h.trans (List.prefix_append _ _)

/-- What has been done stays done. -/
theorem done_stable (os : List Output) : Change.Stable anything fun w => os <+: w.context.out where
  returns _ h := h
  writeFreed _ h := h.trans (List.prefix_append _ _)
  keep {w t u p r} _ h _ _ hr _ := by
    rw [ran_context]
    exact prefix_of_append h hr.outcome.context.out
  finish _ h _ _ hr _ :=
    (prefix_of_append h hr.outcome.context.out).trans (List.prefix_append _ _)
  free {w t} _ h _ _ := by
    refine List.IsPrefix.trans ?_ (List.prefix_append _ _)
    rwa [← cancelTaskTimeout_out w.context t.id] at h
  start _ h _ _ _ := h.trans (List.prefix_append _ _)
  wait _ h _ _ _ := h
  quiet _ h hq _ := prefix_of_append h hq.out
  register _ _ _ h := h
  disarm _ _ h := h

/-- **No call takes back what has been done.** -/
theorem step_out (hs : w.Sound) {e : Event × Oracle} (hstep : step w e = some w') :
    w.context.out <+: w'.context.out := by
  have hP := done_stable w.context.out
  refine hP.step (fun hf h => prefix_of_append h hf.out) hs (admits_anything w e.1) (List.prefix_refl _)
    (fun {t w'} hm h hp => ?_) hstep
  have hid : t.id = (w.prepared e.2 e.1).nextTask :=
    hm.id_eq.trans (prepared_fewer w e.2 e.1).nextTask.symm
  exact hP.toStable.pushed hp (hs.prepared e.2 e.1).toValid hid hm.new
    (fun _ => h.trans (List.prefix_append _ _)) (fun _ _ => h) fun _ _ => h

/-! ## The next task -/

theorem nextTask_stable (n : Nat) : Change.Stable anything fun w => n ≤ w.nextTask where
  returns _ h := h
  writeFreed _ h := h
  keep {w t u p r} _ h _ _ _ _ := by
    have hnext : (w.ran p r).nextTask = w.nextTask := by cases p <;> rfl
    rwa [hnext]
  finish {w t u p r} _ h _ _ _ _ := by
    have hnext : (w.finished t p r.context).nextTask = w.nextTask := by cases p <;> rfl
    rwa [hnext]
  free _ h _ _ := h
  start _ h _ _ _ := h
  wait _ h _ _ _ := h
  quiet _ h hq _ := hq.nextTask ▸ h
  register _ _ _ h := Nat.le_succ_of_le h
  disarm _ _ h := h

/-- The id of a task is not given again. -/
theorem step_nextTask_le (hs : w.Sound) {e : Event × Oracle} (hstep : step w e = some w') :
    w.nextTask ≤ w'.nextTask :=
  (nextTask_stable w.nextTask).step (fun hf h => hf.nextTask ▸ h) hs (admits_anything w e.1)
    (Nat.le_refl _) (fun _ hw hp => hp.nextTask ▸ Nat.le_succ_of_le hw) hstep

end IotDeviceSdk.Mqtt.Logic.World
