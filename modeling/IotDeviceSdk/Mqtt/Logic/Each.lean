import IotDeviceSdk.Mqtt.Logic.Fewer
import IotDeviceSdk.Mqtt.Logic.Sent

/-!
# What holds of each task

Most of what can be said about one task does not depend on the others: it is a fact about the task
and what it has done so far. `World.TaskRule` says when such a fact survives a run of the coroutine
of the task, and `TaskRule.stable` that it then survives whatever the layer does with all its tasks.
-/

namespace IotDeviceSdk.Mqtt.Logic

/-- The task `i` has done this. -/
def Output.About (i : Nat) : Output → Prop
  | push task _ | callback task _ _ | subscribed task _ _ _ | run task => task = i
  | _ => False

theorem Output.Of.about {t : Task} {o : Output} {i : Nat} (h : o.Of t) (ha : o.About i) :
    i = t.id := by
  cases o with
  | push task m => exact ha.symm.trans h.1
  | callback task handle s => exact ha.symm.trans h
  | subscribed task handle status s => exact ha.symm.trans h
  | run task => exact h.elim
  | _ => exact ha.elim

theorem Output.Foreign.not_about {R : Received → Prop} {o : Output} {i : Nat} (h : o.Foreign R) :
    ¬o.About i := by
  cases o with
  | push task m => exact h.elim
  | callback task handle s => exact h.elim
  | subscribed task handle status s => exact h.elim
  | run task => exact h.elim
  | _ => exact id

namespace World

/-- A property `φ` of each task and of what has been done, and a property `ψ` of the tasks that are
gone, which do not depend on the other tasks. -/
structure Local (φ : List Output → Task → Prop) (ψ : List Output → Nat → Prop) : Prop where
  other {os os' : List Output} {t : Task} : (∀ o ∈ os', ¬o.About t.id) → φ os t → φ (os ++ os') t
  otherGone {os os' : List Output} {i : Nat} : (∀ o ∈ os', ¬o.About i) → ψ os i → ψ (os ++ os') i
  logic {os : List Output} {t : Task} (l : Option Args) : φ os t → φ os { t with logic := l }
  start {os : List Output} {t : Task} : t.Queued → φ os t → φ (os ++ [.run t.id]) t

/-- **What the runs of the coroutines have to preserve.** The layer does not change a task but by
running its coroutine, and may free it at any time. New tasks have ids of `I`. -/
structure TaskRule (A : Admission) (I : Nat → Prop) (φ : List Output → Task → Prop)
    (ψ : List Output → Nat → Prop) : Prop extends Local φ ψ where
  keep {w : World} {t u : Task} {p : Place} {r : CoResult} : w.Valid → w.At t p →
    Runs A w.context t p u r → r.exit.final = false ∨ p = .leaked ∧ t.qos = .atMostOnce →
    φ w.context.out t → φ r.context.out r.task
  finish {w : World} {t u : Task} {p : Place} {r : CoResult} : w.Valid → w.At t p →
    Runs A w.context t p u r → r.exit.final = true → φ w.context.out t → ψ r.context.out t.id
  free {os : List Output} {t : Task} : φ os t → ψ os t.id
  refused {os : List Output} {i : Nat} : I i → (∀ o ∈ os, ¬o.About i) → ψ os i
  queued {os : List Output} {t : Task} : I t.id → New t → t.qos = .atMostOnce →
    (∀ o ∈ os, ¬o.About t.id) →
    φ os (setLogic t)
  answering {w : World} (m : Received) : I w.nextTask → (∀ o ∈ w.context.out, ¬o.About w.nextTask) →
    φ w.context.out (w.answering m)

variable {w w' : World} {t u : Task} {ts : List Task} {p : Place} {r : CoResult} {A : Admission}
  {I : Nat → Prop} {φ : List Output → Task → Prop} {ψ : List Output → Nat → Prop}

/-- The property holds of each task, and nothing has been done by a task that has not been made. -/
structure Each (φ : List Output → Task → Prop) (ψ : List Output → Nat → Prop) (w : World) :
    Prop where
  known : ∀ o ∈ w.context.out, ∀ i, o.About i → i < w.nextTask
  held : ∀ t ∈ w.held, φ w.context.out t
  gone : ∀ i, i < w.nextTask → (∀ t ∈ w.held, t.id ≠ i) → ψ w.context.out i

/-- The ids of the tasks that are still to be made. -/
def Ahead (I : Nat → Prop) (w : World) : Prop := ∀ i, w.nextTask ≤ i → I i

theorem Ahead.of_eq (h : w.Ahead I) (hnext : w'.nextTask = w.nextTask) : w'.Ahead I :=
  fun i hi => h i (hnext ▸ hi)

/-- The outputs of a run, that belong to its task. -/
theorem Runs.out {c : Context} (h : Runs A c t p u r) :
    ∃ os, r.context.out = c.out ++ os ∧ ∀ o ∈ os, ∀ i, o.About i → i = t.id := by
  obtain ⟨os, ho, hos⟩ := h.outcome.context.out
  exact ⟨os, ho, fun o hm i ha => ((hos o hm).about ha).trans h.resumes.id⟩

/-- More is done that belongs to no task, and the tasks are the same, or gone. -/
theorem Each.of_subset (hφ : Local φ ψ) (h : w.Each φ ψ)
    (hout : ∃ os, w'.context.out = w.context.out ++ os ∧ ∀ o ∈ os, ∀ i, ¬o.About i)
    (hnext : w'.nextTask = w.nextTask)
    (hheld : ∀ t ∈ w'.held, ∃ u ∈ w.held, ∃ l, t = { u with logic := l })
    (hgone : ∀ u ∈ w.held, (∀ t ∈ w'.held, t.id ≠ u.id) → φ w.context.out u → ψ w.context.out u.id) :
    w'.Each φ ψ := by
  obtain ⟨os, ho, hos⟩ := hout
  refine ⟨fun o hm i ha => ?_, fun t ht => ?_, fun i hi hfree => ?_⟩
  · rw [ho, List.mem_append] at hm
    rw [hnext]
    exact h.known o (hm.resolve_right fun hm => hos o hm i ha) i ha
  · obtain ⟨u, hu, l, rfl⟩ := hheld t ht
    rw [ho]
    exact hφ.other (fun o hm => hos o hm _) (hφ.logic l (h.held u hu))
  · rw [ho]
    refine hφ.otherGone (fun o hm => hos o hm i) ?_
    by_cases hthere : ∃ u ∈ w.held, u.id = i
    · obtain ⟨u, hu, rfl⟩ := hthere
      exact hgone u hu hfree (h.held u hu)
    · exact h.gone i (hnext ▸ hi) fun u hu he => hthere ⟨u, hu, he⟩

/-- More is done that belongs to no task, and the tasks are the same. -/
theorem Each.of_eq (hφ : Local φ ψ) (h : w.Each φ ψ)
    (hout : ∃ os, w'.context.out = w.context.out ++ os ∧ ∀ o ∈ os, ∀ i, ¬o.About i)
    (hnext : w'.nextTask = w.nextTask) (hheld : ∀ t, t ∈ w'.held ↔ t ∈ w.held) : w'.Each φ ψ :=
  h.of_subset hφ hout hnext (fun t ht => ⟨t, (hheld t).mp ht, t.logic, rfl⟩)
    fun u hu hno _ => absurd rfl (hno u ((hheld u).mpr hu))

/-- After a task has done something, it is as it has been left, and the others are as before. -/
theorem Each.of_task (hφ : Local φ ψ) (h : w.Each φ ψ) {i : Nat} (hi : i < w.nextTask)
    (hout : ∃ os, w'.context.out = w.context.out ++ os ∧ ∀ o ∈ os, ∀ j, o.About j → j = i)
    (hnext : w'.nextTask = w.nextTask)
    (hheld : ∀ t ∈ w'.held, t.id ≠ i → t ∈ w.held)
    (hothers : ∀ t ∈ w.held, t.id ≠ i → t ∈ w'.held)
    (htask : ∀ t ∈ w'.held, t.id = i → φ w'.context.out t)
    (hgone : (∀ t ∈ w'.held, t.id ≠ i) → ψ w'.context.out i) : w'.Each φ ψ := by
  obtain ⟨os, ho, hos⟩ := hout
  have hne {j : Nat} (hj : j ≠ i) : ∀ o ∈ os, ¬o.About j := fun o hm ha => hj (hos o hm j ha)
  refine ⟨fun o hm j ha => ?_, fun t ht => ?_, fun j hj hfree => ?_⟩
  · rw [ho, List.mem_append] at hm
    rw [hnext]
    rcases hm with hm | hm
    · exact h.known o hm j ha
    · exact hos o hm j ha ▸ hi
  · by_cases he : t.id = i
    · exact htask t ht he
    · rw [ho]
      exact hφ.other (hne he) (h.held t (hheld t ht he))
  · by_cases he : j = i
    · subst he
      exact hgone hfree
    · rw [ho]
      refine hφ.otherGone (hne he) (h.gone j (hnext ▸ hj) fun t ht hid => ?_)
      exact hfree t (hothers t ht (hid ▸ he)) hid

/-- The output is not that of a task that is still to be made. -/
theorem Each.not_about_next (h : w.Each φ ψ) : ∀ o ∈ w.context.out, ¬o.About w.nextTask :=
  fun o hm ha => absurd (h.known o hm _ ha) (Nat.lt_irrefl _)

/-- A task more, with the next id, that has done something or not, and may be gone already. -/
theorem Each.of_made (hφ : Local φ ψ) (h : w.Each φ ψ) (hid : t.id = w.nextTask)
    (hout : ∃ os, w'.context.out = w.context.out ++ os ∧ ∀ o ∈ os, ∀ i, o.About i → i = t.id)
    (hnext : w'.nextTask = w.nextTask + 1)
    (hothers : ∀ u, u.id ≠ t.id → (u ∈ w'.held ↔ u ∈ w.held))
    (htask : ∀ u ∈ w'.held, u.id = t.id → φ w'.context.out u)
    (hgone : (∀ u ∈ w'.held, u.id ≠ t.id) → ψ w'.context.out t.id) : w'.Each φ ψ := by
  obtain ⟨os, ho, hos⟩ := hout
  have hne {j : Nat} (hj : j ≠ t.id) : ∀ o ∈ os, ¬o.About j := fun o hm ha => hj (hos o hm j ha)
  refine ⟨fun o hm i ha => ?_, fun u hu => ?_, fun i hi hfree => ?_⟩
  · rw [ho, List.mem_append] at hm
    rw [hnext]
    rcases hm with hm | hm
    · exact Nat.lt_succ_of_lt (h.known o hm i ha)
    · have := hos o hm i ha
      omega
  · by_cases he : u.id = t.id
    · exact htask u hu he
    · rw [ho]
      exact hφ.other (hne he) (h.held u ((hothers u he).mp hu))
  · by_cases he : i = t.id
    · subst he
      exact hgone hfree
    · rw [ho]
      refine hφ.otherGone (hne he) (h.gone i (by omega) fun u hu hui => ?_)
      exact hfree u ((hothers u (hui ▸ he)).mpr hu) hui

/-- The task is added to those that are held. -/
theorem Each.of_added (hφ : Local φ ψ) (h : w.Each φ ψ) (hv : w.Valid)
    (hid : t.id = w.nextTask) (hu : u.id = t.id) (hout : w'.context.out = w.context.out)
    (hnext : w'.nextTask = w.nextTask + 1) (hheld : ∀ v, v ∈ w'.held ↔ v = u ∨ v ∈ w.held)
    (hnew : φ w.context.out u) : w'.Each φ ψ := by
  refine h.of_made hφ hid ⟨[], by simp [hout], by simp⟩ hnext (fun v hv => ?_) (fun v hm he => ?_)
    fun hgone => absurd hu (hgone u ((hheld u).mpr (.inl rfl)))
  · rw [hheld]
    exact or_iff_right fun he => hv (he ▸ hu)
  · rw [hout]
    rcases (hheld v).mp hm with rfl | hm
    · exact hnew
    · have := hv.id_lt hm
      omega

/-! ## Runs of the coroutines -/

/-- A run that keeps its task. -/
theorem Each.keep (hφ : Local φ ψ) (h : w.Each φ ψ) (hv : w.Valid) (hp : w.At t p)
    (hr : Runs A w.context t p u r) (hkeep : φ r.context.out r.task) : (w.ran p r).Each φ ψ := by
  have hid : r.task.id = t.id := hr.outcome.task.id.trans hr.resumes.id
  have hnext : (w.ran p r).nextTask = w.nextTask := by cases p <;> rfl
  obtain ⟨os, ho, hos⟩ := hr.out
  refine h.of_task hφ (hv.id_lt hp.mem_held) ⟨os, by rw [ran_context, ho], hos⟩ hnext
    (fun v hm hne => ?_) (fun v hm hne => ?_) (fun v hm hvid => ?_) fun hgone => ?_
  · rcases hv.mem_ran_held hp hid hm with rfl | ⟨hm, -⟩
    · exact absurd hid hne
    · exact hm
  · rcases (mem_held p).mp hm with hm | hm
    · refine (mem_held p).mpr (.inl ?_)
      rw [ran_listAt hp hid]
      exact mem_putTask.mpr (.inr ⟨hm, hid ▸ hne⟩)
    · refine (mem_held p).mpr (.inr ?_)
      rwa [ran_rest]
  · rw [ran_context]
    rcases hv.mem_ran_held hp hid hm with rfl | ⟨-, hne⟩
    · exact hkeep
    · exact absurd hvid hne
  · refine absurd hid (hgone r.task ((mem_held p).mpr (.inl ?_)))
    rw [ran_listAt hp hid]
    exact mem_putTask.mpr (.inl ⟨rfl, t, at_iff.mp hp, hid.symm⟩)

/-- A run that ends its task. -/
theorem Each.finish (hφ : Local φ ψ) (h : w.Each φ ψ) (hv : w.Valid) (hp : w.At t p)
    (hr : Runs A w.context t p u r) (hfinish : ψ r.context.out t.id) :
    (w.finished t p r.context).Each φ ψ := by
  have hnext : (w.finished t p r.context).nextTask = w.nextTask := by cases p <;> rfl
  obtain ⟨os, ho, hos⟩ := hr.out
  have hout : (w.finished t p r.context).context.out =
      w.context.out ++ (os ++ [.freeTask t.id]) := by
    simp [World.finished, freeTasks, World.withContext, ho]
  refine h.of_task hφ (hv.id_lt hp.mem_held) ⟨_, hout, fun o hm j ha => ?_⟩ hnext
    (fun v hm _ => (hv.mem_finished_held hp).mp hm |>.1)
    (fun v hm hne => (hv.mem_finished_held hp).mpr ⟨hm, hne⟩)
    (fun v hm hvid => absurd hvid ((hv.mem_finished_held hp).mp hm).2) fun _ => ?_
  · rcases List.mem_append.mp hm with hm | hm
    · exact hos o hm j ha
    · obtain rfl := List.mem_singleton.mp hm
      exact ha.elim
  · rw [hout, ← List.append_assoc, ← ho]
    exact hφ.otherGone (by simp [Output.About]) hfinish

/-- The head of the queue is run. -/
theorem Each.started (hφ : Local φ ψ) (h : w.Each φ ψ) (hv : w.Valid) (hc : w.currentQ0Task = none)
    (hq : w.q0Tasks = t :: ts) : (w.started t ts).Each φ ψ := by
  have hm : t ∈ w.held := by simp [World.held, hq]
  have hheld (v : Task) : v ∈ (w.started t ts).held ↔ v ∈ w.held := by
    simp [World.held, World.started, World.record, World.withContext, hc, hq]
  refine h.of_task hφ (hv.id_lt hm) ⟨[.run t.id], rfl, ?_⟩ rfl (fun v hv _ => (hheld v).mp hv)
    (fun v hv _ => (hheld v).mpr hv) (fun v hvm hvid => ?_) fun hgone => ?_
  · simp [Output.About, eq_comm]
  · obtain rfl := hv.eq_of_held hm ((hheld v).mp hvm) hvid
    exact hφ.start (hv.q0 v (hq ▸ List.mem_cons_self)) (h.held v hm)
  · exact absurd rfl (hgone t ((hheld t).mpr hm))

/-- The head of the queue waits on. -/
theorem Each.waited (hφ : Local φ ψ) (h : w.Each φ ψ) (hq : w.q0Tasks = t :: ts) :
    ({ w with q0Tasks := ts ++ [t] } : World).Each φ ψ := by
  refine h.of_eq hφ ⟨[], by simp, by simp⟩ rfl fun v => ?_
  simp only [World.held, hq, List.mem_append, List.mem_cons, List.not_mem_nil]
  grind

theorem Each.quiet {R : Received → Prop} (hφ : Local φ ψ) (h : w.Each φ ψ) (hq : Quiet R w w') :
    w'.Each φ ψ := by
  obtain ⟨os, ho, hos⟩ := hq.out
  exact h.of_eq hφ ⟨os, ho, fun o hm i => (hos o hm).not_about⟩ hq.nextTask fun t => by rw [hq.held]

/-- A PUBLISH is registered. -/
theorem Each.registered (hφ : Local φ ψ) (h : w.Each φ ψ) (hv : w.Valid) (m : Received)
    (hnew : φ w.context.out (w.answering m)) : (w.register m).Each φ ψ := by
  refine h.of_added hφ hv rfl rfl rfl rfl (u := w.answering m) (t := w.answering m) (fun v => ?_) hnew
  simp only [World.held, World.register, List.mem_append, List.mem_singleton]
  grind

/-- **What the rule asks for is enough** for every change. -/
theorem TaskRule.stable (hφ : TaskRule A I φ ψ) :
    Change.Stable A fun w => w.Each φ ψ ∧ w.Ahead I where
  returns _ h := ⟨⟨h.1.known, h.1.held, h.1.gone⟩, h.2⟩
  writeFreed i h :=
    ⟨h.1.of_eq hφ.toLocal ⟨[.writeFreed i], rfl, by simp [Output.About]⟩ rfl fun _ => Iff.rfl, h.2⟩
  keep {w t u p r} hv h hp _ hr he :=
    ⟨h.1.keep hφ.toLocal hv hp hr (hφ.keep hv hp hr he (h.1.held t hp.mem_held)),
      h.2.of_eq (by cases p <;> rfl)⟩
  finish {w t u p r} hv h hp _ hr he :=
    ⟨h.1.finish hφ.toLocal hv hp hr (hφ.finish hv hp hr he (h.1.held t hp.mem_held)),
      h.2.of_eq (by cases p <;> rfl)⟩
  free {w t} hv h _ hc := by
    refine ⟨h.1.of_subset hφ.toLocal ⟨[.freeTask t.id], ?_, by simp [Output.About]⟩ rfl
      (fun v hm => ?_) fun u _ _ hu => hφ.free hu, h.2⟩
    · simp [World.finished, freeTasks, World.withContext, cancelTaskTimeout_out]
    · exact ⟨v, ((hv.mem_finished_held (p := .current) hc).mp hm).1, v.logic, rfl⟩
  start hv h hc hq _ := ⟨h.1.started hφ.toLocal hv hc hq, h.2⟩
  wait _ h _ hq _ := ⟨h.1.waited hφ.toLocal hq, h.2⟩
  quiet _ h hq _ := ⟨h.1.quiet hφ.toLocal hq, h.2.of_eq hq.nextTask⟩
  register {w} m _ hs h :=
    ⟨h.1.registered hφ.toLocal hs.toValid m
      (hφ.answering m (h.2 _ (Nat.le_refl _)) h.1.not_about_next),
      fun i hi => h.2 i (Nat.le_of_succ_le hi)⟩
  disarm id hs h := ⟨⟨h.1.known, h.1.held, h.1.gone⟩, h.2⟩

/-! ## New tasks -/

/-- The new task in `q12Tasks`. -/
def tracked (w : World) (t : Task) : Task :=
  { setLogic t with msgId := (w.lastMsgId + 1) % 2 ^ 16 }

/-- The property holds of a new task with an id when it is queued, or when it has been run then. -/
def Tracks (φ : List Output → Task → Prop) (ψ : List Output → Nat → Prop) (w : World) (t : Task) :
    Prop :=
  φ w.context.out (w.tracked t) ∨
    w.context.connection.connectionState = .opened ∧ (setLogic t).logic ≠ none ∧
      ∀ r, execute w.context (w.tracked t) ⟨true, .ok, none⟩ = some r →
        (r.exit.final = false → φ r.context.out r.task) ∧
          (r.exit.final = true → ψ r.context.out t.id)

/-- The first run of a task with an id. -/
theorem Each.first_run (hφ : TaskRule A I φ ψ) (h : w.Each φ ψ) (hv : (w.made.track (setLogic t)).Valid)
    (hid : t.id = w.nextTask) (hq : t.qos ≠ .atMostOnce)
    (hr : execute w.context (w.tracked t) ⟨true, .ok, none⟩ = some r)
    (hkeep : r.exit.final = false → φ r.context.out r.task)
    (hfinish : r.exit.final = true → ψ r.context.out t.id)
    (hs : Settled (w.made.track (setLogic t)) .q12 r w') : w'.Each φ ψ := by
  have ho := execute_outcome hr
  have hid' : (w.tracked t).id = t.id := setLogic_id t
  have hrid : r.task.id = (w.tracked t).id := ho.task.id
  have hp : (w.made.track (setLogic t)).At (w.tracked t) .q12 :=
    List.mem_append_right _ (List.mem_singleton_self _)
  have hheld (u : Task) (hu : u.id ≠ t.id) :
      u ∈ (w.made.track (setLogic t)).held ↔ u ∈ w.held := by
    have hne : u ≠ { setLogic t with msgId := (w.lastMsgId + 1) % 2 ^ 16 } := by
      rintro rfl
      exact hu (setLogic_id t)
    simp only [World.held, track, made, List.mem_append, List.mem_singleton]
    grind
  obtain ⟨os, hout, hos⟩ := ho.context.out
  have habout : ∀ o ∈ os, ∀ i, o.About i → i = t.id :=
    fun o hm i ha => ((hos o hm).about ha).trans hid'
  induction hs with
  | keep s he =>
    refine h.of_made hφ.toLocal hid ⟨os, hout, habout⟩ rfl (fun u hu => ?_) (fun u hu hui => ?_)
      fun hgone => ?_
    · rw [← hheld u hu]
      constructor
      · intro hm
        rcases hv.mem_ran_held hp hrid hm with rfl | ⟨hm, -⟩
        · exact absurd (hrid.trans hid') hu
        · exact hm
      · intro hm
        rcases (mem_held .q12).mp hm with hm | hm
        · refine (mem_held .q12).mpr (.inl ?_)
          exact mem_putTask.mpr (.inr ⟨hm, fun he => hu (he.trans (hrid.trans hid'))⟩)
        · exact (mem_held .q12).mpr (.inr hm)
    · rcases hv.mem_ran_held hp hrid hu with rfl | ⟨-, hne⟩
      · exact hkeep he
      · exact absurd (hui.trans hid'.symm) hne
    · refine absurd (hrid.trans hid') (hgone r.task ((mem_held .q12).mpr (.inl ?_)))
      exact mem_putTask.mpr (.inl ⟨rfl, _, hp, hrid.symm⟩)
  | drop s he _ hu =>
    rw [ran_drop (by decide) hrid]
    have hgone := fun u => hv.mem_finished_held hp (c := r.context) (u := u)
    refine h.of_made hφ.toLocal hid ⟨os ++ [.freeTask t.id], ?_, fun o hm i ha => ?_⟩ rfl (fun u hu => ?_)
      (fun u hu hui => absurd (hui.trans hid'.symm) ((hgone u).mp hu).2) fun _ => ?_
    · simp [World.returns, World.finished, freeTasks, World.withContext, hout, hid', World.remove,
        track, made]
    · rcases List.mem_append.mp hm with hm | hm
      · exact habout o hm i ha
      · obtain rfl := List.mem_singleton.mp hm
        exact ha.elim
    · rw [← hheld u hu]
      exact ((hgone u).trans (and_iff_left fun he => hu (he.trans hid')))
    · change ψ (r.context.out ++ [.freeTask (w.tracked t).id]) t.id
      exact hφ.otherGone (by simp [Output.About]) (hfinish he)
  | next s he hq' => exact absurd (ho.task.qos.symm.trans hq') (by simpa [tracked] using hq)
  | reset s he _ ih =>
    exact ih.of_eq hφ.toLocal ⟨[.writeFreed r.task.id], rfl, by simp [Output.About]⟩ rfl fun u => Iff.rfl

/-- A new task is pushed, and the property holds of it once it is in its queue. -/
theorem Each.pushed (hφ : TaskRule A I φ ψ) (h : w.Each φ ψ) (hv : w.Valid)
    (hI : ∀ i, w.nextTask < i → I i) (hI' : t.qos = .atMostOnce ∨ w.context.stopped = true → I t.id)
    (hp : Pushed w.made t w') (hid : t.id = w.nextTask) (hn : New t)
    (htrack : t.qos ≠ .atMostOnce → w.context.stopped = false → w.Tracks φ ψ t) : w'.Each φ ψ := by
  have hfresh := h.not_about_next
  -- a task with an id that is run at once
  by_cases hrun : t.qos ≠ .atMostOnce ∧ w.context.stopped = false ∧
      ¬φ w.context.out (w.tracked t)
  · obtain ⟨hq, hst, hno⟩ := hrun
    obtain ⟨ho, hl, hrun⟩ := (htrack hq hst).resolve_left hno
    cases hp with
    | refused s hs => exact absurd hs (hn.not_refused hq hst)
    | queued s _ hq' => exact absurd hq' hq
    | started s _ hq' => exact absurd hq' hq
    | deferred s _ _ ho' => exact absurd ho ho'
    | unset s _ _ _ hl' => exact absurd hl' hl
    | run s _ _ _ _ hr hs =>
      have hd := layerData_of_not_stopped hst
      have hv' := hv.made_track (t := setLogic t) (by simpa using hid) (hn.tracked hq) hd
      have hw := h.first_run hφ hv' hid hq hr (hrun _ hr).1 (hrun _ hr).2 hs
      exact ⟨hw.known, hw.held, hw.gone⟩
  have htracked : t.qos ≠ .atMostOnce → w.context.stopped = false →
      (w.made.track (setLogic t)).Each φ ψ := by
    intro hq hst
    have hheld (u : Task) : u ∈ (w.made.track (setLogic t)).held ↔ u = w.tracked t ∨ u ∈ w.held := by
      simp only [World.held, tracked, track, made, List.mem_append, List.mem_singleton]
      grind
    exact h.of_added hφ.toLocal hv hid (u := w.tracked t) (setLogic_id t) rfl rfl hheld
      (not_not.mp fun hno => hrun ⟨hq, hst, hno⟩)
  have hfree : I t.id → (w.made.freeTasks [t]).Each φ ψ := by
    intro hi
    have hout : (w.made.freeTasks [t]).context.out = w.context.out ++ [.freeTask t.id] := rfl
    have hgone (u : Task) (hu : u ∈ w.held) : u.id ≠ t.id := fun he => by
      have := hv.id_lt hu
      omega
    refine h.of_made hφ.toLocal hid ⟨_, hout, by simp [Output.About]⟩ rfl (fun u _ => Iff.rfl)
      (fun u hu hui => absurd hui (hgone u hu)) fun _ => ?_
    rw [hout]
    exact hφ.otherGone (by simp [Output.About]) (hφ.refused hi (hid ▸ hfresh))
  by_cases hi : I t.id
  · have hahead {W : World} (hW : W.nextTask = w.nextTask + 1) : W.Ahead I :=
      fun i hi => hI i (by omega)
    refine (hφ.stable.pushed hp hv hid hn (fun _ => ⟨hfree hi, hahead rfl⟩) (fun hq _ => ⟨?_, hahead rfl⟩)
      fun hq hst => ⟨htracked hq hst, hahead rfl⟩).1
    have hheld (u : Task) : u ∈ (w.made.enqueue (setLogic t)).held ↔ u = setLogic t ∨ u ∈ w.held := by
      cases hpriority : (setLogic t).priority <;>
        simp only [World.held, enqueue, made, hpriority, List.mem_append, List.mem_cons,
          List.not_mem_nil] <;> grind
    exact h.of_added hφ.toLocal hv hid (setLogic_id t) rfl rfl hheld (hφ.queued hi hn hq (hid ▸ hfresh))
  · -- the new task is one that the property is about
    have hq : t.qos ≠ .atMostOnce := fun hq => hi (hI' (.inl hq))
    have hst : w.context.stopped = false := Bool.not_eq_true _ ▸ fun hst => hi (hI' (.inr hst))
    have hw := htracked hq hst
    cases hp with
    | refused s hs => exact absurd hs (hn.not_refused hq hst)
    | queued s _ hq' => exact absurd hq' hq
    | started s _ hq' => exact absurd hq' hq
    | deferred s _ _ _ => exact ⟨hw.known, hw.held, hw.gone⟩
    | unset s _ _ _ _ => exact ⟨hw.known, hw.held, hw.gone⟩
    | run s _ _ _ hl hr hs =>
      have hd := layerData_of_not_stopped hst
      have hv' := hv.made_track (t := setLogic t) (by simpa using hid) (hn.tracked hq) hd
      have hl' : (w.tracked t).logic = some ⟨true, .ok, none⟩ := hl
      have heq : { w.tracked t with logic := some ⟨true, .ok, none⟩ } = w.tracked t := by rw [← hl']
      have hw' := (hφ.stable.resumed hv' ⟨hw, fun i hi => hI i hi⟩
        (List.mem_append_right _ (List.mem_singleton_self _)) hl' (.started _ ?_)
        (heq.symm ▸ hr) hs).1
      · exact ⟨hw'.known, hw'.held, hw'.gone⟩
      · exact (setLogic_cs t).trans hn.cs

/-! ## Every call -/

/-- Tasks are moved, or gone. -/
theorem Each.of_fewer (hφ : Local φ ψ) (hf : Fewer w w') (h : w.Each φ ψ)
    (hgone : ∀ u ∈ w.held, (∀ t ∈ w'.held, t.id ≠ u.id) → φ w.context.out u → ψ w.context.out u.id) :
    w'.Each φ ψ := by
  obtain ⟨os, ho, hos⟩ := hf.out
  refine h.of_subset hφ ⟨os, ho, fun o hm i ha => ?_⟩ hf.nextTask (fun t ht => ?_) hgone
  · rcases hos o hm with hforeign | ⟨i, rfl⟩
    · exact hforeign.not_about ha
    · exact ha
  · obtain ⟨u, hu, hut⟩ := hf.held t ht
    exact ⟨u, hu, t.logic, hut.1⟩

theorem Each.fewer (hφ : TaskRule A I φ ψ) (hf : Fewer w w') (h : w.Each φ ψ) : w'.Each φ ψ :=
  h.of_fewer hφ.toLocal hf fun _ _ _ hu => hφ.free hu

/-- **A property of each task survives every call** that admits only what it has to, and in which it
holds of a task with an id once that is in its queue. -/
theorem Each.step (hφ : TaskRule A I φ ψ) (h : w.Each φ ψ) (hs : w.Sound) (hI : w.Ahead I)
    {e : Event} {o : Oracle} (hA : w.Admits A e)
    (htrack : ∀ q, e = .submit q → (q.task w.nextTask).qos ≠ .atMostOnce →
      w.context.stopped = false → (w.withOracle o).Tracks φ ψ (q.task w.nextTask))
    (hstep : World.step w (e, o) = some w') : w'.Each φ ψ := by
  refine (hφ.stable.step (fun hf hw => ⟨hw.1.fewer hφ hf, hw.2.of_eq hf.nextTask⟩) hs hA ⟨h, hI⟩
    (fun {t w'} hm hw hp => ?_) hstep).1
  have hid : (w.prepared o e).nextTask = w.nextTask := (prepared_fewer w o e).nextTask
  have hnext : w'.nextTask = (w.prepared o e).nextTask + 1 := hp.nextTask
  refine ⟨hw.1.pushed hφ (hs.prepared o e).toValid (fun i hi => hw.2 i (Nat.le_of_lt hi))
    (fun _ => hm.id_eq ▸ hI _ (Nat.le_refl _)) hp (hm.id_eq.trans hid.symm) hm.new fun hq hst => ?_,
    fun i hi => hw.2 i (by omega)⟩
  -- only a user makes a task with an id
  cases e with
  | submit q =>
    obtain rfl : t = q.task w.nextTask := hm
    exact htrack q rfl hq hst
  | keepalive => exact absurd (congrArg Task.qos hm) hq
  | connect s => exact absurd (congrArg Task.qos hm.2) hq
  | _ => exact hm.elim

theorem initial_each : ({} : World).Each φ ψ :=
  ⟨fun _ h => (by cases h), fun _ h => (by simp [World.held] at h), fun _ h => (by cases h)⟩

end World

end IotDeviceSdk.Mqtt.Logic
