import IotDeviceSdk.Mqtt.Logic.Session
import IotDeviceSdk.Mqtt.Logic.Submitted

/-!
# What the users of the PUBLISHes are told

A PUBLISH that ends with a run of its coroutine has the callback of its user queued. A teardown stops
the current task in this way too, but frees the tasks of the queues without a word.

* `publishes_told`: if no teardown finds such a PUBLISH in a queue, and there is memory for the events
  of the callbacks, each PUBLISH that has been accepted in a clean session is told once.
* `publishes_told_fails` is a PUBLISH that waits in a queue when the connection is lost.
-/

namespace IotDeviceSdk.Mqtt.Logic

open Logic.Context

/-! ## A run of the coroutine -/

/-- **A PUBLISH whose user waits for the outcome**: of QoS 0 or 1, and with a callback. -/
structure Task.Asks (t : Task) : Prop where
  callback : t.callback.isSome = true
  qos : t.qos ≠ .exactlyOnce
  scenario : ∃ d, t.scenario = .publish (some d)

/-- There is memory for every event of a callback. -/
def Context.Granted (c : Context) : Prop := ∀ b ∈ c.callbacks, b = true

variable {c : Context} {t u : Task} {a : Args} {r : CoResult}

theorem Context.Granted.headD (h : c.Granted) : c.callbacks.headD true = true := by
  cases hc : c.callbacks with
  | nil => rfl
  | cons b bs => exact h b (by rw [hc]; exact List.mem_cons_self)

/-- **The user is told when the task ends**, and not before. -/
theorem execute_told (ht : t.Asks) (hg : c.Granted) (h : execute c t a = some r) :
    (r.exit.final = false ∧ told t.id r.context.out = told t.id c.out) ∨
      r.exit.final = true ∧ ∃ s, told t.id r.context.out = told t.id c.out ++ [s] := by
  obtain ⟨d, hs⟩ := ht.scenario
  have hevent (s : IotcState) : told t.id (c.callbackEvent t s) = [s] :=
    told_callbackEvent_of_queued ht.callback hg.headD
  cases hq : t.qos with
  | atMostOnce =>
    cases execute_publishQ0 hs hq h with
    | stopped _ he _ hout => exact .inl ⟨he, by rw [hout]⟩
    | sends _ _ he _ hos hout =>
      refine .inl ⟨he, ?_⟩
      rcases hos with rfl | rfl <;> rw [hout, told_append] <;> exact List.append_nil _
    | @ends s _ he _ hout => exact .inr ⟨he, s, by rw [hout, told_append, hevent]⟩
  | atLeastOnce =>
    cases execute_publishQ1 hs hq h with
    | stopped _ he _ _ hout =>
      exact .inl ⟨he, by rw [hout, told_append, told_freeMessages, List.append_nil]⟩
    | sends dup _ _ he _ _ hos hout =>
      refine .inl ⟨he, ?_⟩
      rcases hos with rfl | rfl <;> rw [hout, told_append] <;> exact List.append_nil _
    | waits _ _ _ he _ _ hout => exact .inl ⟨he, by rw [hout]⟩
    | @fails s ms _ _ he hout =>
      refine .inr ⟨he, s, ?_⟩
      rw [hout, told_append, told_append, hevent, told_freeMessages, List.append_nil]
    | @acknowledged m _ _ _ _ _ he hout =>
      refine .inr ⟨he, .ok, ?_⟩
      rw [hout, told_append, told_append, hevent, show told t.id [.freeMessage m] = [] from rfl,
        List.append_nil]
  | exactlyOnce => exact absurd hq ht.qos

namespace World

variable {w w' : World} {p : Place} {A : Admission} {is : List Nat}

theorem Runs.told (hr : Runs A c t p u r) (ht : t.Asks) (hg : c.Granted) :
    (r.exit.final = false ∧ told t.id r.context.out = told t.id c.out) ∨
      r.exit.final = true ∧ ∃ s, told t.id r.context.out = told t.id c.out ++ [s] := by
  obtain ⟨d, hs⟩ := ht.scenario
  cases hr with
  | @logic a b _ hl hb h =>
    exact execute_told (t := { t with logic := some b }) ⟨ht.callback, ht.qos, ht.scenario⟩ hg h
  | @timeout timeout _ hA hf h =>
    cases timeout with
    | resume s => exact execute_told ht hg h
    | keepalive msg => cases hs.symm.trans hf.1
    | connect => cases hs.symm.trans hf.1

/-- A run that keeps the task. -/
theorem Runs.asks (hr : Runs A c t p u r) (ht : t.Asks) (he : r.exit.final = false) :
    r.task.Asks where
  callback := by rw [hr.outcome.task.callback, hr.resumes.callback]; exact ht.callback
  qos := by rw [hr.outcome.task.qos, hr.resumes.qos]; exact ht.qos
  scenario := by rw [hr.outcome.scenario he, hr.resumes.scenario]; exact ht.scenario

/-! ## What each change preserves -/

/-- A task of `is` has a user that waits for the outcome and has not been told. -/
def Unanswered (is : List Nat) (os : List Output) (t : Task) : Prop :=
  t.id ∈ is → t.Asks ∧ told t.id os = []

/-- The user of a task of `is` has been told once. -/
def Answered (is : List Nat) (os : List Output) (i : Nat) : Prop := i ∈ is → ∃ s, told i os = [s]

theorem Answered.append {os os' : List Output} {i : Nat} (h : Answered is os i)
    (hos : ∀ o ∈ os', ¬o.About i) : Answered is (os ++ os') i := by
  intro hi
  obtain ⟨s, hs⟩ := h hi
  exact ⟨s, by rw [told_append, hs, told_eq_nil hos, List.append_nil]⟩

theorem unanswered_local (is : List Nat) : Local (Unanswered is) (Answered is) where
  other hos h hi := by
    obtain ⟨ht, hnone⟩ := h hi
    rw [told_append, hnone, told_eq_nil hos]
    exact ⟨ht, rfl⟩
  otherGone hos h := h.append hos
  logic l h hi := ⟨⟨(h hi).1.callback, (h hi).1.qos, (h hi).1.scenario⟩, (h hi).2⟩
  start _ h hi := by
    obtain ⟨ht, hnone⟩ := h hi
    rw [told_append, hnone]
    exact ⟨ht, rfl⟩

/-- No task of QoS 0 has been leaked, so that none can end the current task. -/
def NoneLeaked (w : World) : Prop := ∀ t ∈ w.leaked, t.qos ≠ .atMostOnce

/-- **The users of the PUBLISHes `is` wait, or have been told once.** While such a PUBLISH is held, it
has neither been handed on to the next session nor leaked. -/
structure Watched (is : List Nat) (w : World) : Prop where
  known : ∀ i ∈ is, i < w.nextTask
  each : w.Each (Unanswered is) (Answered is)
  saved : ∀ t ∈ w.savedQ12Tasks, t.id ∉ is
  leaked : ∀ t ∈ w.leaked, t.id ∉ is
  noneLeaked : w.NoneLeaked

theorem mem_held_of_saved (ht : t ∈ w.savedQ12Tasks) : t ∈ w.held := by simp [World.held, ht]

theorem mem_held_of_leaked (ht : t ∈ w.leaked) : t ∈ w.held := by simp [World.held, ht]

theorem Watched.of_eq (h : w.Watched is)
    (hout : ∃ os, w'.context.out = w.context.out ++ os ∧ ∀ o ∈ os, ∀ i, ¬o.About i)
    (hnext : w'.nextTask = w.nextTask) (hheld : ∀ t, t ∈ w'.held ↔ t ∈ w.held)
    (hsaved : w'.savedQ12Tasks = w.savedQ12Tasks) (hleaked : w'.leaked = w.leaked) :
    w'.Watched is where
  known := hnext ▸ h.known
  each := h.each.of_eq (unanswered_local is) hout hnext hheld
  saved := hsaved ▸ h.saved
  leaked := hleaked ▸ h.leaked
  noneLeaked t ht := h.noneLeaked t (hleaked ▸ ht)

theorem Watched.quiet {R : Received → Prop} (h : w.Watched is) (hq : Quiet R w w') :
    w'.Watched is := by
  obtain ⟨os, ho, hos⟩ := hq.out
  exact h.of_eq ⟨os, ho, fun o hm j => (hos o hm).not_about⟩ hq.nextTask (fun t => by rw [hq.held])
    hq.savedQ12Tasks hq.leaked

theorem mem_leaked_ran {v : Task} (hp : w.At t p) (hid : r.task.id = t.id) (hq : r.task.qos = t.qos)
    (hv : v ∈ (w.ran p r).leaked) : ∃ u ∈ w.leaked, v.id = u.id ∧ v.qos = u.qos := by
  cases p with
  | leaked =>
    rcases mem_putTask.mp hv with ⟨rfl, -⟩ | ⟨hm, -⟩
    · exact ⟨t, hp, hid, hq⟩
    · exact ⟨v, hm, rfl, rfl⟩
  | _ => exact ⟨v, hv, rfl, rfl⟩

theorem watched_stable (is : List Nat) :
    Change.Stable anything fun w => w.Watched is ∧ w.context.Granted where
  returns s h := ⟨h.1.of_eq ⟨[], by simp [World.returns], by simp⟩ rfl (fun _ => Iff.rfl) rfl rfl, h.2⟩
  writeFreed j h :=
    ⟨h.1.of_eq ⟨[.writeFreed j], rfl, by simp [Output.About]⟩ rfl (fun _ => Iff.rfl) rfl rfl, h.2⟩
  keep {w t u p r} hv h hp hu hr he := by
    obtain ⟨h, hg⟩ := h
    have ho := hr.outcome
    have hid : r.task.id = t.id := ho.task.id.trans hu.id
    have hqos : r.task.qos = t.qos := ho.task.qos.trans hu.qos
    have he : r.exit.final = false := he.resolve_right fun hl => by
      obtain ⟨rfl, hq⟩ := hl
      exact h.noneLeaked t hp hq
    have hnext : (w.ran p r).nextTask = w.nextTask := by cases p <;> rfl
    have hsaved : (w.ran p r).savedQ12Tasks = w.savedQ12Tasks := by cases p <;> rfl
    refine ⟨⟨hnext ▸ h.known, h.each.keep (unanswered_local is) hv hp hr fun hi => ?_,
      hsaved ▸ h.saved, fun v hvm => ?_, fun v hvm => ?_⟩, fun b hb => ?_⟩
    · rw [hid] at hi ⊢
      obtain ⟨ht, hnone⟩ := h.each.held t hp.mem_held hi
      refine ⟨hr.asks ht he, ?_⟩
      rcases hr.told ht hg with ⟨-, htold⟩ | ⟨he', -⟩
      · rw [htold, hnone]
      · cases he.symm.trans he'
    · obtain ⟨v', hm, hvid, -⟩ := mem_leaked_ran hp hid hqos hvm
      exact hvid ▸ h.leaked v' hm
    · obtain ⟨v', hm, -, hvq⟩ := mem_leaked_ran hp hid hqos hvm
      exact hvq ▸ h.noneLeaked v' hm
    · rw [ran_context] at hb
      exact hg b (ho.context.callbacks.subset hb)
  finish {w t u p r} hv h hp hu hr he := by
    obtain ⟨h, hg⟩ := h
    have hnext : (w.finished t p r.context).nextTask = w.nextTask := by cases p <;> rfl
    have hsaved : (w.finished t p r.context).savedQ12Tasks = w.savedQ12Tasks := by cases p <;> rfl
    have hleaked : ∀ v ∈ (w.finished t p r.context).leaked, v ∈ w.leaked := by
      cases p with
      | leaked => exact fun v hv => (mem_dropTask.mp hv).1
      | _ => exact fun v hv => hv
    refine ⟨⟨hnext ▸ h.known, h.each.finish (unanswered_local is) hv hp hr fun hi => ?_,
      hsaved ▸ h.saved, fun v hvm => h.leaked v (hleaked v hvm),
      fun v hvm => h.noneLeaked v (hleaked v hvm)⟩, fun b hb => ?_⟩
    · obtain ⟨ht, hnone⟩ := h.each.held t hp.mem_held hi
      rcases hr.told ht hg with ⟨he', -⟩ | ⟨-, s, htold⟩
      · cases he.symm.trans he'
      · exact ⟨s, by rw [htold, hnone]; rfl⟩
    · exact hg b (hr.outcome.context.callbacks.subset hb)
  free _ h hleak _ := by
    obtain ⟨u, hu, hq⟩ := hleak
    exact absurd hq (h.1.noneLeaked u hu)
  start hv h hc hq _ :=
    ⟨{ h.1 with each := h.1.each.started (unanswered_local is) hv hc hq }, h.2⟩
  wait _ h _ hq _ := ⟨{ h.1 with each := h.1.each.waited (unanswered_local is) hq }, h.2⟩
  quiet _ h hq _ := ⟨h.1.quiet hq, fun b hb => h.2 b (hq.callbacks.subset hb)⟩
  register {w} m _ hs h := by
    obtain ⟨h, hg⟩ := h
    have hnew : w.nextTask ∉ is := fun hi => Nat.lt_irrefl _ (h.known _ hi)
    exact ⟨⟨fun i hi => Nat.lt_succ_of_lt (h.known i hi),
      h.each.registered (unanswered_local is) hs.toValid m fun hi => absurd hi hnew, h.saved, h.leaked,
      h.noneLeaked⟩, hg⟩
  disarm id _ h := ⟨h.1.of_eq ⟨[], by simp [World.withContext, Context.disarm], by simp⟩ rfl
    (fun _ => Iff.rfl) rfl rfl, h.2⟩

/-! ## A new task -/

theorem asks_setLogic (h : t.Asks) : (setLogic t).Asks := by
  obtain ⟨hcallback, hqos, d, hd⟩ := h
  have hlogic : setLogic t = { t with logic := some ⟨true, .ok, none⟩ } := by
    unfold setLogic
    split
    · next _ hq => exact absurd hq hqos
    · rfl
  rw [hlogic]
  exact ⟨hcallback, hqos, d, hd⟩

/-- A new task is pushed, which may be a PUBLISH of `is` if it is accepted. -/
theorem Pushed.watched (hp : Pushed w.made t w') (hv : w.Valid) (hid : t.id = w.nextTask) (hn : New t)
    (hknown : ∀ i ∈ is, i < w.nextTask + 1) (h : w.Each (Unanswered is) (Answered is))
    (hsaved : ∀ t ∈ w.savedQ12Tasks, t.id ∉ is) (hleaked : ∀ t ∈ w.leaked, t.id ∉ is)
    (hnone : w.NoneLeaked) (hg : w.context.Granted)
    (hasks : t.id ∈ is → t.Asks ∧ w.context.stopped = false) : w'.Watched is := by
  have hfresh : told t.id w.context.out = [] := told_eq_nil (hid ▸ h.not_about_next)
  refine ((watched_stable is).toStable.pushed hp hv hid hn
    (fun hrefused => ⟨⟨hknown, ?_, hsaved, hleaked, hnone⟩, hg⟩)
    (fun hq _ => ⟨⟨hknown, ?_, hsaved, hleaked, hnone⟩, hg⟩)
    fun hq _ => ⟨⟨hknown, ?_, hsaved, hleaked, hnone⟩, hg⟩).1
  · -- the PUBLISH is not refused
    have hnot : t.id ∉ is := by
      intro hi
      obtain ⟨⟨-, -, d, hd⟩, hst⟩ := hasks hi
      rcases hrefused with hst' | ⟨hs, -⟩
      · cases hst.symm.trans hst'
      · cases hd.symm.trans hs
    refine h.of_made (unanswered_local is) hid ⟨[.freeTask t.id], rfl, by simp [Output.About]⟩ rfl
      (fun _ _ => Iff.rfl) (fun u hu hut => ?_) fun _ hi => absurd hi hnot
    have := hv.id_lt (show u ∈ w.held from hu)
    omega
  · have hheld (u : Task) : u ∈ (w.made.enqueue (setLogic t)).held ↔ u = setLogic t ∨ u ∈ w.held := by
      cases hpriority : (setLogic t).priority <;>
        simp only [World.held, enqueue, made, hpriority, List.mem_append, List.mem_cons,
          List.not_mem_nil] <;> grind
    refine h.of_added (unanswered_local is) hv hid (setLogic_id t) rfl rfl hheld fun hi => ?_
    rw [setLogic_id] at hi ⊢
    exact ⟨asks_setLogic (hasks hi).1, hfresh⟩
  · have hheld (u : Task) :
        u ∈ (w.made.track (setLogic t)).held ↔ u = w.tracked t ∨ u ∈ w.held := by
      simp only [World.held, tracked, track, made, List.mem_append, List.mem_singleton]
      grind
    refine h.of_added (unanswered_local is) hv hid (u := w.tracked t) (setLogic_id t) rfl rfl hheld
      fun hi => ?_
    have hsame : (w.tracked t).id = t.id := setLogic_id t
    rw [hsame] at hi ⊢
    have ht := asks_setLogic (hasks hi).1
    exact ⟨⟨ht.callback, ht.qos, ht.scenario⟩, hfresh⟩

/-! ## Setup and teardown -/

/-- The PUBLISHes are gone, and stay so. -/
theorem answered_rule (is : List Nat) :
    TaskRule anything (· ∉ is) (fun _ t => t.id ∉ is) (Answered is) where
  other _ h := h
  otherGone hos h := h.append hos
  logic _ h := h
  start _ h := h
  keep _ _ hr _ h := by rwa [hr.outcome.task.id, hr.resumes.id]
  finish _ _ _ _ h hi := absurd hi h
  free h hi := absurd hi h
  refused h _ hi := absurd hi h
  queued h _ _ _ := by rwa [setLogic_id]
  answering _ h _ := h

/-- The PUBLISHes `is` are gone, and their users have been told once. -/
abbrev AllTold (is : List Nat) (w : World) : Prop := w.Each (fun _ t => t.id ∉ is) (Answered is)

theorem Watched.allTold (h : w.Watched is) (hnone : ∀ t ∈ w.held, t.id ∉ is) : w.AllTold is :=
  ⟨h.each.known, hnone, h.each.gone⟩

theorem AllTold.watched (h : w.AllTold is) (hi : ∀ i ∈ is, i < w.nextTask) (hnone : w.NoneLeaked) :
    w.Watched is where
  known := hi
  each := ⟨h.known, fun t ht hid => absurd hid (h.held t ht), h.gone⟩
  saved t ht := h.held t (mem_held_of_saved ht)
  leaked t ht := h.held t (mem_held_of_leaked ht)
  noneLeaked := hnone

/-- A setup with the layer data of before, for a clean session, changes no queue. -/
theorem Watched.initialised (h : w.Watched is) (hs : w.Sound) (hd : w.context.layerData = true)
    (hclean : w.context.connection.sessionType = .clean) (mem : List Bool) :
    (w.initialised mem).Watched is := by
  have hsaved := hs.data hd
  unfold World.initialised
  rw [restoreSession_clean (by rw [hclean]; decide), hsaved]
  exact h.of_eq ⟨[], by simp [freeTasks, World.withContext], by simp⟩ rfl
    (fun t => by simp [World.held, freeTasks, World.withContext, hsaved]) hsaved.symm rfl

/-- A setup without the layer data of before finds only what has been handed on, or leaked. -/
theorem Watched.init_fresh (h : w.Watched is) (hs : w.Sound) (hd : w.context.layerData = false)
    (s : IotcState) : (w.init s).Watched is := by
  have hheld {t : Task} (ht : t ∈ w.held) : t.id ∉ is ∧ t.qos ≠ .atMostOnce := by
    rcases hs.held_of_noData hd ht with ht | ht
    · exact ⟨h.saved t ht, (hs.saved t ht).1.qos⟩
    · exact ⟨h.leaked t ht, h.noneLeaked t ht⟩
  have hf := init_fewer w s
  have htold := (h.allTold fun t ht => (hheld ht).1).fewer (answered_rule is) hf
  refine AllTold.watched htold (hf.nextTask ▸ h.known) fun t ht => ?_
  obtain ⟨u, hu, hut⟩ := hf.held t (mem_held_of_leaked ht)
  rw [hut.1]
  exact (hheld hu).2

theorem Watched.init (h : w.Watched is) (hs : w.Sound) (s : IotcState)
    (hclean : w.context.layerData = true → w.context.connection.sessionType = .clean) :
    (w.init s).Watched is := by
  cases hd : w.context.layerData with
  | false => exact h.init_fresh hs hd s
  | true =>
    have hclean := hclean hd
    rcases init_cases w s with ⟨hd', -, -⟩ | ⟨w₀, ⟨-, rfl⟩ | ⟨hd', -, -⟩, hinit⟩
    · cases hd.symm.trans hd'
    · rcases hinit with ⟨mem, hinit⟩ | ⟨hnone, -, -⟩
      · rw [hinit]
        exact (h.initialised hs hd hclean mem).quiet
          (Quiet.call (R := nothing) _ (o := .initOnPrev s) trivial rfl)
      · simp [initialHandlers, hclean, hd] at hnone
    · cases hd.symm.trans hd'

/-- The layer stays as it is while timeouts are cancelled. -/
theorem cancelTimeouts_still (ts : List Task) (c : Context) :
    c.Still (cancelTimeouts ts c) ∧ (cancelTimeouts ts c).callbacks = c.callbacks := by
  induction ts generalizing c with
  | nil => exact ⟨.refl c, rfl⟩
  | cons t ts ih =>
    obtain ⟨hstill, hcallbacks⟩ := ih (c.cancelTaskTimeout t.id)
    exact ⟨(still_cancelTaskTimeout c t.id).trans hstill,
      hcallbacks.trans (cancelTaskTimeout_callbacks c t.id)⟩

theorem saved_context (h : w.saved = some w') :
    w'.context = cancelTimeouts (w.q12Tasks ++ w.q12RecvTasks) w.context ∧
      w'.currentQ0Task = w.currentQ0Task ∧ w'.leaked = w.leaked := by
  rcases saved_cases h with ⟨-, h⟩ | ⟨-, rfl⟩
  · unfold saveSession at h
    split at h
    · cases h
    · obtain rfl := Option.some.inj h
      exact ⟨rfl, rfl, rfl⟩
  · exact ⟨rfl, rfl, rfl⟩

/-- **The current task is stopped**, and its user is told. -/
theorem stopCurrent_allTold (h : w.Each (Unanswered is) (Answered is))
    (hi : ∀ i ∈ is, i < w.nextTask) (hv : w.Valid) (hg : w.context.Granted)
    (hst : w.context.stopped = false) (hc : w.currentQ0Task = some t) (hid : t.id ∈ is)
    (hcs : t.cs = .sent) (hothers : ∀ u ∈ w.held, u.id ∈ is → u.id = t.id)
    (hstop : w.stopCurrent = some w') : w'.AllTold is := by
  rcases stopCurrent_cases hstop with ⟨hnone, -⟩ | ⟨t', w₁, hc', h₁, rfl⟩
  · cases hc.symm.trans hnone
  · obtain rfl := Option.some.inj (hc.symm.trans hc')
    have hp : (w.withContext (w.context.disarm t.id)).At t .current := hc
    have hv' := hv.disarm t.id
    have h' : (w.withContext (w.context.disarm t.id)).Each (Unanswered is) (Answered is) :=
      ⟨h.known, h.held, h.gone⟩
    have hserving := hv.current t hc
    obtain ⟨ht, hnone⟩ := h'.held t (At.mem_held (p := .current) hp) hid
    obtain ⟨d, hs⟩ := ht.scenario
    rcases resume_cases hv'.q0 h₁ with ⟨hl, -⟩ | ⟨a, r, hl, hr, hsettled⟩
    · obtain ⟨s, m, hlogic⟩ := hserving.logic
      cases hlogic.symm.trans hl
    · have hrun : Runs anything (w.withContext (w.context.disarm t.id)).context t .current
          { t with logic := some { a with state := .timeout } } r := .logic hl (.stopped a trivial) hr
      have he : r.exit.final = true := by
        cases execute_publishQ0 (t := { t with logic := some { a with state := .timeout } }) hs
          hserving.qos hr with
        | stopped hst' _ _ _ => cases hst.symm.trans hst'
        | sends _ hsent _ _ _ _ => exact absurd hcs hsent
        | ends _ he _ _ => exact he
      have hanswered : Answered is r.context.out t.id := fun _ => by
        rcases hrun.told ht hg with ⟨he', -⟩ | ⟨-, s, htold⟩
        · cases he.symm.trans he'
        · exact ⟨s, by rw [htold, hnone]; rfl⟩
      have hfinished := h'.finish (unanswered_local is) hv' hp hrun hanswered
      have htold :
          ((w.withContext (w.context.disarm t.id)).finished t .current r.context).AllTold is := by
        refine ⟨hfinished.known, fun v hvm hvi => ?_, hfinished.gone⟩
        obtain ⟨hvm, hne⟩ := (hv'.mem_finished_held hp).mp hvm
        exact hne (hothers v hvm hvi)
      refine Each.fewer (answered_rule is) (freed_current_fewer w₁) ?_
      exact ((answered_rule is).stable.toStable.ended hsettled hv' hp hrun.resumes hrun.outcome he
        ⟨htold, fun j hj hji => Nat.not_lt_of_le hj (hi j hji)⟩).1

theorem teardown_leaked {w₁ w₂ w₃ : World} (hv : w₁.Valid) (h₁ : w.saved = some w₁)
    (h₂ : w₁.stopCurrent = some w₂) (h₃ : w₂.freeLayerData = some w₃) (s : IotcState) :
    (w₃.call (·.closeExternallyOnNext s)).leaked = w.leaked ∧
      (w₃.call (·.closeExternallyOnNext s)).nextTask = w.nextTask := by
  have hquiet := Quiet.call (R := nothing) w₃ (f := (·.closeExternallyOnNext s))
    (o := .closeExternallyOnNext s) trivial rfl
  obtain ⟨-, hleaked₂, hnext₂⟩ := stopCurrent_untouched hv h₂
  rw [hquiet.leaked, hquiet.nextTask, (freeLayerData_fewer h₃).nextTask, hnext₂,
    (saved_fewer h₁).nextTask, freeLayerData_eq_some h₃]
  exact ⟨hleaked₂.trans (saved_context h₁).2.2, rfl⟩

/-- **A teardown that finds no PUBLISH in a queue** tells the user of the current one. -/
theorem Watched.teardown {w₁ w₂ w₃ : World} (h : w.Watched is) (hs : w.Sound) (hg : w.context.Granted)
    (hd : w.context.layerData = true) (h₁ : w.saved = some w₁) (h₂ : w₁.stopCurrent = some w₂)
    (h₃ : w₂.freeLayerData = some w₃) (s : IotcState) (hc : w.currentQ0Task = some t) (hid : t.id ∈ is)
    (hothers : ∀ u ∈ w.held, u.id ∈ is → u.id = t.id) (hst : w.context.stopped = false)
    (hcs : t.cs = .sent) : (w₃.call (·.closeExternallyOnNext s)).AllTold is := by
  obtain ⟨hcontext, hcurrent, -⟩ := saved_context h₁
  obtain ⟨hstill, hcallbacks⟩ := cancelTimeouts_still (w.q12Tasks ++ w.q12RecvTasks) w.context
  have hf₁ := saved_fewer h₁
  have hc₁ : w₁.currentQ0Task = some t := hcurrent.trans hc
  have hheld : t ∈ w.held := At.mem_held (p := .current) hc
  have heach₁ : w₁.Each (Unanswered is) (Answered is) := by
    refine h.each.of_fewer (unanswered_local is) hf₁ fun u hu hno _ hui => ?_
    obtain rfl := hs.toValid.eq_of_held hheld hu (hothers u hu hui)
    exact absurd rfl (hno u (At.mem_held (p := .current) hc₁))
  have hg₁ : w₁.context.Granted := by
    unfold Context.Granted
    rw [hcontext, hcallbacks]
    exact hg
  have hst₁ : w₁.context.stopped = false := by rw [hcontext, hstill.stopped, hst]
  have htold : w₂.AllTold is := by
    refine stopCurrent_allTold heach₁ (hf₁.nextTask ▸ h.known) (hs.valid_of_saved hd h₁) hg₁ hst₁ hc₁ hid
      hcs (fun u hu hui => ?_) h₂
    obtain ⟨v, hv, huv⟩ := hf₁.held u hu
    rw [huv.1] at hui ⊢
    exact hothers v hv hui
  exact (htold.fewer (answered_rule is) (freeLayerData_fewer h₃)).quiet (answered_rule is).toLocal
    (Quiet.call (R := nothing) w₃ (f := (·.closeExternallyOnNext s)) (o := .closeExternallyOnNext s)
      trivial rfl)

/-! ## Every call -/

/-- The user of a PUBLISH waits for its outcome. -/
def Event.asks : Event → Bool
  | .submit (.publish _ _ qos _ callback) => qos ≠ .exactlyOnce && callback.isSome
  | _ => false

/-- The PUBLISHes are noted that the layer accepts in a clean session. -/
def observeAsked (w : World) (e : Event × Oracle) (_ : World) (is : List Nat) : List Nat :=
  if e.1.asks ∧ w.context.stopped = false ∧ w.context.connection.sessionType = .clean then
    w.nextTask :: is
  else is

/-- **A call that forgets none of the PUBLISHes.** There is memory for the events of the callbacks; a
teardown finds none in a queue, and the current one if it can be told; and no other session is taken
over while the layer data are there. -/
def RemembersAll (is : List Nat) (w : World) (e : Event × Oracle) : Prop :=
  (∀ b ∈ e.2.callbacks, b = true) ∧
    match e.1 with
    | .closeExternally s => w.context.layerData = true → w.TearsDown s →
        (∀ t ∈ w.q0Tasks ++ w.q12Tasks, t.id ∉ is) ∧
          ∀ t ∈ w.currentQ0Task, t.id ∈ is → w.context.stopped = false ∧ t.cs = .sent
    | .init _ => w.context.layerData = true → w.context.connection.sessionType = .clean
    | _ => True

/-- A PUBLISH that waits for its outcome is the current task, if it is in no queue. -/
theorem Watched.current_of_notMem (h : w.Watched is) (hv : w.Valid)
    (hq : ∀ t ∈ w.q0Tasks ++ w.q12Tasks, t.id ∉ is) (hu : u ∈ w.held) (hi : u.id ∈ is) :
    w.currentQ0Task = some u := by
  have hm := hu
  simp only [World.held, List.mem_append, Option.mem_toList] at hm
  rcases hm with hm | hm | hm | hm | hm | hm
  · exact hm
  · exact absurd hi (hq u (List.mem_append_left _ hm))
  · exact absurd hi (hq u (List.mem_append_right _ hm))
  · obtain ⟨d, hd⟩ := (h.each.held u hu hi).1.scenario
    cases hd.symm.trans (hv.q12Recv u hm).scenario
  · exact absurd hi (h.saved u hm)
  · exact absurd hi (h.leaked u hm)

/-- The PUBLISH that a user submits is noted if it is accepted. -/
theorem mem_observeAsked {q : Request} {o : Oracle} {i : Nat}
    (hi : i ∈ w.observeAsked (.submit q, o) w' is) :
    i ∈ is ∨ i = w.nextTask ∧ (q.task w.nextTask).Asks ∧ w.context.stopped = false := by
  unfold observeAsked at hi
  split at hi
  · next hasks =>
    obtain ⟨hasks, hst, -⟩ := hasks
    rcases List.mem_cons.mp hi with rfl | hi
    · cases q with
      | publish topic data qos retain callback =>
        obtain ⟨hq, hcallback⟩ : qos ≠ .exactlyOnce ∧ callback.isSome = true := by
          simpa [Event.asks] using hasks
        exact .inr ⟨rfl, ⟨hcallback, hq, _, rfl⟩, hst⟩
      | subscribe topic qos handler => cases hasks
      | shutdown => cases hasks
    · exact .inl hi
  · exact .inl hi

theorem submit_remembers (h : w.Watched is) (hs : w.Sound) {q : Request} {o : Oracle}
    (hg : ∀ b ∈ o.callbacks, b = true) (hstep : step w (.submit q, o) = some w') :
    w'.Watched (w.observeAsked (.submit q, o) w' is) := by
  have hid : (q.task w.nextTask).id = w.nextTask := Request.task_id _ q
  have hmem {i : Nat} (hi : i ∈ w.observeAsked (.submit q, o) w' is) (hlt : i < w.nextTask) : i ∈ is :=
    (mem_observeAsked hi).resolve_right fun hnew => Nat.ne_of_lt hlt hnew.1
  have hheld {t : Task} (ht : t ∈ w.held) (hi : t.id ∈ w.observeAsked (.submit q, o) w' is) :
      t.id ∈ is :=
    hmem hi (hs.toValid.id_lt ht)
  refine (submit_pushed hs hstep).watched (hs.withOracle o).toValid hid (Request.task_new _ q)
    (fun i hi => ?_) ⟨h.each.known, fun t ht hi => h.each.held t ht (hheld ht hi),
      fun i hlt hgone hi => h.each.gone i hlt hgone (hmem hi hlt)⟩
    (fun t ht hi => h.saved t ht (hheld (mem_held_of_saved ht) hi))
    (fun t ht hi => h.leaked t ht (hheld (mem_held_of_leaked ht) hi)) h.noneLeaked hg fun hi => ?_
  · rcases mem_observeAsked hi with hi | ⟨rfl, -⟩
    · exact Nat.lt_succ_of_lt (h.known i hi)
    · exact Nat.lt_succ_self _
  · rw [hid] at hi
    exact ((mem_observeAsked hi).resolve_left fun hi => Nat.lt_irrefl _ (h.known _ hi)).2

theorem step_remembers (h : w.Watched is) (hs : w.Sound) {e : Event} {o : Oracle}
    (he : ∀ q, e ≠ .submit q) (hk : w.RemembersAll is (e, o)) (hstep : step w (e, o) = some w') :
    w'.Watched is := by
  obtain ⟨hg, hk⟩ := hk
  have h₀ : (w.withOracle o).Watched is :=
    h.of_eq ⟨[], by simp [withOracle, World.withContext], by simp⟩ rfl (fun _ => Iff.rfl) rfl rfl
  cases step_anything hs hstep with
  | changes _ hc => exact ((watched_stable is).changes hc (hs.withOracle o) ⟨h₀, hg⟩).1
  | expired o' s _ _ =>
    exact h.of_eq ⟨[], by simp [withOracle, World.withContext, World.returns], by simp⟩ rfl
      (fun _ => Iff.rfl) rfl rfl
  | @pushed _ t _ hm _ hp =>
    have hnot : t.id ∉ is := fun hi => Nat.ne_of_lt (h.known _ hi) hm.id_eq
    have hg' : (w.prepared o e).context.Granted := by cases e <;> exact hg
    have h' : (w.prepared o e).Watched is := by
      obtain ⟨mem, callbacks, k, heq⟩ := prepared_eq w o e
      rw [heq]
      exact h.of_eq ⟨[], by simp [World.withContext], by simp⟩ rfl (fun _ => Iff.rfl) rfl rfl
    have hnext : (w.prepared o e).nextTask = w.nextTask := (prepared_fewer w o e).nextTask
    exact hp.watched (hs.prepared o e).toValid (hm.id_eq.trans hnext.symm) hm.new
      (fun i hi => Nat.lt_succ_of_lt (h'.known i hi)) h'.each h'.saved h'.leaked h'.noneLeaked hg'
      fun hi => absurd hi hnot
  | connection _ =>
    exact h₀.of_eq ⟨[], by simp [setConnection, World.withContext], by simp⟩ rfl (fun _ => Iff.rfl) rfl
      rfl
  | init s => exact h₀.init (hs.withOracle o) s hk
  | @teardown w₁ w₂ w₃ s hd htd h₁ h₂ h₃ =>
    obtain ⟨hq, hc⟩ := hk hd htd
    have hs₀ := hs.withOracle o
    have hv₁ := hs₀.valid_of_saved hd h₁
    obtain ⟨hleaked, hnext⟩ := teardown_leaked hv₁ h₁ h₂ h₃ s
    have hnone : (w₃.call (·.closeExternallyOnNext s)).NoneLeaked := by
      unfold NoneLeaked
      rw [hleaked]
      exact h.noneLeaked
    have hcurrent {u : Task} (hu : u ∈ w.held) (hi : u.id ∈ is) : w.currentQ0Task = some u :=
      h.current_of_notMem hs.toValid hq hu hi
    have hknown : ∀ i ∈ is, i < (w₃.call (·.closeExternallyOnNext s)).nextTask := hnext ▸ h.known
    by_cases hheld : ∃ t ∈ w.held, t.id ∈ is
    · obtain ⟨t, ht, hi⟩ := hheld
      have hct := hcurrent ht hi
      obtain ⟨hst, hcs⟩ := hc t hct hi
      refine (h₀.teardown hs₀ hg hd h₁ h₂ h₃ s hct hi (fun u hu hui => ?_) hst hcs).watched hknown hnone
      rw [Option.some.inj (hct.symm.trans (hcurrent hu hui))]
    · -- all of them have been told before
      have htold := h.allTold fun t ht hi => hheld ⟨t, ht, hi⟩
      refine AllTold.watched (Each.step (answered_rule is) htold hs (fun i hle hi => ?_)
        (admits_anything w _) (fun q he' => by cases he') hstep) hknown hnone
      exact Nat.not_lt_of_le hle (h.known i hi)

/-! ## Every run -/

/-- A world with the PUBLISHes that are noted beside it. -/
abbrev observedAsked : World × List Nat → Event × Oracle → Option (World × List Nat) :=
  Infra.observed step observeAsked

theorem initial_watched : ({} : World).Watched [] where
  known _ hi := absurd hi List.not_mem_nil
  each := initial_each
  saved _ _ := List.not_mem_nil
  leaked _ _ := List.not_mem_nil
  noneLeaked _ ht := absurd ht List.not_mem_nil

theorem observeAsked_of_ne {e : Event} {o : Oracle} (he : ∀ q, e ≠ .submit q) :
    w.observeAsked (e, o) w' is = is := by
  cases e with
  | submit q => exact absurd rfl (he q)
  | _ => rfl

/-- **Each PUBLISH that has been accepted in a clean session is told its outcome once**, at the latest
when the layer data are gone, if no call forgets one. -/
theorem publishes_told {es : List (Event × Oracle)} {s : World × List Nat}
    (h : Infra.run observedAsked ({}, []) es = some s)
    (hk : Infra.AllSteps observedAsked (fun s e => s.1.RemembersAll s.2 e) ({}, []) es) {i : Nat}
    (hi : i ∈ s.2) : (told i s.1.context.out).length ≤ 1 ∧
      (s.1.context.layerData = false → ∃ outcome, told i s.1.context.out = [outcome]) := by
  obtain ⟨hw, hs⟩ := Infra.run_invariant_of
    (P := fun s : World × List Nat => s.1.Watched s.2 ∧ s.1.Sound)
    (fun s e s' hw hk hstep => by
      obtain ⟨hstep, hobserve⟩ := Infra.observed_eq_some hstep
      refine ⟨?_, step_sound hw.2 hstep⟩
      rw [hobserve]
      obtain ⟨e, o⟩ := e
      by_cases hq : ∃ q, e = .submit q
      · obtain ⟨q, rfl⟩ := hq
        exact submit_remembers hw.1 hw.2 hk.1 hstep
      · rw [observeAsked_of_ne fun q he => hq ⟨q, he⟩]
        exact step_remembers hw.1 hw.2 (fun q he => hq ⟨q, he⟩) hk hstep)
    ⟨initial_watched, initial_sound⟩ hk h
  by_cases hheld : ∃ t ∈ s.1.held, t.id = i
  · obtain ⟨t, ht, rfl⟩ := hheld
    refine ⟨by rw [(hw.each.held t ht hi).2]; decide, fun hd => ?_⟩
    rcases hs.held_of_noData hd ht with ht | ht
    · exact absurd hi (hw.saved t ht)
    · exact absurd hi (hw.leaked t ht)
  · obtain ⟨outcome, htold⟩ := hw.each.gone i (hw.known i hi) (fun t ht hid => hheld ⟨t, ht, hid⟩) hi
    exact ⟨by rw [htold]; exact Nat.le_refl 1, fun _ => ⟨outcome, htold⟩⟩

/-- A PUBLISH with a callback. -/
def asking (qos : Qos) : Event := .submit (.publish (some [0x61]) [] qos false (some 7))

/-- A PUBLISH is written, and the connection is closed. -/
theorem publishes_told_written : ∃ s,
    Infra.run observedAsked ({}, []) (calls (opening client ++
      [asking .atMostOnce, .written 0 .publish true, .closeExternally .ok, .closed])) = some s ∧
    s.1.context.layerData = false ∧ 1 ∈ s.2 ∧ ∃ outcome, told 1 s.1.context.out = [outcome] := by
  have hgranted : ∀ b ∈ ({} : Oracle).callbacks, b = true := fun _ hb => absurd hb List.not_mem_nil
  obtain ⟨s, hs, hd, hi⟩ : ∃ s, Infra.run observedAsked ({}, []) (calls (opening client ++
      [asking .atMostOnce, .written 0 .publish true, .closeExternally .ok, .closed])) = some s ∧
      s.1.context.layerData = false ∧ 1 ∈ s.2 := ⟨_, rfl, rfl, by decide⟩
  refine ⟨s, hs, hd, hi, (publishes_told hs ?_ hi).2 hd⟩
  refine .cons ⟨hgranted, trivial⟩ rfl (.cons ⟨hgranted, fun h => by cases h⟩ rfl ?_)
  refine .cons ⟨hgranted, trivial⟩ rfl (.cons ⟨hgranted, trivial⟩ rfl (.cons ⟨hgranted, trivial⟩ rfl ?_))
  refine .cons ⟨hgranted, trivial⟩ rfl (.cons ⟨hgranted, trivial⟩ rfl (.cons ⟨hgranted, ?_⟩ rfl
    (.cons ⟨hgranted, trivial⟩ rfl trivial)))
  -- nothing is left when the connection is closed
  exact fun _ _ => ⟨fun _ ht => absurd ht List.not_mem_nil, fun _ ht => by cases ht⟩

/-- **The connection is lost while a PUBLISH waits for its PUBACK.** It is freed, and its user is told
nothing. -/
theorem publishes_told_fails : ∃ s,
    Infra.run observedAsked ({}, []) (calls (opening client ++
      [asking .atLeastOnce, .closeExternally .connectionResetByPeerError, .closed])) = some s ∧
    s.1.context.layerData = false ∧ s.1.context.connection.connectionState = .closed ∧ 1 ∈ s.2 ∧
      told 1 s.1.context.out = [] :=
  ⟨_, rfl, rfl, rfl, by decide, rfl⟩

end World

end IotDeviceSdk.Mqtt.Logic
