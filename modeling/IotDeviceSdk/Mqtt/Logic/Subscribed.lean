import IotDeviceSdk.Mqtt.Logic.PublishQ1
import IotDeviceSdk.Mqtt.Logic.Session
import IotDeviceSdk.Mqtt.Logic.Subscribe

/-!
# What the calls do with subscriptions

`World.ServesSubscriptions` says that no coroutine of a subscription comes to its `err_handling` in a
call, that a SUBACK that grants a subscription comes when it is waited for, and that `init` drops
neither a subscription nor a handler.

Such a call leaves the handlers and the callbacks of SUBACKs as they are, or does with them what the
SUBACK says that it receives (`step_moves`), if it is neither a setup nor a teardown.
-/

namespace IotDeviceSdk.Mqtt.Logic

/-- The task is a SUBSCRIBE. -/
def Task.subscribes (t : Task) : Bool :=
  match t.scenario with
  | .subscribe _ => true
  | _ => false

theorem Task.subscribes_iff {t : Task} : t.subscribes = true ↔ ∃ d, t.scenario = .subscribe d := by
  unfold Task.subscribes
  split
  · next d hd => exact iff_of_true rfl ⟨d, hd⟩
  · next hno => exact iff_of_false (by decide) fun ⟨d, hd⟩ => hno d hd

theorem Task.not_subscribes {t : Task} (h : ¬t.subscribes = true) : ∀ d, t.scenario ≠ .subscribe d :=
  fun d hd => h (subscribes_iff.mpr ⟨d, hd⟩)

/-- A queued task is no subscription, and does not write to itself after its end. -/
theorem Task.Queued.subscriptions {c : Context} {t : Task} {a : Args} {r : CoResult}
    (hq : t.Queued) (h : execute c t a = some r) :
    r.context.subscriptions = c.subscriptions ∧ r.exit.resets = false := by
  refine ⟨execute_subscriptions (fun d hd => ?_) h, ?_⟩
  · rcases hq.scenario with hs | ⟨_, hs⟩ | hs | hs <;> exact Scenario.noConfusion (hs.symm.trans hd)
  · cases he : r.exit with
    | finalizeThenReset s => exact absurd he (hq.not_reset h s)
    | _ => rfl

theorem Task.Tracked.subscribes {t : Task} (ht : t.Tracked) (hs : t.subscribes = true) :
    (∃ d, t.scenario = .subscribe (some d)) ∧ t.logic.isSome = true ∧ t.qos = .atLeastOnce := by
  obtain ⟨d, hd⟩ := Task.subscribes_iff.mp hs
  rcases ht.scenario with ⟨⟨e, he⟩ | ⟨e, he⟩, hlogic, hq⟩ | ⟨h, -⟩
  · exact Scenario.noConfusion (he.symm.trans hd)
  · exact ⟨⟨e, he⟩, hlogic, hq⟩
  · exact Scenario.noConfusion (h.symm.trans hd)

theorem setLogic_subscribes (t : Task) : (World.setLogic t).subscribes = t.subscribes := by
  unfold World.setLogic
  split
  · next d hs _ =>
    simp only [Task.subscribes, Task.freeData, hs]
  · rfl

namespace World

variable {w w' w₁ : World} {t u : Task} {ts : List Task} {p : Place} {r : CoResult} {m : Message}

/-! ## A run of a coroutine -/

@[simp] theorem freeTasks_subscriptions (w : World) (ts : List Task) :
    (w.freeTasks ts).context.subscriptions = w.context.subscriptions := by
  have hfree : (ts.map fun t => Output.freeTask t.id).filter Output.ofSubscription = [] := by
    simp [Output.ofSubscription]
  simp only [Context.subscriptions, freeTasks, withContext, List.filter_append, hfree,
    List.append_nil]

@[simp] theorem freeCurrent_subscriptions (w : World) :
    w.freeCurrent.context.subscriptions = w.context.subscriptions := by
  unfold World.freeCurrent
  split
  · exact (freeTasks_subscriptions _ _).trans (Context.cancelTaskTimeout_subscriptions _ _)
  · rfl

theorem drop_subscriptions (w : World) (t : Task) (p : Place) :
    (w.drop t p).context.subscriptions = w.context.subscriptions := by
  cases p with
  | current => rfl
  | _ => exact freeTasks_subscriptions w [t]

theorem leave_subscriptions {id : Nat} {finalise : World → Option World} {e : Exit}
    (he : e.resets = false)
    (hf : ∀ w₁, finalise w = some w₁ → w₁.context.subscriptions = w.context.subscriptions)
    (h : w.leave id finalise e = some w') : w'.context.subscriptions = w.context.subscriptions := by
  rcases leave_cases h with ⟨s, -, rfl⟩ | ⟨-, -, w₁, s, h₁, rfl | ⟨⟨s', rfl⟩, -⟩⟩
  · rfl
  · exact hf w₁ h₁
  · cases he

theorem runQ0Tasks_subscriptions : ∀ {ts : List Task} {w w' : World}, (∀ t ∈ ts, t.Queued) →
    runQ0Tasks ts w = some w' → w'.context.subscriptions = w.context.subscriptions
  | [], w, w', _, h => by
    obtain rfl := Option.some.inj h
    exact freeCurrent_subscriptions w
  | t :: ts, w, w', hts, h => by
    unfold runQ0Tasks at h
    dsimp only at h
    split at h
    · obtain rfl := Option.some.inj h
      exact freeCurrent_subscriptions w
    · have hrecord : (w.freeCurrent.record (.run t.id)).context.subscriptions =
          w.context.subscriptions :=
        (Context.record_subscriptions _ rfl).trans (freeCurrent_subscriptions w)
      split at h
      · obtain rfl := Option.some.inj h
        exact hrecord
      · split at h
        · cases h
        · next r hr =>
          obtain ⟨hsame, hresets⟩ := (hts t List.mem_cons_self).subscriptions hr
          refine (leave_subscriptions hresets (fun w₁ h₁ => ?_) h).trans (hsame.trans hrecord)
          exact runQ0Tasks_subscriptions (fun u hu => hts u (List.mem_cons_of_mem _ hu)) h₁

theorem runNextQ0Task_subscriptions (hq : ∀ t ∈ w.q0Tasks, t.Queued)
    (h : w.runNextQ0Task = some w') : w'.context.subscriptions = w.context.subscriptions := by
  unfold runNextQ0Task at h
  split at h
  · exact runQ0Tasks_subscriptions hq h
  · cases h

/-- **What follows a run** of a coroutine, if that has not failed. -/
theorem settle_subscriptions (hq : ∀ t ∈ w.q0Tasks, t.Queued) (he : r.exit.resets = false)
    (h : w.settle p r = some w') : w'.context.subscriptions = r.context.subscriptions := by
  have hput : ((w.withContext r.context).put r.task p).context = r.context := by cases p <;> rfl
  refine (leave_subscriptions he (fun w₁ h₁ => ?_) h).trans (congrArg Context.subscriptions hput)
  unfold finalizeTask at h₁
  split at h₁
  · refine runNextQ0Task_subscriptions ?_ h₁
    cases p <;> exact hq
  · obtain rfl := Option.some.inj h₁
    exact drop_subscriptions _ _ _

/-- The coroutine of a subscription has what it asks for when the task is resumed. -/
def ServesTask (w : World) (t : Task) (set : Args → Args) : Prop :=
  t.subscribes = true → ∀ a ∈ t.logic, w.context.Serves t (set a)

/-- A coroutine of a subscription is run in `q12Tasks`, as long as none is leaked. -/
theorem Valid.subscribes_at (hv : w.Valid) (hp : w.At t p) (hs : t.subscribes = true)
    (hl : p ≠ .leaked) : p = .q12 := by
  obtain ⟨d, hd⟩ := Task.subscribes_iff.mp hs
  cases p with
  | current =>
    rcases (hv.current t hp).scenario with h | ⟨_, h⟩ | h | h <;>
      exact Scenario.noConfusion (h.symm.trans hd)
  | q12 => rfl
  | q12Recv => exact Scenario.noConfusion ((hv.q12Recv t hp).scenario.symm.trans hd)
  | leaked => exact absurd rfl hl

theorem Valid.layerData_of_q12 (hv : w.Valid) (ht : t ∈ w.q12Tasks) : w.context.layerData = true := by
  cases hdata : w.context.layerData with
  | true => rfl
  | false =>
    rw [(hv.noData hdata).2.2.1] at ht
    cases ht

/-- A SUBACK has ended the subscription. -/
def AnswersTask (w : World) (t : Task) (set : Args → Args) (w' : World) : Prop :=
  t.subscribes = true ∧ t.cs = .answer ∧ ∃ a ∈ t.logic, (set a).state = .ok ∧
    ∃ m ∈ (set a).message, m.message.type = .suback ∧
      w.context.Answers t (subackGrants m.message) w'.context

/-- **A task is resumed**: nothing happens to the subscriptions, or a SUBACK ends its own. -/
theorem resume_moves (hv : w.Valid) (hp : w.At t p) (hl : p ≠ .leaked) {set : Args → Args}
    (hserves : w.ServesTask t set) (h : w.resume p t set = some w') :
    (w'.context.subscriptions = w.context.subscriptions ∧
        ∀ a ∈ t.logic, t.subscribes = true → t.cs = .answer → (set a).state ≠ .ok) ∨
      w.AnswersTask t set w' := by
  unfold World.resume at h
  split at h
  · next hnone =>
    obtain rfl := Option.some.inj h
    refine .inl ⟨rfl, fun a ha => ?_⟩
    rw [show t.logic = some a from ha] at hnone
    cases hnone
  · next b hb =>
    obtain ⟨a, ha, rfl⟩ := Option.map_eq_some_iff.mp hb
    obtain ⟨r, hr, hsettle⟩ := Option.bind_eq_some_iff.mp h
    by_cases hsub : t.subscribes = true
    · obtain rfl := hv.subscribes_at hp hsub hl
      have hd := hv.layerData_of_q12 hp
      obtain ⟨d, hscenario⟩ := Task.subscribes_iff.mp hsub
      unfold execute at hr
      split at hr
      · have hr : doMqttSubscribe w.context { t with logic := some (set a) } (set a) = some r := by
          simpa only [coroutine, hscenario] using hr
        have hresets : r.exit.resets = false :=
          (doMqttSubscribe_resets hd hr).mpr (hserves hsub a ha)
        have hsettled := settle_subscriptions hv.q0 hresets hsettle
        rcases doMqttSubscribe_subscribes hr with ⟨hsame, -, hno⟩ | ⟨-, he⟩ |
          ⟨hcs, hok, hm, htype, hanswers, -⟩
        · refine .inl ⟨hsettled.trans hsame, fun b hb _ hcs => ?_⟩
          obtain rfl := Option.some.inj (ha.symm.trans hb)
          exact hno hd hcs
        · rw [he] at hresets
          cases hresets
        · have hanswers := hanswers.congr hsettled
          exact .inr ⟨hsub, hcs, a, ha, hok, _, hm, htype, hanswers.handlers, hanswers.told⟩
      · cases hr
    · have hscenario := Task.not_subscribes hsub
      have hsame := execute_subscriptions (t := { t with logic := some (set a) }) hscenario hr
      have hresets : r.exit.resets = false := by
        cases he : r.exit with
        | finalizeThenReset s =>
          obtain ⟨d, hd⟩ := (execute_outcome hr).subscribes s he
          exact absurd hd (hscenario d)
        | _ => rfl
      exact .inl ⟨(settle_subscriptions hv.q0 hresets hsettle).trans hsame, fun _ _ h => absurd h hsub⟩

/-- A task is resumed with something that is not an answer. -/
theorem resume_same (hv : w.Valid) (hp : w.At t p) (hl : p ≠ .leaked) {set : Args → Args}
    (hserves : w.ServesTask t set) (hok : ∀ a ∈ t.logic, t.cs = .answer → (set a).state ≠ .ok)
    (h : w.resume p t set = some w') : w'.context.subscriptions = w.context.subscriptions := by
  rcases resume_moves hv hp hl hserves h with ⟨h, -⟩ | ⟨-, hcs, a, ha, hstate, -⟩
  · exact h
  · exact absurd hstate (hok a ha hcs)

/-! ## The calls -/

/-- Each subscription of `ts` has what it asks for when it is sent again. -/
def ServesResends : List Task → World → Prop
  | [], _ => True
  | t :: ts, w =>
    if t.sessionState = .store then
      w.ServesTask t (fun a => { a with context := true, state := .resend }) ∧
        ∀ w' ∈ w.resume .q12 t (fun a => { a with context := true, state := .resend }),
          ServesResends ts w'
    else ServesResends ts w

/-- `init` drops neither a handler nor a subscription that the layer data hold, and it does not run
out of memory with the subscriptions of the last session at hand. -/
def KeepsSubscriptions (w : World) : Prop :=
  w.context.connection.sessionType = .continued →
    w.context.layerData = true ∨ w.context.alloc.1 = true →
      w.context.handlersForTopics = [] ∧ (∀ t ∈ w.q12Tasks, ¬t.subscribes = true) ∧
        (w.savedHandlers.isSome = true ∨
          w.context.HasMemory (if w.context.layerData then 1 else 2) ∨
          ∀ t ∈ w.savedQ12Tasks, ¬t.subscribes = true)

/-- **What a call must satisfy** so that the data of each subscription have one owner. -/
def ServesSubscriptions (w : World) : Event → Prop
  | .submit (.subscribe ..) =>
    w.context.stopped = false → w.context.connection.connectionState = .opened →
      w.context.HasMemory 1
  | .written msgId type success => w.context.stopped = false →
    ∀ x ∈ w.notified msgId type,
      w.ServesTask x.2 fun a => { a with state := if success then .written else .failedWriting }
  | .pull (some m) .ok => w.context.stopped = false → ∀ x ∈ w.answered m, x.2.subscribes = true →
    w.ServesTask x.2 (fun a => { a with state := .ok, message := some ⟨w.nextMessage, m⟩ }) ∧
      (m.type = .suback → subackGrants m = true → x.2.cs = .answer)
  | .fire id => ∀ t ∈ w.q12Tasks, t.id = id → ∀ timeout ∈ w.context.timeouts id,
    ∀ s, timeout = .resume s → t.subscribes = true → w.context.Serves t ⟨true, s, none⟩
  | .postConnect _ => w.context.layerData = true → ServesResends w.q12Tasks w
  | .init _ => w.KeepsSubscriptions
  | _ => True

/-- The SUBACK that a subscription gets in a call. -/
def suback (w : World) : Event → Option Answer
  | .pull (some m) .ok =>
    if w.context.stopped = false ∧ m.type = .suback then
      (w.answered m).bind fun x =>
        if x.2.subscribeData.isSome then some ⟨x.2.id, subackGrants m⟩ else none
    else none
  | _ => none

/-- Nothing happens to the subscriptions, and none is granted; or a SUBACK ends one. -/
inductive Moves (w w' : World) (a : Option Answer) : Prop
  | same (h : w'.context.subscriptions = w.context.subscriptions)
      (ha : ∀ x ∈ a, x.granted = false)
  | answers {t : Task} {g : Bool} (hd : w.context.layerData = true)
      (h : w.context.Answers t g w'.context) (ha : a = some ⟨t.id, g⟩)

theorem pushWritten_subscriptions (hs : w.Sound) {msgId : Nat} {type : MqttType} {s : IotcState}
    (hok : s ≠ .ok) (hserves : w.context.stopped = false → ∀ x ∈ w.notified msgId type,
      w.ServesTask x.2 fun a => { a with state := s })
    (h : w.pushWritten msgId type s = some w') :
    w'.context.subscriptions = w.context.subscriptions := by
  unfold World.pushWritten at h
  split at h
  · obtain rfl := Option.some.inj h
    rfl
  · next hst =>
    have hserves := hserves (Bool.not_eq_true _ ▸ hst)
    unfold notified at hserves
    split at h
    · next hz =>
      split at h
      · next t hc =>
        refine resume_same hs.toValid (p := .current) hc (by decide) ?_ (fun _ _ _ => hok) h
        exact hserves (.current, t) (by rw [if_pos hz, hc]; rfl)
      · obtain rfl := Option.some.inj h
        rfl
    · next hz =>
      split at h
      · cases h
      · next p ts hq =>
        split at h
        · next t ht =>
          refine resume_same hs.toValid (queueOf_at hq (findTask_mem ht).1) ?_ ?_ (fun _ _ _ => hok) h
          · rcases queueOf_place hq with rfl | rfl <;> decide
          · exact hserves (p, t) (by rw [if_neg hz, hq, Option.bind_some, ht]; rfl)
        · obtain rfl := Option.some.inj h
          rfl

/-- A time event of a task that is no subscription, or of one that has what it asks for. -/
theorem run_subscriptions (hs : w.Sound) (hp : w.At t p)
    (hl : p = .leaked → ¬t.subscribes = true) {timeout : TaskTimeout}
    (ht : w.context.timeouts t.id = some timeout)
    (hserves : ∀ s, timeout = .resume s → t.subscribes = true → w.context.Serves t ⟨true, s, none⟩)
    (hr : timeout.run (w.context.disarm t.id) t = some r) :
    r.context.subscriptions = w.context.subscriptions ∧ r.exit.resets = false := by
  by_cases hsub : t.subscribes = true
  · obtain rfl := hs.toValid.subscribes_at hp hsub fun h => hl h hsub
    have hd := hs.toValid.layerData_of_q12 hp
    obtain ⟨d, hscenario⟩ := Task.subscribes_iff.mp hsub
    have hfits := hs.timed t hp.mem_held _ ht
    cases timeout with
    | resume s =>
      have hok : s ≠ .ok := by
        rcases hfits with ⟨-, -, rfl, -⟩ | ⟨-, ⟨rfl, -⟩ | ⟨rfl, -⟩⟩ <;> decide
      have hr : doMqttSubscribe (w.context.disarm t.id) t ⟨true, s, none⟩ = some r := by
        simpa only [TaskTimeout.run, execute, coroutine, hscenario, if_true] using hr
      have hresets : r.exit.resets = false :=
        (doMqttSubscribe_resets (c := w.context.disarm t.id) hd hr).mpr (hserves s rfl hsub)
      rcases doMqttSubscribe_subscribes hr with ⟨hsame, -, -⟩ | ⟨-, he⟩ | ⟨-, hstate, -⟩
      · exact ⟨hsame, hresets⟩
      · rw [he] at hresets
        cases hresets
      · exact absurd hstate hok
    | keepalive msg => exact Scenario.noConfusion (hfits.1.symm.trans hscenario)
    | connect => exact Scenario.noConfusion (hfits.1.symm.trans hscenario)
  · have hscenario := Task.not_subscribes hsub
    refine ⟨(TaskTimeout.run_subscriptions hscenario hr).trans rfl, ?_⟩
    cases he : r.exit with
    | finalizeThenReset s =>
      obtain ⟨d, hd⟩ := (TaskTimeout.run_outcome hr).subscribes s he
      exact absurd hd (hscenario d)
    | _ => rfl

theorem fire_subscriptions (hs : w.Sound) (hl : ∀ t ∈ w.leaked, ¬t.subscribes = true) {id : Nat}
    (hserves : ∀ t ∈ w.q12Tasks, t.id = id → ∀ timeout ∈ w.context.timeouts id,
      ∀ s, timeout = .resume s → t.subscribes = true → w.context.Serves t ⟨true, s, none⟩)
    (h : w.fire id = some w') : w'.context.subscriptions = w.context.subscriptions := by
  have hrun {t : Task} {p : Place} {timeout : TaskTimeout} (hid : t.id = id) (hp : w.At t p)
      (ht : w.context.timeouts id = some timeout)
      (h : (timeout.run (w.context.disarm id) t).bind
        ((w.withContext (w.context.disarm id)).settle p) = some w') :
      w'.context.subscriptions = w.context.subscriptions := by
    subst hid
    obtain ⟨r, hr, hsettle⟩ := Option.bind_eq_some_iff.mp h
    have hleaked : p = .leaked → ¬t.subscribes = true := by
      rintro rfl
      exact hl t hp
    have hserved (s : IotcState) (he : timeout = .resume s) (hsub : t.subscribes = true) :
        w.context.Serves t ⟨true, s, none⟩ := by
      obtain rfl := hs.toValid.subscribes_at hp hsub fun he => hleaked he hsub
      exact hserves t hp rfl timeout ht s he hsub
    obtain ⟨hsame, hresets⟩ := run_subscriptions hs hp hleaked ht hserved hr
    exact (settle_subscriptions (w := w.withContext _) hs.q0 hresets hsettle).trans hsame
  unfold World.fire at h
  split at h
  · cases h
  · next timeout ht =>
    dsimp only at h
    split at h
    · next u hc =>
      obtain ⟨hc, hid⟩ := Option.filter_eq_some_iff.mp hc
      exact hrun (p := .current) (by simpa using hid) hc ht h
    · next u _ hq =>
      have hid := List.find?_some hq
      exact hrun (p := .q12) (by simpa using hid) (List.mem_of_find?_eq_some hq) ht h
    · next u _ _ hq =>
      have hid := List.find?_some hq
      exact hrun (p := .leaked) (by simpa using hid) (List.mem_of_find?_eq_some hq) ht h
    · cases h

/-- A subscription with a message of its id. -/
theorem answered_moves (hs : w.Sound) (hst : w.context.stopped = false) (ha : w.answered m = some (p, t))
    {set : Args → Args} (hset : ∀ a, (set a).state = .ok ∧ ∃ n, (set a).message = some ⟨n, m⟩)
    (hserves : t.subscribes = true → w.ServesTask t set ∧
      (m.type = .suback → subackGrants m = true → t.cs = .answer))
    (h : w.resume p t set = some w') : w.Moves w' (w.suback (.pull (some m) .ok)) := by
  obtain ⟨hp, hl⟩ := answered_at ha
  have hsuback : w.suback (.pull (some m) .ok) =
      if m.type = .suback then
        if t.subscribeData.isSome then some ⟨t.id, subackGrants m⟩ else none
      else none := by
    simp [World.suback, hst, ha]
  have hdata : t.subscribeData.isSome = true → t.subscribes = true := by
    intro hd
    obtain ⟨d, hd⟩ := Option.isSome_iff_exists.mp hd
    exact Task.subscribes_iff.mpr ⟨_, subscribeData_eq_some.mp hd⟩
  rcases resume_moves hs.toValid hp hl (fun hsub => (hserves hsub).1 hsub) h with
    ⟨hsame, hno⟩ | ⟨hsub, hcs, a, ha, -, m', hm', htype', hanswers⟩
  · refine .same hsame fun x hx => ?_
    rw [hsuback] at hx
    split at hx
    · next hm =>
      split at hx
      · next hd =>
        obtain rfl := Option.some.inj hx
        have hsub := hdata hd
        cases hg : subackGrants m with
        | false => rfl
        | true =>
          -- the SUBACK would have ended the subscription
          have hcs := (hserves hsub).2 hm hg
          obtain rfl := hs.toValid.subscribes_at hp hsub hl
          obtain ⟨-, hlogic, -⟩ := (hs.q12 t hp).subscribes hsub
          obtain ⟨a, ha⟩ := Option.isSome_iff_exists.mp hlogic
          exact absurd (hset a).1 (hno a ha hsub hcs)
      · cases hx
    · cases hx
  · obtain ⟨n, hn⟩ := (hset a).2
    obtain rfl := Option.some.inj (hn.symm.trans hm')
    refine .answers (layerData_of_not_stopped hst) hanswers ?_
    have hd : t.subscribeData.isSome = true := by
      obtain ⟨d, hd, -⟩ := hanswers.handlers
      exact Option.isSome_iff_exists.mpr ⟨d, hd⟩
    rw [hsuback, if_pos htype', if_pos hd]

theorem registerPublish_subscriptions (hs : w.Sound) (hd : w.context.layerData = true)
    {m : Received} (h : w.registerPublish m = some w') :
    w'.context.subscriptions = w.context.subscriptions := by
  unfold World.registerPublish at h
  dsimp only at h
  split at h
  · split at h
    · cases h
    · have hs' : (w.alloc.2.register m).Sound :=
        { hs.alloc.toValid.registered m hd rfl with data := hs.alloc.data }
      have hat : (w.alloc.2.register m).At (w.alloc.2.answering m) .q12Recv :=
        List.mem_append_right _ (List.mem_singleton_self _)
      refine (resume_same hs'.toValid hat (by decide) (fun hsub => ?_) (fun _ _ hcs => ?_) h).trans rfl
      · exact Bool.noConfusion hsub
      · exact Cs.noConfusion hcs
  · obtain rfl := Option.some.inj h
    exact Context.freeMessage_subscriptions _ _

/-- No subscription gets a SUBACK. -/
theorem Moves.of_none {a : Option Answer} (h : w'.context.subscriptions = w.context.subscriptions)
    (ha : a = none) : w.Moves w' a :=
  .same h fun x hx => by
    rw [ha] at hx
    cases hx

theorem suback_of_answered_none (h : w.answered m = none) {s : IotcState} :
    w.suback (.pull (some m) s) = none := by
  unfold World.suback
  split
  · next m' heq =>
    obtain rfl := Option.some.inj (Event.pull.inj heq).1
    rw [h]
    split <;> rfl
  · rfl

theorem pullMessage_moves (hs : w.Sound) {n : Nat} (hst : w.context.stopped = false)
    (hserves : ∀ x ∈ w.answered m, x.2.subscribes = true →
      w.ServesTask x.2 (fun a => { a with state := .ok, message := some ⟨n, m⟩ }) ∧
        (m.type = .suback → subackGrants m = true → x.2.cs = .answer))
    (h : w.pullMessage ⟨n, m⟩ = some w') : w.Moves w' (w.suback (.pull (some m) .ok)) := by
  have hnone (ha : w.answered m = none) (hsame : w'.context.subscriptions = w.context.subscriptions) :
      w.Moves w' (w.suback (.pull (some m) .ok)) := .of_none hsame (suback_of_answered_none ha)
  have hresume {t : Task} {p : Place} (ha : w.answered m = some (p, t))
      (h : w.resume p t (fun a => { a with state := .ok, message := some ⟨n, m⟩ }) = some w') :=
    answered_moves hs hst ha (fun _ => ⟨rfl, n, rfl⟩) (hserves (p, t) ha) h
  unfold World.pullMessage at h
  unfold World.answered at hnone hresume
  dsimp only at h
  split at h
  · next htype =>
    refine hnone (if_pos htype) ?_
    unfold onPublishRecieved at h
    split at h
    · obtain ⟨c, hc, rfl⟩ := Option.map_eq_some_iff.mp h
      exact Context.callTopicHandler_subscriptions hc
    · exact registerPublish_subscriptions hs (layerData_of_not_stopped hst) h
    · obtain rfl := Option.some.inj h
      rfl
  · next htype =>
    rw [if_neg htype] at hnone hresume
    split at h
    · next hz =>
      rw [if_pos hz] at hnone hresume
      split at h
      · next hq =>
        obtain rfl := Option.some.inj h
        exact hnone (by rw [hq]; rfl) (Context.freeMessage_subscriptions _ _)
      · next p ts hq =>
        split at h
        · next t ht => exact hresume (by rw [hq, Option.bind_some, ht]; rfl) h
        · next ht =>
          obtain rfl := Option.some.inj h
          refine hnone (by rw [hq, Option.bind_some, ht]; rfl) ?_
          exact Context.freeMessage_subscriptions _ _
    · next hz =>
      rw [if_neg hz] at hresume
      split at h
      · cases h
      · next t hc =>
        split at h
        · cases h
        · exact hresume (by rw [hc]; rfl) h

theorem pull_moves (hs : w.Sound) {m : Option Message} {n : Nat} {s : IotcState}
    (hserves : ∀ m', m = some m' → s = .ok → w.context.stopped = false →
      ∀ x ∈ w.answered m', x.2.subscribes = true →
        w.ServesTask x.2 (fun a => { a with state := .ok, message := some ⟨n, m'⟩ }) ∧
          (m'.type = .suback → subackGrants m' = true → x.2.cs = .answer))
    (h : w.pull (m.map (⟨n, ·⟩)) s = some w') : w.Moves w' (w.suback (.pull m s)) := by
  have hfree (v : World) (m : Option Received) (s : IotcState) :
      (v.pullErrHandling m s).context.subscriptions = v.context.subscriptions :=
    Context.freeMessage_subscriptions _ _
  -- a message that comes with a state, or while the layer does not work, is only freed
  have hnone (hno : s = .ok → w.context.stopped = true) : w.suback (.pull m s) = none := by
    unfold World.suback
    split
    · next m' heq =>
      obtain ⟨rfl, rfl⟩ := Event.pull.inj heq
      rw [if_neg fun hc => Bool.false_ne_true (hc.1.symm.trans (hno rfl))]
    · rfl
  unfold World.pull at h
  split at h
  · next hst =>
    obtain rfl := Option.some.inj h
    exact .of_none (hfree _ _ _) (hnone fun _ => hst)
  · next hst =>
    split at h
    · next hterminal =>
      obtain rfl := Option.some.inj h
      refine .of_none ((hfree _ _ _).trans ?_) (hnone fun hok => ?_)
      · exact Context.continueWith_subscriptions _ rfl _
      · rw [hok] at hterminal
        exact absurd hterminal (by decide)
    · split at h
      · next hok =>
        subst hok
        cases m with
        | none => cases h
        | some m =>
          have hst := Bool.not_eq_true _ ▸ hst
          exact pullMessage_moves hs hst (hserves m rfl rfl hst) h
      · next hok =>
        obtain rfl := Option.some.inj h
        exact .of_none (hfree _ _ _) (hnone fun h => absurd h hok)

theorem resendTasks_subscriptions : ∀ {ts : List Task} {w w' : World}, w.Sound →
    (∀ t ∈ ts, t ∈ w.q12Tasks) → DistinctIds ts → ServesResends ts w →
    resendTasks ts w = some w' → w'.context.subscriptions = w.context.subscriptions
  | [], w, w', _, _, _, _, h => by
    obtain rfl := Option.some.inj h
    rfl
  | t :: ts, w, w', hs, hm, hd, hserves, h => by
    obtain ⟨hnotin, hd⟩ := List.nodup_cons.mp hd
    unfold resendTasks at h
    unfold ServesResends at hserves
    split at h
    · next hstore =>
      rw [if_pos hstore] at hserves
      obtain ⟨w₁, h₁, h₂⟩ := Option.bind_eq_some_iff.mp h
      have ht := hm t List.mem_cons_self
      have hs₁ := hs.resume (p := .q12) ht
        (fun a => (Cause.resent (A := anything) a hstore).keeps) h₁
      have hsame := resume_same hs.toValid (p := .q12) ht (by decide) hserves.1
        (fun _ _ _ h => IotcState.noConfusion h) h₁
      refine (resendTasks_subscriptions hs₁ (fun u hu => ?_) hd (hserves.2 w₁ h₁) h₂).trans hsame
      have hne : u.id ≠ t.id := fun he => hnotin (he ▸ List.mem_map_of_mem hu)
      exact (hs.mem_q12Tasks_of_resume ht h₁ hne).mpr (hm u (List.mem_cons_of_mem _ hu))
    · next hstore =>
      rw [if_neg hstore] at hserves
      exact resendTasks_subscriptions hs (fun u hu => hm u (List.mem_cons_of_mem _ hu)) hd hserves h

theorem postConnect_subscriptions (hs : w.Sound) {s : IotcState}
    (hserves : w.context.layerData = true → ServesResends w.q12Tasks w)
    (h : w.postConnect s = some w') : w'.context.subscriptions = w.context.subscriptions := by
  unfold World.postConnect at h
  split at h
  · obtain rfl := Option.some.inj h
    rfl
  · next hd =>
    obtain ⟨w₁, h₁, rfl⟩ := Option.map_eq_some_iff.mp h
    have hsame := resendTasks_subscriptions hs (fun _ h => h) hs.distinct_q12
      (hserves (by simpa using hd)) h₁
    exact (Context.continueWith_subscriptions w₁.context (o := .postConnectOnPrev s) rfl _).trans hsame

theorem enqueue_queued (hq : ∀ u ∈ w.q0Tasks, u.Queued) (ht : t.Queued) :
    ∀ u ∈ (w.enqueue t).q0Tasks, u.Queued := by
  intro u hu
  unfold enqueue at hu
  dsimp only at hu
  split at hu
  · rcases List.mem_append.mp hu with hu | hu
    · exact hq u hu
    · exact List.mem_singleton.mp hu ▸ ht
  · rcases List.mem_cons.mp hu with hu | hu
    · exact hu ▸ ht
    · exact hq u hu

/-- A new task is pushed, and if it is a subscription it has the memory for its message. -/
theorem pushTask_subscriptions (hs : w.Sound) (hid : t.id = w.nextTask) (hn : New t)
    (hserves : t.subscribes = true → w.context.stopped = false →
      w.context.connection.connectionState = .opened → w.context.HasMemory 1)
    (h : w.made.pushTask t .ok = some w') :
    w'.context.subscriptions = w.context.subscriptions := by
  unfold World.pushTask at h
  split at h
  · obtain rfl := Option.some.inj h
    exact freeTasks_subscriptions _ _
  · next hst =>
    have hst : w.context.stopped = false := Bool.not_eq_true _ ▸ hst
    have hd := layerData_of_not_stopped hst
    rw [if_neg (by decide)] at h
    split at h
    · obtain rfl := Option.some.inj h
      rfl
    · split at h
      · obtain rfl := Option.some.inj h
        exact freeTasks_subscriptions _ _
      · obtain ⟨w₁, h₁, rfl⟩ := Option.map_eq_some_iff.mp h
        change w₁.context.subscriptions = _
        unfold World.runTask at h₁
        split at h₁
        · next hq =>
          rw [setLogic_qos] at hq
          change (if w.made.currentQ0Task.isNone then (w.made.enqueue (setLogic t)).runNextQ0Task
            else some ((w.made.enqueue (setLogic t)).returns .ok)) = some w₁ at h₁
          split at h₁
          · exact (runNextQ0Task_subscriptions (w := w.made.enqueue (setLogic t))
              (enqueue_queued (w := w.made) hs.q0 (hn.queued hq)) h₁).trans rfl
          · obtain rfl := Option.some.inj h₁
            rfl
        · next hq =>
          rw [setLogic_qos] at hq
          change (if w.context.connection.connectionState = .opened then
            (w.made.track (setLogic t)).resume .q12
              { setLogic t with msgId := (w.lastMsgId + 1) % 2 ^ 16 } id
            else some ((w.made.track (setLogic t)).returns .ok)) = some w₁ at h₁
          split at h₁
          · next ho =>
            have hv := hs.toValid.made_track (t := setLogic t) (by simpa using hid) (hn.tracked hq) hd
            have hcs : (setLogic t).cs = .fresh := (setLogic_cs t).trans hn.cs
            refine (resume_same hv (p := .q12) (List.mem_append_right _ (List.mem_singleton_self _))
              (by decide) (fun hsub a _ => ?_) (fun _ _ he => ?_) h₁).trans rfl
            · have hsub : t.subscribes = true := (setLogic_subscribes t).symm.trans hsub
              have hmem := hserves hsub hst ho
              unfold Context.Serves
              dsimp only
              rw [hcs]
              exact hmem
            · exact Cs.noConfusion (hcs.symm.trans he)
          · obtain rfl := Option.some.inj h₁
            rfl

theorem keepalive_subscriptions (hs : w.Sound) (h : w.doMqttKeepaliveOnce = some w') :
    w'.context.subscriptions = w.context.subscriptions := by
  unfold doMqttKeepaliveOnce at h
  dsimp only at h
  split at h
  · cases h
  · split at h
    · obtain rfl := Option.some.inj h
      rfl
    · split at h
      · have hs' : (w.withContext { w.context with keepaliveEvent := false }).alloc.2.Sound :=
          Sound.alloc (hs.withContext rfl rfl fun _ => rfl)
        refine (pushTask_subscriptions hs' rfl ⟨rfl, rfl, rfl, .inl ⟨.inr (.inl rfl), rfl⟩⟩
          (fun hsub => ?_) h).trans rfl
        exact Bool.noConfusion hsub
      · obtain rfl := Option.some.inj h
        rfl

theorem connect_subscriptions (hs : w.Sound) {s : IotcState} (h : w.connect s = some w') :
    w'.context.subscriptions = w.context.subscriptions := by
  unfold World.connect at h
  split at h
  · obtain rfl := Option.some.inj h
    exact Context.continueWith_subscriptions _ (o := .connectOnNext s) rfl _
  · dsimp only at h
    split at h
    · refine (pushTask_subscriptions hs.alloc rfl ⟨rfl, rfl, rfl, .inl ⟨.inl rfl, rfl⟩⟩
        (fun hsub => ?_) h).trans rfl
      exact Bool.noConfusion hsub
    · obtain rfl := Option.some.inj h
      rfl

/-- The call sets the layer data up, or frees them. -/
def Event.Outer : Event → Prop
  | .init _ | .closeExternally _ => True
  | _ => False

/-- **What a call does with subscriptions**, if it neither sets the layer up nor tears it down. -/
theorem step_moves (hs : w.Sound) (hl : ∀ t ∈ w.leaked, ¬t.subscribes = true) {e : Event}
    {o : Oracle} (he : ¬e.Outer) (hserves : (w.withOracle o).ServesSubscriptions e)
    (h : step w (e, o) = some w') : w.Moves w' (w.suback e) := by
  have hs₀ := hs.withOracle o
  change (w.withOracle o).stepWith e = some w' at h
  have hsame (hsub : w'.context.subscriptions = (w.withOracle o).context.subscriptions)
      (ha : w.suback e = none) : w.Moves w' (w.suback e) := .of_none hsub ha
  cases e with
  | submit q =>
    refine hsame (pushTask_subscriptions hs₀ (Request.task_id _ q) (Request.task_new _ q)
      (fun hsub hst ho => ?_) h) rfl
    cases q with
    | subscribe topic qos handler => exact hserves hst ho
    | publish topic data qos retain callback => cases hsub
    | shutdown => cases hsub
  | written msgId type success =>
    refine hsame (pushWritten_subscriptions hs₀ ?_ hserves h) rfl
    cases success <;> decide
  | pull m s =>
    have hs₁ : ({ w.withOracle o with nextMessage := (w.withOracle o).nextMessage + 1 } : World).Sound :=
      { hs₀ with }
    have hmoves := pull_moves hs₁ (n := w.nextMessage) (m := m) (s := s) (fun m' hm hok hst => ?_) h
    · cases hmoves with
      | same hsub ha => exact .same hsub ha
      | answers hd hanswers ha => exact .answers hd ⟨hanswers.handlers, hanswers.told⟩ ha
    · subst hm hok
      exact hserves hst
  | fire id => exact hsame (fire_subscriptions hs₀ hl hserves h) rfl
  | keepalive => exact hsame (keepalive_subscriptions hs₀ h) rfl
  | connectTo d =>
    simp only [World.stepWith] at h
    split at h <;> obtain rfl := Option.some.inj h <;> exact hsame rfl rfl
  | connect s => exact hsame (connect_subscriptions hs₀ h) rfl
  | postConnect s => exact hsame (postConnect_subscriptions hs₀ hserves h) rfl
  | close s =>
    obtain rfl := Option.some.inj h
    exact hsame (Context.close_subscriptions _ s) rfl
  | closing =>
    obtain rfl := Option.some.inj h
    exact hsame rfl rfl
  | closed =>
    obtain rfl := Option.some.inj h
    exact hsame rfl rfl
  | init s => exact absurd trivial he
  | closeExternally s => exact absurd trivial he

end World

end IotDeviceSdk.Mqtt.Logic
