import IotDeviceSdk.Mqtt.Logic.Handlers

/-!
# Who owns the data of a subscription (`do_mqtt_subscribe`, `iotc_user_sub_call_wrapper`)

`Subscriptions` is the layer with the queue of the callbacks of SUBACKs. The data of a subscription
belong to its task; from the SUBACK on, they belong to `handlers_for_topics`, or to the callback that
tells that the subscription has been refused, and that frees them.

Every `err_handling` of the coroutine writes to the task that it has freed, and if it is reached after
the data have been pushed to the vector, a handler is left with data that have been freed. In every
run that never comes there, in which a granting SUBACK comes when it is waited for and `init` drops
nothing, the data of each subscription have one owner or have been freed once
(`subscriptions_accounted`).
-/

namespace IotDeviceSdk.Mqtt.Logic

/-- The call submits a subscription. -/
def World.Event.subscribes : World.Event → Bool
  | .submit (.subscribe ..) => true
  | _ => false

/-- The layer, and what has become of subscriptions: the tasks that have been made for them, the
SUBACKs that they have got, the handlers whose data have been freed, how many callbacks of SUBACKs the
dispatcher has run, and the tasks whose data these have freed. -/
structure Subscriptions where
  world : World := {}
  made : List Nat := []
  answers : List Answer := []
  freedHandlers : List TopicHandler := []
  called : Nat := 0
  freedByCallback : List Nat := []

namespace Subscriptions

/-- A call of the layer, or the dispatcher runs the next callback of a SUBACK; `known` says that the
context of the client is still registered then. -/
inductive Event where
  | call (e : World.Event) (o : World.Oracle)
  | callback (known : Bool)
  deriving DecidableEq, Repr

/-! ## Steps -/

/-- The callbacks of SUBACKs that have been queued, in their order. -/
def callbacks (s : Subscriptions) : List Answer := s.world.context.out.filterMap Output.suback

/-- The layer is `w` after a call. -/
def afterCall (s : Subscriptions) (e : World.Event) (o : World.Oracle) (w : World) : Subscriptions :=
  { s with
    world := w
    made := if e.subscribes then s.made ++ [s.world.nextTask] else s.made
    answers := s.answers ++ (s.world.suback e).toList
    freedHandlers := s.freedHandlers ++ s.world.freedHandlers (e, o) w }

/-- `iotc_user_sub_call_wrapper` with the status of a SUBACK. It frees the data of a subscription that
has been refused, unless it does not find the handle of the context. -/
def runCallback (s : Subscriptions) (known : Bool) : Subscriptions :=
  match s.callbacks[s.called]? with
  | none => s
  | some a =>
    { s with
      called := s.called + 1
      freedByCallback :=
        if !a.granted && known then s.freedByCallback ++ [a.task] else s.freedByCallback }

def step (s : Subscriptions) : Event → Option Subscriptions
  | .call e o => (World.step s.world (e, o)).map (s.afterCall e o)
  | .callback known => some (s.runCallback known)

/-! ## Owners -/

/-- The tasks of the subscription `i` that have its data. -/
def pending (s : Subscriptions) (i : Nat) : Nat :=
  (s.world.q12Tasks ++ s.world.savedQ12Tasks).countP fun t => t.id = i && t.subscribeData.isSome

/-- The handlers with the data of `i`. -/
def handling (s : Subscriptions) (i : Nat) : Nat := s.world.handlers.countP fun h => h.task = i

/-- The queued callbacks that will free the data of `i`. -/
def queued (s : Subscriptions) (i : Nat) : Nat :=
  (s.callbacks.drop s.called).countP fun a => a.task = i && !a.granted

/-- Who has the data of the subscription `i`. -/
def owners (s : Subscriptions) (i : Nat) : Nat := s.pending i + s.handling i + s.queued i

/-- How often a task has been freed with the data of the subscription `i`: a task whose user has been
told has none any more. -/
def freedWithTask (s : Subscriptions) (i : Nat) : Nat :=
  if s.callbacks.any fun a => a.task = i then 0 else s.world.freed i

/-- How often the data of the subscription `i` have been freed. -/
def freed (s : Subscriptions) (i : Nat) : Nat :=
  s.freedWithTask i + (s.freedHandlers.countP fun h => h.task = i) + s.freedByCallback.count i

/-- The handlers that there have been. -/
def registered (s : Subscriptions) : List Nat := (s.freedHandlers ++ s.world.handlers).map (·.task)

/-- **What is claimed of the subscriptions**: each has one owner or has been freed once; there is one
handler and one callback for each SUBACK that has granted one, and none for another; no handler has
data that have been freed; and no coroutine has written to its task after finalising it. -/
structure Accounted (s : Subscriptions) : Prop where
  owned : ∀ i ∈ s.made, s.owners i + s.freed i = 1
  granted : ∀ i, s.registered.count i = s.answers.count ⟨i, true⟩ ∧
    s.callbacks.count ⟨i, true⟩ = s.answers.count ⟨i, true⟩
  handlers : ∀ h ∈ s.world.handlers, s.freed h.task = 0
  untouched : ∀ i, .writeFreed i ∉ s.world.context.out

/-- **What a step must satisfy**: a call serves the subscriptions, and a callback that tells that one
has been refused finds the context of its client. -/
def Careful (s : Subscriptions) : Event → Prop
  | .call e o => (s.world.withOracle o).ServesSubscriptions e
  | .callback known => ∀ a ∈ s.callbacks[s.called]?, a.granted = false → known = true

/-! ## What is told of a task -/

/-- How often the status of the task has been told. -/
def tells (i : Nat) (os : List Output) : Nat := (os.filterMap Output.suback).countP fun a => a.task = i

theorem filterMap_suback (os : List Output) :
    os.filterMap Output.suback = (os.filter Output.ofSubscription).filterMap Output.suback := by
  rw [List.filterMap_filter]
  refine List.filterMap_congr fun o _ => ?_
  cases o <;> rfl

theorem tells_congr {os os' : List Output} {i : Nat}
    (h : os'.filter Output.ofSubscription = os.filter Output.ofSubscription) :
    tells i os' = tells i os := by
  rw [tells, tells, filterMap_suback os', filterMap_suback os, h]

theorem tells_append (i : Nat) (os os' : List Output) :
    tells i (os ++ os') = tells i os + tells i os' := by
  simp [tells, List.filterMap_append, List.countP_append]

theorem tells_eq_zero {i : Nat} {os : List Output} (h : ∀ o ∈ os, ¬o.About i) : tells i os = 0 := by
  refine List.countP_eq_zero.mpr fun a ha hi => ?_
  obtain ⟨o, ho, hsuback⟩ := List.mem_filterMap.mp ha
  refine h o ho ?_
  cases o with
  | subscribed task handle status s =>
    obtain rfl := Option.some.inj hsuback
    have hi : task = i := of_decide_eq_true hi
    exact hi
  | _ => cases hsuback

/-- The user has not been told of a task that waits. -/
def Untold (os : List Output) (t : Task) : Prop :=
  tells t.id os = 0 ∧ (t.subscribes = true → t.qos = .atLeastOnce)

end Subscriptions

/-- A subscription that is answered is told of that once. -/
theorem Context.Answers.tells {c c' : Context} {t : Task} {g : Bool} (h : c.Answers t g c') :
    Subscriptions.tells t.id c'.out = Subscriptions.tells t.id c.out + 1 := by
  obtain ⟨o, hsuback, hout⟩ := h.told
  rw [Subscriptions.tells, Subscriptions.tells, Subscriptions.filterMap_suback c'.out, hout,
    List.filterMap_append, ← Subscriptions.filterMap_suback, List.countP_append]
  simp [hsuback]

namespace World

open Subscriptions

variable {w w' : World} {t u : Task} {p : Place} {r : CoResult} {A : Admission}

theorem New.subscribes_qos (hn : New t) (hs : t.subscribes = true) : t.qos = .atLeastOnce := by
  obtain ⟨d, hd⟩ := Task.subscribes_iff.mp hs
  rcases hn.scenario with ⟨h | h | h, -⟩ | ⟨e, h⟩ | ⟨-, hq⟩
  · exact Scenario.noConfusion (h.symm.trans hd)
  · exact Scenario.noConfusion (h.symm.trans hd)
  · exact Scenario.noConfusion (h.symm.trans hd)
  · exact Scenario.noConfusion (h.symm.trans hd)
  · exact hq

/-- A run of the coroutine of a subscription. -/
theorem Runs.subscribes {c : Context} (h : Runs A c t p u r) (hs : t.subscribes = true) :
    ∃ a, c.Subscribes u a r := by
  obtain ⟨d, hd⟩ := Task.subscribes_iff.mp hs
  have hexecute {u : Task} {a : Args} (hu : u.scenario = .subscribe d) (h : execute c u a = some r) :
      c.Subscribes u a r := by
    unfold execute at h
    split at h
    · exact doMqttSubscribe_subscribes (by simpa only [coroutine, hu] using h)
    · cases h
  cases h with
  | logic hl hb h => exact ⟨_, hexecute hd h⟩
  | timeout hA hf h =>
    rename_i timeout
    cases timeout with
    | resume s => exact ⟨_, hexecute hd h⟩
    | keepalive msg => exact Scenario.noConfusion (hf.1.symm.trans hd)
    | connect => exact Scenario.noConfusion (hf.1.symm.trans hd)

/-- A run of another coroutine. -/
theorem Runs.subscriptions {c : Context} (h : Runs A c t p u r) (hs : ¬t.subscribes = true) :
    r.context.subscriptions = c.subscriptions := by
  have hscenario := Task.not_subscribes hs
  cases h with
  | logic hl hb h => exact execute_subscriptions (by exact hscenario) h
  | timeout hA hf h => exact TaskTimeout.run_subscriptions hscenario h

/-- **A user is told at most once**: not as long as the task waits, and not after its end. -/
theorem untold_rule : TaskRule anything (fun _ => True) Untold fun os i => tells i os ≤ 1 where
  other {os os' t} hos h := by
    refine ⟨?_, h.2⟩
    rw [tells_append, tells_eq_zero hos, h.1]
  otherGone {os os' i} hos h := by
    rwa [tells_append, tells_eq_zero hos]
  logic l h := h
  start {os t} _ h := by
    refine ⟨?_, h.2⟩
    rw [tells_append, h.1]
    rfl
  keep {w t u p r} _ _ hr he h := by
    have hid : r.task.id = t.id := hr.outcome.task.id.trans hr.resumes.id
    have hqos : r.task.qos = t.qos := hr.outcome.task.qos.trans hr.resumes.qos
    by_cases hs : t.subscribes = true
    · have he : r.exit.final = false := he.resolve_right fun hq => by
        rw [h.2 hs] at hq
        cases hq.2
      obtain ⟨a, hsub⟩ := hr.subscribes hs
      refine ⟨?_, fun _ => hqos.trans (h.2 hs)⟩
      rw [hid]
      cases hsub with
      | waits hsame _ _ => exact (tells_congr (congrArg Prod.snd hsame)).trans h.1
      | fails hsame he' =>
        rw [he'] at he
        cases he
      | answers _ _ _ _ _ he' =>
        rw [he'] at he
        cases he
    · refine ⟨?_, fun hs' => absurd hs' (hr.not_subscribes hs)⟩
      rw [hid]
      exact (tells_congr (congrArg Prod.snd (hr.subscriptions hs))).trans h.1
  finish {w t u p r} _ _ hr he h := by
    by_cases hs : t.subscribes = true
    · obtain ⟨a, hsub⟩ := hr.subscribes hs
      cases hsub with
      | waits hsame _ _ =>
        rw [tells_congr (congrArg Prod.snd hsame), h.1]
        exact Nat.zero_le _
      | fails hsame he' =>
        rw [tells_congr hsame, h.1]
        exact Nat.zero_le _
      | answers _ _ _ _ hanswers _ =>
        have htells := hanswers.tells
        rw [hr.resumes.id, h.1] at htells
        exact Nat.le_of_eq htells
    · rw [tells_congr (congrArg Prod.snd (hr.subscriptions hs)), h.1]
      exact Nat.zero_le _
  free h := by
    rw [h.1]
    exact Nat.zero_le _
  refused _ hos := by
    rw [tells_eq_zero hos]
    exact Nat.zero_le _
  queued {os t} _ hn hq hos := by
    refine ⟨by rw [setLogic_id]; exact tells_eq_zero hos, fun hs => ?_⟩
    rw [setLogic_subscribes] at hs
    exact Qos.noConfusion (hq.symm.trans (hn.subscribes_qos hs))
  answering m _ hos := ⟨tells_eq_zero hos, fun hs => Bool.noConfusion hs⟩

/-- The tasks with the ids of `is` are subscriptions. -/
def Made (is : List Nat) (_ : List Output) (t : Task) : Prop :=
  t.id ∈ is → t.subscribes = true ∧ t.qos = .atLeastOnce

theorem made_rule (is : List Nat) :
    TaskRule anything (fun i => i ∉ is) (Made is) fun _ _ => True where
  other _ h := h
  otherGone _ _ := trivial
  logic _ h := h
  start _ h := h
  keep {w t u p r} _ _ hr he h hi := by
    have ho := hr.outcome
    have hid : r.task.id = t.id := ho.task.id.trans hr.resumes.id
    have hqos : r.task.qos = t.qos := ho.task.qos.trans hr.resumes.qos
    obtain ⟨hs, hq⟩ := h (hid ▸ hi)
    have he : r.exit.final = false := he.resolve_right fun hq' => by
      rw [hq] at hq'
      cases hq'.2
    refine ⟨?_, hqos.trans hq⟩
    obtain ⟨d, hd⟩ := Task.subscribes_iff.mp hs
    exact Task.subscribes_iff.mpr ⟨d, (ho.scenario he).trans (hr.resumes.scenario.trans hd)⟩
  finish _ _ _ _ _ := trivial
  free _ := trivial
  refused _ _ := trivial
  queued h _ _ _ hi := absurd (by rwa [setLogic_id] at hi) h
  answering m h _ hi := absurd hi h

/-- The new task is not one that has been made before. -/
theorem tracked_id (w : World) (q : Request) : (w.tracked (q.task w.nextTask)).id = w.nextTask :=
  (setLogic_id _).trans (Request.task_id _ q)

/-- The task that a user makes for a subscription. -/
theorem made_submit {is : List Nat} (hs : w.Sound) (hk : w.Each (Made is) fun _ _ => True)
    {e : Event} {o : Oracle} (he : e.subscribes = true) (h : World.step w (e, o) = some w') :
    w'.Each (Made [w.nextTask]) fun _ _ => True := by
  cases e with
  | submit q =>
    have hn := Request.task_new w.nextTask q
    have hid := Request.task_id w.nextTask q
    have hsub : (q.task w.nextTask).subscribes = true := by
      cases q with
      | subscribe => rfl
      | _ => cases he
    have hq := hn.subscribes_qos hsub
    have hv := hs.withOracle o
    have hpushed := submit_pushed hs h
    have hne (t : Task) (ht : t ∈ w.held) (hi : t.id ∈ [w.nextTask]) : False := by
      have := hs.toValid.id_lt ht
      rw [List.mem_singleton] at hi
      omega
    have h₀ : (w.withOracle o).Each (Made [w.nextTask]) fun _ _ => True :=
      ⟨hk.known, fun t ht hi => (hne t ht hi).elim, fun _ _ _ => trivial⟩
    cases hst : w.context.stopped with
    | true =>
      -- the task is freed at once
      cases hpushed with
      | refused s hr =>
        refine ⟨fun o ho i ha => ?_, fun t ht hi => (hne t ht hi).elim, fun _ _ _ => trivial⟩
        rcases List.mem_append.mp ho with ho | ho
        · exact Nat.lt_succ_of_lt (hk.known o ho i ha)
        · obtain rfl := List.mem_singleton.mp ho
          exact ha.elim
      | queued s hno | started s hno | deferred s hno | unset s hno | run s hno =>
        exact absurd (hno.symm.trans hst) (by decide)
    | false =>
      refine h₀.pushed (made_rule _) hv.toValid (fun i hi hm => ?_) (fun hno => ?_) hpushed hid hn
        fun _ _ => .inl fun _ => ?_
      · rw [List.mem_singleton] at hm
        have hi : w.nextTask < i := hi
        omega
      · rcases hno with hno | hno
        · exact absurd (hno.symm.trans hq) (by decide)
        · exact absurd (hno.symm.trans hst) (by decide)
      · have hs' : (setLogic (q.task w.nextTask)).subscribes = true := by
          rwa [setLogic_subscribes]
        exact ⟨hs', (setLogic_qos _).trans hq⟩
  | _ => cases he

end World

namespace Subscriptions

/-! ## The invariant -/

/-- **The invariant of a run**: the handlers that there have been are those that have been granted, in
that order, and no callback has told of a task that is still held. -/
structure Inv (s : Subscriptions) : Prop where
  sound : s.world.Sound
  separate : s.world.Separate
  made_lt : ∀ i ∈ s.made, i < s.world.nextTask
  made : s.world.Each (World.Made s.made) fun _ _ => True
  told : s.world.Each Untold fun os i => tells i os ≤ 1
  registered : s.registered = (s.callbacks.filter (·.granted)).map (·.task)
  answers : s.answers.filter (·.granted) = s.callbacks.filter (·.granted)
  called : s.called ≤ s.callbacks.length
  freedByCallback : s.freedByCallback =
    ((s.callbacks.take s.called).filter (!·.granted)).map (·.task)
  untouched : ∀ i, .writeFreed i ∉ s.world.context.out

theorem initial_inv : ({} : Subscriptions).Inv where
  sound := World.initial_sound
  separate := ⟨fun _ => rfl, fun _ => rfl, fun _ h => by cases h⟩
  made_lt _ h := by cases h
  made := World.initial_each
  told := World.initial_each
  registered := rfl
  answers := rfl
  called := Nat.le_refl _
  freedByCallback := rfl
  untouched _ h := by cases h

theorem writeFreed_mem {i : Nat} {os : List Output} :
    .writeFreed i ∈ os ↔ .writeFreed i ∈ os.filter Output.ofSubscription := by
  simp [Output.ofSubscription]

variable {s s' : Subscriptions} {e : World.Event} {o : World.Oracle} {w : World}

/-- The tasks of subscriptions after a call. -/
theorem made_step (h : s.Inv) (hstep : World.step s.world (e, o) = some w) :
    (∀ i ∈ (s.afterCall e o w).made, i < w.nextTask) ∧
      w.Each (World.Made (s.afterCall e o w).made) fun _ _ => True := by
  have hle := World.step_nextTask_le h.sound hstep
  have hlt : ∀ i ∈ s.made, i < w.nextTask := fun i hi => Nat.lt_of_lt_of_le (h.made_lt i hi) hle
  have hmade : w.Each (World.Made s.made) fun _ _ => True := by
    refine h.made.step (World.made_rule _) h.sound (fun i hi hm => ?_) (World.admits_anything _ e)
      (fun q _ _ _ => .inl fun hm => ?_) hstep
    · exact absurd (h.made_lt i hm) (Nat.not_lt.mpr hi)
    · have hid := World.tracked_id (s.world.withOracle o) q
      exact absurd (h.made_lt _ hm) (Nat.not_lt.mpr (Nat.le_of_eq hid.symm))
  by_cases he : e.subscribes = true
  · have hnew := World.made_submit h.sound h.made he hstep
    have hnext : s.world.nextTask < w.nextTask := by
      cases e with
      | submit q =>
        have hnext := (World.submit_pushed h.sound hstep).nextTask
        exact Nat.lt_of_lt_of_le (Nat.lt_succ_self _) (Nat.le_of_eq hnext.symm)
      | _ => cases he
    simp only [afterCall, he, if_true]
    refine ⟨fun i hi => ?_, hmade.known, fun t ht hi => ?_, fun _ _ _ => trivial⟩
    · rcases List.mem_append.mp hi with hi | hi
      · exact hlt i hi
      · obtain rfl := List.mem_singleton.mp hi
        exact hnext
    · rcases List.mem_append.mp hi with hi | hi
      · exact hmade.held t ht hi
      · exact hnew.held t ht hi
  · simp only [afterCall, he]
    exact ⟨hlt, hmade⟩

theorem told_step (h : s.Inv) (hstep : World.step s.world (e, o) = some w) :
    w.Each Untold fun os i => tells i os ≤ 1 := by
  refine h.told.step World.untold_rule h.sound (fun _ _ => trivial) (World.admits_anything _ e)
    (fun q _ _ _ => .inl ⟨?_, fun hs => ?_⟩) hstep
  · refine (congrArg (tells · _) (World.tracked_id (s.world.withOracle o) q)).trans ?_
    exact tells_eq_zero h.told.not_about_next
  · have hs : (World.setLogic (q.task s.world.nextTask)).subscribes = true := hs
    rw [setLogic_subscribes] at hs
    have hq := (World.Request.task_new s.world.nextTask q).subscribes_qos hs
    exact (World.setLogic_qos _).trans hq

/-- **A call keeps the invariant**, if it serves the subscriptions. -/
theorem Inv.call (h : s.Inv) (hserves : (s.world.withOracle o).ServesSubscriptions e)
    (hstep : World.step s.world (e, o) = some w) : (s.afterCall e o w).Inv := by
  obtain ⟨hseparate, hcases⟩ := World.step_subscriptions h.sound h.separate hserves hstep
  obtain ⟨hlt, hmade⟩ := made_step h hstep
  have hregistered : (s.afterCall e o w).registered = (s.freedHandlers ++
      (s.world.freedHandlers (e, o) w ++ w.handlers)).map (·.task) := by
    simp only [Subscriptions.registered, afterCall, List.append_assoc]
  rcases hcases with ⟨hhandlers, hout, hnone⟩ | ⟨t, g, hanswers, ha, hfreed, hsaved⟩
  · -- the callbacks and the handlers are those of before
    have hcallbacks : (s.afterCall e o w).callbacks = s.callbacks := by
      rw [callbacks, callbacks, filterMap_suback s.world.context.out, ← hout]
      exact filterMap_suback w.context.out
    refine ⟨World.step_sound h.sound hstep, hseparate, hlt, hmade, told_step h hstep, ?_, ?_, ?_, ?_,
      fun i hi => ?_⟩
    · rw [hregistered, hhandlers, hcallbacks]
      exact h.registered
    · rw [hcallbacks, ← h.answers]
      change (s.answers ++ (s.world.suback e).toList).filter (·.granted) = _
      rw [List.filter_append]
      refine (congrArg (_ ++ ·) (List.filter_eq_nil_iff.mpr fun a ha => ?_)).trans (List.append_nil _)
      rw [hnone a (Option.mem_toList.mp ha)]
      decide
    · rw [hcallbacks]
      exact h.called
    · rw [hcallbacks]
      exact h.freedByCallback
    · refine h.untouched i (writeFreed_mem.mpr ?_)
      rw [← hout]
      exact writeFreed_mem.mp hi
  · -- a SUBACK has ended the subscription `t`
    obtain ⟨d, hd, hlive⟩ := hanswers.handlers
    obtain ⟨x, hx, hout⟩ := hanswers.told
    have hcallbacks : (s.afterCall e o w).callbacks = s.callbacks ++ [⟨t.id, g⟩] := by
      rw [callbacks, callbacks, filterMap_suback s.world.context.out]
      refine (filterMap_suback w.context.out).trans ?_
      rw [hout, List.filterMap_append]
      simp [hx]
    refine ⟨World.step_sound h.sound hstep, hseparate, hlt, hmade, told_step h hstep, ?_, ?_, ?_, ?_,
      fun i hi => ?_⟩
    · have hold := h.registered
      simp only [Subscriptions.registered, World.handlers, List.map_append] at hold
      rw [hregistered, hfreed, hcallbacks, World.handlers, hsaved, hlive, List.filter_append]
      simp only [List.map_append, List.nil_append, ← hold]
      cases g <;> simp
    · rw [hcallbacks, List.filter_append, ← h.answers]
      change (s.answers ++ (s.world.suback e).toList).filter (·.granted) = _
      rw [ha, List.filter_append]
      rfl
    · rw [hcallbacks, List.length_append]
      exact Nat.le_add_right_of_le h.called
    · rw [hcallbacks]
      change s.freedByCallback = (((s.callbacks ++ _).take s.called).filter _).map _
      rw [List.take_append_of_le_length h.called]
      exact h.freedByCallback
    · have hi := writeFreed_mem.mp hi
      change .writeFreed i ∈ w.context.out.filter Output.ofSubscription at hi
      rw [hout] at hi
      rcases List.mem_append.mp hi with hi | hi
      · exact h.untouched i (writeFreed_mem.mpr hi)
      · obtain rfl := List.mem_singleton.mp hi
        cases hx

/-- **A callback keeps the invariant**, if it finds the context of its client. -/
theorem Inv.callback (h : s.Inv) {known : Bool} (hk : s.Careful (.callback known)) :
    (s.runCallback known).Inv := by
  unfold runCallback
  split
  · exact h
  · next a ha =>
    refine { h with called := ?_, freedByCallback := ?_ }
    · exact (List.getElem?_eq_some_iff.mp ha).1
    · change (if _ then _ else _) = ((s.callbacks.take (s.called + 1)).filter _).map _
      rw [List.take_add_one, ha, List.filter_append, List.map_append, ← h.freedByCallback]
      cases hg : a.granted with
      | true => simp [hg]
      | false =>
        have hknown : known = true := hk a ha hg
        simp [hg, hknown]

theorem Inv.step {e : Event} (h : s.Inv) (hk : s.Careful e) (hstep : s.step e = some s') : s'.Inv := by
  cases e with
  | call e o =>
    obtain ⟨w, hw, rfl⟩ := Option.map_eq_some_iff.mp hstep
    exact h.call hk hw
  | callback known =>
    obtain rfl := Option.some.inj hstep
    exact h.callback hk

/-! ## What the invariant says of owners -/

theorem count_answer (i : Nat) (g : Bool) (as : List Answer) :
    as.count ⟨i, g⟩ = ((as.filter (·.granted == g)).map (·.task)).count i := by
  rw [List.count, List.count, List.countP_map, List.countP_filter]
  refine List.countP_congr fun a _ => ?_
  cases a
  simp [and_comm]

/-- Each callback tells of a subscription that is granted or refused. -/
theorem tells_eq (s : Subscriptions) (i : Nat) :
    tells i s.world.context.out = s.callbacks.count ⟨i, true⟩ + s.callbacks.count ⟨i, false⟩ := by
  change s.callbacks.countP _ = _
  induction s.callbacks with
  | nil => rfl
  | cons a as ih =>
    obtain ⟨task, granted⟩ := a
    rw [List.countP_cons, List.count_cons, List.count_cons, ih]
    by_cases hi : task = i <;> cases granted <;> simp [hi] <;> omega

namespace Inv

/-- **A handler for each subscription that is granted**, if its data have not been freed yet. -/
theorem count_registered (h : s.Inv) (i : Nat) : s.registered.count i = s.callbacks.count ⟨i, true⟩ := by
  rw [h.registered, count_answer]
  simp

theorem handling_add (h : s.Inv) (i : Nat) :
    s.handling i + (s.freedHandlers.countP fun h => h.task = i) = s.callbacks.count ⟨i, true⟩ := by
  have hcount (hs : List TopicHandler) :
      (hs.map (·.task)).count i = hs.countP fun h => h.task = i := by
    rw [List.count, List.countP_map]
    rfl
  rw [← h.count_registered, Subscriptions.registered, List.map_append, List.count_append, hcount,
    hcount, Nat.add_comm]
  rfl

/-- A callback for each subscription that is refused, if it has not been run yet. -/
theorem queued_add (h : s.Inv) (i : Nat) :
    s.queued i + s.freedByCallback.count i = s.callbacks.count ⟨i, false⟩ := by
  have hsplit := List.take_append_drop s.called s.callbacks
  have hqueued : s.queued i = (s.callbacks.drop s.called).count ⟨i, false⟩ := by
    refine List.countP_congr fun a _ => ?_
    cases a
    simp
  have hfreed : s.freedByCallback.count i = (s.callbacks.take s.called).count ⟨i, false⟩ := by
    rw [h.freedByCallback, count_answer]
    simp
  rw [hqueued, hfreed, Nat.add_comm, ← List.count_append, hsplit]

theorem tells_le (h : s.Inv) (i : Nat) : tells i s.world.context.out ≤ 1 := by
  by_cases hi : i < s.world.nextTask
  · by_cases hheld : ∃ t ∈ s.world.held, t.id = i
    · obtain ⟨t, ht, rfl⟩ := hheld
      rw [(h.told.held t ht).1]
      exact Nat.zero_le _
    · exact h.told.gone i hi fun t ht he => hheld ⟨t, ht, he⟩
  · rw [tells_eq_zero fun o ho ha => hi (h.told.known o ho i ha)]
    exact Nat.zero_le _

theorem any_callbacks (s : Subscriptions) (i : Nat) :
    (s.callbacks.any fun a => a.task = i) = decide (tells i s.world.context.out ≠ 0) := by
  rw [Bool.eq_iff_iff, List.any_eq_true, decide_eq_true_iff, ← Nat.pos_iff_ne_zero]
  exact List.countP_pos_iff.symm

/-- The data of a subscription that is held are in its task. -/
theorem pending_eq (h : s.Inv) {i : Nat} (hi : i ∈ s.made) :
    s.pending i = countId i s.world.held := by
  have hv := h.sound.toValid
  have hmade (t : Task) (ht : t ∈ s.world.held) (he : t.id = i) :
      t.subscribes = true ∧ t.qos = .atLeastOnce := h.made.held t ht (he ▸ hi)
  have hzero {ts : List Task} (hts : ∀ t ∈ ts, t ∈ s.world.held ∧ ¬t.subscribes = true) :
      countId i ts = 0 := by
    refine countId_eq_zero.mpr fun t ht he => ?_
    exact (hts t ht).2 (hmade t (hts t ht).1 he).1
  have hcurrent : countId i s.world.currentQ0Task.toList = 0 := by
    refine hzero fun t ht => ?_
    have hp : s.world.At t .current := Option.mem_toList.mp ht
    exact ⟨hp.mem_held, fun hs => absurd (hv.subscribes_at hp hs (by decide)) (by decide)⟩
  have hq0 : countId i s.world.q0Tasks = 0 := by
    refine countId_eq_zero.mpr fun t ht he => ?_
    have hm : t ∈ s.world.held := by simp [World.held, ht]
    exact absurd ((hv.q0 t ht).qos.symm.trans (hmade t hm he).2) (by decide)
  have hrecv : countId i s.world.q12RecvTasks = 0 := by
    refine hzero fun t ht => ?_
    have hp : s.world.At t .q12Recv := ht
    exact ⟨hp.mem_held, fun hs => absurd (hv.subscribes_at hp hs (by decide)) (by decide)⟩
  have hleaked : countId i s.world.leaked = 0 := by
    refine hzero fun t ht => ⟨?_, h.separate.leaked t ht⟩
    exact World.At.mem_held (p := .leaked) ht
  have hpending : s.pending i = countId i (s.world.q12Tasks ++ s.world.savedQ12Tasks) := by
    refine List.countP_congr fun t ht => ?_
    have htracked : t.Tracked := by
      rcases List.mem_append.mp ht with ht | ht
      · exact hv.q12 t ht
      · exact (hv.saved t ht).1
    have hm : t ∈ s.world.held := by
      rcases List.mem_append.mp ht with ht | ht <;> simp [World.held, ht]
    by_cases he : t.id = i
    · obtain ⟨⟨d, hd⟩, -⟩ := htracked.subscribes (hmade t hm he).1
      simp [he, Task.subscribeData, hd]
    · simp [he]
  rw [hpending]
  simp only [World.held, countId_append, hcurrent, hq0, hrecv, hleaked]
  omega

theorem owned (h : s.Inv) {i : Nat} (hi : i ∈ s.made) : s.owners i + s.freed i = 1 := by
  have hhandling := h.handling_add i
  have hqueued := h.queued_add i
  have htells := tells_eq s i
  have hpending := h.pending_eq hi
  have hcount := h.sound.toValid.count i
  rw [if_pos (h.made_lt i hi)] at hcount
  have hle := h.tells_le i
  unfold owners Subscriptions.freed freedWithTask
  rw [any_callbacks]
  by_cases hheld : 0 < countId i s.world.held
  · -- the task is there, and nobody has been told
    obtain ⟨t, ht, rfl⟩ := countId_pos.mp hheld
    have hzero := (h.told.held t ht).1
    have hone := h.sound.toValid.count_le t.id
    simp only [hzero, ne_eq, not_true_eq_false, decide_false, Bool.false_eq_true, if_false]
    omega
  · by_cases hzero : tells i s.world.context.out = 0
    · simp only [hzero, ne_eq, not_true_eq_false, decide_false, Bool.false_eq_true, if_false]
      omega
    · simp only [ne_eq, hzero, not_false_eq_true, decide_true, if_true]
      omega

theorem live (h : s.Inv) {x : TopicHandler} (hx : x ∈ s.world.handlers) : s.freed x.task = 0 := by
  have hhandling := h.handling_add x.task
  have hqueued := h.queued_add x.task
  have htells := tells_eq s x.task
  have hle := h.tells_le x.task
  have hpos : 0 < s.handling x.task :=
    List.countP_pos_iff.mpr ⟨x, hx, decide_eq_true rfl⟩
  have hne : tells x.task s.world.context.out ≠ 0 := by omega
  unfold Subscriptions.freed freedWithTask
  rw [any_callbacks, decide_eq_true hne, if_pos rfl]
  omega

theorem accounted (h : s.Inv) : s.Accounted where
  owned i hi := h.owned hi
  granted i := by
    have hanswers : s.answers.count ⟨i, true⟩ = s.callbacks.count ⟨i, true⟩ := by
      rw [count_answer, count_answer]
      simp [h.answers]
    exact ⟨(h.count_registered i).trans hanswers.symm, hanswers.symm⟩
  handlers x hx := h.live hx
  untouched := h.untouched

end Inv

/-- A SUBACK for the first message. -/
def suback (status : UInt8) : Message :=
  { commonValue := 0x90, messageId := 1, topics := [⟨none, status⟩] }

/-- A connection is opened, and a subscription is submitted and written. -/
def subscribing : List Event :=
  (World.calls (World.opening World.client) ++ World.calls [.submit (.subscribe [0x61] .atLeastOnce 0),
    .written 1 .subscribe true]).map fun x => .call x.1 x.2

theorem careful_subscribing {es : List Event} {s : Subscriptions}
    (h : Infra.run step {} subscribing = some s) (hes : Infra.AllSteps step Careful s es) :
    Infra.AllSteps step Careful {} (subscribing ++ es) := by
  refine .append ?_ h hes
  refine .cons trivial rfl (.cons (fun h => ?_) rfl (.cons trivial rfl (.cons ?_ rfl (.cons ?_ rfl
    (.cons ?_ rfl (.cons ?_ rfl trivial))))))
  · cases h
  · rintro _ x ⟨⟩ ⟨⟩
  · rintro _ x ⟨⟩ ⟨⟩
  · exact fun _ _ => by decide
  · rintro _ x ⟨⟩ _ a ⟨⟩
    exact .inl ⟨rfl, rfl⟩

/-- The user is told that the subscription has been granted, and the connection is closed. -/
def granting : List Event :=
  [.call (.pull (some (suback 0)) .ok) {}, .callback true, .call (.closeExternally .ok) {}]

end Subscriptions

end IotDeviceSdk.Mqtt.Logic
