import IotDeviceSdk.Mqtt.Logic.Settled

/-!
# Where the tasks are

In every state that the layer can reach, with no assumption on the calls:

* each task that has ever been made is in exactly one place, or has been freed once (`Valid.count`);
* the tasks of a queue are of the kind that belongs there, with the data that their coroutines read;
* a pending time event of a task fits the place at which its coroutine waits.

`step_valid` says that each call keeps this, and `run_valid` that it holds in every reachable state.
-/

namespace IotDeviceSdk.Mqtt.Logic

/-! ## Counting tasks -/

/-- How many of the tasks have the id `i`. -/
def countId (i : Nat) (ts : List Task) : Nat := ts.countP fun t => t.id = i

@[simp] theorem countId_nil (i : Nat) : countId i [] = 0 := rfl

@[simp] theorem countId_cons (i : Nat) (t : Task) (ts : List Task) :
    countId i (t :: ts) = countId i ts + if t.id = i then 1 else 0 := by
  simp [countId, List.countP_cons]

@[simp] theorem countId_append (i : Nat) (ts us : List Task) :
    countId i (ts ++ us) = countId i ts + countId i us := by
  simp [countId]

theorem countId_pos {i : Nat} {ts : List Task} : 0 < countId i ts ↔ ∃ t ∈ ts, t.id = i := by
  simp [countId, List.countP_pos_iff]

theorem countId_eq_zero {i : Nat} {ts : List Task} : countId i ts = 0 ↔ ∀ t ∈ ts, t.id ≠ i := by
  simp [countId, List.countP_eq_zero]

theorem countId_map {f : Task → Task} (hf : ∀ t, (f t).id = t.id) (i : Nat) (ts : List Task) :
    countId i (ts.map f) = countId i ts := by
  simp [countId, List.countP_map, Function.comp_def, hf]

theorem countId_filter_add (p : Task → Bool) (i : Nat) (ts : List Task) :
    countId i (ts.filter p) + countId i (ts.filter fun t => !p t) = countId i ts := by
  induction ts with
  | nil => rfl
  | cons t ts ih =>
    by_cases hp : p t <;> simp [hp, ← ih] <;> omega

@[simp] theorem countId_putTask (i : Nat) (t : Task) (ts : List Task) :
    countId i (World.putTask t ts) = countId i ts := by
  unfold World.putTask countId
  rw [List.countP_map]
  congr 1
  funext u
  by_cases hu : u.id = t.id <;> simp [hu]

@[simp] theorem countId_dropTask (i id : Nat) (ts : List Task) :
    countId i (World.dropTask id ts) = if id = i then 0 else countId i ts := by
  unfold World.dropTask countId
  rw [List.countP_filter]
  split
  · next h =>
    subst h
    simp
  · next h =>
    refine List.countP_congr fun t _ => ?_
    simp only [ne_eq, decide_not, Bool.and_eq_true, decide_eq_true_eq, Bool.not_eq_eq_eq_not,
      Bool.not_true, decide_eq_false_iff_not, and_iff_left_iff_imp]
    intro ht hid
    exact h (hid.symm.trans ht)

namespace World

variable {w w' : World} {t u : Task} {ts : List Task} {p : Place} {r : CoResult}

theorem mem_putTask : u ∈ putTask t ts ↔ (u = t ∧ ∃ v ∈ ts, v.id = t.id) ∨ u ∈ ts ∧ u.id ≠ t.id := by
  unfold putTask
  rw [List.mem_map]
  constructor
  · rintro ⟨v, hv, rfl⟩
    split
    · next h => exact .inl ⟨rfl, v, hv, h⟩
    · next h => exact .inr ⟨hv, h⟩
  · rintro (⟨rfl, v, hv, h⟩ | ⟨hu, h⟩)
    · exact ⟨v, hv, if_pos h⟩
    · exact ⟨u, hu, if_neg h⟩

theorem mem_dropTask {id : Nat} : u ∈ dropTask id ts ↔ u ∈ ts ∧ u.id ≠ id := by
  simp [dropTask]

/-- All tasks that have not been freed. -/
def held (w : World) : List Task :=
  w.currentQ0Task.toList ++ (w.q0Tasks ++ (w.q12Tasks ++ (w.q12RecvTasks ++
    (w.savedQ12Tasks ++ w.leaked))))

/-- How often the task has been freed. -/
def freed (w : World) (i : Nat) : Nat := w.context.out.count (.freeTask i)

end World

/-! ## The kinds of the tasks -/

/-- A task that is, or has been, the current task. -/
structure Task.Serving (t : Task) : Prop where
  qos : t.qos = .atMostOnce
  logic : ∃ s m, t.logic = some ⟨true, s, m⟩
  scenario : t.scenario = .connect ∨ (∃ d, t.scenario = .publish (some d)) ∨
    t.scenario = .keepalive ∨ t.scenario = .shutdown

/-- A task with an id of its own. A PUBLISH of QoS 2 has neither data nor a coroutine. -/
structure Task.Tracked (t : Task) : Prop where
  qos : t.qos ≠ .atMostOnce
  scenario :
    ((∃ d, t.scenario = .publish (some d)) ∨ ∃ d, t.scenario = .subscribe (some d)) ∧
      t.logic.isSome = true ∧ t.qos = .atLeastOnce ∨
    t.scenario = .publish none ∧ t.logic = none ∧ t.cs = .fresh

/-- A task that answers a PUBLISH. -/
structure Task.Answering (t : Task) : Prop where
  qos : t.qos = .atLeastOnce
  logic : ∃ s m, t.logic = some ⟨true, s, some m⟩
  scenario : t.scenario = .puback

theorem Task.Queued.serving {t : Task} (h : t.Queued) : t.Serving :=
  ⟨h.qos, ⟨_, _, h.logic⟩, h.scenario⟩

theorem Task.Timed.congr {t : Task} {c c' : Context} (h : c'.timeouts t.id = c.timeouts t.id)
    (ht : t.Timed c) : t.Timed c' := fun timeout he => ht timeout (h ▸ he)

/-- The handle is used again: what is set stays set. -/
def Args.Keeps (a b : Args) : Prop :=
  (a.context = true → b.context = true) ∧ (a.message.isSome = true → b.message.isSome = true)

namespace World

variable {w w' : World} {t u : Task} {ts : List Task} {p : Place} {r : CoResult}

/-- **What holds in every reachable state.** -/
structure Valid (w : World) : Prop where
  count : ∀ i, countId i w.held + w.freed i = if i < w.nextTask then 1 else 0
  current : ∀ t, w.currentQ0Task = some t → t.Serving
  q0 : ∀ t ∈ w.q0Tasks, t.Queued
  q12 : ∀ t ∈ w.q12Tasks, t.Tracked
  q12Recv : ∀ t ∈ w.q12RecvTasks, t.Answering
  saved : ∀ t ∈ w.savedQ12Tasks, t.Tracked ∧ w.context.timeouts t.id = none
  timed : ∀ t ∈ w.held, t.Timed w.context
  fresh : ∀ i, w.nextTask ≤ i → w.context.timeouts i = none
  noData : w.context.layerData = false →
    w.currentQ0Task = none ∧ w.q0Tasks = [] ∧ w.q12Tasks = [] ∧ w.q12RecvTasks = []

/-! ## One place and the rest -/

/-- The tasks at a place. -/
def listAt (w : World) : Place → List Task
  | .current => w.currentQ0Task.toList
  | .q12 => w.q12Tasks
  | .q12Recv => w.q12RecvTasks
  | .leaked => w.leaked

/-- The tasks that are not at this place. -/
def rest (w : World) : Place → List Task
  | .current => w.q0Tasks ++ (w.q12Tasks ++ (w.q12RecvTasks ++ (w.savedQ12Tasks ++ w.leaked)))
  | .q12 => w.currentQ0Task.toList ++ (w.q0Tasks ++ (w.q12RecvTasks ++ (w.savedQ12Tasks ++ w.leaked)))
  | .q12Recv => w.currentQ0Task.toList ++ (w.q0Tasks ++ (w.q12Tasks ++ (w.savedQ12Tasks ++ w.leaked)))
  | .leaked => w.currentQ0Task.toList ++ (w.q0Tasks ++ (w.q12Tasks ++ (w.q12RecvTasks ++
      w.savedQ12Tasks)))

theorem at_iff : w.At t p ↔ t ∈ w.listAt p := by
  cases p <;> simp [At, listAt]

theorem countId_held (w : World) (p : Place) (i : Nat) :
    countId i w.held = countId i (w.listAt p) + countId i (w.rest p) := by
  cases p <;> simp only [held, listAt, rest, countId_append] <;> omega

theorem mem_held (p : Place) : u ∈ w.held ↔ u ∈ w.listAt p ∨ u ∈ w.rest p := by
  cases p <;> simp only [held, listAt, rest, List.mem_append] <;> tauto

theorem At.mem_held (h : w.At t p) : t ∈ w.held := (World.mem_held p).mpr (.inl (at_iff.mp h))

/-- A task is in one place only. -/
theorem Valid.count_le (hv : w.Valid) (i : Nat) : countId i w.held ≤ 1 := by
  have := hv.count i
  split at this <;> omega

theorem Valid.ne_of_rest (hv : w.Valid) (hp : w.At t p) (hu : u ∈ w.rest p) : u.id ≠ t.id := by
  intro he
  have hone := hv.count_le t.id
  have hlist := countId_pos.mpr ⟨t, at_iff.mp hp, rfl⟩
  have hrest := countId_pos.mpr ⟨u, hu, he⟩
  rw [countId_held w p] at hone
  omega

/-- The task with this id at the place. -/
theorem Valid.eq_of_listAt (hv : w.Valid) (hp : w.At t p) (hu : u ∈ w.listAt p) (h : u.id = t.id) :
    u = t := by
  by_contra hne
  have hone := hv.count_le t.id
  rw [countId_held w p] at hone
  obtain ⟨ts₁, ts₂, hts⟩ := List.append_of_mem (at_iff.mp hp)
  rw [hts] at hu hone
  simp only [countId_append, countId_cons, if_true] at hone
  rcases List.mem_append.mp hu with hu | hu
  · have := countId_pos.mpr ⟨u, hu, h⟩
    omega
  · rcases List.mem_cons.mp hu with hu | hu
    · exact hne hu
    · have := countId_pos.mpr ⟨u, hu, h⟩
      omega

/-- Each task has an id of its own. -/
theorem Valid.eq_of_held (hv : w.Valid) (ht : t ∈ w.held) (hu : u ∈ w.held) (h : u.id = t.id) :
    u = t := by
  by_contra hne
  have hone := hv.count_le t.id
  obtain ⟨ts₁, ts₂, hts⟩ := List.append_of_mem ht
  rw [hts] at hu hone
  simp only [countId_append, countId_cons, if_true] at hone
  rcases List.mem_append.mp hu with hu | hu
  · have := countId_pos.mpr ⟨u, hu, h⟩
    omega
  · rcases List.mem_cons.mp hu with hu | hu
    · exact hne hu
    · have := countId_pos.mpr ⟨u, hu, h⟩
      omega

/-- An id that has been given to a task. -/
theorem Valid.id_lt (hv : w.Valid) (hm : t ∈ w.held) : t.id < w.nextTask := by
  by_contra hlt
  have hcount := hv.count t.id
  have hpos := countId_pos.mpr ⟨t, hm, rfl⟩
  rw [if_neg hlt] at hcount
  omega

@[simp] theorem ran_rest (w : World) (p : Place) (r : CoResult) : (w.ran p r).rest p = w.rest p := by
  cases p <;> rfl

theorem ran_listAt (hp : w.At t p) (hid : r.task.id = t.id) :
    (w.ran p r).listAt p = putTask r.task (w.listAt p) := by
  cases p with
  | current =>
    have hc : w.currentQ0Task = some t := hp
    simp [listAt, ran, put, hc, putTask, hid]
  | _ => rfl

/-- After the run there is the task as it has been left, and there are the other tasks. -/
theorem Valid.mem_ran_held (hv : w.Valid) (hp : w.At t p) (hid : r.task.id = t.id)
    (hu : u ∈ (w.ran p r).held) : u = r.task ∨ u ∈ w.held ∧ u.id ≠ t.id := by
  rcases (mem_held p).mp hu with hu | hu
  · rw [ran_listAt hp hid] at hu
    rcases mem_putTask.mp hu with ⟨rfl, -⟩ | ⟨hu, hne⟩
    · exact .inl rfl
    · exact .inr ⟨(mem_held p).mpr (.inl hu), hid ▸ hne⟩
  · rw [ran_rest] at hu
    exact .inr ⟨(mem_held p).mpr (.inr hu), hv.ne_of_rest hp hu⟩

theorem countId_ran_held (hp : w.At t p) (hid : r.task.id = t.id) (i : Nat) :
    countId i (w.ran p r).held = countId i w.held := by
  rw [countId_held _ p, countId_held w p, ran_listAt hp hid, ran_rest, countId_putTask]

/-! ## Changes of the context -/

/-- What a coroutine appends does not free a task. -/
theorem count_freeTask_of_moves {c c' : Context} (h : c.Moves t c') (i : Nat) :
    c'.out.count (.freeTask i) = c.out.count (.freeTask i) := by
  obtain ⟨os, ho, hos⟩ := h.out
  have hzero : os.count (.freeTask i) = 0 := List.count_eq_zero.mpr fun hm => hos _ hm
  rw [ho, List.count_append, hzero, Nat.add_zero]

/-- The context changes in something that the tasks do not depend on. -/
theorem Valid.withContext (hv : w.Valid) {c : Context} (ht : c.timeouts = w.context.timeouts)
    (hd : c.layerData = w.context.layerData)
    (ho : ∀ i, c.out.count (.freeTask i) = w.context.out.count (.freeTask i)) :
    (w.withContext c).Valid where
  count i := (congrArg (countId i w.held + ·) (ho i)).trans (hv.count i)
  current := hv.current
  q0 := hv.q0
  q12 := hv.q12
  q12Recv := hv.q12Recv
  saved t h := ⟨(hv.saved t h).1, by simpa [World.withContext, ht] using (hv.saved t h).2⟩
  timed t h := (hv.timed t h).congr (by simp [World.withContext, ht])
  fresh i hi := by simpa [World.withContext, ht] using hv.fresh i hi
  noData h := hv.noData (hd ▸ h)

theorem Valid.returns (hv : w.Valid) (s : IotcState) : (w.returns s).Valid :=
  ⟨hv.count, hv.current, hv.q0, hv.q12, hv.q12Recv, hv.saved, hv.timed, hv.fresh, hv.noData⟩

theorem Valid.record (hv : w.Valid) {o : Output} (ho : ∀ i, o ≠ .freeTask i) : (w.record o).Valid :=
  hv.withContext rfl rfl fun i => by
    simp [Context.record, List.count_append, ho i]

end World

/-! ## One run of a coroutine -/

/-- The task `t` as it is run: with the arguments of its handle set, or by its time event. -/
structure Task.Resumes (t u : Task) : Prop where
  id : u.id = t.id
  scenario : u.scenario = t.scenario
  qos : u.qos = t.qos
  cs : u.cs = t.cs
  msgId : u.msgId = t.msgId
  callback : u.callback = t.callback
  priority : u.priority = t.priority
  sessionState : u.sessionState = t.sessionState
  logic : ∀ a, t.logic = some a → ∃ b, u.logic = some b ∧ a.Keeps b

theorem Task.Resumes.refl (t : Task) : t.Resumes t :=
  ⟨rfl, rfl, rfl, rfl, rfl, rfl, rfl, rfl, fun a h => ⟨a, h, fun h => h, fun h => h⟩⟩

theorem Task.Resumes.set {t : Task} {a b : Args} (hl : t.logic = some a) (h : a.Keeps b) :
    t.Resumes { t with logic := some b } :=
  ⟨rfl, rfl, rfl, rfl, rfl, rfl, rfl, rfl,
    fun _ ha => ⟨b, rfl, Option.some.inj (hl.symm.trans ha) ▸ h⟩⟩

/-- What the task may do does not depend on how it is resumed. -/
theorem Task.Resumes.moves {t u : Task} {c c' : Context} (h : t.Resumes u) (hm : c.Moves u c') :
    c.Moves t c' where
  mem := hm.mem
  callbacks := hm.callbacks
  layerData := hm.layerData
  connection := hm.connection.imp_right fun hc => ⟨h.scenario ▸ hc.1, hc.2⟩
  timeouts := h.id ▸ hm.timeouts
  ioTimeouts := h.id ▸ hm.ioTimeouts
  registered := h.id ▸ hm.registered
  keepaliveEvent := hm.keepaliveEvent.imp_right fun hk => ⟨h.scenario ▸ hk.1, hk.2⟩
  out := by
    obtain ⟨os, ho, hos⟩ := hm.out
    refine ⟨os, ho, fun o ho => ?_⟩
    have hof : o.Of u ↔ o.Of t := by
      cases o <;> simp [Output.Of, Task.Sends, h.id, h.scenario, h.qos, h.msgId]
    exact hof.mp (hos o ho)

theorem Task.Resumes.timed {t u : Task} {c : Context} (h : t.Resumes u) (ht : t.Timed c) : u.Timed c := by
  intro timeout he
  have hfits := ht timeout (h.id ▸ he)
  cases timeout <;> simpa [TaskTimeout.Fits, h.scenario, h.qos, h.cs] using hfits

namespace World

variable {w w' : World} {t u : Task} {ts : List Task} {p : Place} {r : CoResult}

/-- A run that leaves its task where it is. -/
theorem Valid.ran_of (hv : w.Valid) (hp : w.At t p) (hu : t.Resumes u)
    (hl : p = .q12 → t.logic.isSome = true) (ho : Outcome w.context u r)
    (hscenario : p ≠ .leaked → r.task.scenario = t.scenario) (htimed : r.task.Timed r.context) :
    (w.ran p r).Valid := by
  have hid : r.task.id = t.id := ho.task.id.trans hu.id
  have hqos : r.task.qos = t.qos := ho.task.qos.trans hu.qos
  have htimeouts {i : Nat} (hi : i ≠ t.id) : r.context.timeouts i = w.context.timeouts i :=
    ho.context.timeouts i (hu.id ▸ hi)
  have hother {q : Place} (hq : q ≠ p) : (w.ran p r).listAt q = w.listAt q := by
    cases p <;> cases q <;> first | rfl | exact absurd rfl hq
  have hnext : (w.ran p r).nextTask = w.nextTask := by cases p <;> rfl
  -- the task itself, or one that was at the place before
  have hmem {q : Place} {v : Task} (hm : v ∈ (w.ran p r).listAt q) :
      v = r.task ∧ q = p ∨ v ∈ w.listAt q := by
    by_cases hq : q = p
    · subst hq
      rw [ran_listAt hp hid] at hm
      rcases mem_putTask.mp hm with ⟨rfl, -⟩ | ⟨hm, -⟩
      · exact .inl ⟨rfl, rfl⟩
      · exact .inr hm
    · exact .inr (hother hq ▸ hm)
  refine ⟨fun i => ?_, fun v hm => ?_, ?_, fun v hm => ?_, fun v hm => ?_, fun v hm => ?_,
    fun v hm => ?_, fun i hi => ?_, fun h => ?_⟩
  · rw [countId_ran_held hp hid, freed, ran_context, count_freeTask_of_moves ho.context, hnext]
    exact hv.count i
  · rcases hmem (q := .current) (v := v) (by simp [listAt, hm]) with ⟨rfl, rfl⟩ | hm
    · obtain ⟨hq, ⟨s, m, hlogic⟩, hs⟩ := hv.current t hp
      obtain ⟨b, hb, hkeeps⟩ := hu.logic _ hlogic
      refine ⟨hqos.trans hq, ⟨b.state, b.message, ?_⟩, by rwa [hscenario (by decide)]⟩
      rw [ho.task.logic, hb, ← hkeeps.1 rfl]
    · exact hv.current v (by simpa [listAt] using hm)
  · rw [ran_q0Tasks]
    exact hv.q0
  · rcases hmem (q := .q12) hm with ⟨rfl, rfl⟩ | hm
    · obtain ⟨hq, ⟨hs, -, hq'⟩ | ⟨-, hn, -⟩⟩ := hv.q12 t hp
      · refine ⟨hqos ▸ hq, .inl ⟨by rwa [hscenario (by decide)], ?_, hqos.trans hq'⟩⟩
        obtain ⟨a, ha⟩ := Option.isSome_iff_exists.mp (hl rfl)
        obtain ⟨b, hb, -⟩ := hu.logic a ha
        rw [ho.task.logic, hb]
        rfl
      · rw [hn] at hl
        cases hl rfl
    · exact hv.q12 v hm
  · rcases hmem (q := .q12Recv) hm with ⟨rfl, rfl⟩ | hm
    · obtain ⟨hq, ⟨s, m, hlogic⟩, hs⟩ := hv.q12Recv t hp
      obtain ⟨b, hb, hkeeps⟩ := hu.logic _ hlogic
      obtain ⟨m', hm'⟩ := Option.isSome_iff_exists.mp (hkeeps.2 rfl)
      refine ⟨hqos.trans hq, ⟨b.state, m', ?_⟩, (hscenario (by decide)).trans hs⟩
      rw [ho.task.logic, hb, ← hkeeps.1 rfl, ← hm']
    · exact hv.q12Recv v hm
  · have hsaved : v ∈ w.savedQ12Tasks := by cases p <;> exact hm
    have hrest : v ∈ w.rest p := by cases p <;> simp [rest, hsaved]
    rw [ran_context, htimeouts (hv.ne_of_rest hp hrest)]
    exact hv.saved v hsaved
  · rw [ran_context]
    rcases hv.mem_ran_held hp hid hm with rfl | ⟨hm, hne⟩
    · exact htimed
    · exact (hv.timed v hm).congr (htimeouts hne)
  · rw [hnext] at hi
    have hne : i ≠ t.id := fun he => absurd (hv.id_lt hp.mem_held) (by omega)
    rw [ran_context, htimeouts hne]
    exact hv.fresh i hi
  · have hn := hv.noData (by rwa [ran_context, ho.context.layerData] at h)
    cases p with
    | leaked => exact hn
    | current => simp [At, hn] at hp
    | q12 => simp [At, hn] at hp
    | q12Recv => simp [At, hn] at hp

/-- **A run that keeps its task.** -/
theorem Valid.ran (hv : w.Valid) (hp : w.At t p) (hu : t.Resumes u)
    (hl : p = .q12 → t.logic.isSome = true) (ho : Outcome w.context u r)
    (he : r.exit.final = false) : (w.ran p r).Valid :=
  hv.ran_of hp hu hl ho (fun _ => (ho.scenario he).trans hu.scenario)
    (ho.timed (hu.timed (hv.timed t hp.mem_held)) he)

/-! ## The end of a task -/

/-- The world without a task. -/
def remove (w : World) (t : Task) : Place → World
  | .current => { w with currentQ0Task := none }
  | .q12 => { w with q12Tasks := dropTask t.id w.q12Tasks }
  | .q12Recv => { w with q12RecvTasks := dropTask t.id w.q12RecvTasks }
  | .leaked => { w with leaked := dropTask t.id w.leaked }

/-- The task is freed after its coroutine has left the context `c`. -/
def finished (w : World) (t : Task) (p : Place) (c : Context) : World :=
  ((w.remove t p).withContext c).freeTasks [t]

theorem dropTask_putTask (t : Task) (ts : List Task) :
    dropTask t.id (putTask t ts) = dropTask t.id ts := by
  induction ts with
  | nil => rfl
  | cons u us ih =>
    by_cases hu : u.id = t.id
    · simpa [dropTask, putTask, hu] using ih
    · simpa [dropTask, putTask, hu] using ih

theorem ran_drop (hp : p ≠ .current) (hid : r.task.id = t.id) :
    (w.ran p r).drop r.task p = w.finished t p r.context := by
  cases p with
  | current => exact absurd rfl hp
  | q12 => simp [ran, put, drop, finished, remove, freeTasks, World.withContext, dropTask_putTask, ← hid]
  | q12Recv =>
    simp [ran, put, drop, finished, remove, freeTasks, World.withContext, dropTask_putTask, ← hid]
  | leaked =>
    simp [ran, put, drop, finished, remove, freeTasks, World.withContext, dropTask_putTask, ← hid]

theorem freeCurrent_eq (hc : w.currentQ0Task = some t) :
    w.freeCurrent = w.finished t .current (w.context.cancelTaskTimeout t.id) := by
  unfold freeCurrent
  rw [hc]
  rfl

theorem ran_freeCurrent (hid : r.task.id = t.id) (hu : r.context.timeouts r.task.id = none) :
    (w.ran .current r).freeCurrent = w.finished t .current r.context := by
  have harmed : r.context.armed r.task.id = false := Context.armed_eq_false.mpr hu
  rw [freeCurrent_eq (t := r.task) rfl, ran_context, Context.cancelTaskTimeout, harmed]
  simp [finished, remove, ran, put, freeTasks, World.withContext, hid]

theorem remove_listAt_self (hp : w.At t p) :
    (w.remove t p).listAt p = dropTask t.id (w.listAt p) := by
  cases p with
  | current =>
    have hc : w.currentQ0Task = some t := hp
    simp [remove, listAt, hc, dropTask]
  | _ => rfl

theorem remove_rest (w : World) (t : Task) (p : Place) : (w.remove t p).rest p = w.rest p := by
  cases p <;> rfl

/-- What is held after the end of the task. -/
theorem Valid.mem_finished_held (hv : w.Valid) (hp : w.At t p) {c : Context} :
    u ∈ (w.finished t p c).held ↔ u ∈ w.held ∧ u.id ≠ t.id := by
  rw [show (w.finished t p c).held = (w.remove t p).held from rfl, mem_held p, mem_held (w := w) p,
    remove_listAt_self hp, remove_rest, mem_dropTask]
  constructor
  · rintro (⟨hu, hne⟩ | hu)
    · exact ⟨.inl hu, hne⟩
    · exact ⟨.inr hu, hv.ne_of_rest hp hu⟩
  · rintro ⟨hu | hu, hne⟩
    · exact .inl ⟨hu, hne⟩
    · exact .inr hu

theorem Valid.countId_finished (hv : w.Valid) (hp : w.At t p) (c : Context) (i : Nat) :
    countId i (w.finished t p c).held + (if i = t.id then 1 else 0) = countId i w.held := by
  have hone := hv.count_le t.id
  have hpos := countId_pos.mpr ⟨t, at_iff.mp hp, rfl⟩
  rw [countId_held w p] at hone
  rw [show (w.finished t p c).held = (w.remove t p).held from rfl, countId_held _ p,
    countId_held w p, remove_listAt_self hp, remove_rest, countId_dropTask]
  by_cases hi : i = t.id
  · subst hi
    simp only [if_true]
    omega
  · simp [hi, Ne.symm hi]

/-- **A task that ends is freed.** -/
theorem Valid.finished (hv : w.Valid) (hp : w.At t p) {c : Context}
    (htimeouts : ∀ i, i ≠ t.id → c.timeouts i = w.context.timeouts i)
    (hd : c.layerData = w.context.layerData)
    (hfree : ∀ i, c.out.count (.freeTask i) = w.context.out.count (.freeTask i)) :
    (w.finished t p c).Valid := by
  have hsub {q : Place} {v : Task} (hm : v ∈ (w.finished t p c).listAt q) : v ∈ w.listAt q := by
    cases p <;> cases q <;>
      first
        | exact hm
        | exact (mem_dropTask.mp hm).1
        | simp [listAt, World.finished, remove, freeTasks, World.withContext] at hm
  have hnext : (w.finished t p c).nextTask = w.nextTask := by cases p <;> rfl
  have hq0 : (w.finished t p c).q0Tasks = w.q0Tasks := by cases p <;> rfl
  have hsaved : (w.finished t p c).savedQ12Tasks = w.savedQ12Tasks := by cases p <;> rfl
  have hcontext : (w.finished t p c).context.timeouts = c.timeouts := rfl
  refine ⟨fun i => ?_, fun v hm => ?_, ?_, fun v hm => ?_, fun v hm => ?_, fun v hm => ?_,
    fun v hm => ?_, fun i hi => ?_, fun h => ?_⟩
  · have hcount := hv.count i
    have hheld := hv.countId_finished hp c i
    have hfreed : (w.finished t p c).freed i = w.freed i + if i = t.id then 1 else 0 := by
      change (c.out ++ [Output.freeTask t.id]).count (Output.freeTask i) = _
      rw [List.count_append, hfree i, List.count_singleton]
      by_cases hi : i = t.id
      · simp [freed, hi]
      · simp [freed, hi, Ne.symm hi]
    rw [hfreed, hnext]
    omega
  · exact hv.current v (by simpa [listAt] using hsub (q := .current) (v := v) (by simp [listAt, hm]))
  · rw [hq0]
    exact hv.q0
  · exact hv.q12 v (hsub (q := .q12) hm)
  · exact hv.q12Recv v (hsub (q := .q12Recv) hm)
  · rw [hsaved] at hm
    have hrest : v ∈ w.rest p := by cases p <;> simp [rest, hm]
    rw [hcontext, htimeouts v.id (hv.ne_of_rest hp hrest)]
    exact hv.saved v hm
  · obtain ⟨hm, hne⟩ := (hv.mem_finished_held hp).mp hm
    exact (hv.timed v hm).congr (htimeouts v.id hne)
  · rw [hnext] at hi
    have hne : i ≠ t.id := fun he => absurd (hv.id_lt hp.mem_held) (by omega)
    rw [hcontext, htimeouts i hne]
    exact hv.fresh i hi
  · have hn := hv.noData (hd ▸ h)
    cases p with
    | leaked => exact hn
    | current => simp [At, hn] at hp
    | q12 => simp [At, hn] at hp
    | q12Recv => simp [At, hn] at hp

theorem Valid.finished_of_outcome (hv : w.Valid) (hp : w.At t p) (hu : t.Resumes u)
    (ho : Outcome w.context u r) : (w.finished t p r.context).Valid :=
  hv.finished hp (fun i hi => ho.context.timeouts i (hu.id ▸ hi)) ho.context.layerData
    (count_freeTask_of_moves ho.context)

/-- The current task is freed, whatever it waits for. -/
theorem Valid.freeCurrent (hv : w.Valid) : w.freeCurrent.Valid := by
  cases hc : w.currentQ0Task with
  | none =>
    rwa [show w.freeCurrent = w by simp [World.freeCurrent, hc]]
  | some t =>
    have hm := Context.Moves.cancelTaskTimeout t w.context
    rw [freeCurrent_eq hc]
    exact hv.finished (p := .current) hc hm.timeouts hm.layerData (count_freeTask_of_moves hm)

/-! ## What follows a run -/

/-- Each queued task is moved to another place of the queues. -/
theorem Valid.started (hv : w.Valid) (hc : w.currentQ0Task = none) (hq : w.q0Tasks = t :: ts) :
    (w.started t ts).Valid := by
  have hmem {v : Task} : v ∈ (w.started t ts).held ↔ v ∈ w.held := by
    simp [held, World.started, World.record, World.withContext, hc, hq, eq_comm]
  have hout (i : Nat) : (w.started t ts).freed i = w.freed i := by
    simp [freed, World.started, World.record, World.withContext, Context.record,
      List.count_append]
  refine ⟨fun i => ?_, fun v hm => ?_, fun v hm => ?_, hv.q12, hv.q12Recv, hv.saved,
    fun v hm => ?_, hv.fresh, fun h => ?_⟩
  · rw [hout]
    refine Eq.trans ?_ (hv.count i)
    simp only [held, World.started, World.record, World.withContext, hc, hq, countId_append,
      countId_cons, Option.toList_some, Option.toList_none, countId_nil, List.cons_append]
    omega
  · obtain rfl := Option.some.inj hm
    exact (hv.q0 t (by simp [hq])).serving
  · exact hv.q0 v (by simpa [hq] using .inr hm)
  · exact hv.timed v (hmem.mp hm)
  · have hn := (hv.noData h).2.1
    rw [hq] at hn
    cases hn

/-- A task of `q0Tasks` that waits is put back at the end. -/
theorem Valid.rotated (hv : w.Valid) (hq : w.q0Tasks = t :: ts) :
    ({ w with q0Tasks := ts ++ [t] } : World).Valid := by
  refine ⟨fun i => ?_, hv.current, fun v hm => ?_, hv.q12, hv.q12Recv, hv.saved,
    fun v hm => ?_, hv.fresh, fun h => ?_⟩
  · refine Eq.trans ?_ (hv.count i)
    simp only [held, hq, countId_append, countId_cons, countId_nil, freed]
    omega
  · refine hv.q0 v ?_
    rw [hq]
    simpa [or_comm] using hm
  · refine hv.timed v ?_
    simp only [held, hq, List.mem_append, List.mem_cons] at hm ⊢
    tauto
  · have hn := (hv.noData h).2.1
    rw [hq] at hn
    cases hn

theorem Starts.valid (h : Starts w w') (hv : w.Valid) : w'.Valid := by
  induction h with
  | empty s hc hq => exact hv.returns s
  | wait s hc hq hw => exact (hv.rotated hq).returns s
  | keep s hc hq hw hl hr he =>
    have hv' := hv.started hc hq
    exact (hv'.ran (p := .current) rfl (.refl _) (fun h => by cases h) (execute_outcome hr) he).returns s
  | next s hc hq hw hl hr he hu h ih =>
    have hv' := hv.started hc hq
    have ho := execute_outcome hr
    rw [ran_freeCurrent ho.task.id hu] at ih
    exact (ih (hv'.finished_of_outcome (p := .current) rfl (.refl _) ho)).returns s

/-- **What follows a run of a coroutine keeps the tasks in order.** -/
theorem Settled.valid (h : Settled w p r w') (hv : w.Valid) (hp : w.At t p) (hu : t.Resumes u)
    (hl : p = .q12 → t.logic.isSome = true) (ho : Outcome w.context u r) : w'.Valid := by
  have hid : r.task.id = t.id := ho.task.id.trans hu.id
  have hqos : r.task.qos = t.qos := ho.task.qos.trans hu.qos
  induction h with
  | keep s he => exact (hv.ran hp hu hl ho he).returns s
  | drop s he hq hu' =>
    have hcurrent : p ≠ .current := by
      rintro rfl
      exact hq (hqos.trans (hv.current t hp).qos)
    rw [ran_drop hcurrent hid]
    exact (hv.finished_of_outcome hp hu ho).returns s
  | next s he hq hu' hd h =>
    rw [hqos] at hq
    cases p with
    | current =>
      rw [ran_freeCurrent hid hu'] at h
      exact (h.valid (hv.finished_of_outcome hp hu ho)).returns s
    | q12 => exact absurd hq (hv.q12 t hp).qos
    | q12Recv =>
      rw [(hv.q12Recv t hp).qos] at hq
      cases hq
    | leaked =>
      have hran := hv.ran_of hp hu (fun h => by cases h) ho (absurd rfl) (.of_none hu')
      exact (h.valid hran.freeCurrent).returns s
  | reset s he h ih => exact (ih.record (by simp)).returns s

/-! ## New tasks -/

/-- The id of the next task is taken. -/
def made (w : World) : World := { w with nextTask := w.nextTask + 1 }

theorem Valid.unarmed (hv : w.Valid) (hid : t.id = w.nextTask) : w.context.timeouts t.id = none :=
  hv.fresh t.id (by omega)

theorem Valid.made_freeTasks (hv : w.Valid) (hid : t.id = w.nextTask) :
    (w.made.freeTasks [t]).Valid := by
  refine ⟨fun i => ?_, hv.current, hv.q0, hv.q12, hv.q12Recv, hv.saved, hv.timed,
    fun i hi => hv.fresh i (by simp only [made, freeTasks, World.withContext] at hi; omega),
    hv.noData⟩
  have hcount := hv.count i
  change countId i w.held +
      (w.context.out ++ [Output.freeTask t.id]).count (Output.freeTask i) =
    if i < w.nextTask + 1 then 1 else 0
  rw [List.count_append, List.count_singleton, hid]
  unfold freed at hcount
  by_cases hi : i = w.nextTask
  · subst hi
    simp at hcount ⊢
    omega
  · have hne : ¬w.nextTask = i := fun h => hi h.symm
    simp only [Output.freeTask.injEq, beq_iff_eq, hne, if_false]
    split at hcount <;> split <;> omega

/-- The new task is held once, the others as before. -/
theorem Valid.count_made (hv : w.Valid) {W : World} (hid : t.id = w.nextTask)
    (hheld : ∀ i, countId i W.held = countId i w.held + if t.id = i then 1 else 0)
    (hfreed : ∀ i, W.freed i = w.freed i) (hnext : W.nextTask = w.nextTask + 1) (i : Nat) :
    countId i W.held + W.freed i = if i < W.nextTask then 1 else 0 := by
  have hcount := hv.count i
  rw [hheld, hfreed, hnext, hid]
  by_cases hi : w.nextTask = i
  · subst hi
    simp at hcount ⊢
    omega
  · rw [if_neg hi]
    split at hcount <;> split <;> omega

theorem Valid.made_enqueue (hv : w.Valid) (hid : t.id = w.nextTask) (ht : t.Queued)
    (hd : w.context.layerData = true) : (w.made.enqueue t).Valid := by
  have hmem {v : Task} : v ∈ (w.made.enqueue t).q0Tasks ↔ v = t ∨ v ∈ w.q0Tasks := by
    cases hp : t.priority <;> simp [enqueue, made, hp, or_comm]
  refine ⟨hv.count_made hid (fun i => ?_) (fun i => rfl) rfl, hv.current, fun v hm => ?_, hv.q12,
    hv.q12Recv, hv.saved, fun v hm => ?_,
    fun i hi => hv.fresh i (by simp only [made, enqueue] at hi; omega), fun h => ?_⟩
  · cases hp : t.priority <;> simp only [held, enqueue, made, hp, countId_append, countId_cons,
      countId_nil] <;> omega
  · rcases hmem.mp hm with rfl | hm
    · exact ht
    · exact hv.q0 v hm
  · have hm : v = t ∨ v ∈ w.held := by
      simp only [held, List.mem_append, hmem] at hm ⊢
      simp only [enqueue, made] at hm
      tauto
    rcases hm with rfl | hm
    · exact .of_none (hv.unarmed hid)
    · exact hv.timed v hm
  · rw [show (w.made.enqueue t).context.layerData = true from hd] at h
    cases h

theorem Valid.made_track (hv : w.Valid) (hid : t.id = w.nextTask) (ht : t.Tracked)
    (hd : w.context.layerData = true) : (w.made.track t).Valid := by
  let t' : Task := { t with msgId := (w.lastMsgId + 1) % 2 ^ 16 }
  have ht' : t'.Tracked := ⟨ht.qos, ht.scenario⟩
  refine ⟨hv.count_made hid (fun i => ?_) (fun i => rfl) rfl, hv.current, hv.q0, fun v hm => ?_,
    hv.q12Recv, hv.saved, fun v hm => ?_,
    fun i hi => hv.fresh i (by simp only [made, track] at hi; omega), fun h => ?_⟩
  · simp only [held, track, made, countId_append, countId_cons, countId_nil]
    omega
  · rcases List.mem_append.mp hm with hm | hm
    · exact hv.q12 v hm
    · exact List.mem_singleton.mp hm ▸ ht'
  · have hm : v = t' ∨ v ∈ w.held := by
      simp only [held, track, made, List.mem_append, List.mem_singleton] at hm ⊢
      tauto
    rcases hm with rfl | hm
    · exact .of_none (hv.unarmed hid)
    · exact hv.timed v hm
  · rw [show (w.made.track t).context.layerData = true from hd] at h
    cases h

theorem New.tracked (hn : New t) (hq : t.qos ≠ .atMostOnce) : (setLogic t).Tracked := by
  rcases hn.scenario with ⟨-, h⟩ | ⟨d, hs⟩ | ⟨⟨d, hs⟩, hq'⟩
  · exact absurd h hq
  · cases hq' : t.qos with
    | atMostOnce => exact absurd hq' hq
    | atLeastOnce =>
      have hset : setLogic t = { t with logic := some ⟨true, .ok, none⟩ } := by
        simp [setLogic, hs, hq']
      exact hset ▸ ⟨hq, .inl ⟨.inl ⟨d, hs⟩, rfl, hq'⟩⟩
    | exactlyOnce =>
      have hset : setLogic t = t.freeData := by simp [setLogic, hs, hq']
      exact hset ▸ ⟨hq, .inr ⟨by simp [Task.freeData, hs], hn.logic, hn.cs⟩⟩
  · have hset : setLogic t = { t with logic := some ⟨true, .ok, none⟩ } := by
      simp [setLogic, hs]
    exact hset ▸ ⟨hq, .inl ⟨.inr ⟨d, hs⟩, rfl, hq'⟩⟩

theorem Pushed.valid (h : Pushed w.made t w') (hv : w.Valid) (hid : t.id = w.nextTask)
    (hn : New t) : w'.Valid := by
  cases h with
  | refused s h => exact (hv.made_freeTasks hid).returns s
  | queued s hs hq hc =>
    exact (hv.made_enqueue (by simpa using hid) (hn.queued hq)
      (layerData_of_not_stopped hs)).returns s
  | started s hs hq hc h =>
    exact (h.valid (hv.made_enqueue (by simpa using hid) (hn.queued hq)
      (layerData_of_not_stopped hs))).returns s
  | deferred s hs hq ho =>
    exact (hv.made_track (by simpa using hid) (hn.tracked hq)
      (layerData_of_not_stopped hs)).returns s
  | unset s hs hq ho hl =>
    exact (hv.made_track (by simpa using hid) (hn.tracked hq)
      (layerData_of_not_stopped hs)).returns s
  | run s hs hq ho hl hr h =>
    have hv' := hv.made_track (by simpa using hid) (hn.tracked hq)
      (layerData_of_not_stopped hs)
    refine (h.valid hv' (t := { setLogic t with msgId := _ }) (List.mem_append_right _ (by simp))
      (.refl _) (fun _ => ?_) (execute_outcome hr)).returns s
    rw [show Task.logic _ = (setLogic t).logic from rfl, hl]
    rfl

end World

end IotDeviceSdk.Mqtt.Logic
