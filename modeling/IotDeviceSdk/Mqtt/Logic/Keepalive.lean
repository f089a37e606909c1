import IotDeviceSdk.Mqtt.Logic.Told
import IotDeviceSdk.Mqtt.Logic.Unsolicited

/-!
# The keepalive mechanism

While a connection with a keepalive interval is open, `keepalive_event` is pending, or one KEEPALIVE is
queued or is the current task: the event makes the task, and a task that gets its PINGRESP sets the
event again. A task that gets anything else while it waits ends without that.

* `keepalive_armed`: it is so in every run in which a KEEPALIVE gets what it waits for.
* `keepalive_armed_fails` is a PINGRESP that comes before the notification of the write.
-/

namespace IotDeviceSdk.Mqtt.Logic

open Logic.Context

/-! ## The coroutines -/

/-- There is memory for every allocation. -/
def Context.Unlimited (c : Context) : Prop := ∀ b ∈ c.mem, b = true

/-- What a KEEPALIVE waits for: a PINGRESP, or its timeout. -/
def Args.Pings (a : Args) : Prop :=
  a.state = .timeout ∨ a.state = .ok ∧ ∃ m ∈ a.message, m.message.type = .pingresp

variable {c c' : Context} {t u : Task} {a : Args} {r : CoResult} {s : IotcState}

theorem Context.Unlimited.of_suffix (h : c.Unlimited) (hm : c'.mem <:+ c.mem) : c'.Unlimited :=
  fun b hb => h b (hm.subset hb)

theorem Context.Unlimited.alloc (h : c.Unlimited) : c.alloc.1 = true := by
  simp only [Context.alloc]
  cases hm : c.mem with
  | nil => rfl
  | cons b bs => exact h b (by rw [hm]; exact List.mem_cons_self)

theorem Context.Unlimited.executeIn {taken : Context → Bool} {arm : Context → Context}
    (h : c.Unlimited) (hin : c.executeIn taken arm = some (s, c')) :
    s = .ok ∧ c' = arm c.alloc.2.alloc.2 := by
  have h' : c.alloc.2.Unlimited := h.of_suffix (List.tail_suffix _)
  simp only [Context.executeIn, h.alloc, h'.alloc, if_true] at hin
  split at hin
  · cases hin
  · obtain ⟨rfl, rfl⟩ := Prod.mk.inj (Option.some.inj hin)
    exact ⟨rfl, rfl⟩

/-- Neither `keepalive_event` nor the connection data change. -/
structure Context.Steady (c c' : Context) : Prop where
  keepaliveEvent : c'.keepaliveEvent = c.keepaliveEvent
  connection : c'.connection = c.connection

namespace Context.Steady

theorem refl (c : Context) : c.Steady c := ⟨rfl, rfl⟩

theorem trans {c'' : Context} (h : c.Steady c') (h' : c'.Steady c'') : c.Steady c'' :=
  ⟨h'.keepaliveEvent.trans h.keepaliveEvent, h'.connection.trans h.connection⟩

theorem freeMessage (c : Context) (m : Option Received) : c.Steady (c.freeMessage m) := by
  unfold Context.freeMessage
  split <;> exact ⟨rfl, rfl⟩

theorem cancelTaskTimeout (c : Context) (id : Nat) : c.Steady (c.cancelTaskTimeout id) := by
  unfold Context.cancelTaskTimeout
  split <;> exact ⟨rfl, rfl⟩

theorem continueWith (c : Context) (o : Output) (next : LayerState) :
    c.Steady (c.continueWith o next).2 := by
  simp only [Context.continueWith]
  split <;> exact ⟨rfl, rfl⟩

theorem build {fill e : Except IotcState Message} (hb : c.build fill = (e, c')) : c.Steady c' := by
  obtain rfl : (c.build fill).2 = c' := by rw [hb]
  exact ⟨rfl, rfl⟩

theorem executeTaskIn {id : Nat} {timeout : TaskTimeout}
    (h : c.executeTaskIn id timeout = some (s, c')) : c.Steady c' := by
  rcases executeIn_eq_some h with ⟨-, -, rfl⟩ | ⟨-, rfl | rfl⟩ <;> exact ⟨rfl, rfl⟩

theorem ioTimeoutsCreate {id : Nat} (h : c.ioTimeoutsCreate id = some (s, c')) : c.Steady c' := by
  unfold Context.ioTimeoutsCreate at h
  split at h
  · cases h
  · split at h
    · next hin =>
      have hc := executeTaskIn hin
      dsimp only at h
      split at h <;> obtain ⟨-, rfl⟩ := Prod.mk.inj (Option.some.inj h) <;>
        exact ⟨hc.keepaliveEvent, hc.connection⟩
    · exact executeTaskIn h

end Context.Steady

/-- **A KEEPALIVE that ends has set the event again**, if it has memory and got what it waits for. -/
theorem doMqttKeepaliveTask_ends (h : doMqttKeepaliveTask c t a = some r) (he : r.exit.final = true)
    (hm : c.Unlimited) (hopened : c.connection.connectionState = .opened)
    (ha : t.cs = .answer → a.Pings) : r.context.keepaliveEvent = true := by
  unfold doMqttKeepaliveTask at h
  split at h
  · obtain rfl := Option.some.inj h
    cases he
  · split at h
    · -- it has been written
      unfold keepaliveSent at h
      split at h
      · cases h
      · split at h
        · cases h
        · obtain rfl := Option.some.inj h
          cases he
        · next hne hin => exact absurd (hm.executeIn hin).1 hne
    · next hcs =>
      have hcancel := hm.of_suffix (Moves.cancelTaskTimeout t c).mem
      unfold keepaliveAnswer at h
      split at h
      · split at h
        · cases h
        · obtain rfl := Option.some.inj h
          cases he
      · next hst =>
        obtain ⟨hok, m, hmsg, htype⟩ := (ha hcs).resolve_left hst
        dsimp only at h
        rw [hok, if_neg (by decide), hmsg] at h
        dsimp only at h
        rw [if_neg (by simp [htype]), World.cancelTaskTimeout_connection, if_pos hopened] at h
        split at h
        · cases h
        · next hin =>
          obtain rfl := Option.some.inj h
          obtain ⟨-, rfl⟩ := hcancel.executeIn hin
          exact (Steady.freeMessage _ _).keepaliveEvent
        · next hne hin => exact absurd (hcancel.executeIn hin).1 hne
    · split at h
      · obtain rfl := Option.some.inj h
        cases he
      · next hb =>
        simp [Context.build, hm.alloc] at hb

theorem doMqttKeepaliveTask_waits (h : doMqttKeepaliveTask c t a = some r)
    (he : r.exit.final = false) : c.Steady r.context := by
  unfold doMqttKeepaliveTask at h
  split at h
  · obtain rfl := Option.some.inj h
    exact .freeMessage c _
  · split at h
    · unfold keepaliveSent at h
      split at h
      · cases h
      · split at h
        · cases h
        · next hin =>
          obtain rfl := Option.some.inj h
          exact .executeTaskIn hin
        · obtain rfl := Option.some.inj h
          cases he
    · unfold keepaliveAnswer at h
      split at h
      · split at h
        · cases h
        · change some ⟨(c.closeOnPrev .timeout).2, { t with cs := .exit },
            .keep (c.closeOnPrev .timeout).1⟩ = some r at h
          obtain rfl := Option.some.inj h
          exact .continueWith c _ _
      · dsimp only at h
        repeat' split at h
        all_goals first
          | cases h; done
          | (obtain rfl := Option.some.inj h; cases he)
    · split at h
      · next hb =>
        obtain rfl := Option.some.inj h
        exact (Steady.build hb).trans (.continueWith _ _ _)
      · obtain rfl := Option.some.inj h
        cases he

theorem connectExit_steady (c : Context) (t : Task) (msg : Option Received) :
    c.Steady (connectExit c t msg).context :=
  (Steady.freeMessage c msg).trans (.cancelTaskTimeout _ _)

theorem connectStart_steady (h : connectStart c t = some r) : c.Steady r.context := by
  unfold connectStart at h
  split at h
  · next hb =>
    obtain rfl := Option.some.inj h
    exact (Steady.build hb).trans (connectExit_steady _ _ _)
  · next hb =>
    have hbuild := Steady.build hb
    split at h
    · split at h
      · cases h
      · next hin =>
        obtain rfl := Option.some.inj h
        exact (hbuild.trans (.ioTimeoutsCreate hin)).trans (.continueWith _ _ _)
      · next hin =>
        obtain rfl := Option.some.inj h
        exact (hbuild.trans (.ioTimeoutsCreate hin)).trans (connectExit_steady _ _ _)
    · split at h
      · cases h
      · obtain rfl := Option.some.inj h
        exact hbuild.trans (.continueWith _ _ _)

theorem connectAccepted_opens (h : connectAccepted c t s = some r) :
    c.Steady r.context ∨
      r.exit.final = true ∧ (0 < c.connection.keepaliveTimeout → r.context.keepaliveEvent = true) := by
  unfold connectAccepted at h
  dsimp only at h
  split at h
  · split at h
    · cases h
    · next hin =>
      obtain rfl := Option.some.inj h
      refine .inr ⟨rfl, fun _ => ?_⟩
      rcases executeIn_eq_some hin with ⟨-, -, rfl⟩ | ⟨hne, -⟩
      · exact (Steady.continueWith _ _ _).keepaliveEvent
      · cases hne
    · next hne hin =>
      obtain rfl := Option.some.inj h
      refine .inl (Steady.trans ?_ (connectExit_steady _ t none))
      rcases executeIn_eq_some hin with ⟨hok, -, -⟩ | ⟨-, rfl | rfl⟩
      · exact absurd hok hne
      · exact ⟨rfl, rfl⟩
      · exact ⟨rfl, rfl⟩
  · next hzero =>
    obtain rfl := Option.some.inj h
    exact .inr ⟨rfl, fun hpos => absurd hpos hzero⟩

/-- A CONNECT sets the event when its CONNACK opens the connection, and it ends then. -/
theorem doMqttConnect_opens (h : doMqttConnect c t a = some r) :
    c.Steady r.context ∨ t.cs = .answer ∧ r.exit.final = true ∧
      (0 < c.connection.keepaliveTimeout → r.context.keepaliveEvent = true) := by
  unfold doMqttConnect at h
  split at h
  · obtain rfl := Option.some.inj h
    exact .inl ((Steady.freeMessage c _).trans (.cancelTaskTimeout _ _))
  · split at h
    · obtain rfl := Option.some.inj h
      unfold connectSent
      split
      · exact .inl (.refl c)
      · exact .inl ((Steady.continueWith c _ _).trans (connectExit_steady _ _ _))
    · next hcs =>
      unfold connectAnswer at h
      split at h
      · cases h
      · next m _ =>
        split at h
        · have hcancel := Steady.cancelTaskTimeout c t.id
          dsimp only at h
          split at h
          · have hfree := hcancel.trans (.freeMessage _ (some m))
            rw [← hfree.connection]
            exact (connectAccepted_opens h).imp hfree.trans fun h => ⟨hcs, h⟩
          · obtain rfl := Option.some.inj h
            exact .inl ((hcancel.trans (.continueWith _ _ _)).trans (connectExit_steady _ _ _))
        · obtain rfl := Option.some.inj h
          exact .inl (connectExit_steady c t _)
    · exact .inl (connectStart_steady h)

theorem doMqttConnectTimeout_steady (h : doMqttConnectTimeout c t = some r) : c.Steady r.context := by
  unfold doMqttConnectTimeout at h
  dsimp only at h
  split at h
  · cases h
  · obtain rfl := Option.some.inj h
    have hremove : c.Steady (c.ioTimeoutsRemove t.id) := ⟨rfl, rfl⟩
    exact hremove.trans (.continueWith _ _ _)

/-- The other tasks leave the keepalive mechanism alone, and these two do while they wait. -/
theorem execute_steady (h : execute c t a = some r)
    (he : r.exit.final = false ∨ t.scenario ≠ .connect ∧ t.scenario ≠ .keepalive) :
    c.Steady r.context := by
  have hmoves := (execute_outcome h).context
  have hother (ht : t.scenario ≠ .connect ∧ t.scenario ≠ .keepalive) : c.Steady r.context :=
    ⟨hmoves.keepaliveEvent.resolve_right fun hk => hk.1.elim ht.1 ht.2,
      hmoves.connection.resolve_right fun hc => ht.1 hc.1⟩
  rcases he with he | ht
  · unfold execute at h
    split at h
    · cases hs : t.scenario with
      | connect =>
        refine (doMqttConnect_opens (by simpa only [coroutine, hs] using h)).resolve_right fun ho => ?_
        cases he.symm.trans ho.2.1
      | keepalive => exact doMqttKeepaliveTask_waits (by simpa only [coroutine, hs] using h) he
      | _ => exact hother (by simp [hs])
    · cases h
  · exact hother ht

namespace World

variable {w w' : World} {p : Place} {A : Admission} {k : Nat} {ts : List Task}

theorem Runs.steady (hr : Runs A c t p u r)
    (he : r.exit.final = false ∨ t.scenario ≠ .connect ∧ t.scenario ≠ .keepalive) :
    c.Steady r.context := by
  cases hr with
  | @logic a b _ hl hb h => exact execute_steady (t := { t with logic := some b }) h he
  | @timeout timeout _ hA hf h =>
    cases timeout with
    | resume s => exact execute_steady h he
    | connect => exact doMqttConnectTimeout_steady h
    | keepalive msg =>
      obtain ⟨r', hr', rfl⟩ := Option.map_eq_some_iff.mp h
      have hsteady := execute_steady hr' (he.imp_left fun he => by
        obtain ⟨c', t', e⟩ := r'
        cases e <;> first | rfl | cases he)
      exact hsteady

theorem Runs.stays_stopped (hr : Runs A c t p u r) (hs : c.stopped = true) :
    r.context.stopped = true := by
  cases hr with
  | logic hl hb h => exact execute_stays_stopped h hs
  | timeout hA hf h => exact TaskTimeout.run_stays_stopped h hs

/-- **In time**, when `k` KEEPALIVEs are current or queued: the current task gets what it waits for if
it is a KEEPALIVE, and none of them waits for a CONNECT. -/
def timely (k : Nat) : Admission where
  resumed t p a := p = .current → t.cs = .answer →
    (t.scenario = .keepalive → a.Pings) ∧ (t.scenario = .connect → k = 0)
  received _ := True
  fired _ := True
  stops := False

theorem Cause.timely {a b : Args} (h : Cause (timely k) t .current a b) (hcs : t.cs = .answer) :
    (t.scenario = .keepalive → b.Pings) ∧ (t.scenario = .connect → k = 0) := by
  cases h with
  | started _ hf => cases hcs.symm.trans hf
  | written _ _ _ hA => exact hA rfl hcs
  | answered _ _ hp _ _ => rcases hp with hp | hp <;> cases hp
  | unnumbered _ _ _ hA => exact hA rfl hcs
  | stopped _ hA => exact hA.elim

/-- The end of a CONNECT opens the connection with the event set, that of a KEEPALIVE sets it again, and
that of another task leaves it as it is. -/
theorem Runs.ends (hr : Runs (timely k) c t .current u r) (he : r.exit.final = true) :
    c.Steady r.context ∧ t.scenario ≠ .keepalive ∨
      k = 0 ∧ t.scenario ≠ .keepalive ∧
        (0 < c.connection.keepaliveTimeout → r.context.keepaliveEvent = true) ∨
      t.scenario = .keepalive ∧ (c.Unlimited → c.connection.connectionState = .opened →
        r.context.keepaliveEvent = true) := by
  by_cases hk : t.scenario = .keepalive
  · refine .inr (.inr ⟨hk, fun hm ho => ?_⟩)
    cases hr with
    | @logic a b _ hl hb h =>
      unfold execute at h
      split at h
      · refine doMqttKeepaliveTask_ends (t := { t with logic := some b })
          (by simpa only [coroutine, hk] using h) he hm ho fun hcs => (hb.timely hcs).1 hk
      · cases h
    | @timeout timeout _ hA hf h =>
      cases timeout with
      | resume s =>
        rcases hf with ⟨⟨d, hd⟩, -⟩ | ⟨⟨d, hd⟩, -⟩ <;> cases hk.symm.trans hd
      | connect => cases hk.symm.trans hf.1
      | keepalive msg =>
        obtain ⟨r', hr', rfl⟩ := Option.map_eq_some_iff.mp h
        have hends : r'.context.keepaliveEvent = true := by
          refine doMqttKeepaliveTask_ends (t := t) (a := ⟨true, .timeout, msg⟩) ?_ ?_ hm ho
            fun _ => .inl rfl
          · simpa only [execute, coroutine, hk, if_true] using hr'
          · obtain ⟨c', t', e⟩ := r'
            cases e <;> first | rfl | cases he
        exact hends
  · by_cases hc : t.scenario = .connect
    · cases hr with
      | @logic a b _ hl hb h =>
        unfold execute at h
        split at h
        · rcases doMqttConnect_opens (t := { t with logic := some b })
            (by simpa only [coroutine, hc] using h) with hsteady | ⟨hcs, -, hopens⟩
          · exact .inl ⟨hsteady, hk⟩
          · exact .inr (.inl ⟨(hb.timely hcs).2 hc, hk, hopens⟩)
        · cases h
      | @timeout timeout _ hA hf h =>
        cases timeout with
        | resume s =>
          rcases hf with ⟨⟨d, hd⟩, -⟩ | ⟨⟨d, hd⟩, -⟩ <;> cases hc.symm.trans hd
        | connect => exact .inl ⟨doMqttConnectTimeout_steady h, hk⟩
        | keepalive msg => cases hc.symm.trans hf.1
    · exact .inl ⟨hr.steady (.inr ⟨hc, hk⟩), hk⟩

/-! ## What each change preserves -/

/-- How many KEEPALIVEs are current or queued. -/
def keepalives (w : World) : Nat :=
  (w.currentQ0Task.toList ++ w.q0Tasks).countP fun t => t.scenario = .keepalive

/-- **The keepalive mechanism is armed**: `keepalive_event` is pending, or one KEEPALIVE is current or
queued. -/
def Armed (w : World) : Prop :=
  w.context.keepaliveEvent = true ∧ w.keepalives = 0 ∨
    w.context.keepaliveEvent = false ∧ w.keepalives = 1

/-- The connection is open with a keepalive interval, and is not being closed. -/
structure Watching (c : Context) : Prop where
  opened : c.connection.connectionState = .opened
  interval : 0 < c.connection.keepaliveTimeout
  operational : c.stopped = false

/-- A task that has nothing to do with the keepalive mechanism. -/
structure Apart (t : Task) : Prop where
  qos : t.qos ≠ .atMostOnce
  connect : t.scenario ≠ .connect
  keepalive : t.scenario ≠ .keepalive

/-- **The mechanism is armed while the connection is watched**, and no task that could run it has been
leaked. -/
structure KeepsWatch (w : World) : Prop where
  armed : Watching w.context → w.Armed
  leaked : ∀ t ∈ w.leaked, Apart t

/-- In a call that finds `k` KEEPALIVEs, there is memory for them. -/
structure Attended (k : Nat) (w : World) : Prop extends w.KeepsWatch where
  few : w.keepalives ≤ k
  memory : w.context.connection.connectionState = .opened → 0 < w.keepalives → w.context.Unlimited

theorem Watching.congr (h : Watching c') (hc : c'.connection = c.connection)
    (hs : c'.stopped = c.stopped) : Watching c :=
  ⟨hc ▸ h.opened, hc ▸ h.interval, hs ▸ h.operational⟩

theorem Watching.of_steady (h : Watching c') (hs : c.Steady c')
    (hst : c.stopped = true → c'.stopped = true) : Watching c where
  opened := hs.connection ▸ h.opened
  interval := hs.connection ▸ h.interval
  operational := Bool.eq_false_iff.mpr fun hc => by cases h.operational.symm.trans (hst hc)

theorem Attended.of_steady (h : w.Attended k) (hk : w'.keepalives = w.keepalives)
    (hleaked : ∀ t ∈ w'.leaked, Apart t) (hs : w.context.Steady w'.context)
    (hst : w.context.stopped = true → w'.context.stopped = true)
    (hm : w'.context.mem <:+ w.context.mem) : w'.Attended k where
  armed hw := by
    have harmed := h.armed (hw.of_steady hs hst)
    unfold Armed at harmed ⊢
    rwa [hs.keepaliveEvent, hk]
  leaked := hleaked
  few := hk ▸ h.few
  memory ho hpos := (h.memory (hs.connection ▸ ho) (hk ▸ hpos)).of_suffix hm

/-- Only the current task and those of its queue matter. -/
theorem keepalives_congr (hc : w'.currentQ0Task = w.currentQ0Task) (hq : w'.q0Tasks = w.q0Tasks) :
    w'.keepalives = w.keepalives := by
  unfold keepalives
  rw [hc, hq]

theorem keepalives_current (hc : w.currentQ0Task = some t) :
    w.keepalives = (if t.scenario = .keepalive then 1 else 0) +
      w.q0Tasks.countP fun t => t.scenario = .keepalive := by
  unfold keepalives
  rw [hc, Option.toList_some, List.singleton_append, List.countP_cons, Nat.add_comm]
  simp

theorem keepalives_none (hc : w.currentQ0Task = none) :
    w.keepalives = w.q0Tasks.countP fun t => t.scenario = .keepalive := by
  unfold keepalives
  rw [hc, Option.toList_none, List.nil_append]

theorem Attended.apart (h : w.Attended k) (hv : w.Valid) (hp : w.At t p) (hne : p ≠ .current) :
    t.scenario ≠ .connect ∧ t.scenario ≠ .keepalive := by
  cases p with
  | current => exact absurd rfl hne
  | q12 =>
    rcases (hv.q12 t hp).scenario with ⟨⟨d, hd⟩ | ⟨d, hd⟩, -⟩ | ⟨hd, -⟩ <;> simp [hd]
  | q12Recv => simp [(hv.q12Recv t hp).scenario]
  | leaked => exact ⟨(h.leaked t hp).connect, (h.leaked t hp).keepalive⟩

theorem ran_keepalives (hp : w.At t p) (hs : r.task.scenario = t.scenario) :
    (w.ran p r).keepalives = w.keepalives := by
  cases p with
  | current =>
    rw [keepalives_current (t := r.task) rfl,
      keepalives_current (show w.currentQ0Task = some t from hp), hs]
    rfl
  | _ => exact keepalives_congr rfl rfl

theorem finished_keepalives {c' : Context} (hp : w.At t p) (hk : t.scenario ≠ .keepalive) :
    (w.finished t p c').keepalives = w.keepalives := by
  cases p with
  | current =>
    rw [keepalives_none rfl, keepalives_current (show w.currentQ0Task = some t from hp), if_neg hk,
      Nat.zero_add]
    rfl
  | _ => exact keepalives_congr rfl rfl

theorem mem_finished_leaked {v : Task} {c' : Context} (hv : v ∈ (w.finished t p c').leaked) :
    v ∈ w.leaked := by
  cases p with
  | leaked => exact (mem_dropTask.mp hv).1
  | _ => exact hv

theorem Attended.keep (h : w.Attended k) (hp : w.At t p)
    (hr : Runs A w.context t p u r) (he : r.exit.final = false) : (w.ran p r).Attended k := by
  have ho := hr.outcome
  have hscenario : r.task.scenario = t.scenario := (ho.scenario he).trans hr.resumes.scenario
  refine h.of_steady (ran_keepalives hp hscenario) (fun v hvm => ?_) ?_ ?_ ?_
  · cases p with
    | leaked =>
      rcases mem_putTask.mp hvm with ⟨rfl, -⟩ | ⟨hm, -⟩
      · have hapart := h.leaked t hp
        refine ⟨?_, hscenario ▸ hapart.connect, hscenario ▸ hapart.keepalive⟩
        rw [ho.task.qos, hr.resumes.qos]
        exact hapart.qos
      · exact h.leaked v hm
    | _ => exact h.leaked v hvm
  · rw [ran_context]
    exact hr.steady (.inl he)
  · rw [ran_context]
    exact hr.stays_stopped
  · rw [ran_context]
    exact ho.context.mem

/-- **The current task ends.** -/
theorem Attended.finish (h : w.Attended k) (hp : w.At t .current)
    (hr : Runs (timely k) w.context t .current u r) (he : r.exit.final = true) :
    (w.finished t .current r.context).Attended k := by
  have ho := hr.outcome
  have hfew := h.few
  rcases hr.ends he with ⟨hsteady, hk⟩ | ⟨rfl, hk, hopens⟩ | ⟨hk, hsets⟩
  · exact h.of_steady (finished_keepalives hp hk) h.leaked ⟨hsteady.1, hsteady.2⟩ hr.stays_stopped
      ho.context.mem
  · have hzero : (w.finished t .current r.context).keepalives = 0 :=
      (finished_keepalives hp hk).trans (Nat.le_zero.mp hfew)
    refine ⟨⟨fun hw => .inl ⟨hopens ?_, hzero⟩, h.leaked⟩, Nat.le_of_eq hzero, fun _ hpos => ?_⟩
    · have hinterval : 0 < r.context.connection.keepaliveTimeout := hw.interval
      rcases ho.context.connection with hc | ⟨-, hc⟩ <;> rw [hc] at hinterval <;> exact hinterval
    · rw [hzero] at hpos
      cases hpos
  · have hcount := keepalives_current (show w.currentQ0Task = some t from hp)
    rw [if_pos hk] at hcount
    have hless : w.keepalives = 1 + (w.finished t .current r.context).keepalives := hcount
    have hconnection : r.context.connection = w.context.connection :=
      ho.context.connection.resolve_right fun hc => by
        rw [hr.resumes.scenario, hk] at hc
        cases hc.1
    have hmemory (hopened : r.context.connection.connectionState = .opened) : w.context.Unlimited :=
      h.memory (hconnection ▸ hopened) (by omega)
    refine ⟨⟨fun hw => ?_, h.leaked⟩, by omega,
      fun hopened _ => (hmemory hopened).of_suffix ho.context.mem⟩
    have hopened : r.context.connection.connectionState = .opened := hw.opened
    have hwatching : Watching w.context := by
      refine ⟨hconnection ▸ hopened, ?_, ?_⟩
      · rw [← hconnection]
        exact hw.interval
      · exact Bool.eq_false_iff.mpr fun hc => by cases hw.operational.symm.trans (hr.stays_stopped hc)
    rcases h.armed hwatching with ⟨-, hzero⟩ | ⟨-, hone⟩
    · omega
    · exact .inl ⟨hsets (hmemory hopened) (hconnection ▸ hopened), by omega⟩

/-- Where the tasks stay, and the context changes in nothing that matters. -/
theorem Attended.of_eq (h : w.Attended k) (hc : w'.currentQ0Task = w.currentQ0Task)
    (hq : w'.q0Tasks = w.q0Tasks) (hl : w'.leaked = w.leaked) (hs : w.context.Steady w'.context)
    (hst : w.context.stopped = true → w'.context.stopped = true)
    (hm : w'.context.mem <:+ w.context.mem) : w'.Attended k :=
  h.of_steady (keepalives_congr hc hq) (hl ▸ h.leaked) hs hst hm

theorem attended_stable (k : Nat) : Change.Stable (timely k) (Attended k) where
  returns _ h := h.of_eq rfl rfl rfl (.refl _) id (List.suffix_refl _)
  writeFreed _ h := h.of_eq rfl rfl rfl ⟨rfl, rfl⟩ id (List.suffix_refl _)
  keep _ h hp hu hr he := by
    refine h.keep hp hr (he.resolve_right fun hl => ?_)
    obtain ⟨rfl, hq⟩ := hl
    exact (h.leaked _ hp).qos hq
  finish {w t u p r} hv h hp hu hr he := by
    by_cases hcurrent : p = .current
    · subst hcurrent
      exact h.finish hp hr he
    · have hapart := h.apart hv hp hcurrent
      have hsteady := hr.steady (.inr hapart)
      exact h.of_steady (finished_keepalives hp hapart.2)
        (fun v hv => h.leaked v (mem_finished_leaked hv)) ⟨hsteady.1, hsteady.2⟩ hr.stays_stopped hr.outcome.context.mem
  free _ h hleak _ := by
    obtain ⟨u, hu, hq⟩ := hleak
    exact absurd hq (h.leaked u hu).qos
  start {w t ts} _ h hc hq _ := by
    refine h.of_steady ?_ h.leaked ⟨rfl, rfl⟩ id (List.suffix_refl _)
    rw [keepalives_current (t := t) rfl, keepalives_none hc, hq, List.countP_cons, Nat.add_comm]
    simp [started, World.record, World.withContext]
  wait {w t ts} _ h hc hq _ := by
    refine h.of_steady ?_ h.leaked (.refl _) id (List.suffix_refl _)
    refine (keepalives_none (w := { w with q0Tasks := ts ++ [t] }) hc).trans ?_
    rw [keepalives_none hc, hq, List.countP_append, List.countP_cons, List.countP_cons,
      List.countP_nil, Nat.zero_add]
  quiet _ h hq hst :=
    h.of_eq hq.currentQ0Task hq.q0Tasks hq.leaked ⟨hq.keepaliveEvent, hq.connection⟩ hst hq.mem
  register _ _ _ h := h.of_eq rfl rfl rfl (.refl _) id (List.suffix_refl _)
  disarm _ _ h := h.of_eq rfl rfl rfl ⟨rfl, rfl⟩ id (List.suffix_refl _)

/-! ## A new task -/

theorem enqueue_keepalives (hq : t.qos = .atMostOnce) :
    (w.made.enqueue (setLogic t)).keepalives =
      w.keepalives + if t.scenario = .keepalive then 1 else 0 := by
  rw [setLogic_scenario_of_qos hq]
  unfold keepalives enqueue made
  rw [List.countP_append, List.countP_append]
  cases t.priority <;> simp [List.countP_cons, Nat.add_assoc]

/-- Another task than a KEEPALIVE is pushed. -/
theorem Pushed.attended (hp : Pushed w.made t w') (hv : w.Valid) (hid : t.id = w.nextTask) (hn : New t)
    (hk : t.scenario ≠ .keepalive) (h : w.Attended k) : w'.Attended k := by
  refine (attended_stable k).toStable.pushed hp hv hid hn (fun _ => ?_) (fun hq _ => ?_) fun _ _ => ?_
  · exact h.of_eq rfl rfl rfl ⟨rfl, rfl⟩ id (List.suffix_refl _)
  · refine h.of_steady ?_ h.leaked (.refl _) id (List.suffix_refl _)
    rw [enqueue_keepalives hq, if_neg hk, Nat.add_zero]
  · exact h.of_eq rfl rfl rfl (.refl _) id (List.suffix_refl _)

/-- **A KEEPALIVE is pushed** after the event has run. -/
theorem Pushed.keepalive_attended (hp : Pushed w.made t w') (hv : w.Valid) (hid : t.id = w.nextTask)
    (hn : New t) (hk : t.scenario = .keepalive) (hleaked : ∀ t ∈ w.leaked, Apart t)
    (hevent : w.context.keepaliveEvent = false)
    (hzero : Watching w.context → w.keepalives = 0)
    (hm : w.context.connection.connectionState = .opened → w.context.Unlimited) :
    w'.Attended (w.keepalives + 1) := by
  refine (attended_stable _).toStable.pushed hp hv hid hn (fun hrefused => ?_) (fun hq _ => ?_)
    fun hq _ => ?_
  · have hst : w.context.stopped = true := by
      refine hrefused.resolve_right fun hs => ?_
      cases hk.symm.trans hs.1
    exact ⟨⟨fun hw => absurd (hst.symm.trans hw.operational) (by decide), hleaked⟩, Nat.le_succ _,
      fun ho _ => hm ho⟩
  · have hcount := enqueue_keepalives (w := w) hq
    rw [if_pos hk] at hcount
    exact ⟨⟨fun hw => .inr ⟨hevent, by rw [hcount, hzero hw]⟩, hleaked⟩, Nat.le_of_eq hcount,
      fun ho _ => hm ho⟩
  · rcases hn.scenario with ⟨-, hq'⟩ | ⟨d, hd⟩ | ⟨⟨d, hd⟩, -⟩
    · exact absurd hq' hq
    · cases hk.symm.trans hd
    · cases hk.symm.trans hd

/-! ## Every call -/

/-- The current task gets this answer, or a notification if there is none. -/
def HearsInTime (w : World) (answer : Option MqttType) : Prop :=
  ∀ t ∈ w.currentQ0Task, t.cs = .answer →
    (t.scenario = .keepalive → answer = some .pingresp) ∧ (t.scenario = .connect → w.keepalives = 0)

/-- **A call in which the keepalive mechanism gets what it waits for.** While the connection is open
there is memory for the KEEPALIVE that the event makes and for those that are current or queued. A
KEEPALIVE that waits for its answer gets a PINGRESP, and nothing else before its timeout; no KEEPALIVE
is queued when a CONNECT gets its answer. And the layer data are not taken over by a continued
session. -/
def KeepsArmed (w : World) (e : Event × Oracle) : Prop :=
  (w.context.connection.connectionState = .opened → e.1 = .keepalive ∨ 0 < w.keepalives →
    ∀ b ∈ e.2.mem, b = true) ∧
  match e.1 with
  | .written msgId _ _ => w.context.stopped = false → msgId = 0 → w.HearsInTime none
  | .pull (some m) .ok => w.context.stopped = false → m.type ≠ .publish → m.getMessageId = 0 →
      w.HearsInTime (some m.type)
  | .init _ => w.context.layerData = true → w.context.connection.sessionType = .clean
  | _ => True

theorem notified_current {msgId : Nat} {type : MqttType}
    (h : w.notified msgId type = some (.current, t)) : msgId = 0 ∧ w.currentQ0Task = some t := by
  unfold notified at h
  split at h
  · next hz =>
    obtain ⟨u, hu, heq⟩ := Option.map_eq_some_iff.mp h
    obtain ⟨-, rfl⟩ := Prod.mk.inj heq
    exact ⟨hz, hu⟩
  · obtain ⟨q, hq, hf⟩ := Option.bind_eq_some_iff.mp h
    obtain ⟨u, -, heq⟩ := Option.map_eq_some_iff.mp hf
    obtain ⟨hplace, -⟩ := Prod.mk.inj heq
    have hqueue : q.1 = .q12 ∨ q.1 = .q12Recv := queueOf_place hq
    rcases hqueue with hp | hp <;> cases hplace.symm.trans hp

theorem answered_current {m : Message} (h : w.answered m = some (.current, t)) :
    m.type ≠ .publish ∧ m.getMessageId = 0 ∧ w.currentQ0Task = some t := by
  unfold answered at h
  split at h
  · cases h
  · next htype =>
    split at h
    · obtain ⟨q, hq, hf⟩ := Option.bind_eq_some_iff.mp h
      obtain ⟨u, -, heq⟩ := Option.map_eq_some_iff.mp hf
      obtain ⟨hplace, -⟩ := Prod.mk.inj heq
      have hqueue : q.1 = .q12 ∨ q.1 = .q12Recv := queueOf_place hq
      rcases hqueue with hp | hp <;> cases hplace.symm.trans hp
    · next hz =>
      obtain ⟨u, hu, heq⟩ := Option.map_eq_some_iff.mp h
      obtain ⟨-, rfl⟩ := Prod.mk.inj heq
      exact ⟨htype, Nat.eq_zero_of_not_pos hz, hu⟩

/-- What comes in time is admitted. -/
theorem KeepsArmed.admits {e : Event} {o : Oracle} (h : w.KeepsArmed (e, o))
    (he : ∀ s, e ≠ .closeExternally s) : w.Admits (timely w.keepalives) e := by
  obtain ⟨-, h⟩ := h
  cases e with
  | written msgId type success =>
    rintro hst p t a hnotified - rfl hcs
    obtain ⟨hz, hc⟩ := notified_current hnotified
    obtain ⟨hping, hconnect⟩ := h hst hz t hc hcs
    exact ⟨fun hk => absurd (hping hk) (by simp), hconnect⟩
  | pull m s =>
    rintro m' rfl
    refine ⟨trivial, ?_⟩
    rintro rfl hst p t a hanswered - rfl hcs
    obtain ⟨htype, hz, hc⟩ := answered_current hanswered
    obtain ⟨hping, hconnect⟩ := h hst htype hz t hc hcs
    exact ⟨fun hk => .inr ⟨rfl, _, rfl, Option.some.inj (hping hk)⟩, hconnect⟩
  | fire id => exact fun _ _ => trivial
  | closeExternally s => exact absurd rfl (he s)
  | _ => trivial

/-- The call begins with an armed mechanism. -/
theorem KeepsWatch.attended {e : Event} {o : Oracle} (h : w.KeepsWatch) (hk : w.KeepsArmed (e, o)) :
    (w.withOracle o).Attended w.keepalives where
  armed hw := h.armed (hw.congr rfl rfl)
  leaked := h.leaked
  few := Nat.le_refl _
  memory ho hpos := hk.1 ho (.inr hpos)

/-- The connection is not open, or it is being closed. -/
theorem KeepsWatch.of_not_watching (hleaked : ∀ t ∈ w.leaked, Apart t) (h : ¬Watching w.context) :
    w.KeepsWatch :=
  ⟨fun hw => absurd hw h, hleaked⟩

theorem not_watching_of_noData (hd : c.layerData = false) : ¬Watching c := by
  intro hw
  have hst := hw.operational
  simp [Context.stopped, hd] at hst

theorem connection_not_watching {e : Event} (he : e.SetsConnection)
    (hw : Watching (w.setConnection (e.connection w.context.connection)).context) :
    e.connection w.context.connection = w.context.connection := by
  have hopened : (e.connection w.context.connection).connectionState = .opened := hw.opened
  cases e with
  | connectTo d =>
    unfold Event.connection at hopened ⊢
    dsimp only at hopened ⊢
    split at hopened
    · cases hopened
    · next hf => rw [if_neg hf]
  | closing => cases hopened
  | closed =>
    unfold Event.connection at hopened
    dsimp only at hopened
    split at hopened <;> cases hopened
  | _ => exact he.elim

theorem mem_init_held (s : IotcState) (ht : t ∈ (w.init s).held) : t ∈ w.held := by
  rcases init_cases w s with ⟨-, -, hinit⟩ | ⟨w₀, hw₀, hinit⟩
  · rw [hinit] at ht
    exact ht
  · have hheld : w₀.held = w.held := by
      rcases hw₀ with ⟨-, rfl⟩ | ⟨-, -, rfl⟩ <;> rfl
    rw [← hheld]
    refine mem_restoreSession_held ?_
    rcases hinit with ⟨mem, hinit⟩ | ⟨-, -, hinit⟩
    · rw [hinit, (Quiet.call (R := nothing) _ (o := .initOnPrev s) trivial rfl).held] at ht
      exact ht
    · rw [hinit] at ht
      simp only [World.held, initErrHandling, World.alloc, World.withContext, List.mem_append,
        List.not_mem_nil, Option.toList_none, false_or] at ht ⊢
      grind

/-- A setup of layer data that are there, for a clean session, leaks nothing. -/
theorem init_leaked (hd : w.context.layerData = true)
    (hclean : w.context.connection.sessionType = .clean) (s : IotcState) : (w.init s).leaked = w.leaked := by
  rcases init_cases w s with ⟨hd', -, -⟩ | ⟨w₀, ⟨-, rfl⟩ | ⟨hd', -, -⟩, hinit⟩
  · cases hd.symm.trans hd'
  · rcases hinit with ⟨mem, hinit⟩ | ⟨hnone, -, -⟩
    · rw [hinit, (Quiet.call (R := nothing) _ (o := .initOnPrev s) trivial rfl).leaked]
      unfold World.initialised
      rw [restoreSession_clean (by rw [hclean]; decide)]
      rfl
    · simp [initialHandlers, hclean, hd] at hnone
  · cases hd.symm.trans hd'

/-- What a setup finds is not open. -/
theorem init_not_watching (w : World) (s : IotcState) : ¬Watching (w.init s).context := by
  rcases init_cases w s with ⟨hd, -, hinit⟩ | ⟨w₀, -, ⟨mem, hinit⟩ | ⟨-, -, hinit⟩⟩
  · rw [hinit]
    exact not_watching_of_noData hd
  · rw [hinit]
    intro hw
    have hquiet : Quiet nothing (w₀.initialised mem) ((w₀.initialised mem).call (·.initOnPrev s)) :=
      .call _ (o := .initOnPrev s) trivial rfl
    have hopened := hw.opened
    rw [hquiet.connection] at hopened
    cases hopened
  · rw [hinit]
    exact not_watching_of_noData rfl

theorem tracked_apart (h : t.Tracked) : Apart t := by
  refine ⟨h.qos, ?_, ?_⟩ <;> rcases h.scenario with ⟨⟨d, hd⟩ | ⟨d, hd⟩, -⟩ | ⟨hd, -⟩ <;> simp [hd]

theorem KeepsWatch.init (h : w.KeepsWatch) (hs : w.Sound) (s : IotcState)
    (hclean : w.context.layerData = true → w.context.connection.sessionType = .clean) :
    (w.init s).KeepsWatch := by
  refine .of_not_watching (fun t ht => ?_) (init_not_watching w s)
  cases hd : w.context.layerData with
  | true =>
    rw [init_leaked hd (hclean hd)] at ht
    exact h.leaked t ht
  | false =>
    rcases hs.held_of_noData hd (mem_init_held s (mem_held_of_leaked ht)) with ht | ht
    · exact tracked_apart (hs.saved t ht).1
    · exact h.leaked t ht

theorem KeepsWatch.closeExternally (h : w.KeepsWatch) (hs : w.Sound) {o : Oracle} {s : IotcState}
    (hk : w.KeepsArmed (.closeExternally s, o)) (hstep : step w (.closeExternally s, o) = some w') :
    w'.KeepsWatch := by
  have h₀ := h.attended hk
  have hstable := attended_stable w.keepalives
  have hs₀ := hs.withOracle o
  rcases closeExternally_cases hstep with ⟨hne, -, rfl⟩ | ⟨-, rfl⟩ |
    ⟨w₁, w₂, w₃, hd, htd, h₁, h₂, h₃, rfl⟩
  · refine (hstable.changes (call_changes _ (o := .connectOnThis s) trivial rfl
      fun _ => afterConnect_notOperational hne) hs₀ h₀).toKeepsWatch
  · exact (hstable.changes (call_changes _ (o := .closeExternallyOnNext s) trivial rfl fun _ => rfl)
      hs₀ h₀).toKeepsWatch
  · obtain ⟨hleaked, -⟩ := teardown_leaked (hs₀.valid_of_saved hd h₁) h₁ h₂ h₃ s
    refine .of_not_watching (fun t ht => h.leaked t (hleaked ▸ ht)) (not_watching_of_noData ?_)
    have hquiet := Quiet.call (R := nothing) w₃ (f := (·.closeExternallyOnNext s))
      (o := .closeExternallyOnNext s) trivial rfl
    rw [hquiet.layerData, freeLayerData_eq_some h₃]

/-- **Every call keeps the mechanism armed** in which it gets what it waits for. -/
theorem KeepsWatch.step (h : w.KeepsWatch) (hs : w.Sound) {e : Event} {o : Oracle}
    (hk : w.KeepsArmed (e, o)) (hstep : World.step w (e, o) = some w') : w'.KeepsWatch := by
  by_cases hclose : ∃ s, e = .closeExternally s
  · obtain ⟨s, rfl⟩ := hclose
    exact h.closeExternally hs hk hstep
  have h₀ := h.attended hk
  cases step_called hs (hk.admits fun s hs => hclose ⟨s, hs⟩) hstep with
  | changes _ hc => exact ((attended_stable _).changes hc (hs.withOracle o) h₀).toKeepsWatch
  | expired o' s hevent hd =>
    refine .of_not_watching h.leaked fun hw => ?_
    rcases hd with hd | hmem
    · exact not_watching_of_noData (c := w.context) hd (hw.congr rfl rfl)
    · have hm : (w.withOracle o).context.Unlimited := hk.1 hw.opened (.inl rfl)
      cases hm.alloc.symm.trans hmem
  | @pushed _ t _ hm hevent hp =>
    have hs₁ := (hs.prepared o e).toValid
    have hid : (w.prepared o e).nextTask = w.nextTask := (prepared_fewer w o e).nextTask
    have hid := hm.id_eq.trans hid.symm
    cases e with
    | keepalive =>
      refine (hp.keepalive_attended hs₁ hid hm.new (congrArg Task.scenario hm) h.leaked rfl
        (fun hw => ?_) fun ho b hb => hk.1 ho (.inl rfl) b (List.mem_of_mem_tail hb)).toKeepsWatch
      rcases h.armed (hw.congr rfl rfl) with ⟨-, hzero⟩ | ⟨hno, -⟩
      · exact hzero
      · cases (hevent rfl).symm.trans hno
    | submit q =>
      refine (hp.attended hs₁ hid hm.new ?_ h₀).toKeepsWatch
      obtain rfl : t = q.task w.nextTask := hm
      cases q <;> exact fun hs => by cases hs
    | connect s =>
      have h₁ : (w.prepared o (.connect s)).Attended w.keepalives :=
        h₀.of_eq rfl rfl rfl ⟨rfl, rfl⟩ id (List.tail_suffix _)
      refine (hp.attended hs₁ hid hm.new ?_ h₁).toKeepsWatch
      rw [hm.2]
      exact fun hs => by cases hs
    | _ => exact hm.elim
  | connection he =>
    refine ⟨fun hw => ?_, h.leaked⟩
    have hsame := connection_not_watching (w := w.withOracle o) he hw
    exact h.armed (hw.congr hsame rfl)
  | init s => exact h₀.toKeepsWatch.init (hs.withOracle o) s hk.2
  | teardown s _ _ _ _ _ => exact absurd ⟨s, rfl⟩ hclose

/-! ## Every run -/

theorem initial_keepsWatch : ({} : World).KeepsWatch :=
  .of_not_watching (fun _ ht => absurd ht List.not_mem_nil) (not_watching_of_noData rfl)

/-- **The keepalive mechanism is armed in every state** in which the connection is open with a
keepalive interval, as long as no call cuts it off. -/
theorem keepalive_armed {es : List (Event × Oracle)} (h : Infra.run step {} es = some w)
    (hk : Infra.AllSteps step KeepsArmed {} es)
    (hopened : w.context.connection.connectionState = .opened)
    (hinterval : 0 < w.context.connection.keepaliveTimeout) (hst : w.context.stopped = false) :
    w.Armed := by
  have hw := Infra.run_invariant_of (P := fun w : World => w.KeepsWatch ∧ w.Sound)
    (fun w e w' hw hk hstep => ⟨hw.1.step hw.2 hk hstep, step_sound hw.2 hstep⟩)
    ⟨initial_keepsWatch, initial_sound⟩ hk h
  exact hw.1.armed ⟨hopened, hinterval, hst⟩

/-- A client with a keepalive interval. -/
def watchful : ConnectionData := { client with keepaliveTimeout := 60 }

/-- The event makes a KEEPALIVE, which gets its PINGRESP. -/
theorem keepalive_armed_answered : ∃ w,
    Infra.run step {} (calls (opening watchful ++
      [.keepalive, .written 0 .pingreq true, .pull (some pingresp) .ok])) = some w ∧
    w.context.connection.connectionState = .opened ∧ w.context.stopped = false ∧ w.Armed := by
  obtain ⟨w, hw, ho, hi, hst⟩ : ∃ w, Infra.run step {} (calls (opening watchful ++
      [.keepalive, .written 0 .pingreq true, .pull (some pingresp) .ok])) = some w ∧
      w.context.connection.connectionState = .opened ∧ 0 < w.context.connection.keepaliveTimeout ∧
      w.context.stopped = false := ⟨_, rfl, rfl, by decide, rfl⟩
  refine ⟨w, hw, ho, hst, keepalive_armed hw ?_ ho hi hst⟩
  have hm (w : World) (e : Event) : w.context.connection.connectionState = .opened →
      e = .keepalive ∨ 0 < w.keepalives → ∀ b ∈ ({} : Oracle).mem, b = true :=
    fun _ _ b hb => absurd hb List.not_mem_nil
  refine .cons ⟨hm _ _, trivial⟩ rfl (.cons ⟨hm _ _, fun h => by cases h⟩ rfl
    (.cons ⟨hm _ _, trivial⟩ rfl (.cons ⟨hm _ _, ?_⟩ rfl (.cons ⟨hm _ _, ?_⟩ rfl
      (.cons ⟨hm _ _, trivial⟩ rfl (.cons ⟨hm _ _, ?_⟩ rfl (.cons ⟨hm _ _, ?_⟩ rfl trivial)))))))
  · -- the CONNECT is written
    rintro - - t ht hcs
    cases ht
    cases hcs
  · rintro - - - t ht -
    cases ht
    exact ⟨fun hs => (by cases hs), fun _ => rfl⟩
  · -- the PINGREQ is written
    rintro - - t ht hcs
    cases ht
    cases hcs
  · rintro - - - t ht -
    cases ht
    exact ⟨fun _ => rfl, fun hs => (by cases hs)⟩

/-- **A PINGRESP that comes before the notification of the write.** The notification ends the
KEEPALIVE, and nothing sets the event again. -/
theorem keepalive_armed_fails : ∃ w,
    Infra.run step {} (calls (opening watchful ++
      [.keepalive, .pull (some pingresp) .ok, .written 0 .pingreq true])) = some w ∧
    w.context.connection.connectionState = .opened ∧
    0 < w.context.connection.keepaliveTimeout ∧ w.context.stopped = false ∧ ¬w.Armed :=
  ⟨_, rfl, rfl, by decide, rfl, by unfold Armed; decide⟩

end World

end IotDeviceSdk.Mqtt.Logic
