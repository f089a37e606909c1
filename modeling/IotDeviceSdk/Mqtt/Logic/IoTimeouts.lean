import IotDeviceSdk.Mqtt.Logic.Teardown

/-!
# The `io_timeouts` (`iotc_io_timeouts.c`)

The network layer restarts, whenever it has read something, the timeouts that are registered with the
context. Only a CONNECT registers one. The entry is the handle in the task, so that an entry that is
left behind is a pointer into memory that has been freed.

In every run whose teardowns find no CONNECT with a pending timeout, the entries are exactly the
handles of the tasks that have one pending (`ioTimeouts_live`).
-/

namespace IotDeviceSdk.Mqtt.Logic

/-- `iotc_io_timeouts_restart`, without the times. A handle without an event is a failing
assertion. -/
def Context.ioTimeoutsRestart (c : Context) : Option Context :=
  if c.ioTimeouts.all c.armed then some c else none

namespace World

variable {w w' : World} {t u : Task} {ts : List Task} {p : Place} {r : CoResult} {c : Context}

/-- Each handle is registered as long as it has the timeout of a CONNECT, and no handle of a task
that has been freed has one. -/
structure Registry (w : World) : Prop where
  registered : ∀ i, w.context.Registered i
  live : ∀ i, w.context.timeouts i = some .connect → w.freed i = 0

/-- Other tasks are freed, which have no timeout. -/
theorem Registry.of_freed (h : w.Registry) (ht : w'.context.timeouts = w.context.timeouts)
    (hi : w'.context.ioTimeouts = w.context.ioTimeouts)
    (hf : ∀ i, w'.freed i = w.freed i ∨ w.context.timeouts i = none) : w'.Registry where
  registered i := by
    have hr := h.registered i
    rwa [Context.Registered, ht, hi]
  live i hconnect := by
    rw [ht] at hconnect
    rcases hf i with he | hn
    · rw [he, h.live i hconnect]
    · rw [hn] at hconnect
      cases hconnect

theorem Registry.of_eq (h : w.Registry) (ht : w'.context.timeouts = w.context.timeouts)
    (hi : w'.context.ioTimeouts = w.context.ioTimeouts)
    (hf : ∀ i, w'.freed i = w.freed i) : w'.Registry :=
  h.of_freed ht hi fun i => .inl (hf i)

theorem registered_of_moves {c c' : Context} (h : ∀ i, c.Registered i) (hm : c.Moves t c')
    (i : Nat) : c'.Registered i := by
  by_cases hi : i = t.id
  · exact hi ▸ hm.registered (h t.id)
  · have hr := h i
    rwa [Context.Registered, hm.timeouts i hi, hm.ioTimeouts i hi]

theorem freed_ran (hm : w.context.Moves t r.context) (i : Nat) : (w.ran p r).freed i = w.freed i := by
  rw [freed, ran_context, count_freeTask_of_moves hm]
  rfl

theorem freed_finished (hm : w.context.Moves t c) {i : Nat} (hi : i ≠ t.id) :
    (w.finished t p c).freed i = w.freed i := by
  change (c.out ++ [Output.freeTask t.id]).count (Output.freeTask i) = _
  rw [List.count_append, count_freeTask_of_moves hm]
  simp [freed, Ne.symm hi]

/-- A task that is held has not been freed. -/
theorem Valid.freed_eq_zero (hv : w.Valid) (hm : t ∈ w.held) : w.freed t.id = 0 := by
  have hcount := hv.count t.id
  have hpos := countId_pos.mpr ⟨t, hm, rfl⟩
  split at hcount <;> omega

theorem Registry.ran (h : w.Registry) (hv : w.Valid) (hp : w.At t p)
    (hm : w.context.Moves t r.context) : (w.ran p r).Registry where
  registered := by
    rw [ran_context]
    exact registered_of_moves h.registered hm
  live i hconnect := by
    rw [freed_ran hm]
    by_cases hi : i = t.id
    · rw [hi, hv.freed_eq_zero hp.mem_held]
    · rw [ran_context, hm.timeouts i hi] at hconnect
      exact h.live i hconnect

theorem Registry.finished (h : w.Registry) (hm : w.context.Moves t c)
    (hn : c.timeouts t.id = none) : (w.finished t p c).Registry where
  registered i := registered_of_moves h.registered hm i
  live i hconnect := by
    change c.timeouts i = some .connect at hconnect
    by_cases hi : i = t.id
    · rw [hi, hn] at hconnect
      cases hconnect
    · rw [freed_finished hm hi]
      rw [hm.timeouts i hi] at hconnect
      exact h.live i hconnect

theorem registry_stable : Stable anything Registry where
  returns _ h := h.of_eq rfl rfl fun _ => rfl
  writeFreed i h := h.of_eq rfl rfl fun i => by
    simp [freed, World.record, World.withContext, Context.record, List.count_append]
  keep {w t u p r} hv hw hp hu hr _ := by
    exact hw.ran hv hp (hu.moves hr.outcome.context)
  finish {w t u p r} hv hw hp hu hr he := by
    have hn := hr.outcome.unarmed (hu.timed (hv.timed t hp.mem_held)) he
    exact hw.finished (hu.moves hr.outcome.context) (hu.id ▸ hn)
  free {w t} hv hw _ hc := hw.finished (.cancelTaskTimeout t _) (by simp)
  start _ hw _ _ _ := hw.of_eq rfl rfl fun i => by
    simp [freed, World.started, World.record, World.withContext, Context.record, List.count_append]
  wait _ hw _ _ _ := hw.of_eq rfl rfl fun _ => rfl

/-! ## The timeout of a CONNECT -/

/-- The timeout has run: its entry is removed as if it had been cancelled. -/
theorem doMqttConnectTimeout_moves (ht : w.context.timeouts t.id = some .connect)
    (h : doMqttConnectTimeout (w.context.disarm t.id) t = some r) :
    w.context.Moves t r.context ∧ r.context.timeouts t.id = none ∧ r.exit.final = true ∧
      t.Continues r.task := by
  have harmed : w.context.armed t.id = true := by simp [Context.armed, ht]
  have hcancel : (w.context.disarm t.id).ioTimeoutsRemove t.id =
      w.context.cancelTaskTimeout t.id := by
    rw [Context.cancelTaskTimeout, if_pos harmed]
    rfl
  unfold doMqttConnectTimeout at h
  dsimp only at h
  split at h
  · cases h
  · obtain rfl := Option.some.inj h
    refine ⟨?_, by simp, rfl, ⟨rfl, rfl, rfl, rfl, rfl, rfl⟩⟩
    dsimp only
    rw [hcancel]
    exact (Context.Moves.cancelTaskTimeout t w.context).trans (.connectOnNext t _ _)

theorem Registry.connectTimeout (hw : w.Registry) (hs : w.Sound)
    (ht : w.context.timeouts t.id = some .connect) (hp : w.At t p)
    (hr : doMqttConnectTimeout (w.context.disarm t.id) t = some r)
    (h : Settled (w.withContext (w.context.disarm t.id)) p r w') : w'.Registry := by
  obtain ⟨hm, hn, hfinal, htask⟩ := doMqttConnectTimeout_moves ht hr
  have ho := doMqttConnectTimeout_outcome hr
  have hv := hs.toValid.disarm t.id
  have hp' : (w.withContext (w.context.disarm t.id)).At t p := by cases p <;> exact hp
  have hran : (w.withContext (w.context.disarm t.id)).ran p r = w.ran p r := by cases p <;> rfl
  have hfinished : (w.finished t p r.context).Registry := hw.finished hm hn
  have hvfinished : (w.finished t p r.context).Valid := by
    have hv' := hv.finished_of_outcome hp' (.refl t) ho
    cases p <;> exact hv'
  induction h with
  | keep s he =>
    rw [hfinal] at he
    cases he
  | drop s he hq hu =>
    have hcurrent : p ≠ .current := by
      rintro rfl
      exact hq (htask.qos.trans (hs.current t hp).qos)
    rw [hran, ran_drop hcurrent htask.id]
    exact registry_stable.returns s hfinished
  | next s he hq hu hd h =>
    refine registry_stable.returns s ?_
    rw [hran] at h
    cases p with
    | current =>
      rw [ran_freeCurrent htask.id hu] at h
      exact registry_stable.starts h hvfinished hfinished
    | q12 => exact absurd (htask.qos.symm.trans hq) (hs.q12 t hp).qos
    | q12Recv =>
      rw [htask.qos, (hs.q12Recv t hp).qos] at hq
      cases hq
    | leaked =>
      have hv₁ : (w.ran .leaked r).Valid :=
        hv.ran_of hp' (.refl t) (fun h => by cases h) ho (absurd rfl) (.of_none hu)
      have hw₁ : (w.ran .leaked r).Registry := hw.ran hs.toValid hp hm
      cases hc : (w.ran .leaked r).currentQ0Task with
      | none =>
        rw [show (w.ran .leaked r).freeCurrent = w.ran .leaked r by simp [World.freeCurrent, hc]] at h
        exact registry_stable.starts h hv₁ hw₁
      | some v =>
        have hv₂ := hv₁.freeCurrent
        rw [freeCurrent_eq hc] at h hv₂
        have hleaked : r.task ∈ (w.ran .leaked r).leaked :=
          mem_putTask.mpr (.inl ⟨rfl, t, hp, htask.id.symm⟩)
        exact registry_stable.starts h hv₂ (registry_stable.free hv₁ hw₁ ⟨_, hleaked, hq⟩ hc)
  | reset s he h ih => exact registry_stable.returns s (registry_stable.writeFreed _ ih)

/-- A timeout of another kind is not registered. -/
theorem Registry.disarm (h : w.Registry) {id : Nat} (hne : w.context.timeouts id ≠ some .connect) :
    (w.withContext (w.context.disarm id)).Registry where
  registered i := by
    have hr := h.registered i
    by_cases hi : i = id
    · subst hi
      simpa [Context.Registered, World.withContext, Context.disarm, hne] using hr
    · simpa [Context.Registered, World.withContext, Context.disarm, hi] using hr
  live i hconnect := by
    by_cases hi : i = id
    · simp [World.withContext, hi] at hconnect
    · exact h.live i (by simpa [World.withContext, hi] using hconnect)

theorem Change.registry (h : Change anything w w') (hs : w.Sound) (hw : w.Registry) : w'.Registry := by
  cases h with
  | quiet h _ => exact hw.of_eq h.timeouts h.ioTimeouts h.freed
  | register m hm hd => exact hw.of_eq rfl rfl fun _ => rfl
  | resumed hp hl hb hr h => exact registry_stable.resumed hs.toValid hw hp hl hb hr h
  | fired hA ht hp hr h =>
    rename_i timeout t p r
    by_cases hconnect : timeout = .connect
    · subst hconnect
      exact hw.connectTimeout hs ht hp hr h
    · have hdisarm : (w.withContext (w.context.disarm t.id)).Registry :=
        hw.disarm (by simp [ht, hconnect])
      refine registry_stable.settled h (hs.toValid.disarm t.id) hdisarm (t := t) ?_ (.refl t) ?_
        (.timeout hA (hs.timed t hp.mem_held _ ht) hr)
      · cases p <;> exact hp
      · rintro rfl
        exact hs.toValid.logic_of_armed hp ht

/-! ## Every call -/

theorem Pushed.registry (h : Pushed w.made t w') (hw : w.Registry) (hs : w.Sound)
    (hid : t.id = w.nextTask) (hn : New t) : w'.Registry := by
  refine registry_stable.pushed h hs.toValid hid hn (fun _ => ?_)
    (fun _ _ => hw.of_eq rfl rfl fun _ => rfl)
    fun _ _ => hw.of_eq rfl rfl fun _ => rfl
  refine hw.of_freed rfl rfl fun i => ?_
  have hfreed := freed_freeTasks w.made [t] i
  rw [countId_cons, countId_nil, Nat.zero_add] at hfreed
  by_cases hi : t.id = i
  · exact .inr (hi ▸ hs.toValid.unarmed hid)
  · rw [if_neg hi, Nat.add_zero] at hfreed
    exact .inl hfreed

theorem restoreSession_registry (hw : w.Registry) (hs : w.Sound) : w.restoreSession.Registry := by
  unfold restoreSession
  split
  · exact hw.of_eq rfl rfl fun _ => rfl
  · refine hw.of_freed rfl rfl fun i => ?_
    have hfreed := freed_freeTasks w w.savedQ12Tasks i
    by_cases hi : countId i w.savedQ12Tasks = 0
    · rw [hi, Nat.add_zero] at hfreed
      exact .inl hfreed
    · obtain ⟨t, hm, rfl⟩ := countId_pos.mp (Nat.pos_of_ne_zero hi)
      exact .inr (hs.saved t hm).2

theorem Registry.init (hw : w.Registry) (hs : w.Sound) (s : IotcState) : (w.init s).Registry := by
  rcases init_cases w s with ⟨-, -, hinit⟩ | ⟨w₀, hw₀, hinit⟩
  · rw [hinit]
    exact hw.of_eq rfl rfl fun _ => rfl
  · obtain ⟨hs₀, hr₀⟩ : w₀.Sound ∧ w₀.Registry := by
      rcases hw₀ with ⟨-, rfl⟩ | ⟨-, -, rfl⟩
      · exact ⟨hs, hw⟩
      · exact ⟨hs.alloc, hw.of_eq rfl rfl fun _ => rfl⟩
    have hrestore := restoreSession_registry hr₀ hs₀
    rcases hinit with ⟨mem, hinit⟩ | ⟨-, -, hinit⟩
    · rw [hinit]
      have hquiet := Quiet.call (R := nothing) (w₀.initialised mem) (f := (·.initOnPrev s)) (o := .initOnPrev s)
        trivial rfl
      exact hrestore.of_eq hquiet.timeouts hquiet.ioTimeouts hquiet.freed
    · rw [hinit]
      exact hrestore.of_eq rfl rfl fun _ => rfl

theorem cancelTimeouts_registered : ∀ {ts : List Task} {c : Context}, (∀ i, c.Registered i) →
    ∀ i, (cancelTimeouts ts c).Registered i
  | [], _, h => h
  | t :: _, c, h =>
    cancelTimeouts_registered (c := c.cancelTaskTimeout t.id)
      (registered_of_moves h (.cancelTaskTimeout t c))

/-- A teardown that finds no CONNECT with a pending timeout, and starts none. -/
def KeepsRegistry (w : World) : Event × Oracle → Prop
  | (.closeExternally s, _) =>
    w.TearsDown s →
      (∀ t, w.currentQ0Task = some t → w.context.timeouts t.id ≠ some .connect) ∧
        w.SilentTasks (· = .connect)
  | _ => True

/-- The queues are cancelled and saved. -/
theorem Registry.savedFor (hw : w.Registry) (h : w.saved = some w') : w'.Registry := by
  obtain ⟨hc, -, -, -⟩ := saved_calm h
  refine ⟨?_, fun i hconnect => ?_⟩
  · rw [hc]
    exact cancelTimeouts_registered hw.registered
  · rw [hc, cancelTimeouts_timeouts] at hconnect
    rw [freed, hc, (cancelTimeouts_frame _ _).2.2]
    split at hconnect
    · exact hw.live i hconnect
    · cases hconnect

/-- The current task is stopped while it has no timeout. -/
theorem Registry.stopCurrent (hw : w.Registry) (hv : w.Valid)
    (hcurrent : ∀ t, w.currentQ0Task = some t → w.context.timeouts t.id ≠ some .connect)
    (h : w.stopCurrent = some w') (i : Nat) : w'.context.Registered i := by
  rcases stopCurrent_cases h with ⟨-, rfl⟩ | ⟨t, w₁, hc, h₁, rfl⟩
  · exact hw.registered i
  · have hw₁ := hw.disarm (hcurrent t hc)
    rcases resume_cases (hv.disarm t.id).q0 h₁ with ⟨-, rfl⟩ | ⟨a, r, hl, hr, hsettled⟩
    · exact hw₁.registered i
    · have hw₂ := registry_stable.resumed (hv.disarm t.id) hw₁ (p := .current) hc hl (.stopped a trivial)
        hr hsettled
      exact hw₂.registered i

/-- A whole teardown. -/
theorem Registry.teardown (hw : w.Registry) (hs : w.Sound) {s : IotcState} {o : Oracle}
    {w₁ w₂ w₃ : World} (hd : w.context.layerData = true) (htd : w.TearsDown s)
    (hk : w.KeepsRegistry (.closeExternally s, o)) (h₁ : w.saved = some w₁)
    (h₂ : w₁.stopCurrent = some w₂) (h₃ : w₂.freeLayerData = some w₃)
    (h : w.closeExternally s = some (w₃.call (·.closeExternallyOnNext s))) :
    (w₃.call (·.closeExternallyOnNext s)).Registry where
  registered i := by
    obtain ⟨hc₁, hcurrent₁, -, -⟩ := saved_calm h₁
    have hcurrent (t : Task) (ht : w₁.currentQ0Task = some t) :
        w₁.context.timeouts t.id ≠ some .connect := by
      rw [hc₁, cancelTimeouts_timeouts]
      split
      · exact (hk htd).1 t (hcurrent₁ ▸ ht)
      · exact fun h => by cases h
    have hr₂ := (hw.savedFor h₁).stopCurrent (hs.valid_of_saved hd h₁) hcurrent h₂ i
    have hquiet := Quiet.call (R := nothing) w₃ (f := (·.closeExternallyOnNext s))
      (o := .closeExternallyOnNext s) trivial rfl
    obtain rfl := freeLayerData_eq_some h₃
    rwa [Context.Registered, hquiet.timeouts, hquiet.ioTimeouts]
  live i hconnect := by
    obtain ⟨hunset, hfreed⟩ := hs.closeExternally_unset (fun htd => (hk htd).2) h i
    have hle : ¬w.freed i < (w₃.call (·.closeExternallyOnNext s)).freed i :=
      fun hlt => hfreed hlt _ hconnect rfl
    have hzero : w.freed i = 0 := by
      by_contra hne
      refine hunset (fun timeout htimeout he => ?_) _ hconnect rfl
      exact hne (hw.live i (he ▸ htimeout))
    omega

theorem step_registry (hw : w.Registry) (hs : w.Sound) {e : Event × Oracle} (hk : w.KeepsRegistry e)
    (hstep : step w e = some w') : w'.Registry := by
  obtain ⟨e, o⟩ := e
  have h₀ : (w.withOracle o).Registry := hw.of_eq rfl rfl fun _ => rfl
  cases step_anything hs hstep with
  | changes he h => exact (h.invariant (hs.withOracle o) h₀ fun _ _ hs hw h => h.registry hs hw).1
  | expired o' s _ hd => exact hw.of_eq rfl rfl fun _ => rfl
  | pushed hm _ hp =>
    obtain ⟨mem, callbacks, k, heq⟩ := prepared_eq w o e
    have h₁ : (w.prepared o e).Registry := by
      rw [heq]
      exact hw.of_eq rfl rfl fun _ => rfl
    have hid : (w.prepared o e).nextTask = w.nextTask := by rw [heq]; rfl
    exact hp.registry h₁ (hs.prepared o e) (hm.id_eq.trans hid.symm) hm.new
  | connection he => exact hw.of_eq rfl rfl fun _ => rfl
  | init s => exact h₀.init (hs.withOracle o) s
  | teardown s hd htd h₁ h₂ h₃ =>
    refine h₀.teardown (hs.withOracle o) (o := o) hd htd (fun htd => ⟨(hk htd).1, fun t ht => ?_⟩)
      h₁ h₂ h₃ hstep
    exact ((hk htd).2 t ht).of_calm (.of_eq rfl rfl rfl rfl)

/-- The entries are the handles of the tasks that have the timeout of a CONNECT pending, and can be
restarted. -/
structure LiveTimeouts (w : World) : Prop where
  entry : ∀ i, w.context.ioTimeouts.count i = if w.context.timeouts i = some .connect then 1 else 0
  live : ∀ i ∈ w.context.ioTimeouts, ∃ t ∈ w.held, t.id = i ∧ t.scenario = .connect ∧ w.freed i = 0
  restart : w.context.ioTimeoutsRestart = some w.context

theorem Registry.liveTimeouts (hw : w.Registry) (hv : w.Valid) : w.LiveTimeouts := by
  have hpending (i : Nat) (hi : i ∈ w.context.ioTimeouts) :
      w.context.timeouts i = some .connect := by
    by_contra hne
    have hr := hw.registered i
    rw [Context.Registered, if_neg hne] at hr
    exact List.count_eq_zero.mp hr hi
  refine ⟨hw.registered, fun i hi => ?_, ?_⟩
  · have hconnect := hpending i hi
    have hzero := hw.live i hconnect
    have hcount := hv.count i
    have hlt : i < w.nextTask := by
      by_contra hge
      rw [hv.fresh i (Nat.le_of_not_lt hge)] at hconnect
      cases hconnect
    rw [if_pos hlt, hzero] at hcount
    obtain ⟨t, ht, rfl⟩ := countId_pos.mp (show 0 < countId i w.held by omega)
    exact ⟨t, ht, rfl, (hv.timed t ht .connect hconnect).1, hzero⟩
  · have hall : w.context.ioTimeouts.all w.context.armed = true := by
      rw [List.all_eq_true]
      intro i hi
      rw [Context.armed, hpending i hi]
      rfl
    rw [Context.ioTimeoutsRestart, if_pos hall]

/-- **In every run whose teardowns find no CONNECT with a pending timeout, the entries are live.** -/
theorem ioTimeouts_live {es : List (Event × Oracle)} (h : Infra.run step {} es = some w)
    (hk : Infra.AllSteps step KeepsRegistry {} es) : w.LiveTimeouts := by
  have hinitial : ({} : World).Registry := ⟨fun _ => rfl, fun _ h => by cases h⟩
  have hinv := Infra.run_invariant_of (C := KeepsRegistry) (P := fun w => w.Sound ∧ w.Registry)
    (fun _ _ _ hs hk h => ⟨step_sound hs.1 h, step_registry hs.2 hs.1 hk h⟩)
    ⟨initial_sound, hinitial⟩ hk h
  exact hinv.2.liveTimeouts hinv.1.toValid

/-- A client that does not wait for long. -/
def impatient : ConnectionData := { client with connectionTimeout := 30 }

/-- The connection is open; the timeout of its CONNECT has been cancelled. -/
def patience (out : List Output) : World :=
  { context := { layerState := .connected, layerData := true, out
                 timeouts := Function.update
                   (Function.update (fun _ => none) 0 (some .connect)) 0 none
                 connection := { impatient with connectionState := .opened } }
    nextTask := 1, nextMessage := 1 }

/-- A connection is opened and closed. -/
theorem ioTimeouts_opened : ∃ w, Infra.run step {} (calls (opening impatient) ++
    calls [.closeExternally .connectionResetByPeerError]) = some w ∧ w.LiveTimeouts := by
  obtain ⟨out, h₁⟩ : ∃ out, Infra.run step {} (calls (opening impatient)) = some (patience out) :=
    ⟨_, rfl⟩
  obtain ⟨w, h₂⟩ : ∃ w, step (patience out) (.closeExternally .connectionResetByPeerError, {}) =
    some w := ⟨_, rfl⟩
  have hrun : Infra.run step {} (calls (opening impatient) ++
      calls [.closeExternally .connectionResetByPeerError]) = some w := by
    rw [Infra.run_append, h₁]
    simp [calls, h₂]
  refine ⟨w, hrun, ioTimeouts_live hrun (.append (.of_forall fun w e he => ?_) h₁
    (.cons (fun _ => ⟨fun t ht => ?_, fun t ht => ?_⟩) h₂ trivial))⟩
  · simp only [calls, opening, List.map_cons, List.map_nil, List.mem_cons, List.not_mem_nil,
      or_false] at he
    rcases he with rfl | rfl | rfl | rfl | rfl <;> trivial
  · cases ht
  · cases ht

/-- **It is lost before the CONNACK.** The layer above is told and closes it. -/
theorem ioTimeouts_fails : ∃ w, Infra.run step {} (calls [.connectTo impatient, .init .ok,
      .connect .ok, .written 0 .connect true, .closeExternally .connectionResetByPeerError,
      .connect .connectionResetByPeerError, .close .connectionResetByPeerError,
      .closeExternally .connectionResetByPeerError]) = some w ∧
    w.context.ioTimeouts = [0] ∧ w.freed 0 = 1 ∧ w.context.ioTimeoutsRestart = none ∧
      ¬w.LiveTimeouts := by
  refine ⟨_, rfl, rfl, rfl, rfl, fun h => ?_⟩
  have hrestart := h.restart
  cases hrestart

end World

end IotDeviceSdk.Mqtt.Logic
