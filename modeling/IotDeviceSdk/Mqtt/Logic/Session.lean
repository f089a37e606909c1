import IotDeviceSdk.Mqtt.Logic.Teardown

/-!
# The session (`iotc_mqtt_logic_layer_init`, `…_close_externally`)

A teardown with a continued session saves the tasks that have been written, the handlers of the
topics and the counter of the ids in the context data, and the next `init` takes them over.
`Session.observe` says so without the copies: a session is handed on by a teardown, and taken over
or dropped by an `init`.

`init` with a clean session drops the copies, but not that of the counter. In every run without that,
and without an `init` that runs out of memory after it has taken the copies, the copies are the
session that has been handed on (`session_carried`).
-/

namespace IotDeviceSdk.Mqtt.Logic

/-- What one connection hands on to the next. -/
structure Session where
  tasks : List Task := []
  handlers : List TopicHandler := []
  lastMsgId : Nat := 0
  deriving DecidableEq

namespace World

variable {w w' : World} {t u : Task} {ts : List Task} {p : Place} {r : CoResult} {g : Session}

/-- The copies in the context data. -/
def stored (w : World) : Session :=
  { tasks := w.savedQ12Tasks, handlers := w.savedHandlers.getD [], lastMsgId := w.savedLastMsgId }

/-- What the connection hands on: its tasks that the predicate selects, in their order. Their
`logic` has no context until they are sent again. -/
def handedOn (w : World) : Session :=
  { tasks := (w.q12Tasks.filter fun t => t.sessionState = .store).map fun t =>
      { t with logic := t.logic.map fun a => { a with context := false } }
    handlers := w.context.handlersForTopics
    lastMsgId := w.lastMsgId }

/-- **The session beside a run**: a teardown hands on a continued session, and no other; `init` takes
it over, or drops it for a clean one. -/
def observeSession (w : World) (e : Event × Oracle) (w' : World) (g : Session) : Session :=
  match e.1 with
  | .closeExternally _ =>
    if w.context.layerData && !w'.context.layerData then
      if w.context.connection.sessionType = .continued then w.handedOn else {}
    else g
  | .init _ =>
    if w.context.connection.sessionType = .continued then if w'.context.layerData then {} else g
    else if e.2.mem.headD true then {} else g
  | _ => g

/-! ## What does not touch the session -/

/-- The copies are the same, and so is the counter while there are no layer data. -/
structure Untouched (w w' : World) : Prop where
  layerData : w'.context.layerData = w.context.layerData
  savedQ12Tasks : w'.savedQ12Tasks = w.savedQ12Tasks
  savedHandlers : w'.savedHandlers = w.savedHandlers
  savedLastMsgId : w'.savedLastMsgId = w.savedLastMsgId
  lastMsgId : w.context.layerData = false → w'.lastMsgId = w.lastMsgId

theorem Untouched.trans {w₁ w₂ w₃ : World} (h : Untouched w₁ w₂) (h' : Untouched w₂ w₃) :
    Untouched w₁ w₃ where
  layerData := h'.layerData.trans h.layerData
  savedQ12Tasks := h'.savedQ12Tasks.trans h.savedQ12Tasks
  savedHandlers := h'.savedHandlers.trans h.savedHandlers
  savedLastMsgId := h'.savedLastMsgId.trans h.savedLastMsgId
  lastMsgId hd := (h'.lastMsgId (h.layerData.trans hd)).trans (h.lastMsgId hd)

theorem Untouched.stored (h : Untouched w w') : w'.stored = w.stored := by
  simp only [World.stored, h.savedQ12Tasks, h.savedHandlers, h.savedLastMsgId]

theorem Frame.untouched (h : Frame w w') : Untouched w w' :=
  ⟨h.layerData, h.savedQ12Tasks, h.savedHandlers, h.savedLastMsgId, fun _ => h.lastMsgId⟩

theorem Quiet.untouched {R : Received → Prop} (h : Quiet R w w') : Untouched w w' :=
  ⟨h.layerData, h.savedQ12Tasks, h.savedHandlers, h.savedLastMsgId, fun _ => h.lastMsgId⟩

theorem untouched_withOracle (w : World) (o : Oracle) : Untouched w (w.withOracle o) :=
  ⟨rfl, rfl, rfl, rfl, fun _ => rfl⟩

theorem Change.untouched {A : Admission} (h : Change A w w') : Untouched w w' := by
  cases h with
  | quiet h _ => exact h.untouched
  | register m hm hd => exact ⟨rfl, rfl, rfl, rfl, fun _ => rfl⟩
  | resumed hp hl hb hr h => exact (h.frame (execute_outcome hr)).untouched
  | fired hA ht hp hr h =>
    have hf := h.frame (TaskTimeout.run_outcome hr)
    exact ⟨hf.layerData, hf.savedQ12Tasks, hf.savedHandlers, hf.savedLastMsgId, fun _ => hf.lastMsgId⟩

theorem Changes.untouched {A : Admission} (h : Changes A w w') : Untouched w w' := by
  induction h with
  | refl => exact (Frame.refl w).untouched
  | tail _ h ih => exact ih.trans h.untouched

/-- A new task counts the ids up only if there are layer data. -/
theorem Pushed.untouched (h : Pushed w t w') : Untouched w w' := by
  cases h with
  | refused s _ => exact ⟨rfl, rfl, rfl, rfl, fun _ => rfl⟩
  | queued s hst hq hc => exact ⟨rfl, rfl, rfl, rfl, fun _ => rfl⟩
  | started s hst hq hc hstarts =>
    have hf := hstarts.frame
    exact ⟨hf.layerData, hf.savedQ12Tasks, hf.savedHandlers, hf.savedLastMsgId, fun _ => hf.lastMsgId⟩
  | deferred s hst hq ho =>
    refine ⟨rfl, rfl, rfl, rfl, fun hd => ?_⟩
    rw [layerData_of_not_stopped hst] at hd
    cases hd
  | unset s hst hq ho hl =>
    refine ⟨rfl, rfl, rfl, rfl, fun hd => ?_⟩
    rw [layerData_of_not_stopped hst] at hd
    cases hd
  | run s hst hq ho hl hr hsettled =>
    have hf := hsettled.frame (w := w.track (setLogic t)) (execute_outcome hr)
    refine ⟨hf.layerData, hf.savedQ12Tasks, hf.savedHandlers, hf.savedLastMsgId, fun hd => ?_⟩
    rw [layerData_of_not_stopped hst] at hd
    cases hd

theorem stopCurrent_untouched (hv : w.Valid) (h : w.stopCurrent = some w') :
    Untouched w w' ∧ w'.leaked = w.leaked ∧ w'.nextTask = w.nextTask := by
  rcases stopCurrent_cases h with ⟨-, rfl⟩ | ⟨t, w₁, hc, h₁, rfl⟩
  · exact ⟨(Frame.refl w').untouched, rfl, rfl⟩
  · rcases resume_cases (hv.disarm t.id).q0 h₁ with ⟨-, rfl⟩ | ⟨a, r, hl, hr, hsettled⟩
    · exact ⟨⟨rfl, rfl, rfl, rfl, fun _ => rfl⟩, rfl, rfl⟩
    · have hf := hsettled.frame (execute_outcome hr)
      exact ⟨⟨hf.layerData, hf.savedQ12Tasks, hf.savedHandlers, hf.savedLastMsgId,
        fun _ => hf.lastMsgId⟩, hsettled.others.2.2, hf.nextTask⟩

/-! ## Taking the session over -/

theorem restoreSession_continued (h : w.context.connection.sessionType = .continued) :
    w.restoreSession =
      { w with
        q12Tasks := w.savedQ12Tasks, leaked := w.leaked ++ w.q12Tasks
        lastMsgId := w.savedLastMsgId
        savedHandlers := none, savedQ12Tasks := [], savedLastMsgId := 0 } := by
  unfold restoreSession
  rw [h]

theorem restoreSession_clean (h : w.context.connection.sessionType ≠ .continued) :
    w.restoreSession =
      { w.freeTasks w.savedQ12Tasks with savedHandlers := none, savedQ12Tasks := [] } := by
  unfold restoreSession
  cases htype : w.context.connection.sessionType with
  | continued => exact absurd htype h
  | clean => rfl

/-- The copies and the session agree; while there are layer data, there are no copies. -/
structure SessionOk (w : World) (g : Session) : Prop where
  stored : w.stored = g
  data : w.context.layerData = true → w.savedHandlers = none ∧ g = {}
  noData : w.context.layerData = false → w.lastMsgId = 0

theorem Untouched.sessionOk (h : Untouched w w') (hw : w.SessionOk g) : w'.SessionOk g where
  stored := h.stored.trans hw.stored
  data hd := by
    rw [h.layerData] at hd
    exact ⟨h.savedHandlers.trans (hw.data hd).1, (hw.data hd).2⟩
  noData hd := by
    rw [h.layerData] at hd
    exact (h.lastMsgId hd).trans (hw.noData hd)

/-- **An `init` keeps the session**: it finds no layer data; it does not run out of memory between
taking a session over and having a vector; and it finds no counter that it would leave behind. -/
def KeepsSession (w : World) : Event × Oracle → Prop
  | (.init _, o) =>
    w.context.layerData = false ∧ (o.mem.headD true = true →
      if w.context.connection.sessionType = .continued then
        w.savedHandlers = none → w.stored ≠ {} → o.mem.tail.headD true = true
      else w.savedLastMsgId = 0)
  | _ => True

/-- `init` has no memory for the layer data; or it sets them up anew; or it has no memory for the
vector after it has taken the session. -/
theorem init_fresh_cases (hd : w.context.layerData = false) (o : Oracle) (s : IotcState) :
    let w₀ := (w.withOracle o).alloc.2
    o.mem.headD true = false ∧ (w.withOracle o).init s = w₀.returns .outOfMemory ∨
      o.mem.headD true = true ∧
        ((∃ mem, (w.withOracle o).init s = (w₀.initialised mem).call (·.initOnPrev s)) ∨
          w₀.initialHandlers = none ∧ w₀.restoreSession.context.mem.headD true = false ∧
            (w.withOracle o).init s = w₀.restoreSession.alloc.2.initErrHandling) := by
  rcases init_cases (w.withOracle o) s with ⟨-, hmem, hinit⟩ | ⟨w₀, ⟨hdata, -⟩ | ⟨-, hmem, rfl⟩, hinit⟩
  · exact .inl ⟨hmem, hinit⟩
  · exact absurd (hd.symm.trans hdata) (by decide)
  · exact .inr ⟨hmem, hinit⟩

/-- What `init` leaves without layer data: the copies, or nothing. -/
theorem init_refused (hw : w.SessionOk g) {o : Oracle} {s : IotcState}
    (hk : w.KeepsSession (.init s, o)) (hd : ((w.withOracle o).init s).context.layerData = false) :
    ((w.withOracle o).init s).stored =
      w.observeSession (.init s, o) ((w.withOracle o).init s) g ∧
      ((w.withOracle o).init s).lastMsgId = 0 := by
  obtain ⟨hd₀, hk⟩ := hk
  simp only [observeSession, hd, Bool.false_eq_true, if_false]
  rcases init_fresh_cases hd₀ o s with ⟨hmem, hinit⟩ | ⟨hmem, ⟨mem, hinit⟩ | ⟨hh, hvector, hinit⟩⟩
  · rw [hinit]
    refine ⟨hw.stored.trans ?_, hw.noData hd₀⟩
    split
    · rfl
    · rw [if_neg (by rw [hmem]; decide)]
  · rw [hinit, (Quiet.call (R := nothing) _ (o := .initOnPrev s) trivial rfl).layerData] at hd
    cases hd
  · rw [hinit]
    refine ⟨?_, rfl⟩
    change (w.withOracle o).alloc.2.restoreSession.stored = _
    specialize hk hmem
    by_cases htype : w.context.connection.sessionType = .continued
    · rw [if_pos htype] at hk ⊢
      rw [restoreSession_continued (w := (w.withOracle o).alloc.2) htype] at hvector ⊢
      have hh : w.savedHandlers = none := by
        have htype' : (w.withOracle o).alloc.2.context.connection.sessionType = .continued := htype
        rwa [initialHandlers, htype'] at hh
      have hnone : w.stored = {} := by
        by_contra hne
        exact absurd ((hk hh hne).symm.trans hvector) (by decide)
      exact hnone.symm.trans hw.stored
    · rw [if_neg htype] at hk ⊢
      rw [restoreSession_clean (w := (w.withOracle o).alloc.2) htype, if_pos hmem]
      exact congrArg (fun n => ({ lastMsgId := n } : Session)) hk

/-- What `init` leaves with layer data: the session of before, and no copies. -/
theorem init_taken (hs : w.Sound) (hw : w.SessionOk g) {o : Oracle} {s : IotcState}
    (hk : w.KeepsSession (.init s, o)) (hd : ((w.withOracle o).init s).context.layerData = true) :
    let w' := (w.withOracle o).init s
    o.mem.headD true = true ∧ w'.savedHandlers = none ∧ w'.stored = {} ∧
      w'.context.timeouts = w.context.timeouts ∧
      if w.context.connection.sessionType = .continued then
        w'.q12Tasks = g.tasks ∧ w'.context.handlersForTopics = g.handlers ∧
          w'.lastMsgId = g.lastMsgId
      else
        w'.q12Tasks = [] ∧ w'.context.handlersForTopics = [] ∧ w'.lastMsgId = 0 ∧
          w'.nextTask = w.nextTask ∧ ∀ u ∈ w'.held, u ∈ w.leaked := by
  obtain ⟨hd₀, hk⟩ := hk
  rcases init_fresh_cases hd₀ o s with ⟨hmem, hinit⟩ | ⟨hmem, ⟨mem, hinit⟩ | ⟨hh, hvector, hinit⟩⟩
  · rw [hinit] at hd
    exact absurd (hd₀.symm.trans hd) (by decide)
  · specialize hk hmem
    set w₀ := (w.withOracle o).alloc.2 with hw₀
    have hquiet := Quiet.call (R := nothing) (w₀.initialised mem) (f := (·.initOnPrev s)) (o := .initOnPrev s)
      trivial rfl
    dsimp only
    rw [hinit, hquiet.untouched.stored, hquiet.savedHandlers, hquiet.timeouts, hquiet.q12Tasks,
      hquiet.handlersForTopics, hquiet.lastMsgId, hquiet.nextTask, hquiet.held]
    refine ⟨hmem, ?_⟩
    by_cases htype : w.context.connection.sessionType = .continued
    · have htype' : w₀.context.connection.sessionType = .continued := htype
      simp only [initialised, restoreSession_continued htype', initialHandlers, htype', if_pos htype,
        ← hw.stored]
      exact ⟨rfl, rfl, rfl, rfl, rfl, rfl⟩
    · have htype' : w₀.context.connection.sessionType ≠ .continued := htype
      rw [if_neg htype] at hk ⊢
      have hh : w₀.initialHandlers = none := by
        unfold initialHandlers
        split
        · next h => exact absurd h htype'
        · exact if_neg (by rw [show w₀.context.layerData = false from hd₀]; decide)
      simp only [initialised, restoreSession_clean htype', hh]
      obtain ⟨hc, hq0, hq12, hrecv⟩ := hs.noData hd₀
      refine ⟨rfl, congrArg (fun n => ({ lastMsgId := n } : Session)) hk, rfl, hq12, rfl,
        hw.noData hd₀, rfl, fun u hu => ?_⟩
      change u ∈ w.currentQ0Task.toList ++ (w.q0Tasks ++ (w.q12Tasks ++ (w.q12RecvTasks ++
        ([] ++ w.leaked)))) at hu
      simpa [hc, hq0, hq12, hrecv] using hu
  · rw [hinit] at hd
    cases hd

/-! ## Handing the session on -/

theorem cancelTimeouts_handlersForTopics (ts : List Task) (c : Context) :
    (cancelTimeouts ts c).handlersForTopics = c.handlersForTopics := by
  induction ts generalizing c with
  | nil => rfl
  | cons t ts ih =>
    refine (ih (c.cancelTaskTimeout t.id)).trans ?_
    unfold Context.cancelTaskTimeout
    split <;> rfl

/-- What is saved is what the connection hands on. -/
theorem saved_stored (hw : w.SessionOk g) (hd : w.context.layerData = true) (h : w.saved = some w') :
    w'.stored = (if w.context.connection.sessionType = .continued then w.handedOn else {}) ∧
      w'.leaked = w.leaked ∧ w'.nextTask = w.nextTask := by
  obtain ⟨hnone, rfl⟩ := hw.data hd
  unfold saved at h
  by_cases htype : w.context.connection.sessionType = .continued
  · simp only [htype, if_true] at h ⊢
    unfold saveSession at h
    split at h
    · cases h
    · obtain rfl := Option.some.inj h
      refine ⟨?_, rfl, rfl⟩
      simp only [World.stored, handedOn, World.withContext, cancelTimeouts_handlersForTopics, hnone]
      split
      · rfl
      · next he => simp only [ne_eq, not_not] at he; rw [he]; rfl
  · simp only [htype, if_false] at h ⊢
    obtain rfl := Option.some.inj h
    exact ⟨hw.stored, rfl, rfl⟩

/-- A teardown as a whole. -/
theorem teardown_stored (hs : w.Sound) (hw : w.SessionOk g) {o : Oracle} {s : IotcState}
    {w₁ w₂ w₃ : World} (hd : w.context.layerData = true) (h₁ : (w.withOracle o).saved = some w₁)
    (h₂ : w₁.stopCurrent = some w₂) (h₃ : w₂.freeLayerData = some w₃) :
    let w' := w₃.call (·.closeExternallyOnNext s)
    w'.stored = (if w.context.connection.sessionType = .continued then w.handedOn else {}) ∧
      w'.context.layerData = false ∧ w'.lastMsgId = 0 ∧ w'.leaked = w.leaked ∧
      w'.nextTask = w.nextTask := by
  have hw₀ : (w.withOracle o).SessionOk g := (untouched_withOracle w o).sessionOk hw
  obtain ⟨hstored₁, hleaked₁, hnext₁⟩ := saved_stored hw₀ hd h₁
  have hv₁ : w₁.Valid := (hs.withOracle o).valid_of_saved hd h₁
  obtain ⟨hstop, hleaked₂, hnext₂⟩ := stopCurrent_untouched hv₁ h₂
  have hquiet := Quiet.call (R := nothing) w₃ (f := (·.closeExternallyOnNext s)) (o := .closeExternallyOnNext s)
    trivial rfl
  dsimp only
  rw [hquiet.untouched.stored, hquiet.layerData, hquiet.lastMsgId, hquiet.leaked, hquiet.nextTask]
  unfold freeLayerData at h₃
  split at h₃
  · cases h₃
  · obtain rfl := Option.some.inj h₃
    exact ⟨hstop.stored.trans hstored₁, rfl, rfl, hleaked₂.trans hleaked₁, hnext₂.trans hnext₁⟩

/-- What nobody holds any more has been freed. -/
theorem Sound.freed_eq_one (hs : w.Sound) {i : Nat} (hi : i < w.nextTask)
    (hheld : ∀ u ∈ w.held, u.id ≠ i) : w.freed i = 1 := by
  have hcount := hs.count i
  rw [countId_eq_zero.mpr hheld, if_pos hi, Nat.zero_add] at hcount
  exact hcount

/-- Without layer data there are the copies, and the tasks that have been leaked. -/
theorem Sound.held_of_noData (hs : w.Sound) (hd : w.context.layerData = false) (hu : u ∈ w.held) :
    u ∈ w.savedQ12Tasks ∨ u ∈ w.leaked := by
  obtain ⟨hc, hq0, hq12, hrecv⟩ := hs.noData hd
  simpa [held, hc, hq0, hq12, hrecv] using hu

/-- A task that can be found has not been leaked. -/
theorem Valid.ne_of_leaked (hv : w.Valid) (ht : t ∈ w.live) (hu : u ∈ w.leaked) : u.id ≠ t.id :=
  (hv.ne_of_rest (p := .leaked) hu ht).symm

/-! ## Every call -/

theorem step_sessionOk (hw : w.SessionOk g) (hs : w.Sound) {e : Event × Oracle}
    (hk : w.KeepsSession e) (hstep : step w e = some w') :
    w'.SessionOk (w.observeSession e w' g) := by
  obtain ⟨e, o⟩ := e
  cases step_anything hs hstep with
  | changes he hc =>
    have h := (untouched_withOracle w o).trans hc.untouched
    have hd := h.layerData
    have hg : w.observeSession (e, o) w' g = g := by
      cases e with
      | init s => exact absurd rfl (he s)
      | closeExternally s =>
        simp only [observeSession, hd]
        cases w.context.layerData <;> rfl
      | _ => rfl
    rw [hg]
    exact h.sessionOk hw
  | expired o' s hk hd => exact ⟨hw.stored, hw.data, hw.noData⟩
  | @pushed _ t _ hm hk h =>
    obtain ⟨mem, callbacks, k, heq⟩ := prepared_eq w o e
    have hw₀ : (w.prepared o e).made.SessionOk g := by
      rw [heq]
      exact ⟨hw.stored, hw.data, hw.noData⟩
    have hg : w.observeSession (e, o) w' g = g := by
      cases e with
      | init s => exact hm.elim
      | closeExternally s => exact hm.elim
      | _ => rfl
    rw [hg]
    exact h.untouched.sessionOk hw₀
  | connection he =>
    have hg (w' : World) : w.observeSession (e, o) w' g = g := by
      cases e with
      | init s => exact he.elim
      | closeExternally s => exact he.elim
      | _ => rfl
    rw [hg]
    exact ⟨hw.stored, hw.data, hw.noData⟩
  | init s =>
    cases hd : ((w.withOracle o).init s).context.layerData with
    | true =>
      obtain ⟨hmem, hnone, hstored, -, -⟩ := init_taken hs hw hk hd
      have hg : w.observeSession (.init s, o) ((w.withOracle o).init s) g = {} := by
        simp only [observeSession, hd, hmem, if_true, ite_self]
      rw [hg]
      exact ⟨hstored, fun _ => ⟨hnone, rfl⟩, fun h => absurd (hd.symm.trans h) (by decide)⟩
    | false =>
      obtain ⟨hstored, hlast⟩ := init_refused hw hk hd
      exact ⟨hstored, fun h => absurd (hd.symm.trans h) (by decide), fun _ => hlast⟩
  | teardown s hd htd h₁ h₂ h₃ =>
    obtain ⟨hstored, hd', hlast, -, -⟩ := teardown_stored (s := s) hs hw hd h₁ h₂ h₃
    refine ⟨?_, fun h => absurd (hd'.symm.trans h) (by decide), fun _ => hlast⟩
    simpa only [observeSession, hd, hd', Bool.not_false, Bool.and_self, if_true] using hstored

/-- **The session that is handed on**: the copies are the session. A continued `init` has exactly its
tasks, in their order and with no timeout pending, its handlers and its counter; a clean one has
nothing of it, and has freed its tasks. A teardown frees once each task that it does not hand on. -/
structure CarriesSession (w : World) (g : Session) : Prop where
  stored : w.stored = g
  saves : w.context.layerData = true → w.saveSession.isSome = true
  continued : w.context.connection.sessionType = .continued → ∀ s o w',
    w.KeepsSession (.init s, o) → step w (.init s, o) = some w' → w'.context.layerData = true →
      w'.q12Tasks = g.tasks ∧ w'.context.handlersForTopics = g.handlers ∧
        w'.lastMsgId = g.lastMsgId ∧ ∀ t ∈ w'.q12Tasks, w'.context.timeouts t.id = none
  clean : w.context.connection.sessionType ≠ .continued → ∀ s o w',
    w.KeepsSession (.init s, o) → step w (.init s, o) = some w' → w'.context.layerData = true →
      w'.q12Tasks = [] ∧ w'.context.handlersForTopics = [] ∧ w'.lastMsgId = 0 ∧ w'.stored = {} ∧
        ∀ t ∈ g.tasks, w'.freed t.id = 1
  teardown : ∀ s o w', step w (.closeExternally s, o) = some w' → w.context.layerData = true →
    w'.context.layerData = false →
      ∀ t ∈ w.currentQ0Task.toList ++ (w.q0Tasks ++ (w.q12Tasks ++ w.q12RecvTasks)),
        ¬(w.context.connection.sessionType = .continued ∧ t ∈ w.q12Tasks ∧
          t.sessionState = .store) → w'.freed t.id = 1

theorem SessionOk.carries (hw : w.SessionOk g) (hs : w.Sound) : w.CarriesSession g := by
  refine ⟨hw.stored, fun hd => ?_, fun htype s o w' hk hstep hd' => ?_,
    fun htype s o w' hk hstep hd' => ?_, fun s o w' hstep hd hd' t ht hkept => ?_⟩
  · simp [saveSession, (hw.data hd).1]
  · obtain rfl : (w.withOracle o).init s = w' := Option.some.inj hstep
    obtain ⟨-, -, -, htimeouts, htaken⟩ := init_taken hs hw hk hd'
    rw [if_pos htype] at htaken
    obtain ⟨hq12, hhandlers, hlast⟩ := htaken
    refine ⟨hq12, hhandlers, hlast, fun t ht => ?_⟩
    rw [hq12, ← hw.stored] at ht
    exact (congrFun htimeouts t.id).trans (hs.saved t ht).2
  · obtain rfl : (w.withOracle o).init s = w' := Option.some.inj hstep
    obtain ⟨-, -, hstored, -, htaken⟩ := init_taken hs hw hk hd'
    rw [if_neg htype] at htaken
    obtain ⟨hq12, hhandlers, hlast, hnext, hheld⟩ := htaken
    refine ⟨hq12, hhandlers, hlast, hstored, fun t ht => ?_⟩
    rw [← hw.stored] at ht
    have hlive : t ∈ w.live := by
      unfold live
      simp only [List.mem_append]
      exact .inr (.inr (.inr (.inr ht)))
    exact (step_sound hs hstep).freed_eq_one
      (hnext ▸ hs.toValid.id_lt (mem_held_of_live hlive))
      fun u hu => hs.toValid.ne_of_leaked hlive (hheld u hu)
  · cases step_anything hs hstep with
    | changes he h =>
      rw [h.untouched.layerData, show (w.withOracle o).context.layerData = true from hd] at hd'
      cases hd'
    | pushed hm _ _ => exact hm.elim
    | connection he => exact he.elim
    | teardown s _ htd h₁ h₂ h₃ =>
      obtain ⟨hstored, -, -, hleaked, hnext⟩ := teardown_stored (s := s) hs hw hd h₁ h₂ h₃
      have hs' := step_sound hs hstep
      have hheld : t ∈ w.held := by
        unfold held
        simp only [List.mem_append] at ht ⊢
        tauto
      refine hs'.freed_eq_one (hnext ▸ hs.toValid.id_lt hheld) fun u hu => ?_
      rcases hs'.held_of_noData hd' hu with hu | hu
      · -- it is one of the tasks that are handed on
        intro he
        have hu := (congrArg (fun g => u ∈ g.tasks) hstored).mp hu
        split at hu
        · next htype =>
          obtain ⟨v, hv, rfl⟩ := List.mem_map.mp hu
          obtain ⟨hv, hstore⟩ := List.mem_filter.mp hv
          have hvheld : v ∈ w.held := (At.mem_held (p := .q12) hv)
          obtain rfl := hs.toValid.eq_of_held hheld hvheld he
          exact hkept ⟨htype, hv, by simpa using hstore⟩
        · cases hu
      · rw [hleaked] at hu
        refine hs.toValid.ne_of_leaked ?_ hu
        unfold live
        simp only [List.mem_append] at ht ⊢
        tauto

/-- A run with the session beside it. -/
abbrev sessionStep := Infra.observed step observeSession

/-- **In every run whose `init`s keep the session, the copies are the session that has been handed
on**, however many connections there have been. -/
theorem session_carried {es : List (Event × Oracle)}
    (h : Infra.run sessionStep ({}, {}) es = some (w, g))
    (hk : Infra.AllSteps sessionStep (fun s e => s.1.KeepsSession e) ({}, {}) es) :
    w.CarriesSession g := by
  have hinv := Infra.run_invariant_of (P := fun s => s.1.SessionOk s.2 ∧ s.1.Sound)
    (fun s e s' hs hk hstep => by
      obtain ⟨hstep, hg⟩ := Infra.observed_eq_some hstep
      exact ⟨hg ▸ step_sessionOk hs.1 hs.2 hk hstep, step_sound hs.2 hstep⟩)
    ⟨⟨rfl, (by decide), fun _ => rfl⟩, initial_sound⟩ hk h
  exact hinv.1.carries hinv.2

/-- A client that continues its session. -/
def continuing : ConnectionData := { client with sessionType := .continued }

/-- The connection is lost, and a PUBLISH waits for the next one. -/
def lost (out : List Output) : World :=
  { context := { layerState := .closed, out
                 connection := { continuing with connectionState := .opened } }
    savedQ12Tasks :=
      [{ id := 1, logic := some ⟨false, .written, none⟩, qos := .atLeastOnce, cs := .answer
         scenario := .publish (some ⟨some [0x61], [], false⟩), sessionState := .store, msgId := 1 }]
    savedLastMsgId := 1, nextTask := 2, nextMessage := 1 }

/-- A PUBLISH is submitted and written, and the connection is lost. -/
def losing : List (Event × Oracle) :=
  calls (opening continuing ++
    [publishing, .written 1 .publish true, .closeExternally .connectionResetByPeerError])

theorem run_losing : ∃ out,
    Infra.run sessionStep ({}, {}) losing = some (lost out, (lost out).stored) := ⟨_, rfl⟩

/-- The PUBLISH is handed on. -/
theorem session_carried_publish : ∃ w g, Infra.run sessionStep ({}, {}) losing = some (w, g) ∧
    g.tasks.length = 1 ∧ g.lastMsgId = 1 ∧ w.CarriesSession g := by
  obtain ⟨out, h⟩ := run_losing
  refine ⟨_, _, h, rfl, rfl, session_carried h ?_⟩
  refine .cons trivial rfl (.cons ⟨rfl, fun _ _ _ => rfl⟩ rfl (.of_forall fun w e he => ?_))
  obtain ⟨e₁, he₁, rfl⟩ := List.mem_map.mp he
  rcases List.mem_append.mp he₁ with he₁ | he₁ <;> simp only [List.mem_cons] at he₁ <;>
    rcases he₁ with rfl | rfl | rfl | he₁ <;> trivial

/-- **A clean session is between two continued ones.** The second has the counter of the first. -/
theorem session_fails : ∃ w w' g,
    Infra.run sessionStep ({}, {}) (calls [.connectTo continuing, .init .ok, publishing,
      .closeExternally .ok, .closed, .connectTo client, .init .ok, .closeExternally .ok, .closed,
      .connectTo continuing]) = some (w, g) ∧
    step w (.init .ok, {}) = some w' ∧ g.lastMsgId = 0 ∧ w'.lastMsgId = 1 ∧ ¬w.CarriesSession g := by
  refine ⟨_, _, _, rfl, rfl, rfl, rfl, fun h => ?_⟩
  have := congrArg Session.lastMsgId h.stored
  cases this

end World

end IotDeviceSdk.Mqtt.Logic
