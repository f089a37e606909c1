import IotDeviceSdk.Mqtt.Logic.Subscribed

/-!
# What a setup and a teardown do with the handlers of topics

A teardown saves the handlers for a continued session and frees them otherwise; `init` takes over
those that are saved, or frees them for a clean session. `step_subscriptions` says of every call what
it does with the handlers and with what the users are told.
-/

namespace IotDeviceSdk.Mqtt.Logic

namespace World

variable {w w' w₁ : World} {t u : Task} {ts : List Task} {p : Place} {r : CoResult} {m : Message}

/-! ## Setup and teardown -/

/-- All handlers of topics: those that wait for the next session, and those of the layer data. -/
def handlers (w : World) : List TopicHandler :=
  w.savedHandlers.getD [] ++ w.context.handlersForTopics

/-- The handlers whose data a call frees: a teardown those that it does not save, and `init` those
that a clean session does not take over. -/
def freedHandlers (w : World) (e : Event × Oracle) (w' : World) : List TopicHandler :=
  match e.1 with
  | .closeExternally _ =>
    if (w.context.layerData && !w'.context.layerData) = true ∧
        w.context.connection.sessionType ≠ .continued then w.context.handlersForTopics
    else []
  | .init _ =>
    if w.context.connection.sessionType ≠ .continued ∧
        (w.context.layerData = true ∨ e.2.mem.headD true = true) then w.savedHandlers.getD []
    else []
  | _ => []

/-- The handlers are in one place, and no subscription has been leaked. -/
structure Separate (w : World) : Prop where
  data : w.context.layerData = true → w.savedHandlers = none
  noData : w.context.layerData = false → w.context.handlersForTopics = []
  leaked : ∀ t ∈ w.leaked, ¬t.subscribes = true

/-- What a setup or a teardown does: it moves handlers or frees them. -/
structure Rearranges (w w' : World) (freed : List TopicHandler) : Prop where
  separate : w'.Separate
  handlers : freed ++ w'.handlers = w.handlers
  told : w'.context.out.filter Output.ofSubscription = w.context.out.filter Output.ofSubscription

theorem stopCurrent_subscriptions (hv : w.Valid) (h : w.stopCurrent = some w') :
    w'.context.subscriptions = w.context.subscriptions := by
  rcases stopCurrent_cases h with ⟨-, rfl⟩ | ⟨t, w₁, hc, h₁, rfl⟩
  · rfl
  · have hv' := hv.disarm t.id
    refine (freeTasks_subscriptions _ _).trans ?_
    refine (resume_same hv' (p := .current) hc (by decide) (fun hsub => ?_)
      (fun _ _ _ h => IotcState.noConfusion h) h₁).trans rfl
    exact absurd (hv.subscribes_at (p := .current) hc hsub (by decide)) (by decide)

theorem cancelTimeouts_subscriptions (ts : List Task) (c : Context) :
    (cancelTimeouts ts c).subscriptions = c.subscriptions :=
  Context.subscriptions_eq (cancelTimeouts_handlersForTopics ts c) (cancelTimeouts_frame ts c).2.2

/-- The handlers are saved for a continued session, and stay where they are otherwise. -/
theorem saved_handlers (hn : w.savedHandlers = none) (h : w.saved = some w') :
    w'.context.subscriptions = w.context.subscriptions ∧ w'.leaked = w.leaked ∧
      w'.savedHandlers.getD [] =
        if w.context.connection.sessionType = .continued then w.context.handlersForTopics else [] := by
  have hcancel := cancelTimeouts_subscriptions (w.q12Tasks ++ w.q12RecvTasks) w.context
  rcases saved_cases h with ⟨htype, h⟩ | ⟨htype, rfl⟩
  · unfold saveSession at h
    split at h
    · cases h
    · obtain rfl := Option.some.inj h
      refine ⟨hcancel, rfl, ?_⟩
      rw [if_pos htype]
      change (if (cancelTimeouts _ w.context).handlersForTopics ≠ [] then
        some (cancelTimeouts _ w.context).handlersForTopics else w.savedHandlers).getD [] = _
      rw [cancelTimeouts_handlersForTopics, hn]
      split
      · rfl
      · next he => exact (not_not.mp he).symm
  · refine ⟨hcancel, rfl, ?_⟩
    rw [if_neg htype]
    exact congrArg (Option.getD · []) hn

/-- Nothing has been done to the handlers. -/
theorem Rearranges.of_same (hsep : w.Separate)
    (hsub : w'.context.subscriptions = w.context.subscriptions)
    (hsaved : w'.savedHandlers = w.savedHandlers)
    (hdata : w'.context.layerData = w.context.layerData)
    (hleaked : ∀ t ∈ w'.leaked, ¬t.subscribes = true) : w.Rearranges w' [] := by
  obtain ⟨hlive, htold⟩ := Prod.mk.inj hsub
  exact
    { separate :=
        { data := fun h => hsaved.trans (hsep.data (hdata ▸ h))
          noData := fun h => hlive.trans (hsep.noData (hdata ▸ h))
          leaked := hleaked }
      handlers := by simp only [List.nil_append, World.handlers, hsaved, hlive]
      told := htold }

/-- A call on another layer. -/
theorem Rearranges.call (hsep : w.Separate) (o : Oracle) {f : Context → IotcState × Context}
    {c : Output} {next : LayerState} (hc : c.ofSubscription = false)
    (hf : f (w.withOracle o).context = (w.withOracle o).context.continueWith c next) :
    w.Rearranges ((w.withOracle o).call f) [] ∧
      ((w.withOracle o).call f).context.layerData = w.context.layerData := by
  have hdata : ((w.withOracle o).call f).context.layerData = w.context.layerData := by
    change (f (w.withOracle o).context).2.layerData = _
    rw [hf]
    exact continueWith_layerData _ _ _
  refine ⟨.of_same hsep ?_ rfl hdata hsep.leaked, hdata⟩
  change (f (w.withOracle o).context).2.subscriptions = _
  rw [hf]
  exact Context.continueWith_subscriptions _ hc _

theorem teardown_rearranges (hs : w.Sound) (hsep : w.Separate) {o : Oracle} {s : IotcState}
    (h : World.step w (.closeExternally s, o) = some w') :
    w.Rearranges w' (w.freedHandlers (.closeExternally s, o) w') := by
  have hs₀ := hs.withOracle o
  change (w.withOracle o).closeExternally s = some w' at h
  have hnone (hsame : w'.context.layerData = w.context.layerData) :
      w.freedHandlers (.closeExternally s, o) w' = [] := by
    simp [World.freedHandlers, hsame]
  rcases closeExternally_cases h with ⟨-, -, rfl⟩ | ⟨-, rfl⟩ | ⟨w₁, w₂, w₃, hd, -, h₁, h₂, h₃, rfl⟩
  · obtain ⟨hsame, hdata⟩ := Rearranges.call hsep o (f := (·.connectOnThis s))
      (c := .connectOnThis s) rfl rfl
    rwa [hnone hdata]
  · obtain ⟨hsame, hdata⟩ := Rearranges.call hsep o (f := (·.closeExternallyOnNext s))
      (c := .closeExternallyOnNext s) rfl rfl
    rwa [hnone hdata]
  · have hn : w.savedHandlers = none := hsep.data hd
    obtain ⟨hsub₁, hleaked₁, hsaved₁⟩ := saved_handlers (w := w.withOracle o) hn h₁
    have hv₁ : w₁.Valid := hs₀.valid_of_saved hd h₁
    have hsub₂ := stopCurrent_subscriptions hv₁ h₂
    obtain ⟨hstop, hleaked₂, -⟩ := stopCurrent_untouched hv₁ h₂
    obtain ⟨-, htold⟩ := Prod.mk.inj (hsub₂.trans hsub₁)
    have h₃ := freeLayerData_eq_some h₃
    have hsub := Context.continueWith_subscriptions w₃.context (o := .closeExternallyOnNext s) rfl .closed
    have hdata : (w₃.call (·.closeExternallyOnNext s)).context.layerData = false :=
      (continueWith_layerData w₃.context _ _).trans (by rw [h₃])
    have hlive : (w₃.call (·.closeExternallyOnNext s)).context.handlersForTopics = [] :=
      (congrArg Prod.fst hsub).trans (by rw [h₃]; rfl)
    have hsaved : (w₃.call (·.closeExternallyOnNext s)).savedHandlers = w₁.savedHandlers := by
      have hw₃ : w₃.savedHandlers = w₂.savedHandlers := by rw [h₃]; rfl
      exact hw₃.trans hstop.savedHandlers
    have hleaked : (w₃.call (·.closeExternallyOnNext s)).leaked = w.leaked := by
      have hw₃ : w₃.leaked = w₂.leaked := by rw [h₃]; rfl
      exact hw₃.trans (hleaked₂.trans hleaked₁)
    have hout : w₃.context.subscriptions.2 = w₂.context.subscriptions.2 := by
      have hfree := congrArg Prod.snd
        (freeTasks_subscriptions w₂ (w₂.q12Tasks ++ w₂.q12RecvTasks ++ w₂.q0Tasks))
      rw [h₃]
      exact hfree
    refine ⟨⟨fun h => ?_, fun _ => hlive, hleaked ▸ hsep.leaked⟩, ?_, ?_⟩
    · rw [hdata] at h
      cases h
    · have htype : (w.withOracle o).context.connection = w.context.connection := rfl
      rw [handlers, handlers, hsaved, hlive, hsaved₁, hn, htype]
      simp only [World.freedHandlers, hdata, show w.context.layerData = true from hd]
      by_cases hc : w.context.connection.sessionType = .continued
      · simp [hc]
        rfl
      · simp [hc]
    · exact (congrArg Prod.snd hsub).trans (hout.trans htold)

theorem restoreSession_subscriptions (w : World) :
    w.restoreSession.context.subscriptions = w.context.subscriptions := by
  by_cases htype : w.context.connection.sessionType = .continued
  · rw [restoreSession_continued htype]
  · rw [restoreSession_clean htype]
    exact freeTasks_subscriptions w _

theorem restoreSession_mem (w : World) : w.restoreSession.context.mem = w.context.mem := by
  unfold restoreSession
  split <;> rfl

theorem restoreSession_savedHandlers (w : World) : w.restoreSession.savedHandlers = none := by
  by_cases htype : w.context.connection.sessionType = .continued
  · rw [restoreSession_continued htype]
  · rw [restoreSession_clean htype]

theorem restoreSession_leaked (hsep : w.Separate)
    (hq12 : w.context.connection.sessionType = .continued → ∀ t ∈ w.q12Tasks, ¬t.subscribes = true) :
    ∀ t ∈ w.restoreSession.leaked, ¬t.subscribes = true := by
  by_cases htype : w.context.connection.sessionType = .continued
  · rw [restoreSession_continued htype]
    intro t ht
    rcases List.mem_append.mp ht with ht | ht
    · exact hsep.leaked t ht
    · exact hq12 htype t ht
  · rw [restoreSession_clean htype]
    exact hsep.leaked

/-- The handlers that `init` finds, and those that it frees. -/
theorem initialHandlers_eq (hsep : w.Separate)
    (hlive : w.context.connection.sessionType = .continued → w.context.handlersForTopics = []) :
    (if w.context.connection.sessionType ≠ .continued then w.savedHandlers.getD [] else []) ++
      w.initialHandlers.getD [] = w.handlers := by
  unfold initialHandlers World.handlers
  cases htype : w.context.connection.sessionType with
  | continued => simp [hlive htype]
  | clean =>
    cases hd : w.context.layerData with
    | true => simp
    | false => simp [hsep.noData hd]

theorem initErrHandling_leaked (hs : w.Sound)
    (hleaked : ∀ t ∈ w.restoreSession.leaked, ¬t.subscribes = true)
    (hq12 : ∀ t ∈ w.restoreSession.q12Tasks, ¬t.subscribes = true) :
    ∀ t ∈ w.restoreSession.initErrHandling.leaked, ¬t.subscribes = true := by
  have hne {p : Place} {t : Task} (hp : w.At t p) (hl : p ≠ .leaked) (h : p ≠ .q12) :
      ¬t.subscribes = true := fun hsub => h (hs.toValid.subscribes_at hp hsub hl)
  intro t ht
  simp only [initErrHandling, List.mem_append, Option.mem_toList, restoreSession_currentQ0Task,
    restoreSession_q0Tasks, restoreSession_q12RecvTasks] at ht
  rcases ht with ht | ht | ht | ht | ht
  · exact hleaked t ht
  · exact hne (p := .current) ht (by decide) (by decide)
  · intro hsub
    obtain ⟨d, hd⟩ := Task.subscribes_iff.mp hsub
    rcases (hs.q0 t ht).scenario with h | ⟨_, h⟩ | h | h <;>
      exact Scenario.noConfusion (h.symm.trans hd)
  · exact hq12 t ht
  · exact hne (p := .q12Recv) ht (by decide) (by decide)

/-- What `init` does once it has layer data. -/
theorem initialised_rearranges (hsep : w.Separate)
    (hlive : w.context.connection.sessionType = .continued →
      w.context.handlersForTopics = [] ∧ ∀ t ∈ w.q12Tasks, ¬t.subscribes = true)
    (mem : List Bool) (s : IotcState) :
    w.Rearranges ((w.initialised mem).call (·.initOnPrev s))
      (if w.context.connection.sessionType ≠ .continued then w.savedHandlers.getD [] else []) := by
  have hsub := Context.continueWith_subscriptions (w.initialised mem).context (o := .initOnPrev s) rfl
    .connecting
  have hdata : ((w.initialised mem).call (·.initOnPrev s)).context.layerData = true :=
    continueWith_layerData _ _ _
  obtain ⟨hhandlers, htold⟩ := Prod.mk.inj hsub
  have hsaved := restoreSession_savedHandlers w
  refine ⟨⟨fun _ => hsaved, fun h => ?_, restoreSession_leaked hsep fun h => (hlive h).2⟩, ?_, ?_⟩
  · rw [hdata] at h
    cases h
  · refine Eq.trans ?_ (initialHandlers_eq hsep fun h => (hlive h).1)
    congr 1
    change w.restoreSession.savedHandlers.getD [] ++ _ = _
    rw [hsaved]
    exact hhandlers
  · exact htold.trans (congrArg Prod.snd (restoreSession_subscriptions w))

/-- What `init` does when it has no memory for a vector. -/
theorem initErrHandling_rearranges (hs : w.Sound) (hsep : w.Separate) (hn : w.initialHandlers = none)
    (hlive : w.context.connection.sessionType = .continued → w.context.handlersForTopics = [] ∧
      (∀ t ∈ w.q12Tasks, ¬t.subscribes = true) ∧ ∀ t ∈ w.savedQ12Tasks, ¬t.subscribes = true) :
    w.Rearranges w.restoreSession.alloc.2.initErrHandling
      (if w.context.connection.sessionType ≠ .continued then w.savedHandlers.getD [] else []) := by
  have hleaked := restoreSession_leaked hsep fun h => (hlive h).2.1
  refine ⟨⟨fun h => ?_, fun _ => rfl, initErrHandling_leaked hs hleaked fun t ht => ?_⟩, ?_, ?_⟩
  · cases h
  · by_cases htype : w.context.connection.sessionType = .continued
    · rw [restoreSession_continued htype] at ht
      exact (hlive htype).2.2 t ht
    · -- there are no layer data, and no tasks
      have hd : w.context.layerData = false := by
        unfold initialHandlers at hn
        split at hn
        · next h => exact absurd h htype
        · split at hn
          · cases hn
          · next h => exact Bool.not_eq_true _ ▸ h
      rw [restoreSession_clean htype] at ht
      change t ∈ w.q12Tasks at ht
      rw [(hs.noData hd).2.2.1] at ht
      cases ht
  · refine Eq.trans ?_ (initialHandlers_eq hsep fun h => (hlive h).1)
    rw [hn]
    congr 1
    change w.restoreSession.savedHandlers.getD [] ++ [] = _
    rw [restoreSession_savedHandlers]
    rfl
  · exact congrArg Prod.snd (restoreSession_subscriptions w)

/-- What `init` finds in the layer data, or what it finds saved. -/
theorem init_rearranges (hs : w.Sound) (hsep : w.Separate) {o : Oracle} {s : IotcState}
    (hk : (w.withOracle o).KeepsSubscriptions) :
    w.Rearranges ((w.withOracle o).init s)
      (w.freedHandlers (.init s, o) ((w.withOracle o).init s)) := by
  rcases init_cases (w.withOracle o) s with ⟨hd, hmem, hw⟩ | ⟨w₀, hw₀, hcases⟩
  · have hd : w.context.layerData = false := hd
    have hmem : o.mem.headD true = false := hmem
    have hnone : w.freedHandlers (.init s, o) ((w.withOracle o).init s) = [] := by
      simp only [World.freedHandlers, hd, hmem]
      simp
    rw [hnone, hw]
    exact .of_same hsep rfl rfl rfl hsep.leaked
  · have hgot : w.context.layerData = true ∨ o.mem.headD true = true := by
      rcases hw₀ with ⟨hd, -⟩ | ⟨-, hmem, -⟩
      · exact .inl hd
      · exact .inr hmem
    obtain ⟨o₀, rfl, hmemory⟩ : ∃ o₀, w₀ = w.withOracle o₀ ∧
        ((w.withOracle o).context.HasMemory (if w.context.layerData then 1 else 2) →
          o₀.mem.headD true = true) := by
      rcases hw₀ with ⟨hd, rfl⟩ | ⟨hd, -, rfl⟩
      · refine ⟨o, rfl, fun h => ?_⟩
        rw [if_pos (show w.context.layerData = true from hd)] at h
        exact (hasMemory_succ.mp h).1
      · refine ⟨{ o with mem := o.mem.tail }, rfl, fun h => ?_⟩
        rw [if_neg (Bool.eq_false_iff.mp (show w.context.layerData = false from hd))] at h
        exact (hasMemory_succ.mp (hasMemory_succ.mp h).2).1
    have hs₀ := hs.withOracle o₀
    have hsep₀ : (w.withOracle o₀).Separate := ⟨hsep.data, hsep.noData, hsep.leaked⟩
    have hfreed : w.freedHandlers (.init s, o) ((w.withOracle o).init s) =
        if w.context.connection.sessionType ≠ .continued then w.savedHandlers.getD [] else [] := by
      simp only [World.freedHandlers, hgot, and_true]
    rw [hfreed]
    rcases hcases with ⟨mem, hw⟩ | ⟨hn, hvector, hw⟩
    · rw [hw]
      have hr := initialised_rearranges hsep₀ (fun htype => ?_) mem s
      · exact ⟨hr.separate, hr.handlers, hr.told⟩
      · obtain ⟨hlive, hq12, -⟩ := hk htype hgot
        exact ⟨hlive, hq12⟩
    · rw [hw]
      have hr := initErrHandling_rearranges hs₀ hsep₀ hn (fun htype => ?_)
      · exact ⟨hr.separate, hr.handlers, hr.told⟩
      · obtain ⟨hlive, hq12, hsaved | hmem | hno⟩ := hk htype hgot
        · rw [initialHandlers, show (w.withOracle o₀).context.connection.sessionType = .continued
            from htype] at hn
          rw [show (w.withOracle o).savedHandlers = none from hn] at hsaved
          cases hsaved
        · have hvector : o₀.mem.headD true = false := by
            rwa [Context.alloc, restoreSession_mem] at hvector
          exact absurd (hvector.symm.trans (hmemory hmem)) (by decide)
        · exact ⟨hlive, hq12, hno⟩

/-! ## The copies and the leaked tasks -/

theorem Runs.not_subscribes {A : Admission} {c : Context} (h : Runs A c t p u r)
    (hs : ¬t.subscribes = true) : ¬r.task.subscribes = true := by
  have hscenario := Task.not_subscribes hs
  intro hsub
  obtain ⟨d, hd⟩ := Task.subscribes_iff.mp hsub
  cases h with
  | logic hl hb h => exact execute_not_subscribe (by exact hscenario) h d hd
  | timeout hA hf h => exact TaskTimeout.run_not_subscribe hscenario h d hd

/-- A task that has been leaked does not become a subscription. -/
theorem leaked_stable :
    Change.Stable anything fun w => ∀ t ∈ w.leaked, ¬t.subscribes = true where
  returns _ h := h
  writeFreed _ h := h
  keep {w t u p r} _ h hp _ hr _ := by
    cases p with
    | leaked =>
      intro v hv
      rcases mem_putTask.mp hv with ⟨rfl, -⟩ | ⟨hv, -⟩
      · exact hr.not_subscribes (h t hp)
      · exact h v hv
    | _ => exact h
  finish {w t u p r} _ h hp _ hr _ := by
    cases p with
    | leaked => exact fun v hv => h v (mem_dropTask.mp hv).1
    | _ => exact h
  free _ h _ _ := h
  start _ h _ _ _ := h
  wait _ h _ _ _ := h
  quiet _ h hq _ := hq.leaked ▸ h
  register _ _ _ h := h
  disarm _ _ h := h

theorem step_untouched (hs : w.Sound) {e : Event} {o : Oracle} (he : ¬e.Outer)
    (h : World.step w (e, o) = some w') : Untouched w w' := by
  cases step_anything hs h with
  | changes _ h => exact (untouched_withOracle w o).trans h.untouched
  | expired o' s _ _ => exact ⟨rfl, rfl, rfl, rfl, fun _ => rfl⟩
  | pushed hm _ hp =>
    obtain ⟨mem, callbacks, k, heq⟩ := prepared_eq w o e
    refine Untouched.trans ?_ hp.untouched
    rw [heq]
    exact ⟨rfl, rfl, rfl, rfl, fun _ => rfl⟩
  | connection _ => exact ⟨rfl, rfl, rfl, rfl, fun _ => rfl⟩
  | init s => exact absurd trivial he
  | teardown s _ _ _ _ _ => exact absurd trivial he

theorem step_leaked (hs : w.Sound) (hl : ∀ t ∈ w.leaked, ¬t.subscribes = true) {e : Event}
    {o : Oracle} (he : ¬e.Outer) (h : World.step w (e, o) = some w') :
    ∀ t ∈ w'.leaked, ¬t.subscribes = true := by
  cases step_anything hs h with
  | changes _ h => exact leaked_stable.changes h (hs.withOracle o) hl
  | expired o' s _ _ => exact hl
  | pushed hm _ hp =>
    have hs₀ := hs.prepared o e
    have hleaked : (w.prepared o e).leaked = w.leaked := by
      obtain ⟨mem, callbacks, k, heq⟩ := prepared_eq w o e
      rw [heq]
      rfl
    have hid : (w.prepared o e).nextTask = w.nextTask := (prepared_fewer w o e).nextTask
    have hl₀ : ∀ t ∈ (w.prepared o e).leaked, ¬t.subscribes = true := hleaked ▸ hl
    refine leaked_stable.pushed hp hs₀.toValid (hm.id_eq.trans hid.symm) hm.new
      (fun _ => hl₀) (fun _ _ => hl₀) fun _ _ => hl₀
  | connection _ => exact hl
  | init s => exact absurd trivial he
  | teardown s _ _ _ _ _ => exact absurd trivial he

/-- **What each call does with the handlers and with what is told**, if it serves the subscriptions:
the handlers stay, or are freed, or there is one more for a subscription that has been granted. -/
theorem step_subscriptions (hs : w.Sound) (hsep : w.Separate) {e : Event} {o : Oracle}
    (hserves : (w.withOracle o).ServesSubscriptions e) (h : World.step w (e, o) = some w') :
    w'.Separate ∧
      ((w.freedHandlers (e, o) w' ++ w'.handlers = w.handlers ∧
          w'.context.out.filter Output.ofSubscription = w.context.out.filter Output.ofSubscription ∧
          ∀ x ∈ w.suback e, x.granted = false) ∨
        ∃ t g, w.context.Answers t g w'.context ∧ w.suback e = some ⟨t.id, g⟩ ∧
          w.freedHandlers (e, o) w' = [] ∧ w'.savedHandlers = w.savedHandlers) := by
  by_cases he : e.Outer
  · cases e with
    | init s =>
      obtain rfl := Option.some.inj h
      have hr := init_rearranges hs hsep (s := s) hserves
      exact ⟨hr.separate, .inl ⟨hr.handlers, hr.told, nofun⟩⟩
    | closeExternally s =>
      have hr := teardown_rearranges hs hsep h
      exact ⟨hr.separate, .inl ⟨hr.handlers, hr.told, nofun⟩⟩
    | _ => exact he.elim
  · have hmoves := step_moves hs hsep.leaked he hserves h
    have hu := step_untouched hs he h
    have hleaked := step_leaked hs hsep.leaked he h
    have hnone : w.freedHandlers (e, o) w' = [] := by
      cases e with
      | init s => exact absurd trivial he
      | closeExternally s => exact absurd trivial he
      | _ => rfl
    cases hmoves with
    | same hsub ha =>
      have hr := Rearranges.of_same hsep hsub hu.savedHandlers hu.layerData hleaked
      exact ⟨hr.separate, .inl ⟨hnone.symm ▸ hr.handlers, hr.told, ha⟩⟩
    | answers hd hanswers ha =>
      refine ⟨⟨fun _ => hu.savedHandlers.trans (hsep.data hd), fun hd' => ?_, hleaked⟩,
        .inr ⟨_, _, hanswers, ha, hnone, hu.savedHandlers⟩⟩
      exact absurd (hd'.symm.trans (hu.layerData.trans hd)) (by decide)

end World

end IotDeviceSdk.Mqtt.Logic
