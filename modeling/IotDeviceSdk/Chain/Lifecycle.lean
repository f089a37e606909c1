import IotDeviceSdk.Chain.Passes
import IotDeviceSdk.Chain.Teardown

/-!
# The life of a connection (`iotc_layer_stack.h`, `iotc.c`)

The application sees that its connection is accepted, that it is cancelled or started, and what its
callback is told. `Lifecycle.step` is the order in which that is to happen. The chain keeps to it as long
as one call at a time sets up or tears down, which is what `World.Orderly` says of a step.

* `layers_stacked`: the layers stay stacked, and no layer is initialised that has data.
* `lifecycle_run`: the application is told what `Lifecycle.step` says, and when it is told of the end, all
  layers have lost their data.
-/

namespace IotDeviceSdk.Chain

open Datastructures Infra Mqtt.Logic Tls

namespace World

variable {σ : SizeT} {w w' W : World} {cs : List Call} {c : Call} {a : Answers σ} {s : IotcState}

/-! ## A call that is made -/

/-- **A call that sets up or tears down** finds the layers as it expects them, and what it hands over
does so again. -/
theorem perform_arrives (hq : w.Quiet) (hsound : w.logic.Sound) (hm : w.Granted)
    (hlogic : ∀ b ∈ a.logic.mem, b = true) (hf : w.tls = none → Followed w.queue)
    (hc : c.lifecycle = true) (hfits : w.shape.Fits c) (h : w.perform c a = some w')
    (hone : w'.lifecycles ≤ 1) : Arrives .running w w' := by
  obtain ⟨layer, func, s⟩ := c
  cases layer <;> cases func
  case io.init => exact Option.some.inj h ▸ ioInit_arrives hq hm hfits
  case io.connect => exact Option.some.inj h ▸ ioConnect_arrives hq hm hfits s _
  case io.close =>
    exact Option.some.inj h ▸ hq.passes (ioClose_adds hm s) rfl rfl (hq.stacked.final hfits) hfits
  case io.closeExternally => exact Option.some.inj h ▸ ioCloseExternally_arrives hq hm hfits s
  case tls.init => exact tlsInit_arrives hq hm hfits h
  case tls.connect => exact Option.some.inj h ▸ tlsConnect_arrives hq hm hfits s a
  case tls.close => exact Option.some.inj h ▸ tlsClose_arrives hq hm hfits s
  case tls.closeExternally => exact tlsCloseExternally_arrives hq hm hfits h
  case mqttCodec.init => exact mqttCodecInit_arrives hq hm hfits h
  case mqttCodec.connect =>
    exact Option.some.inj h ▸
      hq.passes (mqttCodecConnect_adds hm s) rfl rfl (hq.stacked.final hfits) hfits
  case mqttCodec.close => exact Option.some.inj h ▸ mqttCodecClose_arrives hq hm hfits s
  case mqttCodec.closeExternally =>
    exact Option.some.inj h ▸ mqttCodecCloseExternally_arrives hq hm hfits s
  case mqttLogic.init => exact mqttLogicInit_arrives hq hsound hfits hlogic h
  case mqttLogic.connect => exact mqttLogicConnect_arrives hq hsound hfits hf hlogic h
  case mqttLogic.close => exact mqttLogicClose_arrives hq hfits hlogic h
  case mqttLogic.closeExternally =>
    exact mqttLogicCloseExternally_arrives hq hsound hfits hlogic h hone
  case controlTopic.init => exact hfits.elim
  case controlTopic.connect => exact Option.some.inj h ▸ controlTopicConnect_arrives hq hm hfits hf s
  case controlTopic.close => exact controlTopicClose_arrives hq hm hfits h
  case controlTopic.closeExternally => exact controlTopicCloseExternally_arrives hq hm hfits.1 hf h
  -- the calls that neither set up nor tear down
  all_goals cases hc

/-- Nothing happens to the connection. -/
theorem Core.stays (h : w'.Core) (hn : w'.notes = w.notes) (hp : w'.phase = w.phase) :
    Arrives w.phase w w' := by
  refine ⟨h, [], by rw [hn, List.append_nil], ?_⟩
  rw [run_nil, hp]

theorem Core.connectHandler_eq_false (hw : w.Core) (hlogic : w.shape.mqttLogic = true) :
    w.connectHandler = false := by
  cases hh : w.connectHandler with
  | false => rfl
  | true => exact absurd ((hw.stacked.final hlogic).symm.trans (hw.scheduled hh).2) (by decide)

/-- Calls are handed over that fit, while the logic layer has data. -/
theorem Core.adds (hw : w.Core) (h : Adds w w' cs)
    (hcs : cs = [] ∨ w.shape.mqttLogic = true ∧ ∀ c ∈ cs, w.shape.Fits c)
    (hf : w.tls = none → ∀ c ∈ cs, c.tlsPull = false) : Arrives w.phase w w' := by
  have hs := h.shape
  have hfinal : w'.connectionState.final = w.connectionState.final := congrArg Shape.final hs
  have hcount : cs = [] → w'.lifecycles = w.lifecycles := fun hnil => by
    rw [h.lifecycles, hnil]
    rfl
  have hcore : w'.Core := by
    refine ⟨h.logic ▸ hw.leaked, fun rm hrm => hw.collected rm (h.rmContext ▸ hrm), hs ▸ hw.stacked,
      fun c hc => ?_, fun ht => ?_, fun hh => ?_⟩
    · rcases h.mem_inFlight.mp hc with hc | hc
      · exact hs ▸ hw.fits c hc
      · rcases hcs with rfl | ⟨-, hfits⟩
        · cases hc
        · exact hs ▸ hfits c hc
    · have hnone : w.tls = none := by
        have htls := h.tls
        rw [ht] at htls
        simpa using htls.symm
      rw [h.queue]
      exact (hw.followed hnone).append (hf hnone)
    · rw [h.connectHandler] at hh
      rcases hcs with hnil | ⟨hlogic, -⟩
      · exact ⟨(hcount hnil).trans (hw.scheduled hh).1, hfinal.trans (hw.scheduled hh).2⟩
      · rw [hw.connectHandler_eq_false hlogic] at hh
        cases hh
  refine hcore.stays h.notes ?_
  rcases hcs with hnil | ⟨hlogic, -⟩
  · rw [phase, phase, h.connectHandler, hfinal, hcount hnil]
  · have hh := hw.connectHandler_eq_false hlogic
    have hopen := hw.stacked.final hlogic
    rw [phase_eq_running hh hopen,
      phase_eq_running (h.connectHandler.trans hh) (hfinal.trans hopen)]

theorem Core.refl (hw : w.Core) : Arrives w.phase w w := hw.stays rfl rfl

/-- **A call that only passes data on** leaves the layers as they are. Where the TLS layer has lost its
data, the call that follows is still to come. -/
theorem perform_stays (hw : w.Core) (hm : w.Granted) (hc : c.lifecycle = false)
    (hpost : c.func = .postConnect → c.layer = .controlTopic)
    (hpull : c.tlsPull = true → w.tls = none → 0 < w.lifecycles) (h : w.perform c a = some w')
    (hone : w'.lifecycles ≤ 1) : Arrives w.phase w w' := by
  obtain ⟨layer, func, s⟩ := c
  cases layer <;> cases func
  case io.pull => exact Option.some.inj h ▸ hw.refl
  case mqttLogic.pull => exact Option.some.inj h ▸ hw.refl
  case controlTopic.pull => exact Option.some.inj h ▸ hw.refl
  case controlTopic.postConnect => exact Option.some.inj h ▸ hw.refl
  case tls.pull =>
    obtain ⟨⟨cs, hadds, hcs⟩, hnone⟩ := tlsPull_handled hm h
    cases ht : w.tls with
    | none =>
      -- two calls would be under way
      have hcount : w'.lifecycles = w.lifecycles + 1 := (hnone ht).lifecycles
      have hpos := hpull rfl ht
      omega
    | some d =>
      have hlogic := hw.stacked.mqttLogic_of_tls (show w.tls.isSome = true by rw [ht]; rfl)
      exact hw.adds hadds (.inr ⟨hlogic, fun c hc => (hcs c hc).fits hlogic⟩)
        fun hnone => by simp [ht] at hnone
  case mqttCodec.pull =>
    obtain rfl := Option.some.inj h
    rcases mqttCodecPull_adds hm s a with heq | ⟨hcodec, s', hadds⟩
    · exact heq.symm ▸ hw.refl
    · have hlogic := hw.stacked.mqttLogic hcodec
      refine hw.adds hadds (.inr ⟨hlogic, fun c hc => ?_⟩) fun _ c hc => ?_
      · obtain rfl := List.mem_singleton.mp hc
        exact hlogic
      · obtain rfl := List.mem_singleton.mp hc
        rfl
  case io.postConnect => exact LayerId.noConfusion (hpost rfl)
  case tls.postConnect => exact LayerId.noConfusion (hpost rfl)
  case mqttCodec.postConnect => exact LayerId.noConfusion (hpost rfl)
  case mqttLogic.postConnect => exact LayerId.noConfusion (hpost rfl)
  -- the calls that set up or tear down
  all_goals cases hc

/-! ## What comes from outside -/

theorem ioPull_stays (hw : w.Core) (hm : w.Granted) (result : Io.BspResult) :
    Arrives w.phase w (w.ioPull result) := by
  obtain ⟨cs, h, hcs⟩ := ioPull_adds hm result
  rcases hcs with rfl | ⟨hio, hcs⟩
  · exact hw.adds h (.inl rfl) (by simp)
  · have hlogic := hw.stacked.mqttLogic_of_io hio
    have htls : w.tls.isSome = true := hw.stacked.tls hio
    refine hw.adds h (.inr ⟨hlogic, ?_⟩) fun hnone => by simp [hnone] at htls
    rcases hcs with rfl | ⟨s, rfl⟩
    · exact fun c hc => Shape.fits_of_not_lifecycle (by simp at hc; rw [hc]; rfl)
    · exact fun c hc => by simp at hc; rw [hc]; exact hlogic

theorem ioPush_stays (hw : w.Core) (hm : w.Granted) (outcome : Io.WriteOutcome) :
    Arrives w.phase w (w.ioPush outcome) := by
  obtain ⟨cs, h, hcs⟩ := ioPush_adds hm outcome
  rcases hcs with rfl | ⟨hio, s, rfl⟩
  · exact hw.adds h (.inl rfl) (by simp)
  · have hlogic := hw.stacked.mqttLogic_of_io hio
    refine hw.adds h (.inr ⟨hlogic, fun c hc => ?_⟩) fun _ c hc => ?_
    · obtain rfl := List.mem_singleton.mp hc
      exact hlogic
    · obtain rfl := List.mem_singleton.mp hc
      rfl

theorem tlsPush_stays (hw : w.Core) (hm : w.Granted) (h : w.tlsPush a = some w') :
    Arrives w.phase w w' := by
  obtain ⟨⟨cs, hadds, hcs⟩, hnone⟩ := tlsPush_handled hm h
  cases ht : w.tls with
  | none => exact hnone ht ▸ hw.refl
  | some d =>
    have hlogic := hw.stacked.mqttLogic_of_tls (show w.tls.isSome = true by rw [ht]; rfl)
    exact hw.adds hadds (.inr ⟨hlogic, fun c hc => (hcs c hc).fits hlogic⟩)
      fun hnone => by simp [ht] at hnone

theorem routine_of_fromOutside {e : Mqtt.Logic.World.Event} (h : fromOutside e = true) : e.Routine := by
  cases e <;> trivial

/-- **A call of the logic layer from outside.** -/
theorem mqttLogic_stays (hw : w.Core) (hsound : w.logic.Sound) {e : Mqtt.Logic.World.Event}
    (he : e.Routine) {oracle : Mqtt.Logic.World.Oracle} (h : w.mqttLogic e oracle = some w') :
    Arrives w.phase w w' := by
  obtain ⟨l, hl, hadds⟩ := mqttLogic_adds h
  have hworks := Mqtt.Logic.World.step_works hsound he hl
  -- the same layers, with what the logic layer is now
  have hlogged (hs : ({ w with logic := l } : World).shape = w.shape) :
      ({ w with logic := l } : World).Core ∧ ({ w with logic := l } : World).phase = w.phase := by
    have hfinal : l.context.connection.connectionState.final = w.connectionState.final :=
      congrArg Shape.final hs
    refine ⟨⟨hworks.leaked hw.leaked, hw.collected, hs ▸ hw.stacked, fun c hc => hs ▸ hw.fits c hc,
      hw.followed, fun hh => ⟨(hw.scheduled hh).1, hfinal.trans (hw.scheduled hh).2⟩⟩, ?_⟩
    show (if w.connectHandler = true then Phase.scheduled else
      if l.context.connection.connectionState.final = true ∧ w.lifecycles = 0 then .idle
      else .running) = w.phase
    rw [hfinal]
    rfl
  cases hlogic : w.logic.context.layerData with
  | false =>
    obtain ⟨os, ⟨hout, hos⟩, hconn⟩ := Mqtt.Logic.World.step_frees hsound hlogic hw.leaked he hl
    have hs : ({ w with logic := l } : World).shape = w.shape := by
      have hdata : l.context.layerData = w.logic.context.layerData := hworks.layerData
      simp only [shape, connectionState, hdata, hconn]
    obtain ⟨hcore, hphase⟩ := hlogged hs
    have hnil : os.filterMap callOfOutput = [] := by
      refine List.filterMap_eq_nil_iff.mpr fun o ho => ?_
      rcases hos o ho with ⟨m, rfl⟩ | ⟨i, rfl⟩ <;> rfl
    exact hphase ▸ hcore.adds (hadds os hout) (.inl hnil) (by simp [hnil])
  | true =>
    obtain ⟨os, hout, hos⟩ := hworks.out
    have hs := shape_works hworks (hw.stacked.final hlogic)
    obtain ⟨hcore, hphase⟩ := hlogged hs
    refine hphase ▸ hcore.adds (hadds os hout) (.inr ⟨hs ▸ hlogic, fun c hc => ?_⟩) fun _ c hc => ?_
    · exact Shape.fits_of_mqttLogic (hs ▸ hlogic) (routine_calls hos hc)
    · exact tlsPull_of_lifecycle (lifecycle_of_func (routine_calls hos hc))

/-! ## The call under way -/

theorem lifecycles_eq (w : World) : w.lifecycles = w.queue.countP Call.lifecycle +
    w.pending.countP Call.lifecycle + if w.waits then 1 else 0 := by
  unfold lifecycles inFlight
  rw [List.countP_append, List.countP_append]
  cases w.waits <;> rfl

/-- The call under way is made, and there is no other. -/
theorem Core.quiet (hw : w.Core) (hone : w.lifecycles ≤ 1) (hcount : w.lifecycles = W.lifecycles + 1)
    (hl : W.logic = w.logic) (hc : ∀ rm ∈ W.rmContext, Collected rm) (hs : W.shape = w.shape)
    (hh : W.connectHandler = w.connectHandler) : W.Quiet ∧ w.phase = .running := by
  have hhandler : w.connectHandler = false := by
    cases hh : w.connectHandler with
    | false => rfl
    | true =>
      have hzero := (hw.scheduled hh).1
      omega
  have hne : w.lifecycles ≠ 0 := by omega
  refine ⟨⟨hl ▸ hw.leaked, hc, hs ▸ hw.stacked, by omega, hh.trans hhandler⟩, ?_⟩
  simp [phase, hhandler, hne]

/-- The state that a callback is given does not matter. -/
theorem fits_callOf {t : Shape} {callback : ResourceManager.Callback} (s : IotcState)
    (h : t.Fits (callOf callback)) : t.Fits (callOf (callback.setCallbackState s)) := by
  unfold ResourceManager.Callback.setCallbackState
  split
  · exact h
  · exact h

theorem lifecycle_callOf (callback : ResourceManager.Callback) :
    (callOf callback).lifecycle = true := by
  unfold callOf
  split <;> rfl

theorem mqttLogic_of_callOf {t : Shape} {callback : ResourceManager.Callback} (h : t.Stacked)
    (hfits : t.Fits (callOf callback)) : t.mqttLogic = true := by
  unfold callOf at hfits
  split at hfits
  · exact h.mqttLogic hfits.1
  · exact hfits.1

/-- **A coroutine of the resource manager runs.** -/
theorem resource_arrives (hw : w.Core) (hsound : w.logic.Sound) (hone : w.lifecycles ≤ 1)
    (hm : w.Granted) (hlogic : ∀ b ∈ a.logic.mem, b = true) {fd : Option Int}
    (h : w.resource fd a = some w') (hone' : w'.lifecycles ≤ 1) : Arrives w.phase w w' := by
  rcases resource_cases hw.collected h with rfl | ⟨rm, rm', hrm, hcollected, h⟩
  · exact hw.refl
  · have ht := tls_of_rmContext hrm
    have hset := rmContext_setRmContext ht (some rm')
    have hs := shape_setRmContext w (some rm')
    have hbefore : w.pending = rm.ctx.callback.toList.map callOf := by
      rw [pending, hrm, Option.bind_some]
    have hafter : (w.setRmContext (some rm')).pending = rm'.ctx.callback.toList.map callOf := by
      rw [pending, hset, Option.bind_some]
    have hcollected' : ∀ rm'' ∈ (w.setRmContext (some rm')).rmContext, Collected rm'' := by
      intro rm'' hrm''
      obtain rfl := Option.some.inj (hset.symm.trans hrm'')
      exact hcollected
    have htls : (w.setRmContext (some rm')).tls ≠ none := by
      intro hnone
      have hsome := (tls_setRmContext w (some rm')).trans ht
      simp [hnone] at hsome
    -- the callback is the call under way
    have hgone {callback : ResourceManager.Callback} (hsome : rm.ctx.callback = some callback)
        (hnone : rm'.ctx.callback = none) : (w.setRmContext (some rm')).Quiet ∧
          w.phase = .running ∧ w.shape.Fits (callOf callback) := by
      have hcount : w.lifecycles = (w.setRmContext (some rm')).lifecycles + 1 := by
        rw [lifecycles_eq, lifecycles_eq, hbefore, hafter, hsome, hnone]
        show _ + [callOf callback].countP Call.lifecycle + _ =
          w.queue.countP Call.lifecycle + 0 + (if w.waits = true then 1 else 0) + 1
        rw [List.countP_singleton, lifecycle_callOf, if_pos rfl]
        omega
      obtain ⟨hquiet, hphase⟩ := hw.quiet hone hcount rfl hcollected' hs rfl
      refine ⟨hquiet, hphase, hw.fits _ ?_⟩
      rw [inFlight, hbefore, hsome]
      simp
    cases h with
    | keeps hcallback hclose h =>
      subst h
      have hin : (w.setRmContext (some rm')).inFlight = w.inFlight := by
        unfold inFlight
        rw [hafter, hbefore, hcallback]
        rfl
      have hcount : (w.setRmContext (some rm')).lifecycles = w.lifecycles :=
        congrArg (List.countP Call.lifecycle) hin
      refine Core.stays ⟨hw.leaked, hcollected', hs ▸ hw.stacked, fun c hc => ?_,
        fun hnone => absurd hnone htls, fun hh => ?_⟩ rfl ?_
      · exact hs ▸ hw.fits c (hin ▸ hc)
      · exact ⟨hcount.trans (hw.scheduled hh).1, (hw.scheduled hh).2⟩
      · rw [phase, phase, hcount]
        rfl
    | hands callback s hsome hnone h =>
      subst h
      obtain ⟨hquiet, hphase, hfits⟩ := hgone hsome hnone
      have hadds : Adds (w.setRmContext (some rm')) { w.setRmContext (some rm') with
          queue := (w.setRmContext (some rm')).queue ++ [callOf (callback.setCallbackState s)] }
          [callOf (callback.setCallbackState s)] :=
        ⟨rfl, rfl, rfl, rfl, rfl, rfl, rfl, rfl, rfl, List.suffix_refl _⟩
      have hfinal := hw.stacked.final (mqttLogic_of_callOf hw.stacked hfits)
      rw [hphase]
      exact hquiet.passes hadds (lifecycle_callOf _) rfl (hs ▸ hfinal) (hs ▸ fits_callOf s hfits)
    | invokes callback s hsome hnone h =>
      obtain ⟨hquiet, hphase, hfits⟩ := hgone hsome hnone
      have hmade : Arrives .running (w.setRmContext (some rm')) w' :=
        perform_arrives hquiet hsound hm hlogic (fun hnone => absurd hnone htls)
          (lifecycle_callOf _) (hs ▸ fits_callOf s hfits) h hone'
      rw [hphase]
      exact hmade

/-- **The socket is connected.** -/
theorem socketConnected_arrives (hw : w.Core) (hone : w.lifecycles ≤ 1) (hm : w.Granted)
    (connected : Bool) : Arrives w.phase w (w.socketConnected connected) := by
  unfold socketConnected
  split
  · exact hw.refl
  · next d hd =>
    split
    · next hwait =>
      have hwaits : w.waits = true := by rw [waits, hd]; exact hwait
      have hs : ({ w with io := some { d with wantConnect := false } } : World).shape = w.shape := by
        simp [shape, hd]
        rfl
      have hcount : w.lifecycles =
          ({ w with io := some { d with wantConnect := false } } : World).lifecycles + 1 := by
        rw [lifecycles_eq, lifecycles_eq, hwaits]
        rfl
      obtain ⟨hquiet, hphase⟩ := hw.quiet hone hcount rfl hw.collected hs rfl
      have hlogic := hw.stacked.mqttLogic_of_io (show w.io.isSome = true by rw [hd]; rfl)
      have hmade := ioConnect_arrives hquiet (hm.of_mem rfl) (hs ▸ hlogic) .ok connected
      rw [hphase]
      exact hmade
    · exact hw.refl

/-- **The dispatcher makes a call.** -/
theorem dispatch_arrives (hw : w.Core) (hp : w.Projectable) (hone : w.lifecycles ≤ 1)
    (hm : w.Granted) (hlogic : ∀ b ∈ a.logic.mem, b = true) (h : w.dispatch a = some w')
    (hone' : w'.lifecycles ≤ 1) : Arrives w.phase w w' := by
  unfold dispatch at h
  split at h
  · exact Option.some.inj h ▸ hw.refl
  · next c queue hq =>
    have hcount : w.lifecycles = ({ w with queue } : World).lifecycles +
        if c.lifecycle = true then 1 else 0 := by
      rw [lifecycles_eq, lifecycles_eq, hq, List.countP_cons]
      show _ = queue.countP Call.lifecycle + w.pending.countP Call.lifecycle +
        (if w.waits = true then 1 else 0) + _
      omega
    have hmem : c ∈ w.inFlight := by simp [inFlight, hq]
    have hfollowed : w.tls = none → Followed (c :: queue) := fun ht => hq ▸ hw.followed ht
    cases hc : c.lifecycle with
    | true =>
      rw [hc, if_pos rfl] at hcount
      obtain ⟨hquiet, hphase⟩ := hw.quiet (W := { w with queue }) hone hcount rfl hw.collected rfl rfl
      have hmade := perform_arrives hquiet hp.logic (hm.of_mem rfl) hlogic (fun ht => (hfollowed ht).2)
        hc (hw.fits c hmem) h hone'
      rw [hphase]
      exact hmade
    | false =>
      rw [hc] at hcount
      have hcount : ({ w with queue } : World).lifecycles = w.lifecycles := hcount.symm
      have hrest : ({ w with queue } : World).Core := by
        refine ⟨hw.leaked, hw.collected, hw.stacked, fun d hd => hw.fits d ?_,
          fun ht => (hfollowed ht).2, fun hh => ?_⟩
        · simp only [inFlight, hq, List.cons_append]
          exact List.mem_cons_of_mem c hd
        · exact ⟨hcount.trans (hw.scheduled hh).1, (hw.scheduled hh).2⟩
      have hphase : ({ w with queue } : World).phase = w.phase := by
        rw [phase, phase, hcount]
        rfl
      have hpull : c.tlsPull = true → w.tls = none → 0 < ({ w with queue } : World).lifecycles := by
        intro hpull ht
        have hlater := (hfollowed ht).1 hpull
        rw [lifecycles_eq]
        exact Nat.lt_of_lt_of_le hlater ((Nat.le_add_right _ _).trans (Nat.le_add_right _ _))
      have hmade := perform_stays hrest (hm.of_mem rfl) hc
        (hp.posts c (hq ▸ List.mem_cons_self)) hpull h hone'
      rw [hphase] at hmade
      exact hmade

/-! ## The connection of an application -/

theorem phase_scheduled (hh : w.connectHandler = true) : w.phase = .scheduled := by simp [phase, hh]

/-- `iotc_shutdown_connection` -/
theorem shutdownConnection_arrives (hw : w.Core) : Arrives w.phase w w.shutdownConnection := by
  unfold shutdownConnection
  split
  · next hh =>
    obtain ⟨hzero, hfinal⟩ := hw.scheduled hh
    refine ⟨⟨hw.leaked, hw.collected, hw.stacked, hw.fits, hw.followed, fun hh => by cases hh⟩,
      [.cancelled], rfl, ?_⟩
    rw [phase_scheduled hh, run_cons, Lifecycle.step, Option.bind_some, run_nil, phase]
    exact congrArg some (if_pos ⟨hfinal, hzero⟩).symm
  · exact hw.refl

/-- **A connection is started.** -/
theorem startConnection_arrives (hw : w.Core) (hm : w.Granted) (h : w.startConnection a = some w') :
    Arrives w.phase w w' := by
  unfold startConnection at h
  split at h
  · next hh =>
    obtain ⟨hzero, hfinal⟩ := hw.scheduled hh
    let W : World := { w with connectHandler := false, notes := w.notes ++ [.started] }
    have hW : W.Quiet := ⟨hw.leaked, hw.collected, hw.stacked, hzero, rfl⟩
    have hadds : Adds W w' [⟨.mqttLogic, .init, .ok⟩] :=
      Option.some.inj h ▸ adds_continueWith (w := W) hm .controlTopic .mqttLogic .init .ok
    have hlogic := hw.stacked.mqttLogic_eq_false hfinal
    have hcount : w'.lifecycles = 1 := by
      rw [hadds.lifecycles, hW.lifecycles]
      rfl
    refine ⟨?_, [.started], hadds.notes, ?_⟩
    · refine hW.core (hadds.logic ▸ hW.leaked) (fun rm hrm => hW.collected rm (hadds.rmContext ▸ hrm))
        (hadds.shape ▸ hW.stacked) hadds.connectHandler (fun c hc => ?_) fun _ => ?_
      · refine (hadds.mem_inFlight.mp hc).imp_right fun hc => ?_
        obtain rfl := List.mem_singleton.mp hc
        exact hadds.shape ▸ hlogic
      · rw [hadds.queue]
        exact followed_concat rfl _
    · rw [phase_scheduled hh, run_cons, Lifecycle.step, Option.bind_some, run_nil, phase,
        hadds.connectHandler, hcount]
      simp [W]
  · exact Option.some.inj h ▸ hw.refl

/-- The data of a connection are set. -/
theorem connectTo_step {v l : Mqtt.Logic.World} {d : ConnectionData}
    (hfinal : v.context.connection.connectionState.final = true)
    (hl : v.step (.connectTo d, {}) = some l) : l.leaked = v.leaked ∧
      l.context.layerData = v.context.layerData ∧ l.context.out = v.context.out ∧
      l.context.connection.connectionState = .uninitialized := by
  have hset : v.step (.connectTo d, {}) = some _ := if_pos hfinal
  obtain rfl := Option.some.inj (hset.symm.trans hl)
  exact ⟨rfl, rfl, rfl, rfl⟩

/-- **A connection is accepted**, while no other is under way. -/
theorem connectTo_arrives (hw : w.Core) (hm : w.Granted) {d : ConnectionData} (hzero : w.lifecycles = 0)
    (h : w.connectTo d = some w') : Arrives w.phase w w' := by
  unfold connectTo at h
  split at h
  · exact Option.some.inj h ▸ hw.refl
  · next hnot =>
    have hh : w.connectHandler = false := by simpa using fun hh => hnot (.inl hh)
    have hfinal : w.connectionState.final = true := not_not.mp fun hf => hnot (.inr hf)
    have hdata := adds_alloc w
    have halloc : w.alloc.1 = true := hm.alloc
    simp only [halloc, if_true] at h
    obtain ⟨w₁, h₁, rfl⟩ := Option.map_eq_some_iff.mp h
    have hquiet : w.Quiet := ⟨hw.leaked, hw.collected, hw.stacked, hzero, hh⟩
    have hlogic := hw.stacked.mqttLogic_eq_false hfinal
    obtain ⟨hW, hs, hqueue, ht, hn, hmem⟩ := setConnectionState_quiet (hquiet.of_adds hdata)
      .uninitialized (fun l hl => connectTo_step hfinal hl)
      ⟨hw.stacked.tls, hw.stacked.mqttCodec, hw.stacked.mqttLogic,
        fun hl => absurd (hlogic.symm.trans hl) (by decide)⟩ h₁
    have hm₁ : w₁.Granted := (hdata.granted hm).of_mem hmem
    have halloc₁ : w₁.alloc.1 = true := hm₁.alloc
    have halloc₂ : w₁.alloc.2.alloc.1 = true := ((adds_alloc w₁).granted hm₁).alloc
    have hstate : w₁.connectionState.final = true := congrArg Shape.final hs
    simp only [halloc₁, halloc₂, if_true]
    refine ⟨⟨hW.leaked, hW.collected, hW.stacked, fun c hc => ?_, fun hnone => ?_,
      fun _ => ⟨hW.lifecycles, hstate⟩⟩, [.accepted], congrArg (· ++ [Note.accepted]) hn, ?_⟩
    · exact Shape.fits_of_not_lifecycle (not_lifecycle_of_quiet hW.lifecycles hc)
    · exact hqueue ▸ hw.followed (ht ▸ hnone)
    · have hidle : w.phase = .idle := by simp [phase, hh, hfinal, hzero]
      rw [hidle, phase_scheduled rfl]
      rfl

/-! ## Runs -/

/-- An application asks for a connection. -/
def Event.connects : Event → Bool
  | .connectTo _ => true
  | _ => false

/-- A step of a run in which one call at a time sets up or tears down. There is memory, an application
asks for a connection only while no such call is under way, and no layer begins one while another is. -/
structure Orderly (w : World) (e : Event × Answers σ) : Prop where
  mem : ∀ b ∈ e.2.mem, b = true
  logic : ∀ b ∈ e.2.logic.mem, b = true
  connects : e.1.connects = true → w.lifecycles = 0
  one : ∀ w' ∈ step w e, w'.lifecycles ≤ 1

instance (w : World) (e : Event × Answers σ) : Decidable (Orderly w e) :=
  decidable_of_iff ((∀ b ∈ e.2.mem, b = true) ∧ (∀ b ∈ e.2.logic.mem, b = true) ∧
    (e.1.connects = true → w.lifecycles = 0) ∧ ∀ w' ∈ step w e, w'.lifecycles ≤ 1)
    ⟨fun h => ⟨h.1, h.2.1, h.2.2.1, h.2.2.2⟩, fun h => ⟨h.mem, h.logic, h.connects, h.one⟩⟩

/-- The chain in an orderly run. -/
structure Ordered (w : World) : Prop where
  projectable : w.Projectable
  core : w.Core
  one : w.lifecycles ≤ 1

/-- What has happened to the connection between two states. -/
def Noted (w : World) (ns : List Note) (w' : World) : Prop := w'.notes = w.notes ++ ns

theorem noted_traced : Traced Noted where
  refl w := (List.append_nil w.notes).symm
  trans h h' := by
    unfold Noted at h h' ⊢
    rw [h', h, List.append_assoc]

/-- **A step keeps the chain in order**, and the connection goes through its life. -/
theorem step_arrives {e : Event × Answers σ} (hw : w.Ordered) (he : w.Orderly e)
    (h : step w e = some w') : Arrives w.phase w w' := by
  obtain ⟨e, a⟩ := e
  have hone' := he.one w' h
  have hcore : ({ w with mem := a.mem } : World).Core :=
    ⟨hw.core.leaked, hw.core.collected, hw.core.stacked, hw.core.fits, hw.core.followed,
      hw.core.scheduled⟩
  have hp : ({ w with mem := a.mem } : World).Projectable := ⟨hw.projectable.logic, hw.projectable.posts⟩
  have hm : ({ w with mem := a.mem } : World).Granted := he.mem
  change ({ w with mem := a.mem } : World).stepWith a e = some w' at h
  -- the memory is no part of what is seen
  suffices hmade : Arrives ({ w with mem := a.mem } : World).phase { w with mem := a.mem } w' from hmade
  cases e with
  | connectTo d => exact connectTo_arrives hcore hm (he.connects rfl) h
  | shutdownConnection => exact Option.some.inj h ▸ shutdownConnection_arrives hcore
  | startConnection => exact startConnection_arrives hcore hm h
  | dispatch => exact dispatch_arrives hcore hp hw.one hm he.logic h hone'
  | resource fd => exact resource_arrives hcore hp.logic hw.one hm he.logic h hone'
  | socketConnected => exact Option.some.inj h ▸ socketConnected_arrives hcore hw.one hm _
  | ioPull result => exact Option.some.inj h ▸ ioPull_stays hcore hm result
  | ioPush outcome => exact Option.some.inj h ▸ ioPush_stays hcore hm outcome
  | tlsPush => exact tlsPush_stays hcore hm h
  | mqttLogic e =>
    change (if _ then _ else _ : Option World) = some w' at h
    split at h
    · next he => exact mqttLogic_stays hcore hp.logic (routine_of_fromOutside he) h
    · exact Option.some.inj h ▸ hcore.refl

theorem initial_ordered : ({} : World).Ordered where
  projectable := ⟨Mqtt.Logic.World.initial_sound, fun c hc => by cases hc⟩
  core :=
    { leaked := rfl
      collected := fun rm hrm => by cases hrm
      stacked := ⟨(fun h => by cases h), (fun h => by cases h), (fun h => by cases h), fun h => by cases h⟩
      fits := fun c hc => by cases hc
      followed := fun _ => trivial
      scheduled := fun h => by cases h }
  one := Nat.zero_le 1

theorem run_ordered {es : List (Event × Answers σ)} (ho : AllSteps step Orderly {} es)
    (h : run step {} es = some w) :
    w.Ordered ∧ Simulated Lifecycle.step phase Noted {} w :=
  run_simulated noted_traced (fun w e w' hw he h => by
    obtain ⟨hcore, ns, hn, hrun⟩ := step_arrives hw he h
    exact ⟨⟨(step_projects hw.projectable h).1, hcore, he.one w' h⟩, ns, hrun, hn⟩)
    initial_ordered ho h

/-- No layer has data, and no call that sets up or tears down is under way. -/
structure Freed (w : World) : Prop where
  io : w.io = none
  tls : w.tls = none
  mqttCodec : w.mqttCodec = false
  mqttLogic : w.logic.context.layerData = false
  lifecycles : w.lifecycles = 0

/-- Between two connections nothing is left of the last one. -/
theorem Core.freed (hw : w.Core) (h : w.phase ≠ .running) : w.Freed := by
  have hidle : w.lifecycles = 0 ∧ w.connectionState.final = true := by
    by_cases hh : w.connectHandler = true
    · exact hw.scheduled hh
    · by_contra hnot
      refine h ?_
      rw [phase, if_neg hh, if_neg fun hf => hnot hf.symm]
  have hlogic := hw.stacked.mqttLogic_eq_false hidle.2
  have hcodec := hw.stacked.mqttCodec_eq_false hlogic
  have ht := hw.stacked.tls_eq_false hcodec
  have hio := hw.stacked.io_eq_false ht
  exact ⟨by simpa [shape] using hio, by simpa [shape] using ht, hcodec, hlogic, hidle.1⟩

/-- A connection that is set up, reset by the peer and torn down. -/
def session : List (Event × Answers .bits32) := List.append reset unwind

theorem session_runs : (run step {} session).isSome = true := by decide +kernel

/-- The chain after that. -/
def finished : World := (run step {} session).get session_runs

example : finished.phase = .idle := by decide +kernel

/-- The peer resets a connection that the application shuts down. -/
def crossing : List (Event × Answers .bits32) :=
  List.append [(.mqttLogic (.submit .shutdown), {}), (.mqttLogic (.written 0 .disconnect true), {}),
    (.ioPull .connectionReset, {})] (List.replicate 13 (.dispatch, {}))

-- Both calls that tear down come to the top, and the application is told twice.
example : (run step connected crossing).map (fun w => w.notes.drop connected.notes.length) =
    some [.told .closed .connectionResetByPeerError, .told .closed .ok] := by decide +kernel

end World

end IotDeviceSdk.Chain
