import IotDeviceSdk.Chain.Layers
import IotDeviceSdk.Infra.Simulation
import IotDeviceSdk.Mqtt.Logic.Calls
import IotDeviceSdk.Mqtt.Logic.Reachable

/-!
# The logic layer in the chain (`iotc_layer_stack.h`, `iotc_mqtt_logic_layer.c`)

Whatever happens to the chain, its logic layer goes through a run of its own, so that what holds of every
run of the logic layer holds in the chain: `logic_run`. None of the calls of that run is `post_connect`.
The control topic layer calls its own `post_connect` when the connection is there, which is the default
one and goes no further without data, and that layer has none. So the logic layer never resends the tasks
of the last session.
-/

namespace IotDeviceSdk.Chain

open Datastructures Infra Mqtt.Logic Tls

namespace World

variable {σ : SizeT} {w w' w'' : World} {a : Answers σ} {s : IotcState}

/-- The `post_connect` that is called is that of the control topic layer. -/
def PostsOnTop (w : World) : Prop :=
  ∀ c ∈ w.queue, c.func = .postConnect → c.layer = .controlTopic

/-- The logic layer is one that it can be in a run. -/
structure Projectable (w : World) : Prop where
  logic : w.logic.Sound
  posts : w.PostsOnTop

/-- The calls of the logic layer, none of which is `post_connect`. -/
def LogicCalls (_ : World) (es : List (Mqtt.Logic.World.Event × Mqtt.Logic.World.Oracle)) (_ : World) :
    Prop :=
  ∀ e ∈ es, ∀ s, e.1 ≠ .postConnect s

theorem logicCalls_traced : Traced LogicCalls where
  refl _ := fun _ h => by cases h
  trans h h' := fun e he => (List.mem_append.mp he).elim (h e) (h' e)

/-- The logic layer goes through a run. -/
def Projects (w w' : World) : Prop :=
  w.Projectable → w'.Projectable ∧ Simulated Mqtt.Logic.World.step logic LogicCalls w w'

theorem Projects.refl (w : World) : Projects w w := fun h => ⟨h, .refl logicCalls_traced w⟩

theorem Projects.trans (h : Projects w w') (h' : Projects w' w'') : Projects w w'' := by
  intro hw
  obtain ⟨hw', hsim⟩ := h hw
  obtain ⟨hw'', hsim'⟩ := h' hw'
  exact ⟨hw'', hsim.trans logicCalls_traced hsim'⟩

/-- The logic layer is left alone, and these calls are handed over. -/
theorem Projects.of_queue (cs : List Call) (hl : w'.logic = w.logic) (hq : w'.queue = w.queue ++ cs)
    (hcs : ∀ c ∈ cs, c.func = .postConnect → c.layer = .controlTopic) : Projects w w' := by
  intro hw
  refine ⟨⟨hl ▸ hw.logic, fun c hc => ?_⟩, [], ?_, logicCalls_traced.refl w⟩
  · rw [hq] at hc
    exact (List.mem_append.mp hc).elim (hw.posts c) (hcs c)
  · rw [run_nil, hl]

theorem Projects.of_eq (hl : w'.logic = w.logic) (hq : w'.queue = w.queue) : Projects w w' :=
  .of_queue [] hl (by simp [hq]) (by simp)

/-! ## Functions that leave the logic layer alone -/

theorem alloc_projects (w : World) : Projects w w.alloc.2 := .of_eq rfl rfl

theorem continueWith_projects (w : World) (caller : LayerId) (callee : Option LayerId)
    {func : LayerFunc} (s : IotcState) (h : func ≠ .postConnect ∨ callee = some .controlTopic) :
    Projects w (w.continueWith caller callee func s) := by
  unfold continueWith
  split
  · exact .refl w
  · dsimp only
    split
    · refine .of_queue [_] rfl rfl fun c hc hpost => ?_
      obtain rfl := List.mem_singleton.mp hc
      exact h.elim (fun h => absurd hpost h) fun h => Option.some.inj h
    · exact .of_eq rfl rfl

section Setup

variable (w : World) (l : LayerId) {func : LayerFunc} (s : IotcState)

theorem processOnThis_projects (h : func ≠ .postConnect ∨ l = .controlTopic) :
    Projects w (w.processOnThis l func s) :=
  continueWith_projects w l (some l) s (h.imp_right (congrArg some))

theorem processOnNext_projects (h : func ≠ .postConnect) : Projects w (w.processOnNext l func s) :=
  continueWith_projects w l l.next s (.inl h)

theorem processOnPrev_projects (h : func ≠ .postConnect) : Projects w (w.processOnPrev l func s) :=
  continueWith_projects w l l.prev s (.inl h)

end Setup

theorem modifyTls_projects (w : World) (f : TlsData → TlsData) : Projects w (w.modifyTls f) :=
  .of_eq rfl rfl

theorem ioInit_projects (w : World) : Projects w w.ioInit := by
  unfold ioInit
  split
  · exact .refl w
  · dsimp only
    split
    · have hdata : Projects w { w.alloc.2 with io := some {} } := .of_eq rfl rfl
      exact hdata.trans (processOnThis_projects _ _ _ (.inl (by decide)))
    · exact (alloc_projects w).trans (processOnThis_projects _ _ _ (.inl (by decide)))

theorem ioConnect_projects (w : World) (s : IotcState) (connected : Bool) :
    Projects w (w.ioConnect s connected) := by
  unfold ioConnect
  split
  · exact processOnNext_projects _ _ _ (by decide)
  · split
    · exact processOnNext_projects _ _ _ (by decide)
    · next d hd =>
      split
      · have hdata : Projects w { w with io := some { d with connectCs := false } } := .of_eq rfl rfl
        exact hdata.trans (processOnNext_projects _ _ _ (by decide))
      · split
        · exact .of_eq rfl rfl
        · exact processOnNext_projects _ _ _ (by decide)

theorem ioCloseExternally_projects (w : World) (s : IotcState) :
    Projects w (w.ioCloseExternally s) := by
  have hdata : Projects w { w with io := none } := .of_eq rfl rfl
  exact hdata.trans (processOnNext_projects _ _ _ (by decide))

theorem socketConnected_projects (w : World) (connected : Bool) :
    Projects w (w.socketConnected connected) := by
  unfold socketConnected
  split
  · exact .refl w
  · next d hd =>
    split
    · have hdata : Projects w { w with io := some { d with wantConnect := false } } := .of_eq rfl rfl
      exact hdata.trans (ioConnect_projects _ _ _)
    · exact .refl w

theorem ioPull_projects (w : World) (result : Io.BspResult) : Projects w (w.ioPull result) := by
  unfold ioPull
  split
  · exact .refl w
  · have hclose (s : IotcState) : Projects w (w.alloc.2.processOnThis .io .closeExternally s) :=
      (alloc_projects w).trans (processOnThis_projects _ _ _ (.inl (by decide)))
    dsimp only
    split
    · cases result with
      | ok len => exact (alloc_projects w).trans (processOnNext_projects _ _ _ (by decide))
      | busy => exact alloc_projects w
      | connectionReset => exact hclose _
      | error => exact hclose _
    · exact hclose _

theorem ioPush_projects (w : World) (outcome : Io.WriteOutcome) : Projects w (w.ioPush outcome) := by
  unfold ioPush
  split
  · exact .refl w
  · have hclose (s : IotcState) : Projects w (w.processOnThis .io .closeExternally s) :=
      processOnThis_projects _ _ _ (.inl (by decide))
    cases outcome with
    | written => exact .refl w
    | busy currPos =>
      dsimp only
      split
      · exact .refl w
      · exact hclose _
    | connectionReset => exact hclose _
    | error => exact hclose _

theorem resourceManager_projects (w : World) (c : ResourceManager.Coroutine)
    (callback : ResourceManager.Callback) : Projects w (w.resourceManager c callback).2 := by
  unfold resourceManager
  split
  · exact .refl w
  · split
    · exact .refl w
    · exact (alloc_projects w).trans (modifyTls_projects _ _)

theorem tlsInitErrHandling_projects (w : World) (s : IotcState) :
    Projects w (w.tlsInitErrHandling s) :=
  (modifyTls_projects w _).trans (processOnThis_projects _ _ _ (.inl (by decide)))

theorem tlsInitYield_projects (w : World) (c : ResourceManager.Coroutine) (cs : ConnCs) :
    Projects w (w.tlsInitYield c cs) := by
  have hcall := resourceManager_projects w c (initCallback .ok)
  unfold tlsInitYield
  dsimp only
  split
  · exact hcall.trans (modifyTls_projects _ _)
  · exact hcall.trans (tlsInitErrHandling_projects _ _)

theorem tlsInitOpen_projects (w : World) (a : Answers σ) : Projects w (w.tlsInitOpen a) := by
  unfold tlsInitOpen
  split
  · exact tlsInitErrHandling_projects w _
  · dsimp only
    split
    · exact ((alloc_projects w).trans (modifyTls_projects _ _)).trans (tlsInitYield_projects _ _ _)
    · exact (alloc_projects w).trans (tlsInitErrHandling_projects _ _)

theorem tlsInitFrom_projects {cs : ConnCs} (h : w.tlsInitFrom cs s a = some w') : Projects w w' := by
  unfold tlsInitFrom at h
  split at h
  · split at h <;> obtain rfl := Option.some.inj h
    · exact tlsInitErrHandling_projects w _
    · exact tlsInitYield_projects w _ _
  · split at h
    · obtain rfl := Option.some.inj h
      exact tlsInitErrHandling_projects w _
    · unfold tlsInitLibrary at h
      split at h
      · cases h
      · split at h
        · cases h
        · split at h <;> obtain rfl := Option.some.inj h
          · exact (resourceManager_projects w _ _).trans (modifyTls_projects _ _)
          · exact tlsInitErrHandling_projects w _
          · exact tlsInitErrHandling_projects w _
  · split at h
    · obtain rfl := Option.some.inj h
      exact tlsInitErrHandling_projects w _
    · unfold tlsInitExit at h
      split at h
      · obtain rfl := Option.some.inj h
        exact (modifyTls_projects w _).trans (processOnPrev_projects _ _ _ (by decide))
      · cases h
  · obtain rfl := Option.some.inj h
    exact tlsInitOpen_projects w a

theorem tlsInit_projects (h : w.tlsInit s a = some w') : Projects w w' := by
  unfold tlsInit at h
  split at h
  · exact tlsInitFrom_projects h
  · dsimp only at h
    split at h
    · have hdata : Projects w { w.alloc.2 with tls := some {} } := .of_eq rfl rfl
      exact hdata.trans (tlsInitFrom_projects h)
    · obtain rfl := Option.some.inj h
      exact (alloc_projects w).trans (processOnThis_projects _ _ _ (.inl (by decide)))

/-- The layer goes on with what waits, and then with the next layer. -/
theorem next_projects (w : World) (pending : Bool) {func : LayerFunc} (s : IotcState)
    (h : func ≠ .postConnect) : Projects w
      ((if pending then w.processOnThis .tls .pull .wantRead else w).processOnNext .tls func s) := by
  have hpull : Projects w (if pending then w.processOnThis .tls .pull .wantRead else w) := by
    split
    · exact processOnThis_projects _ _ _ (.inl (by decide))
    · exact .refl w
  exact hpull.trans (processOnNext_projects _ _ _ h)

theorem connectHandlerStep_projects (w : World) (a : Answers σ) :
    Projects w (w.connectHandlerStep a) := by
  unfold connectHandlerStep
  split
  · exact .refl w
  · split
    · exact modifyTls_projects w _
    · exact modifyTls_projects w _
    · exact (modifyTls_projects w _).trans (next_projects _ _ _ (by decide))
    · exact (modifyTls_projects w _).trans (processOnThis_projects _ _ _ (.inl (by decide)))
    · exact (modifyTls_projects w _).trans (processOnThis_projects _ _ _ (.inl (by decide)))

theorem recvHandler_projects (w : World) (a : Answers σ) : Projects w (w.recvHandler a) := by
  unfold recvHandler
  let r := if w.tls.any (·.decodedBuffer) then (true, w) else w.alloc
  have hr : Projects w r.2 := by
    show Projects w (if _ then _ else _ : Bool × World).2
    split
    · exact .refl w
    · exact alloc_projects w
  refine hr.trans ?_
  change Projects r.2 (if r.1 = true then _ else _)
  split
  · split
    · exact modifyTls_projects _ _
    · exact (modifyTls_projects _ _).trans (next_projects _ _ _ (by decide))
    · exact (modifyTls_projects _ _).trans (processOnThis_projects _ _ _ (.inl (by decide)))
  · exact processOnThis_projects _ _ _ (.inl (by decide))

theorem tlsPull_projects (h : w.tlsPull s a = some w') : Projects w w' := by
  unfold tlsPull at h
  split at h
  · exact Option.some.inj h ▸ processOnThis_projects _ _ _ (.inl (by decide))
  · split at h
    · exact Option.some.inj h ▸ processOnThis_projects _ _ _ (.inl (by decide))
    · split at h
      · cases h
      · exact Option.some.inj h ▸ connectHandlerStep_projects _ _
      · exact Option.some.inj h ▸ recvHandler_projects _ _

theorem tlsPush_projects (h : w.tlsPush a = some w') : Projects w w' := by
  unfold tlsPush at h
  split at h
  · exact Option.some.inj h ▸ .refl w
  · split at h
    · exact Option.some.inj h ▸ .refl w
    · split at h
      · cases h
      · exact Option.some.inj h ▸ connectHandlerStep_projects _ _
      · exact Option.some.inj h ▸ .refl w

theorem tlsConnect_projects (w : World) (s : IotcState) (a : Answers σ) :
    Projects w (w.tlsConnect s a) := by
  unfold tlsConnect
  split
  · exact processOnNext_projects _ _ _ (by decide)
  · exact connectHandlerStep_projects w a

theorem tlsClose_projects (w : World) (s : IotcState) : Projects w (w.tlsClose s) := by
  unfold tlsClose
  split
  · exact processOnThis_projects _ _ _ (.inl (by decide))
  · exact processOnPrev_projects _ _ _ (by decide)

theorem tlsFree_projects (h : w.tlsFree s = some w') : Projects w w' := by
  have hdata : Projects w { w with tls := none } := .of_eq rfl rfl
  unfold tlsFree at h
  split at h
  · dsimp only at h
    split at h <;> obtain rfl := Option.some.inj h
    · exact hdata.trans (processOnThis_projects _ _ _ (.inl (by decide)))
    · exact hdata.trans (processOnNext_projects _ _ _ (by decide))
  · cases h

theorem tlsCloseExternally_projects (h : w.tlsCloseExternally s = some w') : Projects w w' := by
  have hcall := resourceManager_projects w .closeCoroutine (closeExternallyCallback s)
  unfold tlsCloseExternally at h
  split at h
  · dsimp only at h
    split at h
    · exact Option.some.inj h ▸ hcall
    · exact hcall.trans (tlsFree_projects h)
  · exact tlsFree_projects h

theorem mqttCodecInit_projects (h : w.mqttCodecInit s = some w') : Projects w w' := by
  unfold mqttCodecInit at h
  split at h
  · cases h
  · dsimp only at h
    split at h <;> obtain rfl := Option.some.inj h
    · have hdata : Projects w { w.alloc.2 with mqttCodec := true } := .of_eq rfl rfl
      exact hdata.trans (processOnPrev_projects _ _ _ (by decide))
    · exact (alloc_projects w).trans (processOnPrev_projects _ _ _ (by decide))

theorem mqttCodecPull_projects (w : World) (s : IotcState) (a : Answers σ) :
    Projects w (w.mqttCodecPull s a) := by
  unfold mqttCodecPull
  split
  · exact .refl w
  · split
    · exact processOnPrev_projects _ _ _ (by decide)
    · exact .refl w

theorem mqttCodecClose_projects (w : World) (s : IotcState) : Projects w (w.mqttCodecClose s) := by
  unfold mqttCodecClose
  split
  · exact processOnPrev_projects _ _ _ (by decide)
  · exact processOnThis_projects _ _ _ (.inl (by decide))

theorem mqttCodecCloseExternally_projects (w : World) (s : IotcState) :
    Projects w (w.mqttCodecCloseExternally s) := by
  have hdata : Projects w { w with mqttCodec := false } := .of_eq rfl rfl
  exact hdata.trans (processOnNext_projects _ _ _ (by decide))

/-! ## The logic layer -/

theorem callOfOutput_posts {o : Output} {c : Call} (h : callOfOutput o = some c)
    (hc : c.func = .postConnect) : ∃ s, o = .postConnectOnPrev s := by
  cases o <;> simp only [callOfOutput, Option.some.injEq, reduceCtorEq] at h <;> subst h <;>
    simp only [reduceCtorEq] at hc
  exact ⟨_, rfl⟩

/-- **A call of the logic layer**, which is not `post_connect`. -/
theorem mqttLogic_projects {e : Mqtt.Logic.World.Event} {oracle : Mqtt.Logic.World.Oracle}
    (he : ∀ s, e ≠ .postConnect s) (h : w.mqttLogic e oracle = some w') : Projects w w' := by
  intro hw
  obtain ⟨l, hl, rfl⟩ := Option.map_eq_some_iff.mp h
  obtain ⟨os, hout, hos⟩ := Mqtt.Logic.World.step_noPost hw.logic he hl
  refine ⟨⟨Mqtt.Logic.World.step_sound hw.logic hl, ?_⟩, [(e, oracle)], ?_, ?_⟩
  · intro c hc hpost
    rcases List.mem_append.mp hc with hc | hc
    · exact hw.posts c hc hpost
    · obtain ⟨o, ho, hcall⟩ := List.mem_filterMap.mp hc
      rw [hout, List.drop_left] at ho
      obtain ⟨s, rfl⟩ := callOfOutput_posts hcall hpost
      exact absurd ho (hos s)
  · rw [run_cons, hl]
    rfl
  · intro f hf
    obtain rfl := List.mem_singleton.mp hf
    exact he

/-! ## The control topic layer -/

/-- The layer has its own `post_connect` called. -/
theorem connectionStateChanged_projects (w : World) (s : IotcState) :
    Projects w (w.connectionStateChanged s) := by
  have htold (t : World) (ht : t.logic = w.logic) (hq : t.queue = w.queue) :
      Projects w (if s = .ok ∧ t.connectionState = .opened then
        t.processOnThis .controlTopic .postConnect s else t) := by
    have hkept : Projects w t := .of_eq ht hq
    split
    · exact hkept.trans (processOnThis_projects _ _ _ (.inr rfl))
    · exact hkept
  unfold connectionStateChanged
  dsimp only
  split
  · exact htold _ rfl rfl
  · exact htold _ rfl rfl

theorem controlTopicConnect_projects (w : World) (s : IotcState) :
    Projects w (w.controlTopicConnect s) := by
  unfold controlTopicConnect
  split
  · exact connectionStateChanged_projects w s
  · exact processOnPrev_projects _ _ _ (by decide)

theorem controlTopicClose_projects (h : w.controlTopicClose s = some w') : Projects w w' := by
  obtain ⟨w₁, h₁, rfl⟩ := Option.map_eq_some_iff.mp h
  exact (mqttLogic_projects (by simp) h₁).trans (processOnPrev_projects _ _ _ (by decide))

theorem controlTopicCloseExternally_projects (h : w.controlTopicCloseExternally s = some w') :
    Projects w w' := by
  obtain ⟨w₁, h₁, rfl⟩ := Option.map_eq_some_iff.mp h
  exact (mqttLogic_projects (by simp) h₁).trans (connectionStateChanged_projects w₁ s)

/-! ## Steps -/

/-- **A call that is made**, which is no `post_connect` below the top. -/
theorem perform_projects {c : Call} (hc : c.func = .postConnect → c.layer = .controlTopic)
    (h : w.perform c a = some w') : Projects w w' := by
  obtain ⟨layer, func, state⟩ := c
  cases layer <;> cases func <;> first | exact LayerId.noConfusion (hc rfl) | skip
  case io.init => exact Option.some.inj h ▸ ioInit_projects w
  case io.connect => exact Option.some.inj h ▸ ioConnect_projects w _ _
  case io.close => exact Option.some.inj h ▸ processOnThis_projects _ _ _ (.inl (by decide))
  case io.closeExternally => exact Option.some.inj h ▸ ioCloseExternally_projects w _
  case tls.init => exact tlsInit_projects h
  case tls.connect => exact Option.some.inj h ▸ tlsConnect_projects w _ _
  case tls.close => exact Option.some.inj h ▸ tlsClose_projects w _
  case tls.closeExternally => exact tlsCloseExternally_projects h
  case tls.pull => exact tlsPull_projects h
  case mqttCodec.init => exact mqttCodecInit_projects h
  case mqttCodec.connect => exact Option.some.inj h ▸ processOnNext_projects _ _ _ (by decide)
  case mqttCodec.close => exact Option.some.inj h ▸ mqttCodecClose_projects w _
  case mqttCodec.closeExternally => exact Option.some.inj h ▸ mqttCodecCloseExternally_projects w _
  case mqttCodec.pull => exact Option.some.inj h ▸ mqttCodecPull_projects w _ _
  case controlTopic.init => exact Option.some.inj h ▸ processOnPrev_projects _ _ _ (by decide)
  case controlTopic.connect => exact Option.some.inj h ▸ controlTopicConnect_projects w _
  case controlTopic.close => exact controlTopicClose_projects h
  case controlTopic.closeExternally => exact controlTopicCloseExternally_projects h
  case mqttLogic.init => exact mqttLogic_projects (by simp) h
  case mqttLogic.connect => exact mqttLogic_projects (by simp) h
  case mqttLogic.close => exact mqttLogic_projects (by simp) h
  case mqttLogic.closeExternally => exact mqttLogic_projects (by simp) h
  -- nothing is done
  all_goals exact Option.some.inj h ▸ .refl w

theorem callOf_func (callback : ResourceManager.Callback) :
    (callOf callback).func ≠ .postConnect := by
  unfold callOf
  dsimp only
  split <;> decide

/-- Callbacks that are performed one after the other. -/
theorem performed_projects : ∀ {log : List ResourceManager.Callback} {w : World},
    log.foldlM (fun w callback => w.perform (callOf callback) a) w = some w' → Projects w w'
  | [], w, h => Option.some.inj h ▸ .refl w
  | callback :: log, w, h => by
    rw [List.foldlM_cons] at h
    obtain ⟨w₁, h₁, h⟩ := Option.bind_eq_some_iff.mp h
    exact (perform_projects (fun hc => absurd hc (callOf_func callback)) h₁).trans
      (performed_projects h)

theorem resourceManaged_projects {d : TlsData} {rm : ResourceManager.World}
    (h : w.resourceManaged d rm a = some w') : Projects w w' := by
  have htaken : Projects w (w.takeOver d rm) := by
    refine .of_queue ((handed rm).map callOf) rfl rfl fun c hc hpost => ?_
    obtain ⟨callback, -, rfl⟩ := List.mem_map.mp hc
    exact absurd hpost (callOf_func callback)
  exact htaken.trans (performed_projects h)

theorem resource_projects {fd : Option Int} (h : w.resource fd a = some w') : Projects w w' := by
  unfold resource at h
  split at h
  · exact Option.some.inj h ▸ .refl w
  · split at h
    · exact Option.some.inj h ▸ .refl w
    · obtain ⟨rm, -, h⟩ := Option.bind_eq_some_iff.mp h
      exact resourceManaged_projects h

theorem connectTo_projects {d : ConnectionData} (h : w.connectTo d = some w') : Projects w w' := by
  unfold connectTo at h
  split at h
  · exact Option.some.inj h ▸ .refl w
  · dsimp only at h
    split at h
    · obtain ⟨w₁, h₁, rfl⟩ := Option.map_eq_some_iff.mp h
      refine ((alloc_projects w).trans (mqttLogic_projects (by simp) h₁)).trans ?_
      split
      · split <;> exact .of_eq rfl rfl
      · exact .of_eq rfl rfl
    · exact Option.some.inj h ▸ alloc_projects w

theorem fromOutside_ne {e : Mqtt.Logic.World.Event} (h : fromOutside e = true) (s : IotcState) :
    e ≠ .postConnect s := by
  rintro rfl
  cases h

/-- **A step of the chain** is a run of the logic layer. -/
theorem step_projects {e : Event × Answers σ} (hw : w.Projectable) (h : step w e = some w') :
    w'.Projectable ∧ Simulated Mqtt.Logic.World.step logic LogicCalls w w' := by
  obtain ⟨e, a⟩ := e
  have hmem : Projects w { w with mem := a.mem } := .of_eq rfl rfl
  refine (hmem.trans ?_) hw
  change ({ w with mem := a.mem } : World).stepWith a e = some w' at h
  cases e with
  | connectTo d => exact connectTo_projects h
  | shutdownConnection =>
    obtain rfl := Option.some.inj h
    unfold shutdownConnection
    split <;> exact .of_eq rfl rfl
  | startConnection =>
    change World.startConnection _ a = some w' at h
    unfold World.startConnection at h
    split at h
    · have hstarted : Projects { w with mem := a.mem }
          { w with mem := a.mem, connectHandler := false, notes := w.notes ++ [.started] } :=
        .of_eq rfl rfl
      exact hstarted.trans (perform_projects (by simp) h)
    · exact Option.some.inj h ▸ .refl _
  | dispatch =>
    change World.dispatch _ a = some w' at h
    unfold World.dispatch at h
    split at h
    · exact Option.some.inj h ▸ .refl _
    · next c queue hq =>
      intro hw
      have hrest : ({ w with mem := a.mem, queue } : World).Projectable :=
        ⟨hw.logic, fun d hd => hw.posts d (hq ▸ List.mem_cons_of_mem c hd)⟩
      obtain ⟨hw', hsim⟩ := perform_projects (hw.posts c (hq ▸ List.mem_cons_self)) h hrest
      exact ⟨hw', hsim⟩
  | resource fd => exact resource_projects h
  | socketConnected => exact Option.some.inj h ▸ socketConnected_projects _ _
  | ioPull result => exact Option.some.inj h ▸ ioPull_projects _ _
  | ioPush outcome => exact Option.some.inj h ▸ ioPush_projects _ _
  | tlsPush => exact tlsPush_projects h
  | mqttLogic e =>
    change (if _ then _ else _ : Option World) = some w' at h
    split at h
    · next he => exact mqttLogic_projects (fromOutside_ne he) h
    · exact Option.some.inj h ▸ .refl _

/-! ## A connection that is set up -/

theorem certificate_fits : ([0x61, 0x62] : Bytes).length < SizeT.size .bits32 := by decide

/-- A connection is set up: the certificate is opened, read and closed, the socket is connected, and the
broker accepts the client. -/
def setup : List (Event × Answers .bits32) :=
  [(.connectTo Mqtt.Logic.World.client, {}), (.startConnection, {}), (.dispatch, {}), (.dispatch, {}),
    (.dispatch, {}), (.resource none, { resource := { resourceSize := 2, resourceHandle := 7 } }),
    (.dispatch, {}), (.resource none, { resource := { buffer := some ⟨_, certificate_fits⟩ } }),
    (.dispatch, {}), (.resource none, {}), (.dispatch, {}), (.dispatch, {}), (.dispatch, {}),
    (.socketConnected, {}), (.dispatch, {}), (.dispatch, {}), (.dispatch, {}),
    (.mqttLogic (.written 0 .connect true), {}),
    (.mqttLogic (.pull (some Mqtt.Logic.World.connack) .ok), {}), (.dispatch, {}), (.dispatch, {})]

theorem setup_runs : (run step {} setup).isSome = true := by decide +kernel

/-- The chain with a connection. -/
def connected : World := (run step {} setup).get setup_runs

theorem run_setup : run step {} setup = some connected := (Option.some_get setup_runs).symm

example : connected.notes = [.accepted, .started, .told .opened .ok] := by decide +kernel

/-! ## Runs -/

/-- **The logic layer of a chain goes through a run of its own**, in which no call is `post_connect`. -/
theorem logic_run {es : List (Event × Answers σ)} (h : run step {} es = some w) :
    ∃ fs, run Mqtt.Logic.World.step {} fs = some w.logic ∧ ∀ f ∈ fs, ∀ s, f.1 ≠ .postConnect s := by
  have hempty : ({} : World).Projectable :=
    ⟨Mqtt.Logic.World.initial_sound, fun c hc => by cases hc⟩
  exact (run_simulated logicCalls_traced (fun _ _ _ hw _ h => step_projects hw h) hempty
    (allSteps_isSome h) h).2

theorem logic_run_connected : ∃ fs, run Mqtt.Logic.World.step {} fs = some connected.logic ∧
    ∀ f ∈ fs, ∀ s, f.1 ≠ .postConnect s := logic_run run_setup

end World

end IotDeviceSdk.Chain
