import IotDeviceSdk.Chain.Effects
import IotDeviceSdk.Chain.LogicRun

/-!
# No teardown is lost (`iotc_layer_stack.h`)

A connection is torn down by calls of `close` that go down the chain, by calls of `close_externally` that
go up, and by calls of `connect` with an error, which go up and come back as `close`. At the top the
application is told of the end of its connection. Several of them may be under way at once, since each
layer can begin one.

`World.underWay` counts the calls of these kinds that are to be made, with the one that the TLS layer has
left to the resource manager, and `World.told` how often the application has been told of an end. If there
is memory and files are closed without waiting, their sum never gets less: `teardowns_arrive`.
-/

namespace IotDeviceSdk.Chain

open Datastructures Infra Mqtt.Logic Tls

/-- A call that tears a connection down. -/
def Call.teardown (c : Call) : Bool :=
  match c.func with
  | .close | .closeExternally => true
  | .connect => c.state ≠ .ok
  | _ => false

/-- The application is told of the end of its connection. -/
def Note.ends : Note → Bool
  | .told connectionState _ => connectionState.final
  | _ => false

/-- There is memory, and files are closed without waiting. -/
structure Answers.Granted {σ : SizeT} (a : Answers σ) : Prop where
  mem : ∀ b ∈ a.mem, b = true
  logic : ∀ b ∈ a.logic.mem, b = true
  close : a.resource.closeState ≠ .wantRead

instance {σ : SizeT} (a : Answers σ) : Decidable a.Granted :=
  decidable_of_iff ((∀ b ∈ a.mem, b = true) ∧ (∀ b ∈ a.logic.mem, b = true) ∧
    a.resource.closeState ≠ .wantRead) ⟨fun h => ⟨h.1, h.2.1, h.2.2⟩, fun h => ⟨h.mem, h.logic, h.close⟩⟩

namespace World

variable {σ : SizeT} {w w' w'' : World} {cs : List Call} {m n : Nat} {a : Answers σ} {s : IotcState}

/-- The teardowns that are under way. -/
def underWay (w : World) : Nat := (w.queue ++ w.pending).countP Call.teardown

/-- How often the application has been told of an end. -/
def told (w : World) : Nat := w.notes.countP Note.ends

/-- The teardowns that are under way and those that have arrived. -/
def teardowns (w : World) : Nat := w.underWay + w.told

/-- The TLS layer waits for the resource manager only to close the certificate, whose coroutine is to
run. -/
structure Managed (rm : ResourceManager.World) : Prop extends Collected rm where
  closing : ∀ callback ∈ rm.ctx.callback, callback.id ≠ 0 → .coroutine .closeCoroutine ∈ rm.queue

/-- The resource manager of the chain. -/
def Clean (w : World) : Prop := ∀ rm ∈ w.rmContext, Managed rm

/-- On the way from `w` to `w'` no teardown is lost, and `n` come from outside. -/
def Carries (w w' : World) (n : Nat) : Prop :=
  w.Clean → w'.Clean ∧ w.teardowns + n ≤ w'.teardowns

theorem Carries.refl (w : World) : Carries w w 0 := fun h => ⟨h, Nat.le_refl _⟩

theorem Carries.trans (h : Carries w w' m) (h' : Carries w' w'' n) : Carries w w'' (m + n) := by
  intro hw
  obtain ⟨hw', hle⟩ := h hw
  obtain ⟨hw'', hle'⟩ := h' hw'
  exact ⟨hw'', by omega⟩

theorem Carries.of_le (h : Carries w w' m) (hn : n ≤ m) : Carries w w' n := fun hw =>
  ⟨(h hw).1, Nat.le_trans (Nat.add_le_add_left hn _) (h hw).2⟩

/-- What counts is the queue, the context of the resource manager and what the application is told. -/
theorem Carries.of_eq (hq : w'.queue = w.queue) (hrm : w'.rmContext = w.rmContext)
    (hn : w'.notes = w.notes) : Carries w w' 0 := by
  intro hw
  refine ⟨fun rm h => hw rm (hrm ▸ h), ?_⟩
  rw [teardowns, teardowns, underWay, underWay, pending, pending, told, told, hq, hrm, hn]
  exact Nat.le_refl _

/-- **Calls that are handed over** carry on what they are. -/
theorem Adds.carries (h : Adds w w' cs) : Carries w w' (cs.countP Call.teardown) := by
  intro hw
  refine ⟨fun rm hrm => hw rm (h.rmContext ▸ hrm), ?_⟩
  simp only [teardowns, underWay, told, h.queue, h.pending, h.notes, List.countP_append]
  omega

/-- A call that is passed on. -/
theorem Adds.passes {c d : Call} (h : Adds w w' [d]) (hd : d.teardown = c.teardown) :
    Carries w w' (if c.teardown then 1 else 0) := by
  refine h.carries.of_le ?_
  rw [List.countP_singleton, hd]

/-! ## The context of the resource manager -/

/-- A context in which no coroutine is to run keeps no teardown. -/
theorem pending_unused (hw : w.Clean) (hu : ∀ rm ∈ w.rmContext, Unused rm) :
    w.pending.countP Call.teardown = 0 := by
  unfold pending
  cases hrm : w.rmContext with
  | none => rfl
  | some rm =>
    cases hcallback : rm.ctx.callback with
    | none => simp [hcallback]
    | some callback =>
      have hid : callback.id = 0 := by
        by_contra hne
        have hmem := (hw rm hrm).closing callback hcallback hne
        rw [(hu rm hrm).1] at hmem
        cases hmem
      simp [hcallback, callOf, hid, Call.teardown]

theorem freed_carries (hu : ∀ rm ∈ w.rmContext, Unused rm) (hq : w'.queue = w.queue)
    (hrm : w'.rmContext = none) (hn : w'.notes = w.notes) : Carries w w' 0 := by
  intro hw
  refine ⟨fun rm h => by simp [hrm] at h, ?_⟩
  have hpending : w'.pending = [] := by rw [pending, hrm]; rfl
  have hzero := pending_unused hw hu
  simp only [teardowns, underWay, told, hpending, hq, hn, List.countP_append, hzero]
  simp

theorem managed_call {rm : ResourceManager.World} (h : Collected rm) {c : ResourceManager.Coroutine}
    {callback : ResourceManager.Callback} (hclose : callback.id ≠ 0 → c = .closeCoroutine)
    (hnot : ¬rm.Refuses c) : Managed (rm.call c callback true) := by
  refine ⟨collected_call h hnot callback, fun cb hcb hne => ?_⟩
  rw [call_eq hnot] at hcb ⊢
  obtain rfl := Option.some.inj hcb
  rw [hclose hne]
  exact List.mem_append_right _ (List.mem_singleton_self _)

/-- The resource manager has taken a callback. It had none before. -/
theorem called_carries {rm : ResourceManager.World} {c : ResourceManager.Coroutine}
    {callback : ResourceManager.Callback}
    (hrm : w.rmContext = some rm ∨ w.rmContext = none ∧ Collected rm ∧ w.tls.isSome = true)
    (hclose : callback.id ≠ 0 → c = .closeCoroutine) (hnot : ¬rm.Refuses c) :
    Carries w (w.setRmContext (some (rm.call c callback true)))
      ([callOf callback].countP Call.teardown) := by
  intro hw
  have ht : w.tls.isSome = true := hrm.elim tls_of_rmContext fun h => h.2.2
  have hcollected : Collected rm := hrm.elim (fun h => (hw rm h).toCollected) fun h => h.2.1
  have hset := rmContext_setRmContext ht (some (rm.call c callback true))
  have hcallback : rm.ctx.callback = none := by
    cases hcb : rm.ctx.callback with
    | none => rfl
    | some cb => exact absurd (.inl (by rw [hcb]; rfl)) hnot
  have hbefore : w.pending = [] := by
    rcases hrm with h | h
    · rw [pending, h, Option.bind_some, hcallback]
      rfl
    · rw [pending, h.1]
      rfl
  have hafter := pending_call ht hnot callback
  refine ⟨fun rm' h => ?_, ?_⟩
  · obtain rfl := Option.some.inj (hset.symm.trans h)
    exact managed_call hcollected hclose hnot
  · have hq : (w.setRmContext (some (rm.call c callback true))).queue = w.queue := rfl
    have hn : (w.setRmContext (some (rm.call c callback true))).notes = w.notes := rfl
    simp only [teardowns, underWay, told, hbefore, hafter, hq, hn, List.countP_append, List.countP_nil]
    omega

theorem TlsInits.carries (h : TlsInits w w') (ht : w.tls.isSome = true) : Carries w w' 0 := by
  cases h with
  | fails s hs h => exact h.carries.of_le (Nat.zero_le _)
  | yields rm c hrm hnot h =>
    have hcall : Carries w (w.setRmContext (some (rm.call c (initCallback .ok) true))) 0 :=
      (called_carries (hrm.imp_right fun h => ⟨h.1, h.2, ht⟩) (fun hne => absurd rfl hne) hnot).of_le
        (Nat.zero_le _)
    exact hcall.trans h.carries
  | stuck h => exact h.carries
  | exits hunused h =>
    have hfreed : Carries w (w.setRmContext none) 0 :=
      freed_carries hunused rfl (rmContext_setRmContext ht none) rfl
    exact hfreed.trans h.carries

/-! ## The logic layer -/

/-- What the logic layer hands over comes on top. -/
theorem mqttLogic_carries {e : Mqtt.Logic.World.Event} {oracle : Mqtt.Logic.World.Oracle}
    (h : w.mqttLogic e oracle = some w') : Carries w w' 0 := by
  intro hw
  obtain ⟨l, -, rfl⟩ := Option.map_eq_some_iff.mp h
  refine ⟨hw, ?_⟩
  change w.teardowns ≤ ((w.queue ++ _) ++ w.pending).countP Call.teardown + w.told
  simp only [teardowns, underWay, List.countP_append]
  omega

/-- A call of the logic layer that ends with a teardown. -/
theorem mqttLogic_carries_call {e : Mqtt.Logic.World.Event} {oracle : Mqtt.Logic.World.Oracle}
    (hcalls : ∀ l, w.logic.step (e, oracle) = some l →
      ∃ os o, w.logic.Calls l os o ∧ ∃ c, callOfOutput o = some c ∧ c.teardown = true)
    (h : w.mqttLogic e oracle = some w') : Carries w w' 1 := by
  intro hw
  obtain ⟨l, hl, rfl⟩ := Option.map_eq_some_iff.mp h
  obtain ⟨os, o, hcalls, c, hc, hteardown⟩ := hcalls l hl
  refine ⟨hw, ?_⟩
  have hout : (l.context.out.drop w.logic.context.out.length).filterMap callOfOutput =
      os.filterMap callOfOutput ++ [c] := by
    rw [hcalls.out, List.drop_left, List.filterMap_append]
    simp [hc]
  change w.teardowns + 1 ≤ ((w.queue ++ _) ++ w.pending).countP Call.teardown + w.told
  rw [hout]
  simp only [teardowns, underWay, List.countP_append, List.countP_singleton, hteardown, if_true]
  omega

/-! ## A call that is made -/

/-- The application is told of an end, or not. -/
theorem connectionStateChanged_carries (hm : w.Granted) (s : IotcState) :
    Carries w (w.connectionStateChanged s) (if w.connectionState.final then 1 else 0) := by
  obtain ⟨cs, h, -⟩ := connectionStateChanged_adds hm s
  have htold : Carries w { w with notes := w.notes ++ [.told w.connectionState s] }
      (if w.connectionState.final then 1 else 0) := by
    intro hw
    refine ⟨hw, ?_⟩
    change w.underWay + w.told + _ ≤ w.underWay + (w.notes ++ [_]).countP Note.ends
    rw [List.countP_append, List.countP_singleton, Note.ends, told]
    omega
  exact (htold.trans h.carries).of_le (Nat.le_add_right _ _)

theorem mqttLogic_granted {e : Mqtt.Logic.World.Event} {oracle : Mqtt.Logic.World.Oracle}
    (hm : w.Granted) (h : w.mqttLogic e oracle = some w') : w'.Granted := by
  obtain ⟨l, -, rfl⟩ := Option.map_eq_some_iff.mp h
  exact hm

theorem controlTopicCloseExternally_carries (hm : w.Granted)
    (h : w.controlTopicCloseExternally s = some w') : Carries w w' 1 := by
  obtain ⟨w₁, h₁, rfl⟩ := Option.map_eq_some_iff.mp h
  have hfinal : w₁.connectionState.final = true := by
    obtain ⟨l, hl, rfl⟩ := Option.map_eq_some_iff.mp h₁
    obtain rfl := Option.some.inj hl
    show (if w.connectionState = .opening then ConnectionState.openFailed else .closed).final = true
    split <;> rfl
  have htold := connectionStateChanged_carries (mqttLogic_granted hm h₁) s
  rw [hfinal, if_pos rfl] at htold
  exact ((mqttLogic_carries h₁).trans htold).of_le (Nat.le_refl _)

theorem Frees.carries (h : Frees w w' s) : Carries w w' 1 := by
  obtain ⟨hunused, h⟩ := h
  have hfreed : Carries w { w with tls := none } 0 := freed_carries hunused rfl rfl rfl
  rcases h with ⟨hs, h⟩ | h
  · exact (hfreed.trans h.carries).of_le (by simp [Call.teardown, hs])
  · exact (hfreed.trans h.carries).of_le (by simp [Call.teardown])

theorem tlsCloseExternally_carries (hm : w.Granted) (h : w.tlsCloseExternally s = some w') :
    Carries w w' 1 := by
  rcases tlsCloseExternally_cases hm h with h | ⟨rm, hrm, hnot, h⟩
  · exact h.carries
  · -- the resource manager keeps the teardown
    have hcall : Carries w (w.setRmContext (some (rm.call .closeCoroutine (closeExternallyCallback s)
        true))) 1 := called_carries (.inl hrm) (fun _ => rfl) hnot
    exact (hcall.trans h.carries).of_le (Nat.le_refl _)

theorem Handled.carries (h : Handled w w') : Carries w w' 0 := by
  obtain ⟨cs, h, -⟩ := h
  exact h.carries.of_le (Nat.zero_le _)

theorem tlsInit_carries (hm : w.Granted) (h : w.tlsInit s a = some w') : Carries w w' 0 := by
  rcases tlsInit_inits hm h with ⟨h, ht⟩ | ⟨hnone, W, -, hdata, h⟩
  · exact h.carries ht
  · have hnew : Carries w { w with tls := some {} } 0 :=
      .of_eq rfl (by simp [rmContext, hnone]) rfl
    exact (hnew.trans hdata.carries).trans (h.carries (hdata.tls.trans rfl))

theorem ioConnect_carries (hm : w.Granted) (s : IotcState) (connected : Bool) :
    Carries w (w.ioConnect s connected) (if s = .ok then 0 else 1) := by
  rcases ioConnect_adds hm s connected with ⟨s', hs, h⟩ | ⟨rfl, -, h⟩
  · refine h.carries.of_le ?_
    split
    · exact Nat.zero_le _
    · next hne => simp [Call.teardown, hs hne, hne]
  · have hdata : Carries w { w with io := some ⟨true, true, true⟩ } 0 := .of_eq rfl rfl rfl
    exact hdata.trans h.carries

/-- The logic layer closes the layer below it or itself, or goes on to the layer above. -/
theorem mqttLogic_teardown (hs : w.logic.Sound) {oracle : Mqtt.Logic.World.Oracle}
    (hm : ∀ b ∈ oracle.mem, b = true) {e : Mqtt.Logic.World.Event}
    (he : e = .close s ∨ e = .closeExternally s ∨ e = .connect s ∧ s ≠ .ok)
    (h : w.mqttLogic e oracle = some w') : Carries w w' 1 := by
  refine mqttLogic_carries_call (fun l hl => ?_) h
  rcases he with rfl | rfl | ⟨rfl, hne⟩
  · refine ⟨_, _, (Mqtt.Logic.World.close_calls hm hl).1, ?_⟩
    split
    · exact ⟨_, rfl, rfl⟩
    · exact ⟨_, rfl, rfl⟩
  · rcases Mqtt.Logic.World.closeExternally_calls hs hm hl with ⟨hne, hcalls, -⟩ | ⟨⟨os, hcalls⟩, -⟩
    · exact ⟨_, _, hcalls, _, rfl, by simp [Call.teardown, hne]⟩
    · exact ⟨_, _, hcalls, _, rfl, rfl⟩
  · exact ⟨_, _, (Mqtt.Logic.World.connect_calls hne hm hl).1, _, rfl, by simp [Call.teardown, hne]⟩

/-- `iotc_layer_default_post_connect` -/
theorem postConnect_carries (hm : w.Granted) (l : LayerId) (data : Bool) (s : IotcState) :
    Carries w (if data then w.processOnPrev l .postConnect s else w) 0 := by
  split
  · unfold processOnPrev
    cases hl : l.prev with
    | none => exact .refl w
    | some k => exact (adds_continueWith hm l k .postConnect s).carries
  · exact .refl w

theorem ioInit_carries (hm : w.Granted) : Carries w w.ioInit 0 := by
  rcases ioInit_adds hm with ⟨-, heq⟩ | ⟨-, h⟩
  · rw [heq]
    exact .refl w
  · have hdata : Carries w { w with io := some {} } 0 := .of_eq rfl rfl rfl
    exact hdata.trans h.carries

theorem mqttCodecPull_carries (hm : w.Granted) (s : IotcState) (a : Answers σ) :
    Carries w (w.mqttCodecPull s a) 0 := by
  rcases mqttCodecPull_adds hm s a with heq | ⟨-, s', h⟩
  · rw [heq]
    exact .refl w
  · exact h.carries.of_le (Nat.zero_le _)

/-- A layer that frees its data passes the call on. -/
theorem Carries.passes {W : World} {c d : Call} (hw : Carries w W 0) (h : Adds W w' [d])
    (hd : d.teardown = c.teardown) : Carries w w' (if c.teardown then 1 else 0) :=
  (hw.trans (h.passes hd)).of_le (Nat.le_of_eq (Nat.zero_add _).symm)

/-- **A call that is made carries on its teardown.** -/
theorem perform_carries {c : Call} (hs : w.logic.Sound) (hm : w.Granted)
    (hlogic : ∀ b ∈ a.logic.mem, b = true) (h : w.perform c a = some w') :
    Carries w w' (if c.teardown then 1 else 0) := by
  obtain ⟨layer, func, s⟩ := c
  cases layer <;> cases func
  case io.init => exact Option.some.inj h ▸ ioInit_carries hm
  case io.connect =>
    refine Option.some.inj h ▸ (ioConnect_carries hm s _).of_le ?_
    simp [Call.teardown]
  case io.close => exact Option.some.inj h ▸ (ioClose_adds hm s).passes rfl
  case io.closeExternally =>
    have hdata : Carries w { w with io := none } 0 := .of_eq rfl rfl rfl
    exact Option.some.inj h ▸ hdata.passes (ioCloseExternally_adds hm s) rfl
  case tls.init => exact tlsInit_carries hm h
  case tls.connect =>
    refine Option.some.inj h ▸ ?_
    rcases tlsConnect_adds hm s a with h | ⟨hs, -, h⟩
    · exact h.passes rfl
    · exact h.carries.of_le (by simp [Call.teardown, hs])
  case tls.close =>
    refine Option.some.inj h ▸ ?_
    rcases tlsClose_adds hm s with ⟨-, h⟩ | ⟨-, h⟩ <;> exact h.passes rfl
  case tls.closeExternally => exact tlsCloseExternally_carries hm h
  case tls.pull => exact (tlsPull_handled hm h).1.carries
  case mqttCodec.init =>
    have hdata : Carries w { w with mqttCodec := true } 0 := .of_eq rfl rfl rfl
    exact hdata.passes (mqttCodecInit_adds hm h).2 rfl
  case mqttCodec.connect => exact Option.some.inj h ▸ (mqttCodecConnect_adds hm s).passes rfl
  case mqttCodec.close =>
    refine Option.some.inj h ▸ ?_
    rcases mqttCodecClose_adds hm s with ⟨-, h⟩ | ⟨-, h⟩ <;> exact h.passes rfl
  case mqttCodec.closeExternally =>
    have hdata : Carries w { w with mqttCodec := false } 0 := .of_eq rfl rfl rfl
    exact Option.some.inj h ▸ hdata.passes (mqttCodecCloseExternally_adds hm s) rfl
  case mqttCodec.pull => exact Option.some.inj h ▸ mqttCodecPull_carries hm s a
  case mqttLogic.init => exact mqttLogic_carries h
  case mqttLogic.connect =>
    by_cases hne : s = .ok
    · exact (mqttLogic_carries h).of_le (by simp [Call.teardown, hne])
    · exact (mqttLogic_teardown hs hlogic (.inr (.inr ⟨rfl, hne⟩)) h).of_le (by split <;> decide)
  case mqttLogic.close => exact mqttLogic_teardown hs hlogic (.inl rfl) h
  case mqttLogic.closeExternally => exact mqttLogic_teardown hs hlogic (.inr (.inl rfl)) h
  case mqttLogic.postConnect => exact mqttLogic_carries h
  case controlTopic.init =>
    exact Option.some.inj h ▸ (adds_continueWith hm .controlTopic .mqttLogic .init s).passes rfl
  case controlTopic.connect =>
    refine Option.some.inj h ▸ ?_
    change Carries w (if s = .ok then _ else _) _
    by_cases hs : s = .ok
    · rw [if_pos hs]
      exact (connectionStateChanged_carries hm s).of_le (by simp [Call.teardown, hs])
    · rw [if_neg hs]
      refine (adds_continueWith hm .controlTopic .mqttLogic .close s).carries.of_le ?_
      split <;> simp [Call.teardown]
  case controlTopic.close =>
    obtain ⟨w₁, h₁, rfl⟩ := Option.map_eq_some_iff.mp (show w.controlTopicClose s = some w' from h)
    exact (mqttLogic_carries h₁).passes
      (adds_continueWith (mqttLogic_granted hm h₁) .controlTopic .mqttLogic .close s) rfl
  case controlTopic.closeExternally => exact controlTopicCloseExternally_carries hm h
  case io.postConnect => exact Option.some.inj h ▸ postConnect_carries hm .io w.io.isSome s
  case tls.postConnect => exact Option.some.inj h ▸ postConnect_carries hm .tls w.tls.isSome s
  case mqttCodec.postConnect =>
    exact Option.some.inj h ▸ postConnect_carries hm .mqttCodec w.mqttCodec s
  -- nothing is done
  all_goals exact Option.some.inj h ▸ .refl w

/-! ## Steps -/

theorem teardown_callOf (callback : ResourceManager.Callback) (s : IotcState) :
    (callOf (callback.setCallbackState s)).teardown = (callOf callback).teardown := by
  unfold ResourceManager.Callback.setCallbackState
  split
  · by_cases hid : callback.id = 0 <;> simp [callOf, Call.teardown, hid]
  · rfl

/-- What the resource manager keeps for the layer, it hands over or invokes. -/
theorem resource_carries (hs : w.logic.Sound) (hm : w.Granted) (ha : a.Granted) {fd : Option Int}
    (h : w.resource fd a = some w') : Carries w w' 0 := by
  intro hw
  rcases resource_cases (fun rm h => (hw rm h).toCollected) h with rfl | ⟨rm, rm', hrm, hcollected, h⟩
  · exact Carries.refl _ hw
  · have hset := rmContext_setRmContext (tls_of_rmContext hrm) (some rm')
    have hbefore : w.pending = rm.ctx.callback.toList.map callOf := by
      rw [pending, hrm, Option.bind_some]
    have hafter : (w.setRmContext (some rm')).pending = rm'.ctx.callback.toList.map callOf := by
      rw [pending, hset, Option.bind_some]
    -- a context without a callback
    have hclean (hnone : rm'.ctx.callback = none) : (w.setRmContext (some rm')).Clean := by
      intro rm'' h
      obtain rfl := Option.some.inj (hset.symm.trans h)
      exact ⟨hcollected, fun callback hcallback => by simp [hnone] at hcallback⟩
    cases h with
    | keeps hcallback hclose h =>
      subst h
      refine ⟨fun rm'' h => ?_, ?_⟩
      · obtain rfl := Option.some.inj (hset.symm.trans h)
        refine ⟨hcollected, fun callback hmem hne => ?_⟩
        rw [hcallback] at hmem
        have hsome : rm.ctx.callback.isSome = true := by rw [Option.mem_def.mp hmem]; rfl
        exact hclose ha.close hsome ((hw rm hrm).closing callback hmem hne)
      · change (w.queue ++ w.pending).countP Call.teardown + w.told ≤
          (w.queue ++ (w.setRmContext (some rm')).pending).countP Call.teardown + w.told
        rw [hbefore, hafter, hcallback]
    | hands callback s hsome hnone h =>
      subst h
      refine ⟨hclean hnone, ?_⟩
      change (w.queue ++ w.pending).countP Call.teardown + w.told ≤ ((w.queue ++ [_]) ++
        (w.setRmContext (some rm')).pending).countP Call.teardown + w.told
      rw [hbefore, hafter, hsome, hnone]
      simp only [Option.toList_some, Option.toList_none, List.map_cons, List.map_nil,
        List.countP_append, List.countP_singleton, List.countP_nil, teardown_callOf]
      exact Nat.le_refl _
    | invokes callback s hsome hnone h =>
      have hcarries := perform_carries (w := w.setRmContext (some rm')) hs hm ha.logic h
      obtain ⟨hclean', hle⟩ := hcarries (hclean hnone)
      refine ⟨hclean', Nat.le_trans ?_ hle⟩
      change (w.queue ++ w.pending).countP Call.teardown + w.told ≤
        (w.queue ++ (w.setRmContext (some rm')).pending).countP Call.teardown + w.told + _
      rw [hbefore, hafter, hsome, hnone]
      simp only [Option.toList_some, Option.toList_none, List.map_cons, List.map_nil,
        List.countP_append, List.countP_singleton, List.countP_nil, teardown_callOf]
      omega

theorem socketConnected_carries (hm : w.Granted) (connected : Bool) :
    Carries w (w.socketConnected connected) 0 := by
  unfold socketConnected
  split
  · exact .refl w
  · next d hd =>
    split
    · have hdata : Carries w { w with io := some { d with wantConnect := false } } 0 :=
        .of_eq rfl rfl rfl
      exact hdata.trans (ioConnect_carries
        (w := { w with io := some { d with wantConnect := false } }) hm .ok connected)
    · exact .refl w

theorem connectTo_carries {d : ConnectionData} (h : w.connectTo d = some w') : Carries w w' 0 := by
  unfold connectTo at h
  split at h
  · exact Option.some.inj h ▸ .refl w
  · dsimp only at h
    split at h
    · obtain ⟨w₁, h₁, rfl⟩ := Option.map_eq_some_iff.mp h
      refine ((adds_alloc w).carries.trans (mqttLogic_carries h₁)).trans (n := 0) ?_
      have hnoted (W : World) : Carries W { W with connectHandler := true
                                                   notes := W.notes ++ [.accepted] } 0 := by
        refine fun hW => ⟨hW, ?_⟩
        change W.underWay + W.told + 0 ≤ W.underWay + (W.notes ++ [Note.accepted]).countP Note.ends
        rw [List.countP_append, told]
        omega
      split
      · split
        · exact ((adds_alloc w₁).carries.trans (adds_alloc _).carries).trans (hnoted _)
        · exact (adds_alloc w₁).carries.trans (adds_alloc _).carries
      · exact (adds_alloc w₁).carries
    · exact Option.some.inj h ▸ (adds_alloc w).carries

/-- **A step keeps every teardown.** -/
theorem step_carries {e : Event × Answers σ} (hs : w.logic.Sound) (ha : e.2.Granted)
    (h : step w e = some w') : Carries w w' 0 := by
  obtain ⟨e, a⟩ := e
  have hm : ({ w with mem := a.mem } : World).Granted := ha.mem
  have hmem : Carries w { w with mem := a.mem } 0 := .of_eq rfl rfl rfl
  refine hmem.trans (n := 0) ?_
  change ({ w with mem := a.mem } : World).stepWith a e = some w' at h
  cases e with
  | connectTo d => exact connectTo_carries h
  | shutdownConnection =>
    obtain rfl := Option.some.inj h
    unfold shutdownConnection
    split
    · refine fun hw => ⟨hw, ?_⟩
      change w.underWay + w.told + 0 ≤ w.underWay + (w.notes ++ [Note.cancelled]).countP Note.ends
      rw [List.countP_append, told]
      omega
    · exact .refl _
  | startConnection =>
    change World.startConnection _ a = some w' at h
    unfold World.startConnection at h
    split at h
    · have hstarted : Carries { w with mem := a.mem }
          { w with mem := a.mem, connectHandler := false, notes := w.notes ++ [.started] } 0 := by
        refine fun hw => ⟨hw, ?_⟩
        change w.underWay + w.told + 0 ≤ w.underWay + (w.notes ++ [Note.started]).countP Note.ends
        rw [List.countP_append, told]
        omega
      exact hstarted.trans (perform_carries (w := { w with mem := a.mem, connectHandler := false
                                                           notes := w.notes ++ [.started] })
        hs hm ha.logic h)
    · exact Option.some.inj h ▸ .refl _
  | dispatch =>
    change World.dispatch _ a = some w' at h
    unfold World.dispatch at h
    split at h
    · exact Option.some.inj h ▸ .refl _
    · next c queue hq =>
      intro hw
      -- the call leaves the queue, and comes back as what it does
      obtain ⟨hclean, hle⟩ := perform_carries (w := { w with mem := a.mem, queue }) hs hm ha.logic h hw
      refine ⟨hclean, Nat.le_trans ?_ hle⟩
      change w.underWay + w.told + 0 ≤ (queue ++ w.pending).countP Call.teardown + w.told + _
      rw [underWay, show w.queue = c :: queue from hq, List.cons_append, List.countP_cons]
      omega
  | resource fd => exact resource_carries (w := { w with mem := a.mem }) hs hm ha h
  | socketConnected => exact Option.some.inj h ▸ socketConnected_carries hm _
  | ioPull result =>
    obtain ⟨cs, hadds, -⟩ := ioPull_adds hm result
    exact Option.some.inj h ▸ hadds.carries.of_le (Nat.zero_le _)
  | ioPush outcome =>
    obtain ⟨cs, hadds, -⟩ := ioPush_adds hm outcome
    exact Option.some.inj h ▸ hadds.carries.of_le (Nat.zero_le _)
  | tlsPush => exact (tlsPush_handled hm h).1.carries
  | mqttLogic e =>
    change (if _ then _ else _ : Option World) = some w' at h
    split at h
    · exact mqttLogic_carries h
    · exact Option.some.inj h ▸ .refl _

/-- A step with memory. -/
def StepGranted (_ : World) (e : Event × Answers σ) : Prop := e.2.Granted

instance (w : World) (e : Event × Answers σ) : Decidable (StepGranted w e) :=
  inferInstanceAs (Decidable e.2.Granted)

/-- The logic layer and the resource manager after a run with memory, and what it has carried on. -/
theorem run_carries {es : List (Event × Answers σ)} (hw : w.Projectable) (hc : w.Clean)
    (ha : AllSteps step StepGranted w es) (h : run step w es = some w') :
    (w'.Projectable ∧ w'.Clean) ∧ w.teardowns ≤ w'.teardowns :=
  run_invariant_of (P := fun u => (u.Projectable ∧ u.Clean) ∧ w.teardowns ≤ u.teardowns)
    (fun u e u' hu hgranted hstep => by
      obtain ⟨hclean, hle⟩ := step_carries hu.1.1.logic hgranted hstep hu.1.2
      exact ⟨⟨(step_projects hu.1.1 hstep).1, hclean⟩, Nat.le_trans hu.2 hle⟩)
    ⟨⟨hw, hc⟩, Nat.le_refl _⟩ ha h

/-- The peer resets the connection. -/
def reset : List (Event × Answers .bits32) :=
  List.append setup [(.ioPull .connectionReset, {})]

/-- Each layer is closed. -/
def unwind : List (Event × Answers .bits32) := List.replicate 5 (.dispatch, {})

theorem reset_granted : ∀ e ∈ reset, e.2.Granted := by decide +kernel

theorem unwind_granted : ∀ e ∈ unwind, e.2.Granted := by decide +kernel

theorem reset_runs : (run step {} reset).isSome = true := by decide +kernel

/-- The chain once the network layer has found the connection reset. -/
def resetting : World := (run step {} reset).get reset_runs

theorem unwind_runs : (run step resetting unwind).isSome = true := by decide +kernel

/-- The chain once the application has been told. -/
def unwound : World := (run step resetting unwind).get unwind_runs

example : resetting.underWay = 1 ∧ unwound.told = 1 := by decide +kernel

end World

end IotDeviceSdk.Chain
