import IotDeviceSdk.Chain.Effects
import IotDeviceSdk.Infra.Run
import IotDeviceSdk.Mqtt.Logic.Calls

/-!
# What a setup and a teardown find (`iotc_layer_stack.h`)

The layers get their data from the logic layer down and lose them from the network layer up:
`Shape.Stacked`. A call that sets up or tears down expects the layers to be in a certain state:
`Shape.Fits`. Here it is shown, for each function of a layer, that what it hands over fits again, if no
other such call is under way: `World.Arrives`.
-/

namespace IotDeviceSdk.Chain

open Datastructures Infra Mqtt.Logic Tls

/-! ## What the application sees -/

/-- Where the connection of an application is. -/
inductive Phase where
  | idle
  | scheduled
  | running
  deriving DecidableEq, Repr

/-- What happens to a connection, one thing after another. -/
def Lifecycle.step : Phase → Note → Option Phase
  | .idle, .accepted => some .scheduled
  | .scheduled, .cancelled => some .idle
  | .scheduled, .started => some .running
  | .running, .told connectionState _ => some (if connectionState.final then .idle else .running)
  | _, _ => none

/-! ## Which call fits which layers -/

/-- A call that sets a connection up or tears it down. -/
def Call.lifecycle (c : Call) : Bool :=
  match c.func with
  | .pull | .postConnect => false
  | _ => true

/-- The layers that have data, and whether the connection is over. -/
structure Shape where
  io : Bool
  tls : Bool
  mqttCodec : Bool
  mqttLogic : Bool
  final : Bool
  deriving DecidableEq, Repr

namespace Shape

/-- A layer has data only if the one above it does, and none has data once the connection is over. -/
structure Stacked (s : Shape) : Prop where
  tls : s.io = true → s.tls = true
  mqttCodec : s.tls = true → s.mqttCodec = true
  mqttLogic : s.mqttCodec = true → s.mqttLogic = true
  final : s.mqttLogic = true → s.final = false

/-- What a call expects. A layer is initialised while it has no data and the one above it does, and it is
closed externally once the one below it has none. The TLS layer is initialised in several calls. -/
def Fits (s : Shape) (c : Call) : Prop :=
  match c.func, c.layer with
  | .init, .controlTopic => False
  | .init, .mqttLogic => s.mqttLogic = false
  | .init, .mqttCodec => s.mqttLogic = true ∧ s.mqttCodec = false
  | .init, .tls => s.mqttCodec = true ∧ s.io = false
  | .init, .io => s.tls = true ∧ s.io = false
  | .connect, _ | .close, _ | .closeExternally, .io => s.mqttLogic = true
  | .closeExternally, .tls => s.mqttLogic = true ∧ s.io = false
  | .closeExternally, .mqttCodec => s.mqttLogic = true ∧ s.tls = false
  | .closeExternally, .mqttLogic => s.mqttLogic = true ∧ s.mqttCodec = false
  | .closeExternally, .controlTopic => s.mqttLogic = false ∧ s.final = false
  | .pull, _ | .postConnect, _ => True

variable {s : Shape} {c : Call}

theorem fits_of_not_lifecycle (h : c.lifecycle = false) : s.Fits c := by
  obtain ⟨layer, func, state⟩ := c
  cases func
  case pull => trivial
  case postConnect => trivial
  all_goals cases h

/-- A call of `connect` or of `close` only needs the logic layer. -/
theorem fits_of_mqttLogic (h : s.mqttLogic = true) (hc : c.func = .connect ∨ c.func = .close) :
    s.Fits c := by
  obtain ⟨layer, func, state⟩ := c
  rcases hc with rfl | rfl <;> exact h

namespace Stacked

variable (h : s.Stacked)
include h

theorem tls_eq_false (hcodec : s.mqttCodec = false) : s.tls = false :=
  Bool.eq_false_iff.mpr fun ht => by simp [h.mqttCodec ht] at hcodec

theorem io_eq_false (htls : s.tls = false) : s.io = false :=
  Bool.eq_false_iff.mpr fun hio => by simp [h.tls hio] at htls

theorem mqttCodec_eq_false (hlogic : s.mqttLogic = false) : s.mqttCodec = false :=
  Bool.eq_false_iff.mpr fun hc => by simp [h.mqttLogic hc] at hlogic

theorem mqttLogic_eq_false (hfinal : s.final = true) : s.mqttLogic = false :=
  Bool.eq_false_iff.mpr fun hl => by simp [h.final hl] at hfinal

theorem mqttLogic_of_tls (htls : s.tls = true) : s.mqttLogic = true := h.mqttLogic (h.mqttCodec htls)

theorem mqttLogic_of_io (hio : s.io = true) : s.mqttLogic = true := h.mqttLogic_of_tls (h.tls hio)

end Stacked

end Shape

/-- A call on the TLS layer to read. -/
def Call.tlsPull (c : Call) : Bool := c.layer = .tls && c.func = .pull

/-- Each call on the TLS layer to read is followed by a call that sets up or tears down. -/
def Followed : List Call → Prop
  | [] => True
  | c :: cs => (c.tlsPull = true → 0 < cs.countP Call.lifecycle) ∧ Followed cs

theorem Followed.append {cs ds : List Call} (h : Followed cs) (hd : ∀ d ∈ ds, d.tlsPull = false) :
    Followed (cs ++ ds) := by
  induction cs with
  | nil =>
    induction ds with
    | nil => trivial
    | cons d ds ih =>
      refine ⟨fun hpull => ?_, ih fun d hm => hd d (List.mem_cons_of_mem _ hm)⟩
      rw [hd d List.mem_cons_self] at hpull
      cases hpull
  | cons c cs ih =>
    refine ⟨fun hpull => ?_, ih h.2⟩
    show 0 < (cs ++ ds).countP Call.lifecycle
    rw [List.countP_append]
    exact Nat.lt_of_lt_of_le (h.1 hpull) (Nat.le_add_right _ _)

theorem tlsPull_of_lifecycle {c : Call} (h : c.lifecycle = true) : c.tlsPull = false := by
  obtain ⟨layer, func, state⟩ := c
  cases func
  case pull => cases h
  all_goals exact Bool.and_false _

/-- Whatever is in the queue, a call that sets up or tears down is behind it. -/
theorem followed_concat {c : Call} (hc : c.lifecycle = true) (cs : List Call) :
    Followed (cs ++ [c]) := by
  induction cs with
  | nil => exact ⟨fun hpull => by simp [tlsPull_of_lifecycle hc] at hpull, trivial⟩
  | cons d cs ih =>
    refine ⟨fun _ => ?_, ih⟩
    show 0 < (cs ++ [c]).countP Call.lifecycle
    rw [List.countP_append, List.countP_singleton, if_pos hc]
    exact Nat.succ_pos _

namespace World

variable {σ : SizeT} {w w' W : World} {cs : List Call} {c : Call} {a : Answers σ} {s : IotcState}

/-! ## The chain in order -/

def shape (w : World) : Shape where
  io := w.io.isSome
  tls := w.tls.isSome
  mqttCodec := w.mqttCodec
  mqttLogic := w.logic.context.layerData
  final := w.connectionState.final

/-- The calls that are to be made: by the dispatcher, by the resource manager, and when the socket is
connected. -/
def inFlight (w : World) : List Call :=
  w.queue ++ w.pending ++ if w.waits then [⟨.io, .connect, .ok⟩] else []

/-- How many calls that set up or tear down are under way. -/
def lifecycles (w : World) : Nat := w.inFlight.countP Call.lifecycle

def phase (w : World) : Phase :=
  if w.connectHandler then .scheduled
  else if w.connectionState.final = true ∧ w.lifecycles = 0 then .idle
  else .running

/-- The layers are stacked, and every call finds them as it expects them. A connection is to be started
only while there is none. -/
structure Core (w : World) : Prop where
  leaked : w.logic.leaked = []
  collected : ∀ rm ∈ w.rmContext, Collected rm
  stacked : w.shape.Stacked
  fits : ∀ c ∈ w.inFlight, w.shape.Fits c
  followed : w.tls = none → Followed w.queue
  scheduled : w.connectHandler = true → w.lifecycles = 0 ∧ w.connectionState.final = true

/-- The chain without the call that is being made. -/
structure Quiet (w : World) : Prop where
  leaked : w.logic.leaked = []
  collected : ∀ rm ∈ w.rmContext, Collected rm
  stacked : w.shape.Stacked
  lifecycles : w.lifecycles = 0
  connectHandler : w.connectHandler = false

theorem Adds.shape (h : Adds w w' cs) : w'.shape = w.shape := by
  simp [World.shape, connectionState, h.io, h.tls, h.mqttCodec, h.logic]

theorem Adds.mem_inFlight (h : Adds w w' cs) : c ∈ w'.inFlight ↔ c ∈ w.inFlight ∨ c ∈ cs := by
  simp only [inFlight, h.queue, h.pending, h.waits, List.mem_append]
  constructor
  · rintro (((h | h) | h) | h)
    · exact .inl (.inl (.inl h))
    · exact .inr h
    · exact .inl (.inl (.inr h))
    · exact .inl (.inr h)
  · rintro (((h | h) | h) | h)
    · exact .inl (.inl (.inl h))
    · exact .inl (.inr h)
    · exact .inr h
    · exact .inl (.inl (.inr h))

theorem Adds.lifecycles (h : Adds w w' cs) :
    w'.lifecycles = w.lifecycles + cs.countP Call.lifecycle := by
  simp only [World.lifecycles, inFlight, h.queue, h.pending, h.waits, List.countP_append]
  omega

theorem not_lifecycle_of_quiet (h : w.lifecycles = 0) (hc : c ∈ w.inFlight) : c.lifecycle = false := by
  simpa using List.countP_eq_zero.mp h c hc

/-- While a connection is not over and none is to be started, one is running. -/
theorem phase_eq_running (hh : w.connectHandler = false) (hf : w.connectionState.final = false) :
    w.phase = .running := by simp [phase, hh, hf]

/-! ## What a call leaves behind -/

/-- The chain is in order, and what has happened to the connection since leads from `p` to its phase. -/
def Arrives (p : Phase) (w w' : World) : Prop :=
  w'.Core ∧ ∃ ns, w'.notes = w.notes ++ ns ∧ run Lifecycle.step p ns = some w'.phase

/-- A connection that is running goes on. -/
theorem Core.arrives (h : w'.Core) (hn : w'.notes = w.notes) (hh : w'.connectHandler = false)
    (hf : w'.shape.final = false) : Arrives .running w w' := by
  refine ⟨h, [], by rw [hn, List.append_nil], ?_⟩
  rw [run_nil, phase_eq_running hh hf]

/-- What is in flight has been there before, or fits the layers as they are now. -/
theorem Quiet.core (h : w.Quiet) (hleaked : w'.logic.leaked = [])
    (hcollected : ∀ rm ∈ w'.rmContext, Collected rm) (hstacked : w'.shape.Stacked)
    (hh : w'.connectHandler = false) (hin : ∀ c ∈ w'.inFlight, c ∈ w.inFlight ∨ w'.shape.Fits c)
    (hf : w'.tls = none → Followed w'.queue) : w'.Core where
  leaked := hleaked
  collected := hcollected
  stacked := hstacked
  fits c hc := (hin c hc).elim
    (fun hc => Shape.fits_of_not_lifecycle (not_lifecycle_of_quiet h.lifecycles hc)) id
  followed := hf
  scheduled h := by simp [hh] at h

/-- Calls are handed over that fit the layers as they are. -/
theorem Quiet.adds (hW : W.Quiet) (h : Adds W w' cs) (hn : W.notes = w.notes)
    (hfinal : W.shape.final = false) (hcs : ∀ c ∈ cs, W.shape.Fits c)
    (hf : W.tls = none → Followed (W.queue ++ cs)) : Arrives .running w w' := by
  have hh : w'.connectHandler = false := h.connectHandler.trans hW.connectHandler
  have hcore : w'.Core := by
    refine hW.core (h.logic ▸ hW.leaked) (fun rm hrm => hW.collected rm (h.rmContext ▸ hrm))
      (h.shape ▸ hW.stacked) hh (fun c hc => ?_) fun ht => ?_
    · exact (h.mem_inFlight.mp hc).imp_right fun hc => h.shape ▸ hcs c hc
    · rw [h.queue]
      refine hf ?_
      have htls := h.tls
      rw [ht] at htls
      simpa using htls.symm
  exact hcore.arrives (h.notes.trans hn) hh (by rw [h.shape, hfinal])

/-- A call is handed over that sets up or tears down. -/
theorem Quiet.passes (hW : W.Quiet) (h : Adds W w' [c]) (hc : c.lifecycle = true)
    (hn : W.notes = w.notes) (hfinal : W.shape.final = false) (hfits : W.shape.Fits c) :
    Arrives .running w w' :=
  hW.adds h hn hfinal (by simpa using hfits) fun _ => followed_concat hc _

/-- The data of a layer change, and no call comes with that. -/
theorem Quiet.of_data (h : w.Quiet) (hq : W.queue = w.queue)
    (hp : W.pending = [] ∨ W.pending = w.pending) (hwaits : W.waits = true → w.waits = true)
    (hl : W.logic.leaked = []) (hh : W.connectHandler = w.connectHandler)
    (hc : ∀ rm ∈ W.rmContext, Collected rm) (hs : W.shape.Stacked) : W.Quiet where
  leaked := hl
  collected := hc
  stacked := hs
  connectHandler := hh.trans h.connectHandler
  lifecycles := by
    refine List.countP_eq_zero.mpr fun c hc => ?_
    have hmem : c ∈ w.inFlight := by
      simp only [inFlight, hq, List.mem_append] at hc ⊢
      rcases hc with (hc | hc) | hc
      · exact .inl (.inl hc)
      · rcases hp with hp | hp
        · simp [hp] at hc
        · exact .inl (.inr (hp ▸ hc))
      · refine .inr ?_
        cases hW : W.waits with
        | false => simp [hW] at hc
        | true => simpa [hW, hwaits hW] using hc
    simp [not_lifecycle_of_quiet h.lifecycles hmem]

theorem Quiet.of_adds (hW : W.Quiet) (h : Adds W w []) : w.Quiet where
  leaked := h.logic ▸ hW.leaked
  collected rm hrm := hW.collected rm (h.rmContext ▸ hrm)
  stacked := h.shape ▸ hW.stacked
  lifecycles := h.lifecycles.trans hW.lifecycles
  connectHandler := h.connectHandler.trans hW.connectHandler

/-- The call waits, for the resource manager or for the socket. -/
theorem Quiet.waits (hq : w.Quiet) (h : Adds W w' []) (hl : W.logic = w.logic) (hn : W.notes = w.notes)
    (hh : W.connectHandler = w.connectHandler) (hc : ∀ rm ∈ W.rmContext, Collected rm)
    (hs : W.shape.Stacked) (hfinal : W.shape.final = false)
    (hin : ∀ c ∈ W.inFlight, c ∈ w.inFlight ∨ W.shape.Fits c) (ht : W.tls.isSome = true) :
    Arrives .running w w' := by
  have hh' : w'.connectHandler = false := (h.connectHandler.trans hh).trans hq.connectHandler
  have hcore : w'.Core := by
    refine hq.core (h.logic ▸ hl ▸ hq.leaked) (fun rm hrm => hc rm (h.rmContext ▸ hrm))
      (h.shape ▸ hs) hh' (fun c hc => ?_) fun hnone => ?_
    · rw [h.shape]
      exact (h.mem_inFlight.mp hc).elim (hin c) fun hc => by cases hc
    · rw [← h.tls, hnone] at ht
      cases ht
  exact hcore.arrives (h.notes.trans hn) hh' (by rw [h.shape, hfinal])

/-! ## The network layer -/

theorem ioInit_arrives (hq : w.Quiet) (hm : w.Granted)
    (hfits : w.shape.tls = true ∧ w.shape.io = false) : Arrives .running w w.ioInit := by
  rcases ioInit_adds hm with ⟨hio, -⟩ | ⟨-, h⟩
  · have hnone : w.io.isSome = false := hfits.2
    simp [hnone] at hio
  · have hlogic := hq.stacked.mqttLogic_of_tls hfits.1
    have hW : ({ w with io := some {} } : World).Quiet :=
      hq.of_data rfl (.inr rfl) (fun hwaits => by cases hwaits) hq.leaked rfl hq.collected
        ⟨fun _ => hfits.1, hq.stacked.mqttCodec, hq.stacked.mqttLogic, hq.stacked.final⟩
    exact hW.passes h rfl rfl (hq.stacked.final hlogic) hlogic

theorem ioConnect_arrives (hq : w.Quiet) (hm : w.Granted) (hlogic : w.shape.mqttLogic = true)
    (s : IotcState) (connected : Bool) : Arrives .running w (w.ioConnect s connected) := by
  rcases ioConnect_adds hm s connected with ⟨s', -, h⟩ | ⟨-, hio, h⟩
  · exact hq.passes h rfl rfl (hq.stacked.final hlogic) hlogic
  · have hio : w.shape.io = true := hio
    have hs : ({ w with io := some ⟨true, true, true⟩ } : World).shape = w.shape := by
      exact congrArg (fun io => { w.shape with io }) hio.symm
    refine hq.waits h rfl rfl rfl hq.collected (hs ▸ hq.stacked)
      (hs ▸ hq.stacked.final hlogic) (fun c hc => ?_) (hq.stacked.tls hio)
    simp only [inFlight, List.mem_append] at hc ⊢
    rcases hc with (hc | hc) | hc
    · exact .inl (.inl (.inl hc))
    · exact .inl (.inl (.inr hc))
    · -- the call that the socket will make
      obtain rfl := List.mem_singleton.mp hc
      exact .inr hlogic

theorem ioCloseExternally_arrives (hq : w.Quiet) (hm : w.Granted) (hlogic : w.shape.mqttLogic = true)
    (s : IotcState) : Arrives .running w (w.ioCloseExternally s) := by
  have hW : ({ w with io := none } : World).Quiet :=
    hq.of_data rfl (.inr rfl) (fun hwaits => by cases hwaits) hq.leaked rfl hq.collected
      ⟨(fun hio => by cases hio), hq.stacked.mqttCodec, hq.stacked.mqttLogic, hq.stacked.final⟩
  exact hW.passes (ioCloseExternally_adds hm s) rfl rfl (hq.stacked.final hlogic) ⟨hlogic, rfl⟩

/-! ## The TLS layer -/

theorem Handles.fits {s : Shape} (h : Handles c) (hlogic : s.mqttLogic = true) : s.Fits c := by
  rcases h with ⟨-, hpull | hclose⟩ | ⟨-, hpull | hconnect⟩
  · exact Shape.fits_of_not_lifecycle (by rw [Call.lifecycle, hpull])
  · exact Shape.fits_of_mqttLogic hlogic (.inr hclose)
  · exact Shape.fits_of_not_lifecycle (by rw [Call.lifecycle, hpull])
  · exact Shape.fits_of_mqttLogic hlogic (.inl hconnect)

theorem shape_setRmContext (w : World) (rm : Option ResourceManager.World) :
    (w.setRmContext rm).shape = w.shape := by
  simp only [shape, tls_setRmContext]
  rfl

/-- The layer waits for the resource manager. -/
theorem called_arrives (hq : w.Quiet) (hlogic : w.shape.mqttLogic = true) (ht : w.tls.isSome = true)
    {rm : ResourceManager.World} {c : ResourceManager.Coroutine} {callback : ResourceManager.Callback}
    (hc : Collected rm) (hnot : ¬rm.Refuses c) (hfits : w.shape.Fits (callOf callback))
    (h : Adds (w.setRmContext (some (rm.call c callback true))) w' []) : Arrives .running w w' := by
  have hset := rmContext_setRmContext ht (some (rm.call c callback true))
  have hs := shape_setRmContext w (some (rm.call c callback true))
  refine hq.waits h rfl rfl rfl (fun rm' hrm => ?_) (hs ▸ hq.stacked)
    (hs ▸ hq.stacked.final hlogic) (fun d hd => ?_) ((tls_setRmContext w _).trans ht)
  · obtain rfl := Option.some.inj (hset.symm.trans hrm)
    exact collected_call hc hnot callback
  · simp only [inFlight, List.mem_append, pending_call ht hnot callback] at hd ⊢
    rcases hd with (hd | hd) | hd
    · exact .inl (.inl (.inl hd))
    · obtain rfl := List.mem_singleton.mp hd
      exact .inr (hs ▸ hfits)
    · exact .inl (.inr hd)

theorem TlsInits.arrives (h : TlsInits W w') (hW : W.Quiet) (ht : W.tls.isSome = true)
    (hfits : W.shape.mqttCodec = true ∧ W.shape.io = false) : Arrives .running W w' := by
  have hlogic := hW.stacked.mqttLogic hfits.1
  have hfinal := hW.stacked.final hlogic
  cases h with
  | fails s hs h => exact hW.passes h rfl rfl hfinal hlogic
  | yields rm c hrm hnot h =>
    have hinit : W.shape.Fits (callOf (initCallback .ok)) := hfits
    exact called_arrives hW hlogic ht (hrm.elim (hW.collected rm) (·.2)) hnot hinit h
  | stuck h =>
    exact hW.adds h rfl hfinal (by simp) fun hnone => by simp [hnone] at ht
  | exits hunused h =>
    have hset := rmContext_setRmContext ht none
    have hs := shape_setRmContext W none
    have hfreed : (W.setRmContext none).Quiet :=
      hW.of_data rfl (.inl (by rw [pending, hset]; rfl)) id hW.leaked rfl
        (fun rm hrm => by simp [hset] at hrm) (hs ▸ hW.stacked)
    exact hfreed.passes h rfl rfl (hs ▸ hfinal) (hs ▸ ⟨ht, hfits.2⟩)

theorem tlsInit_arrives (hq : w.Quiet) (hm : w.Granted)
    (hfits : w.shape.mqttCodec = true ∧ w.shape.io = false) (h : w.tlsInit s a = some w') :
    Arrives .running w w' := by
  rcases tlsInit_inits hm h with ⟨h, ht⟩ | ⟨hnone, W, -, hdata, h⟩
  · exact h.arrives hq ht hfits
  · have hnew : ({ w with tls := some {} } : World).Quiet :=
      hq.of_data rfl (.inl rfl) id hq.leaked rfl (fun rm hrm => by cases hrm)
        ⟨fun _ => rfl, fun _ => hfits.1, hq.stacked.mqttLogic, hq.stacked.final⟩
    have hs : W.shape = ({ w with tls := some {} } : World).shape := hdata.shape
    obtain ⟨hcore, ns, hn, hrun⟩ :=
      h.arrives (hnew.of_adds hdata) (hdata.tls.trans rfl) (by rw [hs]; exact hfits)
    exact ⟨hcore, ns, hn.trans (congrArg (· ++ ns) hdata.notes), hrun⟩

theorem tlsConnect_arrives (hq : w.Quiet) (hm : w.Granted) (hlogic : w.shape.mqttLogic = true)
    (s : IotcState) (a : Answers σ) : Arrives .running w (w.tlsConnect s a) := by
  rcases tlsConnect_adds hm s a with h | ⟨-, ht, cs, h, hcs⟩
  · exact hq.passes h rfl rfl (hq.stacked.final hlogic) hlogic
  · exact hq.adds h rfl (hq.stacked.final hlogic) (fun c hc => (hcs c hc).fits hlogic)
      fun hnone => by simp [hnone] at ht

theorem tlsClose_arrives (hq : w.Quiet) (hm : w.Granted) (hlogic : w.shape.mqttLogic = true)
    (s : IotcState) : Arrives .running w (w.tlsClose s) := by
  have hfinal := hq.stacked.final hlogic
  rcases tlsClose_adds hm s with ⟨hnone, h⟩ | ⟨-, h⟩
  · have ht : w.shape.tls = false := by simp [shape, hnone]
    exact hq.passes h rfl rfl hfinal ⟨hlogic, hq.stacked.io_eq_false ht⟩
  · exact hq.passes h rfl rfl hfinal hlogic

theorem tlsCloseExternally_arrives (hq : w.Quiet) (hm : w.Granted)
    (hfits : w.shape.mqttLogic = true ∧ w.shape.io = false) (h : w.tlsCloseExternally s = some w') :
    Arrives .running w w' := by
  have hfinal := hq.stacked.final hfits.1
  rcases tlsCloseExternally_cases hm h with ⟨-, h⟩ | ⟨rm, hrm, hnot, h⟩
  · have hW : ({ w with tls := none } : World).Quiet :=
      hq.of_data rfl (.inl rfl) id hq.leaked rfl (fun rm hrm => by cases hrm)
        ⟨(fun hio => absurd (hfits.2.symm.trans hio) (by decide)), (fun ht => by cases ht),
          hq.stacked.mqttLogic, hq.stacked.final⟩
    rcases h with ⟨-, h⟩ | h
    · exact hW.passes h rfl rfl hfinal hfits.1
    · exact hW.passes h rfl rfl hfinal ⟨hfits.1, rfl⟩
  · have hclose : w.shape.Fits (callOf (closeExternallyCallback s)) := hfits
    exact called_arrives hq hfits.1 (tls_of_rmContext hrm) (hq.collected rm hrm) hnot hclose h

/-! ## The MQTT codec layer -/

theorem mqttCodecInit_arrives (hq : w.Quiet) (hm : w.Granted)
    (hfits : w.shape.mqttLogic = true ∧ w.shape.mqttCodec = false) (h : w.mqttCodecInit s = some w') :
    Arrives .running w w' := by
  have ht := hq.stacked.tls_eq_false hfits.2
  have hio := hq.stacked.io_eq_false ht
  have hW : ({ w with mqttCodec := true } : World).Quiet :=
    hq.of_data rfl (.inr rfl) id hq.leaked rfl hq.collected
      ⟨hq.stacked.tls, fun _ => rfl, fun _ => hfits.1, hq.stacked.final⟩
  exact hW.passes (mqttCodecInit_adds hm h).2 rfl rfl (hq.stacked.final hfits.1) ⟨rfl, hio⟩

theorem mqttCodecClose_arrives (hq : w.Quiet) (hm : w.Granted) (hlogic : w.shape.mqttLogic = true)
    (s : IotcState) : Arrives .running w (w.mqttCodecClose s) := by
  have hfinal := hq.stacked.final hlogic
  rcases mqttCodecClose_adds hm s with ⟨-, h⟩ | ⟨hnone, h⟩
  · exact hq.passes h rfl rfl hfinal hlogic
  · exact hq.passes h rfl rfl hfinal ⟨hlogic, hq.stacked.tls_eq_false hnone⟩

theorem mqttCodecCloseExternally_arrives (hq : w.Quiet) (hm : w.Granted)
    (hfits : w.shape.mqttLogic = true ∧ w.shape.tls = false) (s : IotcState) :
    Arrives .running w (w.mqttCodecCloseExternally s) := by
  have hW : ({ w with mqttCodec := false } : World).Quiet :=
    hq.of_data rfl (.inr rfl) id hq.leaked rfl hq.collected
      ⟨hq.stacked.tls, (fun ht => absurd (hfits.2.symm.trans ht) (by decide)),
        (fun hc => by cases hc), hq.stacked.final⟩
  exact hW.passes (mqttCodecCloseExternally_adds hm s) rfl rfl (hq.stacked.final hfits.1)
    ⟨hfits.1, rfl⟩

/-! ## The MQTT logic layer -/

/-- The logic layer is another one, and what it has handed over is in the queue. -/
theorem mqttLogic_adds {e : Mqtt.Logic.World.Event} {oracle : Mqtt.Logic.World.Oracle}
    (h : w.mqttLogic e oracle = some w') : ∃ l, w.logic.step (e, oracle) = some l ∧
      ∀ os, l.context.out = w.logic.context.out ++ os →
        Adds { w with logic := l } w' (os.filterMap callOfOutput) := by
  obtain ⟨l, hl, rfl⟩ := Option.map_eq_some_iff.mp h
  refine ⟨l, hl, fun os hout => ⟨?_, rfl, rfl, rfl, rfl, rfl, rfl, rfl, rfl, List.suffix_refl _⟩⟩
  rw [hout, List.drop_left]

theorem Quiet.logic (hq : w.Quiet) {l : Mqtt.Logic.World} (hl : l.leaked = [])
    (hs : ({ w with logic := l } : World).shape.Stacked) : ({ w with logic := l } : World).Quiet :=
  hq.of_data rfl (.inr rfl) id hl rfl hq.collected hs

/-- A call of the logic layer while it works is one of `connect` or of `close`. -/
theorem callOfOutput_routine {o : Output} (ho : o.Routine) (h : callOfOutput o = some c) :
    c.func = .connect ∨ c.func = .close := by
  cases o <;> simp only [callOfOutput, Option.some.injEq, reduceCtorEq] at h <;>
    first | exact ho.elim | skip
  case connectOnNext => exact .inl (h ▸ rfl)
  case closeOnThis => exact .inr (h ▸ rfl)
  case closeOnPrev => exact .inr (h ▸ rfl)

theorem routine_calls {os : List Output} (hos : ∀ o ∈ os, o.Routine)
    (hc : c ∈ os.filterMap callOfOutput) : c.func = .connect ∨ c.func = .close := by
  obtain ⟨o, ho, hcall⟩ := List.mem_filterMap.mp hc
  exact callOfOutput_routine (hos o ho) hcall

theorem lifecycle_of_func (h : c.func = .connect ∨ c.func = .close) : c.lifecycle = true := by
  obtain ⟨layer, func, state⟩ := c
  rcases h with rfl | rfl <;> rfl

/-- The layer data and the state of the connection after a call that belongs to no setup and to no
teardown. -/
theorem shape_works {l : Mqtt.Logic.World} {o : Mqtt.Logic.World.Oracle}
    (h : Mqtt.Logic.World.Works (w.logic.withOracle o) l) (hfinal : w.shape.final = false) :
    ({ w with logic := l } : World).shape = w.shape := by
  have hconn : l.context.connection.connectionState.final = false := by
    rcases h.connection with h | h
    · rw [h]
      exact hfinal
    · rw [h]
      rfl
  have hdata : l.context.layerData = w.logic.context.layerData := h.layerData
  simp only [shape, connectionState, hdata, Shape.mk.injEq, true_and]
  exact hconn.trans hfinal.symm

/-- What the logic layer hands over while it works fits. -/
theorem mqttLogic_works_arrives (hq : w.Quiet) (hsound : w.logic.Sound)
    (hlogic : w.shape.mqttLogic = true) (hf : w.tls = none → Followed w.queue) {e : Mqtt.Logic.World.Event} (he : e.Routine)
    {oracle : Mqtt.Logic.World.Oracle} (h : w.mqttLogic e oracle = some w') :
    Arrives .running w w' := by
  obtain ⟨l, hl, hadds⟩ := mqttLogic_adds h
  have hworks := Mqtt.Logic.World.step_works hsound he hl
  obtain ⟨os, hout, hos⟩ := hworks.out
  have hfinal := hq.stacked.final hlogic
  have hs := shape_works hworks hfinal
  have hW := hq.logic (hworks.leaked hq.leaked) (hs ▸ hq.stacked)
  refine hW.adds (hadds os hout) rfl (hs ▸ hfinal)
    (fun c hc => Shape.fits_of_mqttLogic (hs ▸ hlogic) (routine_calls hos hc)) fun ht => ?_
  exact (hf ht).append fun c hc => tlsPull_of_lifecycle (lifecycle_of_func (routine_calls hos hc))

theorem mqttLogicInit_arrives (hq : w.Quiet) (hsound : w.logic.Sound)
    (hlogic : w.shape.mqttLogic = false) {oracle : Mqtt.Logic.World.Oracle}
    (hm : ∀ b ∈ oracle.mem, b = true) (h : w.mqttLogic (.init s) oracle = some w') :
    Arrives .running w w' := by
  obtain ⟨l, hl, hadds⟩ := mqttLogic_adds h
  obtain ⟨⟨os, hcalls⟩, hdata, hconn, hleaked⟩ :=
    Mqtt.Logic.World.init_calls hsound hlogic hq.leaked hm hl
  -- no layer has data
  have hcodec := hq.stacked.mqttCodec_eq_false hlogic
  have hfinal : ({ w with logic := l } : World).shape.final = false := by
    show l.context.connection.connectionState.final = false
    rw [hconn]
    rfl
  have hW := hq.logic hleaked ⟨hq.stacked.tls, hq.stacked.mqttCodec, fun _ => hdata, fun _ => hfinal⟩
  have h := hadds _ hcalls.out
  rw [List.filterMap_append] at h
  refine hW.adds h rfl hfinal (fun c hc => ?_) fun _ => ?_
  · rcases List.mem_append.mp hc with hc | hc
    · exact Shape.fits_of_mqttLogic hdata (routine_calls hcalls.routine hc)
    · obtain rfl := List.mem_singleton.mp hc
      exact ⟨hdata, hcodec⟩
  · rw [← List.append_assoc]
    exact followed_concat rfl _

/-- A call of the logic layer that ends with one call on another layer, and changes no data. -/
theorem Quiet.calls (hq : w.Quiet) (hlogic : w.shape.mqttLogic = true) {e : Mqtt.Logic.World.Event}
    {oracle : Mqtt.Logic.World.Oracle} {o : Output} (h : w.mqttLogic e oracle = some w')
    (hcalls : ∀ l, w.logic.step (e, oracle) = some l → w.logic.Calls l [] o ∧
      l.context.layerData = w.logic.context.layerData ∧
      l.context.connection = w.logic.context.connection ∧ l.leaked = w.logic.leaked)
    (ho : callOfOutput o = some c) (hc : c.lifecycle = true) (hfits : w.shape.Fits c) :
    Arrives .running w w' := by
  obtain ⟨l, hl, hadds⟩ := mqttLogic_adds h
  obtain ⟨hcall, hdata, hconn, hleaked⟩ := hcalls l hl
  have hs : ({ w with logic := l } : World).shape = w.shape := by
    simp only [shape, connectionState, hdata, hconn]
  have h := hadds _ hcall.out
  simp only [List.nil_append, List.filterMap_cons, ho, List.filterMap_nil] at h
  exact (hq.logic (hleaked.trans hq.leaked) (hs ▸ hq.stacked)).passes h hc rfl
    (hs ▸ hq.stacked.final hlogic) (hs ▸ hfits)

theorem mqttLogicConnect_arrives (hq : w.Quiet) (hsound : w.logic.Sound)
    (hlogic : w.shape.mqttLogic = true) (hf : w.tls = none → Followed w.queue)
    {oracle : Mqtt.Logic.World.Oracle} (hm : ∀ b ∈ oracle.mem, b = true)
    (h : w.mqttLogic (.connect s) oracle = some w') : Arrives .running w w' := by
  by_cases hs : s = .ok
  · have he : Mqtt.Logic.World.Event.Routine (.connect s) := hs
    exact mqttLogic_works_arrives hq hsound hlogic hf he h
  · exact hq.calls hlogic h (fun l hl => Mqtt.Logic.World.connect_calls hs hm hl) rfl rfl hlogic

theorem mqttLogicClose_arrives (hq : w.Quiet) (hlogic : w.shape.mqttLogic = true)
    {oracle : Mqtt.Logic.World.Oracle} (hm : ∀ b ∈ oracle.mem, b = true)
    (h : w.mqttLogic (.close s) oracle = some w') : Arrives .running w w' := by
  have hdata : w.logic.context.layerData = true := hlogic
  refine hq.calls hlogic h (fun l hl => ?_) (o := .closeOnPrev s) rfl rfl hlogic
  have hcalls := Mqtt.Logic.World.close_calls hm hl
  rw [if_pos hdata] at hcalls
  exact hcalls

/-- The layer data are freed, and the layer above is told. Nothing else may come with that. -/
theorem mqttLogicCloseExternally_arrives (hq : w.Quiet) (hsound : w.logic.Sound)
    (hfits : w.shape.mqttLogic = true ∧ w.shape.mqttCodec = false)
    {oracle : Mqtt.Logic.World.Oracle} (hm : ∀ b ∈ oracle.mem, b = true)
    (h : w.mqttLogic (.closeExternally s) oracle = some w') (hone : w'.lifecycles ≤ 1) :
    Arrives .running w w' := by
  have hfinal := hq.stacked.final hfits.1
  obtain ⟨l, hl, hadds⟩ := mqttLogic_adds h
  rcases Mqtt.Logic.World.closeExternally_calls hsound hm hl with
    ⟨-, hcalls⟩ | ⟨⟨os, hcalls⟩, hdata, hconn, hleaked⟩
  · refine hq.calls hfits.1 h (fun l' hl' => ?_) (o := .connectOnThis s) rfl rfl hfits.1
    obtain rfl := Option.some.inj (hl.symm.trans hl')
    exact hcalls
  · have hopen : ({ w with logic := l } : World).shape.final = false := by
      rcases hconn with hconn | hconn
      · exact (congrArg (·.connectionState.final) hconn).trans hfinal
      · exact congrArg (·.connectionState.final) hconn
    have hW := hq.logic (hleaked hq.leaked) ⟨hq.stacked.tls, hq.stacked.mqttCodec,
      (fun hc => absurd (hfits.2.symm.trans hc) (by decide)), fun _ => hopen⟩
    have h := hadds _ hcalls.out
    rw [List.filterMap_append] at h
    -- with one call under way there is no other
    have hnone : (os.filterMap callOfOutput).countP Call.lifecycle = 0 := by
      have hle := h.lifecycles
      rw [hW.lifecycles, List.countP_append] at hle
      have hlast : ([Output.closeExternallyOnNext s].filterMap callOfOutput).countP Call.lifecycle = 1 :=
        rfl
      omega
    refine hW.adds h rfl hopen (fun c hc => ?_) fun _ => ?_
    · rcases List.mem_append.mp hc with hc | hc
      · have hnot := List.countP_eq_zero.mp hnone c hc
        exact Shape.fits_of_not_lifecycle (by simpa using hnot)
      · obtain rfl := List.mem_singleton.mp hc
        exact ⟨hdata, hopen⟩
    · rw [← List.append_assoc]
      exact followed_concat rfl _

/-! ## The control topic layer -/

/-- The application is told how the connection is, and it may be over. -/
theorem connectionStateChanged_arrives (hq : w.Quiet) (hm : w.Granted)
    (hf : w.tls = none → Followed w.queue) (s : IotcState) : Arrives .running w (w.connectionStateChanged s) := by
  obtain ⟨cs, h, hcs⟩ := connectionStateChanged_adds hm s
  have hnot : ∀ c ∈ cs, c.lifecycle = false := fun c hc => by rw [hcs c hc]; rfl
  have hzero : cs.countP Call.lifecycle = 0 :=
    List.countP_eq_zero.mpr fun c hc => by simp [hnot c hc]
  have hlifecycles : (w.connectionStateChanged s).lifecycles = 0 := by
    have hle := h.lifecycles
    rw [hzero] at hle
    exact hle.trans hq.lifecycles
  have hh : (w.connectionStateChanged s).connectHandler = false :=
    h.connectHandler.trans hq.connectHandler
  have hs : (w.connectionStateChanged s).shape = w.shape := h.shape
  refine ⟨?_, [.told w.connectionState s], h.notes, ?_⟩
  · refine hq.core (h.logic ▸ hq.leaked) (fun rm hrm => hq.collected rm (h.rmContext ▸ hrm))
      (hs ▸ hq.stacked) hh (fun c hc => ?_) fun ht => ?_
    · exact (h.mem_inFlight.mp hc).imp_right fun hc => Shape.fits_of_not_lifecycle (hnot c hc)
    · have hnone : w.tls = none := by
        have htls : _ = w.tls.isSome := h.tls
        rw [ht] at htls
        simpa using htls.symm
      rw [h.queue]
      refine (hf hnone).append fun c hc => ?_
      rw [hcs c hc]
      rfl
  · have hstate : (w.connectionStateChanged s).connectionState.final = w.connectionState.final :=
      congrArg Shape.final hs
    rw [run_cons, Lifecycle.step, Option.bind_some, run_nil, phase, hh, hstate, hlifecycles]
    simp

theorem controlTopicConnect_arrives (hq : w.Quiet) (hm : w.Granted) (hlogic : w.shape.mqttLogic = true)
    (hf : w.tls = none → Followed w.queue) (s : IotcState) :
    Arrives .running w (w.controlTopicConnect s) := by
  unfold controlTopicConnect
  split
  · exact connectionStateChanged_arrives hq hm hf s
  · exact hq.passes (adds_continueWith hm .controlTopic .mqttLogic .close s) rfl rfl
      (hq.stacked.final hlogic) hlogic

/-- The layer sets the state of the connection. -/
theorem setConnectionState_quiet (hq : w.Quiet) {e : Mqtt.Logic.World.Event} (state : ConnectionState)
    (he : ∀ l, w.logic.step (e, {}) = some l → l.leaked = w.logic.leaked ∧
      l.context.layerData = w.logic.context.layerData ∧ l.context.out = w.logic.context.out ∧
      l.context.connection.connectionState = state)
    (hs : { w.shape with final := state.final }.Stacked) (h : w.mqttLogic e {} = some w') :
    w'.Quiet ∧ w'.shape = { w.shape with final := state.final } ∧ w'.queue = w.queue ∧
      w'.tls = w.tls ∧ w'.notes = w.notes ∧ w'.mem = w.mem := by
  obtain ⟨l, hl, hadds⟩ := mqttLogic_adds h
  obtain ⟨hleaked, hdata, hout, hstate⟩ := he l hl
  have hW : ({ w with logic := l } : World).shape = { w.shape with final := state.final } := by
    simp only [shape, connectionState, hdata, hstate]
  have hadds := hadds [] (hout.trans (List.append_nil _).symm)
  have hquiet := (hq.logic (hleaked.trans hq.leaked) (hW ▸ hs)).of_adds hadds
  refine ⟨hquiet, hadds.shape.trans hW, hadds.queue.trans (List.append_nil _), ?_, hadds.notes, ?_⟩
  · obtain ⟨l', -, rfl⟩ := Option.map_eq_some_iff.mp h
    rfl
  · obtain ⟨l', -, rfl⟩ := Option.map_eq_some_iff.mp h
    rfl

theorem controlTopicClose_arrives (hq : w.Quiet) (hm : w.Granted) (hlogic : w.shape.mqttLogic = true)
    (h : w.controlTopicClose s = some w') : Arrives .running w w' := by
  obtain ⟨w₁, h₁, rfl⟩ := Option.map_eq_some_iff.mp h
  obtain ⟨hW, hs, -, -, hn, hmem⟩ := setConnectionState_quiet hq .closing
    (fun l hl => by obtain rfl := Option.some.inj hl; exact ⟨rfl, rfl, rfl, rfl⟩)
    ⟨hq.stacked.tls, hq.stacked.mqttCodec, hq.stacked.mqttLogic, fun _ => rfl⟩ h₁
  exact hW.passes (adds_continueWith (hm.of_mem hmem) .controlTopic .mqttLogic .close s) rfl hn
    (hs ▸ rfl) (by rw [hs]; exact hlogic)

theorem controlTopicCloseExternally_arrives (hq : w.Quiet) (hm : w.Granted)
    (hlogic : w.shape.mqttLogic = false) (hf : w.tls = none → Followed w.queue)
    (h : w.controlTopicCloseExternally s = some w') : Arrives .running w w' := by
  obtain ⟨w₁, h₁, rfl⟩ := Option.map_eq_some_iff.mp h
  obtain ⟨hW, -, hqueue, ht, hn, hmem⟩ := setConnectionState_quiet hq
    (if w.connectionState = .opening then .openFailed else .closed)
    (fun l hl => by obtain rfl := Option.some.inj hl; exact ⟨rfl, rfl, rfl, rfl⟩)
    ⟨hq.stacked.tls, hq.stacked.mqttCodec, hq.stacked.mqttLogic,
      fun hl => absurd (hlogic.symm.trans hl) (by decide)⟩ h₁
  obtain ⟨hcore, ns, hns, hrun⟩ :=
    connectionStateChanged_arrives hW (hm.of_mem hmem) (fun hnone => hqueue ▸ hf (ht ▸ hnone)) s
  exact ⟨hcore, ns, hns.trans (congrArg (· ++ ns) hn), hrun⟩

end World

end IotDeviceSdk.Chain
