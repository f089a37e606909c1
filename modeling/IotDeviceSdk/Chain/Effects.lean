import IotDeviceSdk.Chain.Layers
import IotDeviceSdk.ResourceManager.Callbacks

/-!
# What the functions of the layers do (`iotc_layer_stack.h`)

If there is memory, a function of a layer hands over certain calls and leaves the rest of the chain as it
is. `World.Adds` says that of two worlds; a function that sets up or frees the data of its layer is
compared with the world where that has been done. There is one lemma about each function.
-/

namespace IotDeviceSdk.Chain

open Datastructures Mqtt.Logic Tls

/-- No callback is left in the queue of the resource manager, and none in its log. -/
structure Collected (rm : ResourceManager.World) : Prop where
  log : rm.log = []
  queue : ∀ p ∈ rm.queue, ∃ c, p = .coroutine c

namespace World

variable {σ : SizeT} {w w' w'' : World} {cs cs' : List Call} {s : IotcState} {a : Answers σ}

/-- The call that the resource manager is going to make. -/
def pending (w : World) : List Call := (w.rmContext.bind (·.ctx.callback)).toList.map callOf

/-- The socket waits for its connection. -/
def waits (w : World) : Bool := w.io.any (·.wantConnect)

/-- Every allocation succeeds. -/
def Granted (w : World) : Prop := ∀ b ∈ w.mem, b = true

/-! ## Two worlds -/

/-- The calls `cs` are handed to the dispatcher, and the chain is otherwise what it was. -/
structure Adds (w w' : World) (cs : List Call) : Prop where
  queue : w'.queue = w.queue ++ cs
  io : w'.io.isSome = w.io.isSome
  waits : w'.waits = w.waits
  tls : w'.tls.isSome = w.tls.isSome
  rmContext : w'.rmContext = w.rmContext
  mqttCodec : w'.mqttCodec = w.mqttCodec
  logic : w'.logic = w.logic
  notes : w'.notes = w.notes
  connectHandler : w'.connectHandler = w.connectHandler
  mem : w'.mem <:+ w.mem

theorem Adds.refl (w : World) : Adds w w [] :=
  ⟨(List.append_nil _).symm, rfl, rfl, rfl, rfl, rfl, rfl, rfl, rfl, List.suffix_refl _⟩

theorem Adds.trans (h : Adds w w' cs) (h' : Adds w' w'' cs') : Adds w w'' (cs ++ cs') where
  queue := by rw [h'.queue, h.queue, List.append_assoc]
  io := h'.io.trans h.io
  waits := h'.waits.trans h.waits
  tls := h'.tls.trans h.tls
  rmContext := h'.rmContext.trans h.rmContext
  mqttCodec := h'.mqttCodec.trans h.mqttCodec
  logic := h'.logic.trans h.logic
  notes := h'.notes.trans h.notes
  connectHandler := h'.connectHandler.trans h.connectHandler
  mem := h'.mem.trans h.mem

theorem Adds.granted (h : Adds w w' cs) (hm : w.Granted) : w'.Granted :=
  fun b hb => hm b (h.mem.subset hb)

theorem Adds.pending (h : Adds w w' cs) : w'.pending = w.pending := by
  rw [World.pending, World.pending, h.rmContext]

theorem Granted.alloc (h : w.Granted) : w.alloc.1 = true := by
  unfold World.alloc
  cases hm : w.mem with
  | nil => rfl
  | cons b bs => exact h b (hm ▸ List.mem_cons_self)

theorem adds_alloc (w : World) : Adds w w.alloc.2 [] where
  queue := (List.append_nil _).symm
  io := rfl
  waits := rfl
  tls := rfl
  rmContext := rfl
  mqttCodec := rfl
  logic := rfl
  notes := rfl
  connectHandler := rfl
  mem := List.tail_suffix _

/-- The memory of another world. -/
theorem Granted.of_mem (h : w.Granted) (hm : w'.mem = w.mem) : w'.Granted := fun b hb => h b (hm ▸ hb)

/-- **A call is handed to the dispatcher.** -/
theorem adds_continueWith (hm : w.Granted) (caller callee : LayerId) (func : LayerFunc)
    (s : IotcState) : Adds w (w.continueWith caller (some callee) func s) [⟨callee, func, s⟩] := by
  have halloc : w.alloc.1 = true := hm.alloc
  simp only [continueWith, halloc, if_true]
  exact ⟨rfl, rfl, rfl, rfl, rfl, rfl, rfl, rfl, rfl, List.tail_suffix _⟩

theorem adds_processOnThis (hm : w.Granted) (l : LayerId) (func : LayerFunc) (s : IotcState) :
    Adds w (w.processOnThis l func s) [⟨l, func, s⟩] := adds_continueWith hm l l func s

/-- The data of the TLS layer change, but not the context of the resource manager. -/
theorem adds_modifyTls (w : World) {f : TlsData → TlsData} (hf : ∀ d, (f d).rmContext = d.rmContext) :
    Adds w (w.modifyTls f) [] where
  queue := (List.append_nil _).symm
  io := rfl
  waits := rfl
  tls := by simp [modifyTls]
  rmContext := by
    cases h : w.tls with
    | none => simp [World.rmContext, modifyTls, h]
    | some d => simp [World.rmContext, modifyTls, h, hf]
  mqttCodec := rfl
  logic := rfl
  notes := rfl
  connectHandler := rfl
  mem := List.suffix_refl _

/-- The data of the network layer change, but the socket waits as before. -/
theorem adds_io {d d' : IoNetData} (hio : w.io = some d) (hwait : d'.wantConnect = d.wantConnect) :
    Adds w { w with io := some d' } [] where
  queue := (List.append_nil _).symm
  io := by rw [hio]; rfl
  waits := by simp [World.waits, hio, hwait]
  tls := rfl
  rmContext := rfl
  mqttCodec := rfl
  logic := rfl
  notes := rfl
  connectHandler := rfl
  mem := List.suffix_refl _

/-! ## The network layer -/

theorem ioInit_adds (hm : w.Granted) :
    (w.io.isSome = true ∧ w.ioInit = w) ∨
      w.io = none ∧ Adds { w with io := some {} } w.ioInit [⟨.io, .connect, .ok⟩] := by
  unfold ioInit
  split
  · next h => exact .inl ⟨h, rfl⟩
  · next h =>
    refine .inr ⟨by simpa using h, ?_⟩
    have halloc : w.alloc.1 = true := hm.alloc
    simp only [halloc, if_true]
    have hdata : Adds { w with io := some {} } { w.alloc.2 with io := some {} } [] := by
      have h := adds_alloc w
      exact ⟨h.queue, rfl, rfl, rfl, rfl, rfl, rfl, rfl, rfl, h.mem⟩
    exact hdata.trans (adds_processOnThis (hdata.granted hm) .io .connect .ok)

/-- The layer tells the next one whether it is connected, or waits for that. -/
theorem ioConnect_adds (hm : w.Granted) (s : IotcState) (connected : Bool) :
    (∃ s', (s ≠ .ok → s' = s) ∧ Adds w (w.ioConnect s connected) [⟨.tls, .connect, s'⟩]) ∨
      s = .ok ∧ w.io.isSome = true ∧
        Adds { w with io := some ⟨true, true, true⟩ } (w.ioConnect s connected) [] := by
  unfold ioConnect
  split
  · exact .inl ⟨s, fun _ => rfl, adds_continueWith hm .io .tls .connect s⟩
  · next hs =>
    have hs : s = .ok := not_not.mp hs
    split
    · exact .inl ⟨_, fun h => absurd hs h, adds_continueWith hm .io .tls .connect _⟩
    · next d hio =>
      split
      · have hdata : Adds w { w with io := some { d with connectCs := false } } [] := adds_io hio rfl
        exact .inl ⟨_, fun h => absurd hs h,
          hdata.trans (adds_continueWith (hdata.granted hm) .io .tls .connect _)⟩
      · split
        · refine .inr ⟨hs, by rw [hio]; rfl, ?_⟩
          have halloc : w.alloc.1 = true := hm.alloc
          simp only [halloc]
          have h := adds_alloc w
          exact ⟨h.queue, rfl, rfl, rfl, rfl, rfl, rfl, rfl, rfl, h.mem⟩
        · exact .inl ⟨_, fun h => absurd hs h, adds_continueWith hm .io .tls .connect _⟩

theorem ioClose_adds (hm : w.Granted) (s : IotcState) :
    Adds w (w.ioClose s) [⟨.io, .closeExternally, s⟩] := adds_processOnThis hm .io .closeExternally s

theorem ioCloseExternally_adds (hm : w.Granted) (s : IotcState) :
    Adds { w with io := none } (w.ioCloseExternally s) [⟨.tls, .closeExternally, s⟩] :=
  adds_continueWith (w := { w with io := none }) hm .io .tls .closeExternally s

/-- Reading and writing hand over what was read, or close the layer. -/
theorem ioPull_adds (hm : w.Granted) (result : Io.BspResult) :
    ∃ cs, Adds w (w.ioPull result) cs ∧ (cs = [] ∨ w.io.isSome = true ∧
      (cs = [⟨.tls, .pull, .ok⟩] ∨ ∃ s, cs = [⟨.io, .closeExternally, s⟩])) := by
  unfold ioPull
  split
  · exact ⟨[], .refl w, .inl rfl⟩
  · next h =>
    have hio : w.io.isSome = true := by
      cases hio : w.io with
      | none => simp [hio, stopped] at h
      | some d => rfl
    have halloc : w.alloc.1 = true := hm.alloc
    have h := adds_alloc w
    simp only [halloc, if_true]
    cases result with
    | ok len =>
      exact ⟨_, h.trans (adds_continueWith (h.granted hm) .io .tls .pull .ok), .inr ⟨hio, .inl rfl⟩⟩
    | busy => exact ⟨[], h, .inl rfl⟩
    | connectionReset =>
      exact ⟨_, h.trans (adds_processOnThis (h.granted hm) .io .closeExternally _),
        .inr ⟨hio, .inr ⟨_, rfl⟩⟩⟩
    | error =>
      exact ⟨_, h.trans (adds_processOnThis (h.granted hm) .io .closeExternally _),
        .inr ⟨hio, .inr ⟨_, rfl⟩⟩⟩

theorem ioPush_adds (hm : w.Granted) (outcome : Io.WriteOutcome) :
    ∃ cs, Adds w (w.ioPush outcome) cs ∧
      (cs = [] ∨ w.io.isSome = true ∧ ∃ s, cs = [⟨.io, .closeExternally, s⟩]) := by
  unfold ioPush
  split
  · exact ⟨[], .refl w, .inl rfl⟩
  · next h =>
    have hio : w.io.isSome = true := by
      cases hio : w.io with
      | none => simp [hio, stopped] at h
      | some d => rfl
    have hclose (s : IotcState) : ∃ cs, Adds w (w.processOnThis .io .closeExternally s) cs ∧
        (cs = [] ∨ w.io.isSome = true ∧ ∃ s, cs = [⟨.io, .closeExternally, s⟩]) :=
      ⟨_, adds_processOnThis hm .io .closeExternally s, .inr ⟨hio, s, rfl⟩⟩
    cases outcome with
    | written => exact ⟨[], .refl w, .inl rfl⟩
    | busy currPos =>
      dsimp only
      split
      · exact ⟨[], .refl w, .inl rfl⟩
      · exact hclose _
    | connectionReset => exact hclose _
    | error => exact hclose _

/-! ## The TLS layer -/

/-- The layer has another context of the resource manager, or none. -/
def setRmContext (w : World) (rm : Option ResourceManager.World) : World :=
  w.modifyTls fun d => { d with rmContext := rm }

theorem tls_of_rmContext {rm : ResourceManager.World} (h : w.rmContext = some rm) :
    w.tls.isSome = true := by
  unfold rmContext at h
  cases ht : w.tls with
  | none =>
    rw [ht] at h
    cases h
  | some d => rfl

theorem rmContext_setRmContext (h : w.tls.isSome = true) (rm : Option ResourceManager.World) :
    (w.setRmContext rm).rmContext = rm := by
  obtain ⟨d, hd⟩ := Option.isSome_iff_exists.mp h
  simp [rmContext, setRmContext, modifyTls, hd]

theorem tls_setRmContext (w : World) (rm : Option ResourceManager.World) :
    (w.setRmContext rm).tls.isSome = w.tls.isSome := by simp [setRmContext, modifyTls]

/-- The resource manager refuses a call, or has taken the callback. -/
theorem resourceManager_cases (hm : w.Granted) (c : ResourceManager.Coroutine)
    (callback : ResourceManager.Callback) :
    ((w.resourceManager c callback).1 = false ∧ (w.resourceManager c callback).2 = w) ∨
      (w.resourceManager c callback).1 = true ∧ ∃ rm, w.rmContext = some rm ∧ ¬rm.Refuses c ∧
        Adds (w.setRmContext (some (rm.call c callback true))) (w.resourceManager c callback).2 [] := by
  unfold resourceManager
  split
  · exact .inl ⟨rfl, rfl⟩
  · next rm hrm =>
    split
    · exact .inl ⟨rfl, rfl⟩
    · next hnot =>
      have halloc : w.alloc.1 = true := hm.alloc
      refine .inr ⟨halloc, rm, hrm, hnot, ?_⟩
      have h := adds_alloc w
      simp only [halloc]
      exact ⟨h.queue, rfl, rfl, rfl, rfl, rfl, rfl, rfl, rfl, h.mem⟩

/-- The resource manager takes a callback. -/
theorem call_eq {rm : ResourceManager.World} {c : ResourceManager.Coroutine} (hnot : ¬rm.Refuses c)
    (callback : ResourceManager.Callback) : rm.call c callback true = { rm with
      ctx := { rm.ctx with callback := some callback }
      queue := rm.queue ++ [.coroutine c]
      operation := some c } := by rw [ResourceManager.World.call, if_neg hnot, if_pos rfl]

theorem collected_call {rm : ResourceManager.World} (h : Collected rm) {c : ResourceManager.Coroutine}
    (hnot : ¬rm.Refuses c) (callback : ResourceManager.Callback) :
    Collected (rm.call c callback true) := by
  rw [call_eq hnot]
  refine ⟨h.log, fun p hp => ?_⟩
  rcases List.mem_append.mp hp with hp | hp
  · exact h.queue p hp
  · exact ⟨c, List.mem_singleton.mp hp⟩

theorem pending_call {rm : ResourceManager.World} {c : ResourceManager.Coroutine}
    (ht : w.tls.isSome = true) (hnot : ¬rm.Refuses c) (callback : ResourceManager.Callback) :
    (w.setRmContext (some (rm.call c callback true))).pending = [callOf callback] := by
  rw [pending, rmContext_setRmContext ht, call_eq hnot]
  rfl

/-- What `iotc_tls_layer_init` does once the layer has data. It fails, it waits for the resource manager,
it waits though the resource manager has refused, or it goes on to the network layer. -/
inductive TlsInits (w w' : World) : Prop
  | fails (s : IotcState) (hs : s ≠ .ok) (h : Adds w w' [⟨.tls, .connect, s⟩])
  | yields (rm : ResourceManager.World) (c : ResourceManager.Coroutine)
    (hrm : w.rmContext = some rm ∨ w.rmContext = none ∧ Collected rm) (hnot : ¬rm.Refuses c)
    (h : Adds (w.setRmContext (some (rm.call c (initCallback .ok) true))) w' [])
  | stuck (h : Adds w w' [])
  | exits (hunused : ∀ rm ∈ w.rmContext, Unused rm)
    (h : Adds (w.setRmContext none) w' [⟨.io, .init, .ok⟩])

/-- What happens to `connCs` is no matter. -/
theorem adds_connCs (w : World) (cs : ConnCs) : Adds w (w.modifyTls fun d => { d with connCs := cs }) [] :=
  adds_modifyTls w fun _ => rfl

theorem tlsInitErrHandling_inits (hm : w.Granted) (hs : s ≠ .ok) :
    TlsInits w (w.tlsInitErrHandling s) := by
  have hcs := adds_connCs w .start
  exact .fails s hs (hcs.trans (adds_processOnThis (hcs.granted hm) .tls .connect s))

theorem tlsInitYield_inits (hm : w.Granted) (c : ResourceManager.Coroutine) (cs : ConnCs) :
    TlsInits w (w.tlsInitYield c cs) := by
  unfold tlsInitYield
  rcases resourceManager_cases hm c (initCallback .ok) with ⟨hok, hw⟩ | ⟨hok, rm, hrm, hnot, h⟩
  · simp only [hok, hw, Bool.false_eq_true, if_false]
    exact tlsInitErrHandling_inits hm (by decide)
  · simp only [hok, if_true]
    exact .yields rm c (.inl hrm) hnot (h.trans (adds_connCs _ cs))

theorem collected_create (memory : Infra.Blocks UInt8) (dataBuffer : Option Datastructures.DataDesc)
    (fd : Int) : Collected (.create memory dataBuffer fd) := ⟨rfl, fun _ hp => by cases hp⟩

theorem tlsInitOpen_inits (hm : w.Granted) (ht : w.tls.isSome = true) (a : Answers σ) :
    TlsInits w (w.tlsInitOpen a) := by
  unfold tlsInitOpen
  split
  · exact tlsInitErrHandling_inits hm (by decide)
  · next hnone =>
    have hnone : w.rmContext = none := by simpa using hnone
    have halloc : w.alloc.1 = true := hm.alloc
    simp only [halloc, if_true]
    -- the new context takes the call
    let rm : ResourceManager.World := .create .empty none (Int.negSucc a.uniqueFd)
    have hnot : ¬rm.Refuses .openCoroutine := by
      rintro (h | h)
      · cases h
      · exact absurd (h.mp rfl) (by simp [rm, ResourceManager.World.create, ResourceManager.makeContext])
    let W := w.alloc.2.setRmContext (some rm)
    have hW : W.rmContext = some rm := rmContext_setRmContext (w := w.alloc.2) ht (some rm)
    have hmW : W.Granted := (adds_alloc w).granted hm
    change TlsInits w (W.tlsInitYield .openCoroutine .openYield)
    unfold tlsInitYield
    rcases resourceManager_cases hmW .openCoroutine (initCallback .ok) with
      ⟨hok, -⟩ | ⟨hok, rm', hrm', -, h⟩
    · have htaken : (W.resourceManager .openCoroutine (initCallback .ok)).1 = true := by
        simp only [resourceManager, hW, if_neg hnot]
        exact hmW.alloc
      exact absurd (hok.symm.trans htaken) (by decide)
    · obtain rfl := Option.some.inj (hrm'.symm.trans hW)
      simp only [hok, if_true]
      have h := h.trans (adds_connCs _ .openYield)
      refine .yields rm .openCoroutine (.inr ⟨hnone, collected_create _ _ _⟩) hnot ?_
      have heq : (W.setRmContext (some (rm.call .openCoroutine (initCallback .ok) true))).tls =
          (w.setRmContext (some (rm.call .openCoroutine (initCallback .ok) true))).tls := by
        cases hd : w.tls with
        | none => simp [W, setRmContext, modifyTls, World.alloc, hd]
        | some d => simp [W, setRmContext, modifyTls, World.alloc, hd]
      exact ⟨h.queue, h.io, h.waits, h.tls.trans (congrArg Option.isSome heq),
        h.rmContext.trans (congrArg (·.bind (·.rmContext)) heq), h.mqttCodec, h.logic, h.notes,
        h.connectHandler, h.mem.trans (adds_alloc w).mem⟩

theorem tlsInitLibrary_inits (hm : w.Granted) (h : w.tlsInitLibrary a = some w') : TlsInits w w' := by
  unfold tlsInitLibrary at h
  split at h
  · cases h
  · split at h
    · cases h
    · split at h <;> obtain rfl := Option.some.inj h
      · rcases resourceManager_cases hm .closeCoroutine (initCallback .ok) with
          ⟨-, hw⟩ | ⟨-, rm, hrm, hnot, h⟩
        · rw [hw]
          exact .stuck (adds_connCs w .closeYield)
        · exact .yields rm .closeCoroutine (.inl hrm) hnot (h.trans (adds_connCs _ .closeYield))
      · exact tlsInitErrHandling_inits hm (by decide)
      · exact tlsInitErrHandling_inits hm (by decide)

theorem tlsInitExit_inits (hm : w.Granted) (h : w.tlsInitExit = some w') : TlsInits w w' := by
  unfold tlsInitExit at h
  split at h
  · next hunused =>
    obtain rfl := Option.some.inj h
    let W := w.modifyTls fun d => { d with rmContext := none, handlers := .connectHandler }
    have hW : Adds (w.setRmContext none) W [] := by
      refine ⟨(List.append_nil _).symm, rfl, rfl, ?_, ?_, rfl, rfl, rfl, rfl, List.suffix_refl _⟩
      · simp [W, setRmContext, modifyTls]
      · cases hd : w.tls <;> simp [W, World.rmContext, setRmContext, modifyTls, hd]
    exact .exits hunused (hW.trans (adds_continueWith (w := W) hm .tls .io .init .ok))
  · cases h

theorem tlsInitFrom_inits (hm : w.Granted) (ht : w.tls.isSome = true) {cs : ConnCs}
    (h : w.tlsInitFrom cs s a = some w') : TlsInits w w' := by
  unfold tlsInitFrom at h
  split at h
  · split at h <;> obtain rfl := Option.some.inj h
    · exact tlsInitErrHandling_inits hm (by decide)
    · exact tlsInitYield_inits hm .readCoroutine .readYield
  · split at h
    · obtain rfl := Option.some.inj h
      exact tlsInitErrHandling_inits hm (by decide)
    · exact tlsInitLibrary_inits hm h
  · split at h
    · obtain rfl := Option.some.inj h
      exact tlsInitErrHandling_inits hm (by decide)
    · exact tlsInitExit_inits hm h
  · obtain rfl := Option.some.inj h
    exact tlsInitOpen_inits hm ht a

/-- **`iotc_tls_layer_init`** -/
theorem tlsInit_inits (hm : w.Granted) (h : w.tlsInit s a = some w') :
    TlsInits w w' ∧ w.tls.isSome = true ∨
      w.tls = none ∧ ∃ W, W.Granted ∧ Adds { w with tls := some {} } W [] ∧ TlsInits W w' := by
  unfold tlsInit at h
  split at h
  · next d hd =>
    have ht : w.tls.isSome = true := by rw [hd]; rfl
    exact .inl ⟨tlsInitFrom_inits hm ht h, ht⟩
  · next hnone =>
    have halloc : w.alloc.1 = true := hm.alloc
    simp only [halloc, if_true] at h
    have hdata : Adds { w with tls := some {} } { w.alloc.2 with tls := some {} } [] := by
      have h := adds_alloc w
      exact ⟨h.queue, rfl, rfl, rfl, rfl, rfl, rfl, rfl, rfl, h.mem⟩
    have hmW := hdata.granted hm
    exact .inr ⟨hnone, _, hmW, hdata, tlsInitFrom_inits hmW rfl h⟩

/-- The calls that the TLS layer makes while it is connected or connects. -/
def Handles (c : Call) : Prop :=
  c.layer = .tls ∧ (c.func = .pull ∨ c.func = .close) ∨
    c.layer = .mqttCodec ∧ (c.func = .pull ∨ c.func = .connect)

/-- What the layer has after a handler has run. -/
def Handled (w w' : World) : Prop := ∃ cs, Adds w w' cs ∧ ∀ c ∈ cs, Handles c

theorem Handled.refl (w : World) : Handled w w := ⟨[], .refl w, by simp⟩

theorem Handled.trans (h : Handled w w') (h' : Handled w' w'') : Handled w w'' := by
  obtain ⟨cs, hadds, hcs⟩ := h
  obtain ⟨cs', hadds', hcs'⟩ := h'
  refine ⟨cs ++ cs', hadds.trans hadds', fun c hc => ?_⟩
  exact (List.mem_append.mp hc).elim (hcs c) (hcs' c)

theorem Handled.granted (h : Handled w w') (hm : w.Granted) : w'.Granted := by
  obtain ⟨cs, hadds, -⟩ := h
  exact hadds.granted hm

theorem handled_modifyTls (w : World) {f : TlsData → TlsData}
    (hf : ∀ d, (f d).rmContext = d.rmContext) : Handled w (w.modifyTls f) :=
  ⟨[], adds_modifyTls w hf, by simp⟩

theorem handled_close (hm : w.Granted) (s : IotcState) : Handled w (w.processOnThis .tls .close s) :=
  ⟨_, adds_processOnThis hm .tls .close s, by simp [Handles]⟩

/-- The layer goes on with what waits, and then with the next layer. -/
theorem handled_next (hm : w.Granted) (pending : Bool) {func : LayerFunc}
    (hfunc : func = .pull ∨ func = .connect) :
    Handled w ((if pending then w.processOnThis .tls .pull .wantRead else w).processOnNext .tls func
      .ok) := by
  have hpull : Handled w (if pending then w.processOnThis .tls .pull .wantRead else w) := by
    split
    · exact ⟨_, adds_processOnThis hm .tls .pull .wantRead, by simp [Handles]⟩
    · exact .refl w
  refine hpull.trans ⟨_, adds_continueWith (hpull.granted hm) .tls .mqttCodec func .ok, ?_⟩
  simp [Handles, hfunc]

theorem connectHandlerStep_handled (hm : w.Granted) (a : Answers σ) :
    Handled w (w.connectHandlerStep a) := by
  unfold connectHandlerStep
  split
  · exact .refl w
  · have hcs (cs : ConnCs) := handled_modifyTls w (f := fun d => { d with connCs := cs }) fun _ => rfl
    split
    · exact hcs .connectYield
    · exact hcs .connectYield
    · have hdata := handled_modifyTls w
        (f := fun d => { d with connCs := .start, handlers := .data }) fun _ => rfl
      exact hdata.trans (handled_next (hdata.granted hm) a.pending (.inr rfl))
    · exact (hcs .start).trans (handled_close ((hcs .start).granted hm) _)
    · exact (hcs .start).trans (handled_close ((hcs .start).granted hm) _)

theorem recvHandler_handled (hm : w.Granted) (a : Answers σ) : Handled w (w.recvHandler a) := by
  unfold recvHandler
  let r := if w.tls.any (·.decodedBuffer) then (true, w) else w.alloc
  have hr : r.1 = true ∧ Handled w r.2 := by
    show (if _ then _ else _ : Bool × World).1 = true ∧ Handled w (if _ then _ else _ : Bool × World).2
    split
    · exact ⟨rfl, .refl w⟩
    · exact ⟨hm.alloc, [], adds_alloc w, by simp⟩
  obtain ⟨hbuffer, hr⟩ := hr
  have hdata (b : Bool) :=
    hr.trans (handled_modifyTls r.2 (f := fun d => { d with decodedBuffer := b }) fun _ => rfl)
  change Handled w (if r.1 = true then _ else _)
  rw [if_pos hbuffer]
  split
  · exact hdata true
  · exact (hdata false).trans (handled_next ((hdata false).granted hm) a.pending (.inl rfl))
  · exact (hdata false).trans (handled_close ((hdata false).granted hm) _)

/-- **`iotc_tls_layer_pull`**, which closes a layer without data. -/
theorem tlsPull_handled (hm : w.Granted) (h : w.tlsPull s a = some w') :
    Handled w w' ∧ (w.tls = none → Adds w w' [⟨.tls, .close, s⟩]) := by
  unfold tlsPull at h
  split at h
  · obtain rfl := Option.some.inj h
    exact ⟨handled_close hm s, fun _ => adds_processOnThis hm .tls .close s⟩
  · next d hd =>
    have hsome : w.tls = none → Adds w w' [⟨.tls, .close, s⟩] := fun h => by simp [h] at hd
    refine ⟨?_, hsome⟩
    split at h
    · obtain rfl := Option.some.inj h
      exact handled_close hm s
    · split at h
      · cases h
      · obtain rfl := Option.some.inj h
        exact connectHandlerStep_handled hm a
      · obtain rfl := Option.some.inj h
        exact recvHandler_handled hm a

/-- **`iotc_tls_layer_push`** -/
theorem tlsPush_handled (hm : w.Granted) (h : w.tlsPush a = some w') :
    Handled w w' ∧ (w.tls = none → w' = w) := by
  unfold tlsPush at h
  split at h
  · obtain rfl := Option.some.inj h
    exact ⟨.refl _, fun _ => rfl⟩
  · next d hd =>
    refine ⟨?_, fun h => by simp [h] at hd⟩
    split at h
    · obtain rfl := Option.some.inj h
      exact .refl _
    · split at h
      · cases h
      · obtain rfl := Option.some.inj h
        exact connectHandlerStep_handled hm a
      · obtain rfl := Option.some.inj h
        exact .refl _

/-- **`iotc_tls_layer_connect`** -/
theorem tlsConnect_adds (hm : w.Granted) (s : IotcState) (a : Answers σ) :
    Adds w (w.tlsConnect s a) [⟨.mqttCodec, .connect, s⟩] ∨
      s = .ok ∧ w.tls.isSome = true ∧ Handled w (w.tlsConnect s a) := by
  unfold tlsConnect
  split
  · exact .inl (adds_continueWith hm .tls .mqttCodec .connect s)
  · next h =>
    have hs : s = .ok := not_not.mp fun hs => h (by simp [hs])
    have ht : w.tls.isSome = true := by
      cases ht : w.tls with
      | none => simp [ht, stopped] at h
      | some d => rfl
    exact .inr ⟨hs, ht, connectHandlerStep_handled hm a⟩

/-- **`iotc_tls_layer_close`** -/
theorem tlsClose_adds (hm : w.Granted) (s : IotcState) :
    (w.tls = none ∧ Adds w (w.tlsClose s) [⟨.tls, .closeExternally, s⟩]) ∨
      w.tls.isSome = true ∧ Adds w (w.tlsClose s) [⟨.io, .close, s⟩] := by
  unfold tlsClose
  split
  · next h => exact .inl ⟨by simpa using h, adds_processOnThis hm .tls .closeExternally s⟩
  · next h => exact .inr ⟨by simpa [Option.isSome_iff_ne_none] using h,
      adds_continueWith hm .tls .io .close s⟩

/-- The layer frees its data and goes on. -/
def Frees (w w' : World) (s : IotcState) : Prop :=
  (∀ rm ∈ w.rmContext, Unused rm) ∧
    (s ≠ .ok ∧ Adds { w with tls := none } w' [⟨.tls, .connect, s⟩] ∨
      Adds { w with tls := none } w' [⟨.mqttCodec, .closeExternally, s⟩])

theorem tlsFree_frees (hm : w.Granted) (h : w.tlsFree s = some w') : Frees w w' s := by
  unfold tlsFree at h
  split at h
  · next hunused =>
    refine ⟨hunused, ?_⟩
    have hm' : ({ w with tls := none } : World).Granted := hm
    dsimp only at h
    split at h <;> obtain rfl := Option.some.inj h
    · next hs => exact .inl ⟨hs.1, adds_processOnThis hm' .tls .connect s⟩
    · exact .inr (adds_continueWith hm' .tls .mqttCodec .closeExternally s)
  · cases h

/-- **`iotc_tls_layer_close_externally`** waits for the resource manager, or frees its data. -/
theorem tlsCloseExternally_cases (hm : w.Granted) (h : w.tlsCloseExternally s = some w') :
    Frees w w' s ∨ ∃ rm, w.rmContext = some rm ∧ ¬rm.Refuses .closeCoroutine ∧
      Adds (w.setRmContext (some (rm.call .closeCoroutine (closeExternallyCallback s) true))) w' [] := by
  unfold tlsCloseExternally at h
  split at h
  · rcases resourceManager_cases hm .closeCoroutine (closeExternallyCallback s) with
      ⟨hok, hw⟩ | ⟨hok, rm, hrm, hnot, hadds⟩
    · simp only [hok, hw, Bool.false_eq_true, if_false] at h
      exact .inl (tlsFree_frees hm h)
    · simp only [hok, if_true] at h
      obtain rfl := Option.some.inj h
      exact .inr ⟨rm, hrm, hnot, hadds⟩
  · exact .inl (tlsFree_frees hm h)

/-! ## The MQTT codec layer -/

theorem mqttCodecInit_adds (hm : w.Granted) (h : w.mqttCodecInit s = some w') :
    w.mqttCodec = false ∧ Adds { w with mqttCodec := true } w' [⟨.tls, .init, s⟩] := by
  unfold mqttCodecInit at h
  split at h
  · cases h
  · next hnot =>
    have halloc : w.alloc.1 = true := hm.alloc
    simp only [halloc, if_true] at h
    obtain rfl := Option.some.inj h
    have hdata : Adds { w with mqttCodec := true } { w.alloc.2 with mqttCodec := true } [] := by
      have h := adds_alloc w
      exact ⟨h.queue, rfl, rfl, rfl, rfl, rfl, rfl, rfl, rfl, h.mem⟩
    exact ⟨by simpa using hnot,
      hdata.trans (adds_continueWith (hdata.granted hm) .mqttCodec .tls .init s)⟩

theorem mqttCodecPull_adds (hm : w.Granted) (s : IotcState) (a : Answers σ) :
    w.mqttCodecPull s a = w ∨
      w.mqttCodec = true ∧ ∃ s', Adds w (w.mqttCodecPull s a) [⟨.tls, .close, s'⟩] := by
  unfold mqttCodecPull
  split
  · exact .inl rfl
  · next h =>
    split
    · refine .inr ⟨?_, _, adds_continueWith hm .mqttCodec .tls .close _⟩
      cases hd : w.mqttCodec with
      | true => rfl
      | false => simp [stopped, hd] at h
    · exact .inl rfl

theorem mqttCodecConnect_adds (hm : w.Granted) (s : IotcState) :
    Adds w (w.mqttCodecConnect s) [⟨.mqttLogic, .connect, s⟩] :=
  adds_continueWith hm .mqttCodec .mqttLogic .connect s

theorem mqttCodecClose_adds (hm : w.Granted) (s : IotcState) :
    (w.mqttCodec = true ∧ Adds w (w.mqttCodecClose s) [⟨.tls, .close, s⟩]) ∨
      w.mqttCodec = false ∧ Adds w (w.mqttCodecClose s) [⟨.mqttCodec, .closeExternally, s⟩] := by
  unfold mqttCodecClose
  split
  · next h => exact .inl ⟨h, adds_continueWith hm .mqttCodec .tls .close s⟩
  · next h => exact .inr ⟨by simpa using h, adds_processOnThis hm .mqttCodec .closeExternally s⟩

theorem mqttCodecCloseExternally_adds (hm : w.Granted) (s : IotcState) :
    Adds { w with mqttCodec := false } (w.mqttCodecCloseExternally s)
      [⟨.mqttLogic, .closeExternally, s⟩] :=
  adds_continueWith (w := { w with mqttCodec := false }) hm .mqttCodec .mqttLogic .closeExternally s

/-! ## The control topic layer -/

/-- The connection callback is handed to the dispatcher, and at most a `post_connect` is after that. -/
theorem connectionStateChanged_adds (hm : w.Granted) (s : IotcState) :
    ∃ cs, Adds { w with notes := w.notes ++ [.told w.connectionState s] }
      (w.connectionStateChanged s) cs ∧ ∀ c ∈ cs, c = ⟨.controlTopic, .postConnect, s⟩ := by
  unfold connectionStateChanged
  have halloc : w.alloc.1 = true := hm.alloc
  simp only [halloc, if_true]
  have htold : Adds { w with notes := w.notes ++ [.told w.connectionState s] }
      { w.alloc.2 with notes := w.alloc.2.notes ++ [.told w.alloc.2.connectionState s] } [] := by
    have h := adds_alloc w
    exact ⟨h.queue, rfl, rfl, rfl, rfl, rfl, rfl, rfl, rfl, h.mem⟩
  split
  · exact ⟨_, htold.trans (adds_processOnThis (htold.granted hm) .controlTopic .postConnect s), by simp⟩
  · exact ⟨[], htold, by simp⟩

/-! ## The resource manager -/

theorem Collected.handed {rm : ResourceManager.World} (h : ∀ p ∈ rm.queue, ∃ c, p = .coroutine c) :
    handed rm = [] := by
  refine List.filterMap_eq_nil_iff.mpr fun p hp => ?_
  obtain ⟨c, rfl⟩ := h p hp
  rfl

theorem collected_collect (rm : ResourceManager.World) : Collected (collect rm) := by
  refine ⟨rfl, fun p hp => ?_⟩
  have hp := (List.mem_filter.mp hp).2
  cases p with
  | coroutine c => exact ⟨c, rfl⟩
  | callback callback => cases hp

/-- A coroutine of the context runs, with the rest of the queue, or none does. -/
theorem managed_cases {rm rm' : ResourceManager.World} (hc : Collected rm) {fd : Option Int}
    {a : ResourceManager.Answers σ}
    (h : ResourceManager.step rm (fd.elim (.dispatch a) (.ready · a)) = some rm') :
    rm' = rm ∨ ∃ c v, ResourceManager.World.resume a c v = some rm' ∧ v.ctx = rm.ctx ∧ Collected v ∧
      ∀ p ∈ rm.queue, p ∈ v.queue ∨ p = .coroutine c := by
  cases fd with
  | none =>
    simp only [Option.elim_none, ResourceManager.step] at h
    split at h
    · exact .inl (Option.some.inj h).symm
    · next callback queue hq =>
      obtain ⟨c, hc⟩ := hc.queue _ (hq ▸ List.mem_cons_self)
      cases hc
    · next c queue hq =>
      refine .inr ⟨c, { rm with queue }, h, rfl, ⟨hc.log, fun p hp => ?_⟩, fun p hp => ?_⟩
      · exact hc.queue p (hq ▸ List.mem_cons_of_mem _ hp)
      · rw [hq] at hp
        exact (List.mem_cons.mp hp).symm
  | some fd =>
    simp only [Option.elim_some, ResourceManager.step] at h
    split at h
    · exact .inl (Option.some.inj h).symm
    · next file _ => exact .inr ⟨file.2, rm, h, rfl, hc, fun p hp => .inl hp⟩

/-- What a step of the resource manager leaves of a callback. `W` is the chain with the new context. -/
inductive Manages (rm rm' : ResourceManager.World) (W w' : World) (a : Answers σ) : Prop
  | keeps (hcallback : rm'.ctx.callback = rm.ctx.callback)
    (hclose : a.resource.closeState ≠ .wantRead → rm.ctx.callback.isSome = true →
      .coroutine .closeCoroutine ∈ rm.queue → .coroutine .closeCoroutine ∈ rm'.queue) (h : w' = W)
  | hands (callback : ResourceManager.Callback) (s : IotcState)
    (hsome : rm.ctx.callback = some callback) (hnone : rm'.ctx.callback = none)
    (h : w' = { W with queue := W.queue ++ [callOf (callback.setCallbackState s)] })
  | invokes (callback : ResourceManager.Callback) (s : IotcState)
    (hsome : rm.ctx.callback = some callback) (hnone : rm'.ctx.callback = none)
    (h : W.perform (callOf (callback.setCallbackState s)) a = some w')

/-- **A step of the resource manager.** -/
theorem resource_cases (hc : ∀ rm ∈ w.rmContext, Collected rm) {fd : Option Int}
    (h : w.resource fd a = some w') :
    w' = w ∨ ∃ rm rm', w.rmContext = some rm ∧ Collected rm' ∧
      Manages rm rm' (w.setRmContext (some rm')) w' a := by
  unfold resource at h
  split at h
  · exact .inl (Option.some.inj h).symm
  · next d hd =>
    split at h
    · exact .inl (Option.some.inj h).symm
    · next rm hrm =>
      have hw : w.rmContext = some rm := by rw [rmContext, hd, Option.bind_some, hrm]
      obtain ⟨rm', hstep, h⟩ := Option.bind_eq_some_iff.mp h
      refine .inr ⟨rm, collect rm', hw, collected_collect rm', ?_⟩
      have htake (hn : handed rm' = []) :
          w.takeOver d rm' = w.setRmContext (some (collect rm')) := by
        simp [takeOver, setRmContext, modifyTls, hd, hn]
      have hmanaged (hlog : rm'.log = []) (hn : handed rm' = []) :
          w' = w.setRmContext (some (collect rm')) := by
        rw [resourceManaged, hlog, htake hn] at h
        exact (Option.some.inj h).symm
      rcases managed_cases (hc rm hw) hstep with rfl | ⟨c, v, hresume, hctx, hv, hqueue⟩
      · exact .keeps rfl (fun _ _ hp => List.mem_filter.mpr ⟨hp, rfl⟩)
          (hmanaged (hc rm' hw).log (Collected.handed (hc rm' hw).queue))
      · rcases ResourceManager.resume_cases hresume with hkept | hended
        · refine .keeps (hkept.callback.trans (congrArg _ hctx)) (fun hclose hsome hp => ?_)
            (hmanaged (hkept.log.trans hv.log) (Collected.handed (hkept.queue ▸ hv.queue)))
          -- a coroutine that closes does not go on
          refine List.mem_filter.mpr ⟨?_, rfl⟩
          rw [hkept.queue]
          refine (hqueue _ hp).resolve_right fun hcoroutine => ?_
          obtain rfl := (ResourceManager.Pending.coroutine.inj hcoroutine).symm
          have hnone := (ResourceManager.close_ended hclose hresume).callback
          rw [hkept.callback, hctx] at hnone
          rw [hnone] at hsome
          cases hsome
        · rcases hended.called with ⟨callback, s, hcallback, hlog, hq⟩ | ⟨s, hq, hlog⟩
          · refine .hands callback s (by rw [← hctx, hcallback]) hended.callback ?_
            have hn : handed rm' = [callback.setCallbackState s] := by
              have hnil := Collected.handed hv.queue
              unfold handed at hnil ⊢
              rw [hq, List.filterMap_append, hnil]
              rfl
            rw [resourceManaged, hlog.trans hv.log] at h
            obtain rfl := Option.some.inj h
            simp [takeOver, setRmContext, modifyTls, hd, hn]
          · have hn : handed rm' = [] := Collected.handed (hq ▸ hv.queue)
            rw [hctx, hv.log, List.nil_append] at hlog
            cases hcallback : rm.ctx.callback with
            | none =>
              rw [hcallback] at hlog
              exact .keeps (hended.callback.trans hcallback.symm)
                (fun _ hsome _ => by simp [hcallback] at hsome) (hmanaged hlog hn)
            | some callback =>
              rw [hcallback] at hlog
              refine .invokes callback s hcallback hended.callback ?_
              rw [resourceManaged, hlog, htake hn, Option.map_some, Option.toList_some,
                List.foldlM_cons] at h
              obtain ⟨w₁, h₁, h⟩ := Option.bind_eq_some_iff.mp h
              obtain rfl := Option.some.inj h
              exact h₁

end World

end IotDeviceSdk.Chain
