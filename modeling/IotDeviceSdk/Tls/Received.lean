import IotDeviceSdk.Infra.Chunks
import IotDeviceSdk.Infra.Run
import IotDeviceSdk.Tls.Receive
import Mathlib.Data.List.Perm.Basic

/-!
# What the TLS library and the layer above receive

The bytes that have come in are those that the library got, and then those of the buffers in the list, as
long as the layer is operational. The buffers are a queue of chunks, and each callback is one read.

* `Holds` is what is claimed of every state, `Sound` what is claimed of a step.
* `Within` is the condition on a step: what the library returns and what the allocator answers.
-/

namespace IotDeviceSdk.Tls.Receive

open Infra

/-- The bytes of a buffer that have not been read. -/
def RawBuffer.rest (b : RawBuffer) : Bytes := b.dataPtr.drop b.currPos

/-- The bytes in the list, buffer by buffer. -/
def TlsLayerState.chunks (d : TlsLayerState) : List Bytes := d.rawBuffer.map RawBuffer.rest

namespace World

/-- `IOTC_THIS_LAYER_NOT_OPERATIONAL` -/
def operational (w : World) : Bool := !w.layerState.notOperational

/-- The data of an operational layer. -/
def operating (w : World) : Option TlsLayerState := if w.operational then w.userData else none

/-- The buffers that the layer holds. -/
def held (w : World) : List RawBuffer := w.userData.elim [] TlsLayerState.rawBuffer

/-- The plaintext that the layer holds. -/
def decoded (w : World) : Bytes := (w.userData.bind TlsLayerState.decodedBuffer).getD []

end World

/-! ## What is claimed -/

/-- **What is claimed of every state**: what the library got are the first of the bytes that came in, and
with what is in the list it is all of them; no read returns more than was asked for; each buffer is
freed once or still held, with something to read; and what `iotc_bsp_tls_read` returned has been passed to
the layer above, or it is in the buffer. -/
structure Holds (w : World) : Prop where
  order : w.handed <+: w.received
  drained : w.operational = true → w.handed ++ (w.held.map RawBuffer.rest).flatten = w.received
  bounded : ∀ c ∈ w.callbacks, c.bytesRead ≤ c.sz
  unread : ∀ b ∈ w.held, b.currPos < b.dataPtr.length
  freed : (w.freed ++ w.held.map RawBuffer.id).Perm (List.range w.nextBuffer)
  passed : w.operational = true → w.plaintext = w.passed.flatten ++ w.decoded

/-- A call of `recv_handler` on an operational layer. -/
structure Call where
  data : TlsLayerState
  bsp : BspRead
  mem : Memory

/-- The call of `recv_handler` in a step. -/
def recvCall (w : World) : Event → Option Call
  | .receive buffer bsp mem =>
    (w.operating.filter TlsLayerState.connected).map fun d =>
      ⟨{ d with rawBuffer := d.rawBuffer ++ [⟨w.nextBuffer, buffer, 0⟩] }, bsp, mem⟩
  | .pull bsp mem => (w.operating.filter TlsLayerState.connected).map fun d => ⟨d, bsp, mem⟩
  | _ => none

/-- Raw data or plaintext remains. -/
def Remains (w : World) (bsp : BspRead) : Prop := w.held ≠ [] ∨ bsp.pending = true

/-- **What is claimed of a step**: it is taken, and where the layer is open after `recv_handler` and there
is something left to read, a pull has been queued. -/
def Sound (size : Nat) (w : World) (e : Event) : Prop :=
  ∃ w', step size w e = some w' ∧ Holds w' ∧
    ∀ c ∈ recvCall w e, w'.operational = true → Remains w' c.bsp → w'.pulls = w.pulls + 1

/-! ## The condition -/

namespace Call

/-- The plaintext before the call. -/
def buffered (c : Call) : Bytes := c.data.decodedBuffer.getD []

/-- The plaintext after `iotc_bsp_tls_read`. -/
def decoded (size : Nat) (c : Call) : Bytes := c.buffered ++ c.bsp.bytes.take (size - c.buffered.length)

/-- The library has read all there is. -/
def Drained (c : Call) : Prop := (Chunks.reads c.data.chunks c.bsp.reads).2 = [] ∧ c.bsp.pending = false

/-- A failure closes the layer. -/
def Closes (s : LayerState) (c : Call) : Prop := c.mem.close = true ∧ s = .connected

/-- **When `recv_handler` keeps what is claimed.** -/
def Passes (size : Nat) (s : LayerState) (c : Call) : Prop :=
  if c.data.decodedBuffer = none ∧ c.mem.buffer = false then
    c.Closes s ∨ (c.data.rawBuffer = [] ∧ c.bsp.pending = false)
  else c.buffered.length < size ∧
    match c.bsp.state with
    | .wantRead => c.Drained
    | .ok => (c.mem.next = true ∨ c.decoded size = []) ∧ (c.mem.pull = true ∨ c.Drained)
    | _ => c.Closes s ∨ (c.decoded size = [] ∧ c.Drained)

end Call

/-- A buffer that comes to an operational layer has something in it. -/
def Filled (w : World) : Event → Prop
  | .receive buffer _ _ => w.operating = none ∨ buffer ≠ []
  | _ => True

/-- **The condition on a step.** -/
def Within (size : Nat) (w : World) (e : Event) : Prop :=
  Filled w e ∧ ∀ c ∈ recvCall w e, c.Passes size w.layerState

/-! ## The callback -/

variable {w w' : World} {d d' : TlsLayerState} {size : Nat} {bsp : BspRead} {mem : Memory}

/-- What holds in a handler, between two calls of the callback. -/
structure Inside (w : World) (d : TlsLayerState) : Prop where
  drained : w.handed ++ d.chunks.flatten = w.received
  bounded : ∀ c ∈ w.callbacks, c.bytesRead ≤ c.sz
  unread : ∀ b ∈ d.rawBuffer, b.currPos < b.dataPtr.length
  freed : (w.freed ++ d.rawBuffer.map RawBuffer.id).Perm (List.range w.nextBuffer)

/-- What the callbacks change. -/
def World.drawn (w : World) (handed : Bytes) (callbacks : List CallbackRead) (freed : List Nat) : World :=
  { w with
    handed := w.handed ++ handed
    callbacks := w.callbacks ++ callbacks
    freed := w.freed ++ freed }

/-- A callback is a read of the queue. -/
theorem recvCallback_inside (h : Inside w d) (sz : Nat) :
    ∃ cs fs raw, recvCallback w d sz =
        some (w.drawn (Chunks.read d.chunks sz).1 cs fs, { d with rawBuffer := raw }) ∧
      Inside (w.drawn (Chunks.read d.chunks sz).1 cs fs) { d with rawBuffer := raw } ∧
      raw.map RawBuffer.rest = (Chunks.read d.chunks sz).2 := by
  have hdrained : w.handed ++ (Chunks.read d.chunks sz).1 ++ (Chunks.read d.chunks sz).2.flatten =
      w.received := by
    rw [List.append_assoc, Chunks.read_flatten, h.drained]
  obtain ⟨rawBuffer, decodedBuffer, connected⟩ := d
  obtain ⟨-, hbounded, hunread, hfreed⟩ := h
  cases rawBuffer with
  | nil =>
    refine ⟨[⟨sz, .wantRead, 0⟩], [], [], ?_, ⟨hdrained, ?_, hunread, ?_⟩, rfl⟩
    · simp [recvCallback, World.drawn, TlsLayerState.chunks, Chunks.read]
    · simpa [World.drawn, or_imp, forall_and] using hbounded
    · simpa [World.drawn] using hfreed
  | cons b bs =>
    have hb : b.currPos < b.dataPtr.length := hunread b (List.mem_cons_self ..)
    have hlen : b.rest.length = b.dataPtr.length - b.currPos := List.length_drop
    have hcallbacks : ∀ c ∈ w.callbacks ++ [⟨sz, .ok, min sz (b.dataPtr.length - b.currPos)⟩],
        c.bytesRead ≤ c.sz := by
      intro c hc
      rcases List.mem_append.mp hc with hc | hc
      · exact hbounded c hc
      · obtain rfl := List.mem_singleton.mp hc
        exact Nat.min_le_left ..
    by_cases hle : b.dataPtr.length - b.currPos ≤ sz
    · have hread : Chunks.read (TlsLayerState.chunks ⟨b :: bs, decodedBuffer, connected⟩) sz =
          (b.rest, bs.map RawBuffer.rest) :=
        Chunks.read_cons_le (Nat.le_trans (Nat.le_of_eq hlen) hle)
      rw [hread] at hdrained ⊢
      refine ⟨[⟨sz, .ok, b.dataPtr.length - b.currPos⟩], [b.id], bs, ?_, ⟨hdrained, ?_, ?_, ?_⟩, rfl⟩
      · have hend : b.currPos + (b.dataPtr.length - b.currPos) = b.dataPtr.length := by omega
        have htake : (b.dataPtr.drop b.currPos).take (b.dataPtr.length - b.currPos) = b.rest :=
          List.take_of_length_le (Nat.le_of_eq hlen)
        simp only [recvCallback, Nat.sub_ne_zero_of_lt hb, if_false, Nat.min_eq_right hle, hend,
          if_true, htake, World.freeDesc, World.drawn]
      · rwa [Nat.min_eq_right hle] at hcallbacks
      · exact fun x hx => hunread x (List.mem_cons_of_mem _ hx)
      · simpa [World.drawn] using hfreed
    · have hgt : sz < b.dataPtr.length - b.currPos := Nat.lt_of_not_le hle
      have hread : Chunks.read (TlsLayerState.chunks ⟨b :: bs, decodedBuffer, connected⟩) sz =
          (b.rest.take sz, b.rest.drop sz :: bs.map RawBuffer.rest) :=
        Chunks.read_cons_gt (Nat.lt_of_lt_of_eq hgt hlen.symm)
      have hraw : (({ b with currPos := b.currPos + sz } : RawBuffer) :: bs).map RawBuffer.rest =
          b.rest.drop sz :: bs.map RawBuffer.rest := by
        simp only [List.map_cons, RawBuffer.rest, List.drop_drop]
      rw [hread] at hdrained ⊢
      rw [← hraw] at hdrained
      refine ⟨[⟨sz, .ok, sz⟩], [], { b with currPos := b.currPos + sz } :: bs, ?_,
        ⟨hdrained, ?_, ?_, ?_⟩, hraw⟩
      · have hend : b.currPos + sz ≠ b.dataPtr.length := by omega
        simp only [recvCallback, Nat.sub_ne_zero_of_lt hb, if_false,
          Nat.min_eq_left (Nat.le_of_lt hgt), hend, World.drawn, RawBuffer.rest, List.append_nil]
      · rwa [Nat.min_eq_left (Nat.le_of_lt hgt)] at hcallbacks
      · intro x hx
        rcases List.mem_cons.mp hx with rfl | hx
        · show b.currPos + sz < b.dataPtr.length
          omega
        · exact hunread x (List.mem_cons_of_mem _ hx)
      · simpa [World.drawn] using hfreed

/-- **Callbacks are reads of the queue.** -/
theorem recvCallbacks_inside (h : Inside w d) (szs : List Nat) :
    ∃ cs fs raw, recvCallbacks w d szs =
        some (w.drawn (Chunks.reads d.chunks szs).1 cs fs, { d with rawBuffer := raw }) ∧
      Inside (w.drawn (Chunks.reads d.chunks szs).1 cs fs) { d with rawBuffer := raw } ∧
      raw.map RawBuffer.rest = (Chunks.reads d.chunks szs).2 := by
  induction szs generalizing w d with
  | nil =>
    refine ⟨[], [], d.rawBuffer, ?_, ?_, rfl⟩
    · simp [recvCallbacks, World.drawn]
    · simpa [World.drawn] using h
  | cons sz szs ih =>
    obtain ⟨cs, fs, raw, hstep, h₁, hraw⟩ := recvCallback_inside h sz
    obtain ⟨cs', fs', raw', hrest, h₂, hraw'⟩ := ih h₁
    have hchunks : TlsLayerState.chunks { d with rawBuffer := raw } = (Chunks.read d.chunks sz).2 := hraw
    have hdrawn : ∀ hs, (w.drawn (Chunks.read d.chunks sz).1 cs fs).drawn hs cs' fs' =
        w.drawn ((Chunks.read d.chunks sz).1 ++ hs) (cs ++ cs') (fs ++ fs') := by
      simp [World.drawn]
    rw [hchunks, hdrawn] at hrest h₂
    rw [hchunks] at hraw'
    refine ⟨cs ++ cs', fs ++ fs', raw', ?_, h₂, hraw'⟩
    rw [recvCallbacks, hstep, Option.bind_some, hrest, Chunks.reads_cons]

/-! ## What the handlers leave -/

theorem closeOnThisLayer_eq (w : World) (mem : Memory) :
    w.closeOnThisLayer mem =
      { w with layerState := if mem.close then w.layerState.afterClose else w.layerState } := by
  unfold World.closeOnThisLayer
  split <;> rfl

theorem pullAgain_eq (w : World) (d : TlsLayerState) (bsp : BspRead) (mem : Memory) :
    w.pullAgain d bsp mem =
      { w with
        pulls := if (d.rawBuffer ≠ [] ∨ bsp.pending = true) ∧ mem.pull = true then w.pulls + 1
          else w.pulls } := by
  unfold World.pullAgain
  split <;> rfl

/-- A layer is open after a failure, unless it was connected and there was memory. -/
theorem afterClose_operational (hop : w.operational = true) (hs : w'.layerState = w.layerState) :
    (w'.closeOnThisLayer mem).operational = true ↔ ¬(mem.close = true ∧ w.layerState = .connected) := by
  rw [closeOnThisLayer_eq]
  simp only [World.operational, hs] at hop ⊢
  cases mem.close <;> cases hstate : w.layerState <;>
    simp_all [LayerState.afterClose, LayerState.notOperational]

/-- The same bytes and buffers as in a handler. -/
structure Follows (w : World) (d : TlsLayerState) (w' : World) : Prop where
  received : w'.received = w.received
  handed : w'.handed = w.handed
  callbacks : w'.callbacks = w.callbacks
  freed : w'.freed = w.freed
  nextBuffer : w'.nextBuffer = w.nextBuffer
  held : w'.held = d.rawBuffer

/-- What is left to claim of the state after a handler. -/
theorem Inside.holds_iff (h : Inside w d) (hw : Follows w d w') :
    Holds w' ↔ (w'.operational = true → w'.plaintext = w'.passed.flatten ++ w'.decoded) := by
  refine ⟨Holds.passed, fun hpassed => ⟨?_, fun _ => ?_, ?_, ?_, ?_, hpassed⟩⟩
  · rw [hw.handed, hw.received, ← h.drained]
    exact List.prefix_append ..
  · rw [hw.handed, hw.received, hw.held]
    exact h.drained
  · rw [hw.callbacks]
    exact h.bounded
  · rw [hw.held]
    exact h.unread
  · rw [hw.freed, hw.nextBuffer, hw.held]
    exact h.freed

theorem Inside.holds (h : Inside w d) (hw : Follows w d w')
    (hp : w'.plaintext = w'.passed.flatten ++ w'.decoded) : Holds w' :=
  (h.holds_iff hw).2 fun _ => hp

/-- What is claimed of `recv_handler`, from `w`. -/
def Received (w : World) (bsp : BspRead) (w' : World) : Prop :=
  Holds w' ∧ (w'.operational = true → Remains w' bsp → w'.pulls = w.pulls + 1)

/-- What has to be shown of an open layer. -/
theorem Inside.received_iff {w₀ : World} (h : Inside w d) (hw : Follows w d w') :
    Received w₀ bsp w' ↔ (w'.operational = true → w'.plaintext = w'.passed.flatten ++ w'.decoded ∧
      (d.rawBuffer ≠ [] ∨ bsp.pending = true → w'.pulls = w₀.pulls + 1)) := by
  unfold Received Remains
  rw [h.holds_iff hw, hw.held]
  constructor
  · rintro ⟨hpassed, hpull⟩ hopen
    exact ⟨hpassed hopen, hpull hopen⟩
  · intro hboth
    exact ⟨fun hopen => (hboth hopen).1, fun hopen => (hboth hopen).2⟩

/-- A failure loses what has been decoded, and queues nothing, unless it closes the layer. -/
theorem Inside.received_close_iff {w₀ : World} (lost : Bytes) (h : Inside w d)
    (hop : w₀.operational = true) (hstate : w.layerState = w₀.layerState)
    (hpulls : w.pulls = w₀.pulls) (hdata : w.userData = some d) (hnone : d.decodedBuffer = none)
    (hplaintext : w.plaintext = w.passed.flatten ++ lost) :
    Received w₀ bsp (w.closeOnThisLayer mem) ↔ (mem.close = true ∧ w₀.layerState = .connected) ∨
      (lost = [] ∧ d.rawBuffer = [] ∧ bsp.pending = false) := by
  have hfollows : Follows w d (w.closeOnThisLayer mem) := by
    rw [closeOnThisLayer_eq]
    exact ⟨rfl, rfl, rfl, rfl, rfl, by simp only [World.held, hdata, Option.elim_some]⟩
  have hdecoded : (w.closeOnThisLayer mem).decoded = [] := by
    rw [closeOnThisLayer_eq]
    simp only [World.decoded, hdata, Option.bind_some, hnone, Option.getD_none]
  have hpassed : (w.closeOnThisLayer mem).plaintext = (w.closeOnThisLayer mem).passed.flatten ++ lost := by
    rw [closeOnThisLayer_eq]
    exact hplaintext
  have hpulled : (w.closeOnThisLayer mem).pulls = w₀.pulls := by
    rw [closeOnThisLayer_eq]
    exact hpulls
  rw [h.received_iff hfollows, afterClose_operational hop hstate, hpassed, hdecoded, hpulled]
  by_cases hcloses : mem.close = true ∧ w₀.layerState = .connected
  · simp [hcloses]
  · simp [hcloses]

/-- **When `recv_handler` keeps what is claimed.** -/
theorem recvHandler_iff (h : Inside w d) (hop : w.operational = true)
    (hp : w.plaintext = w.passed.flatten ++ d.decodedBuffer.getD []) :
    (∃ w', recvHandler size w d bsp mem = some w' ∧ Received w bsp w') ↔
      Call.Passes size w.layerState ⟨d, bsp, mem⟩ := by
  unfold recvHandler Call.Passes
  by_cases hmem : d.decodedBuffer = none ∧ mem.buffer = false
  · rw [if_pos hmem, if_pos hmem]
    simp only [Option.some.injEq, exists_eq_left']
    have hin : Inside { w with userData := some d } d := ⟨h.1, h.2, h.3, h.4⟩
    rw [Inside.received_close_iff [] hin hop rfl rfl rfl hmem.1 ?_]
    · simp [Call.Closes]
    · show w.plaintext = w.passed.flatten ++ []
      rw [hp, hmem.1]
      rfl
  · rw [if_neg hmem, if_neg hmem]
    obtain ⟨cs, fs, raw, hcalls, hin, hraw⟩ := recvCallbacks_inside h bsp.reads
    have hdrained : (Call.mk d bsp mem).Drained ↔ raw = [] ∧ bsp.pending = false := by
      unfold Call.Drained
      rw [← hraw, List.map_eq_nil_iff]
    by_cases hfull : size - (d.decodedBuffer.getD []).length = 0
    · rw [if_pos hfull]
      constructor
      · rintro ⟨_, hnone, _⟩
        cases hnone
      · rintro ⟨hlt, _⟩
        exact absurd hlt (Nat.not_lt.mpr (Nat.le_of_sub_eq_zero hfull))
    · have hlt : (Call.mk d bsp mem).buffered.length < size := Nat.lt_of_sub_ne_zero hfull
      have hdecoded : w.plaintext ++ bsp.bytes.take (size - (d.decodedBuffer.getD []).length) =
          w.passed.flatten ++ (Call.mk d bsp mem).decoded size := by
        rw [hp, List.append_assoc]
        rfl
      rw [if_neg hfull, hcalls, Option.map_some]
      simp only [Option.some.injEq, exists_eq_left', hlt, true_and, hdrained]
      cases hstate : bsp.state with
      | wantRead =>
        refine Iff.trans (hin.received_iff ⟨rfl, rfl, rfl, rfl, rfl, rfl⟩) ?_
        refine (forall_prop_of_true hop).trans ?_
        simp [World.drawn, World.decoded, hdecoded, Call.decoded, Call.buffered]
      | ok =>
        simp only [pullAgain_eq]
        refine Iff.trans (hin.received_iff ⟨rfl, rfl, rfl, rfl, rfl, rfl⟩) ?_
        refine (forall_prop_of_true hop).trans (and_congr ?_ ?_)
        · simp only [World.drawn, World.decoded, Option.bind_some, Option.getD_none]
          rw [hdecoded]
          cases mem.next <;> simp [Call.decoded, Call.buffered]
        · simp only [World.drawn]
          have hremains : (raw ≠ [] ∨ bsp.pending = true) ↔ ¬(raw = [] ∧ bsp.pending = false) := by
            cases bsp.pending <;> simp
          simp only [hremains]
          by_cases hleft : raw = [] ∧ bsp.pending = false
          · simp [hleft]
          · simp [hleft]
      | _ =>
        refine Iff.trans (Inside.received_close_iff (d := { d with rawBuffer := raw, decodedBuffer := none })
          ((Call.mk d bsp mem).decoded size) ?_ hop rfl rfl rfl rfl hdecoded) .rfl
        exact ⟨hin.1, hin.2, hin.3, hin.4⟩

/-- `connect_handler` passes nothing on, and keeps what is claimed. -/
theorem connectHandler_holds (h : Inside w d)
    (hp : w.plaintext = w.passed.flatten ++ d.decodedBuffer.getD []) :
    ∃ w', connectHandler w d bsp mem = some w' ∧ Holds w' := by
  obtain ⟨cs, fs, raw, hcalls, hin, -⟩ := recvCallbacks_inside h bsp.reads
  unfold connectHandler
  rw [hcalls, Option.map_some]
  refine ⟨_, rfl, ?_⟩
  cases bsp.state with
  | wantRead => exact hin.holds ⟨rfl, rfl, rfl, rfl, rfl, rfl⟩ hp
  | wantWrite => exact hin.holds ⟨rfl, rfl, rfl, rfl, rfl, rfl⟩ hp
  | ok =>
    simp only [pullAgain_eq]
    exact hin.holds ⟨rfl, rfl, rfl, rfl, rfl, rfl⟩ hp
  | _ =>
    simp only [closeOnThisLayer_eq]
    exact hin.holds ⟨rfl, rfl, rfl, rfl, rfl, rfl⟩ hp

/-! ## The data of the layer -/

/-- A layer without data is closed. -/
def Closed (w : World) : Prop := w.userData = none → w.operational = false

theorem closeOnThisLayer_operational (hop : w.operational = false) :
    (w.closeOnThisLayer mem).operational = false := by
  rw [closeOnThisLayer_eq]
  simp only [World.operational] at hop ⊢
  cases mem.close <;> cases hstate : w.layerState <;>
    simp_all [LayerState.afterClose, LayerState.notOperational]

theorem recvHandler_userData (hrun : recvHandler size w d bsp mem = some w') : w'.userData ≠ none := by
  unfold recvHandler at hrun
  split at hrun
  · cases hrun
    simp [closeOnThisLayer_eq]
  · simp only at hrun
    split at hrun
    · cases hrun
    · obtain ⟨r, -, rfl⟩ := Option.map_eq_some_iff.mp hrun
      cases bsp.state <;> simp [closeOnThisLayer_eq]

theorem connectHandler_userData (hrun : connectHandler w d bsp mem = some w') : w'.userData ≠ none := by
  obtain ⟨r, -, rfl⟩ := Option.map_eq_some_iff.mp hrun
  cases bsp.state <;> simp [closeOnThisLayer_eq]

theorem logicRecvHandler_userData (hrun : logicRecvHandler size w d bsp mem = some w') :
    w'.userData ≠ none := by
  unfold logicRecvHandler at hrun
  split at hrun
  · exact recvHandler_userData hrun
  · exact connectHandler_userData hrun

theorem pull_closed {data : Option RawBuffer} (h : Closed w)
    (hrun : Receive.pull size w data bsp mem = some w') : Closed w' := by
  unfold Receive.pull at hrun
  split at hrun
  next hnone =>
    cases hrun
    intro _
    refine closeOnThisLayer_operational ?_
    cases data <;> exact h hnone
  next d hdata =>
    split at hrun
    next hop =>
      cases hrun
      intro _
      refine closeOnThisLayer_operational ?_
      cases data <;> simp [World.operational, World.freeDesc, hop]
    next =>
      intro hnone
      cases data with
      | none => exact absurd hnone (logicRecvHandler_userData hrun)
      | some desc =>
        simp only at hrun
        split at hrun
        · cases hrun
        · exact absurd hnone (logicRecvHandler_userData hrun)

theorem step_closed {e : Event} (h : Closed w) (hstep : step size w e = some w') : Closed w' := by
  cases e with
  | receive buffer bsp mem => exact pull_closed (by exact h) hstep
  | pull bsp mem => exact pull_closed h hstep
  | write reads =>
    replace hstep : Receive.write w reads = some w' := hstep
    unfold Receive.write at hstep
    split at hstep
    · cases hstep
      exact h
    · split at hstep
      · cases hstep
        exact h
      · obtain ⟨r, -, rfl⟩ := Option.map_eq_some_iff.mp hstep
        exact nofun
  | close mem =>
    cases hstep
    intro hnone
    rw [Receive.close, closeOnThisLayer_eq] at hnone
    exact closeOnThisLayer_operational (h hnone)
  | closeExternally =>
    cases hstep
    unfold Receive.closeExternally
    cases w.userData <;> exact fun _ => rfl

/-! ## The steps -/

/-- What is kept by the steps. -/
structure Kept (w : World) : Prop where
  holds : Holds w
  closed : Closed w

theorem Kept.operating_eq_none (h : Kept w) : w.operating = none ↔ w.operational = false := by
  unfold World.operating
  constructor
  · intro hnone
    by_contra hop
    rw [Bool.not_eq_false] at hop
    rw [if_pos hop] at hnone
    exact absurd (h.closed hnone) (by simp [hop])
  · intro hop
    rw [hop]
    rfl

/-- An operational layer, before a handler. -/
theorem Kept.inside (h : Kept w) (hd : w.operating = some d) :
    w.userData = some d ∧ w.operational = true ∧ Inside w d ∧
      w.plaintext = w.passed.flatten ++ d.decodedBuffer.getD [] := by
  unfold World.operating at hd
  split at hd
  next hop =>
    have hheld : w.held = d.rawBuffer := by rw [World.held, hd, Option.elim_some]
    have hdecoded : w.decoded = d.decodedBuffer.getD [] := by rw [World.decoded, hd, Option.bind_some]
    obtain ⟨-, hdrained, hbounded, hunread, hfreed, hpassed⟩ := h.holds
    rw [hheld] at hdrained hunread hfreed
    rw [hdecoded] at hpassed
    exact ⟨hd, hop, ⟨hdrained hop, hbounded, hunread, hfreed⟩, hpassed hop⟩
  next => cases hd

/-- A buffer that has something in it goes to the end of the list. -/
theorem Inside.receive {buffer : Bytes} (h : Inside w d) (hne : buffer ≠ []) :
    Inside { w with nextBuffer := w.nextBuffer + 1, received := w.received ++ buffer }
      { d with rawBuffer := d.rawBuffer ++ [⟨w.nextBuffer, buffer, 0⟩] } where
  drained := by
    rw [← h.drained]
    simp [TlsLayerState.chunks, RawBuffer.rest]
  bounded := h.bounded
  unread := by
    intro b hb
    rcases List.mem_append.mp hb with hb | hb
    · exact h.unread b hb
    · obtain rfl := List.mem_singleton.mp hb
      exact List.length_pos_iff.mpr hne
  freed := by
    rw [List.range_succ, List.map_append, ← List.append_assoc]
    exact h.freed.append_right _

/-- **A call of the handler.** -/
theorem logicRecvHandler_iff (h : Inside w d) (hop : w.operational = true)
    (hp : w.plaintext = w.passed.flatten ++ d.decodedBuffer.getD []) :
    (∃ w', logicRecvHandler size w d bsp mem = some w' ∧ Holds w' ∧
        (d.connected = true → w'.operational = true → Remains w' bsp → w'.pulls = w.pulls + 1)) ↔
      (d.connected = true → Call.Passes size w.layerState ⟨d, bsp, mem⟩) := by
  unfold logicRecvHandler
  by_cases hconnected : d.connected = true
  · rw [if_pos hconnected, forall_prop_of_true hconnected, ← recvHandler_iff h hop hp]
    simp only [forall_prop_of_true hconnected, Received]
  · rw [if_neg hconnected]
    have hconnect : ∃ w', connectHandler w d bsp mem = some w' ∧ Holds w' := connectHandler_holds h hp
    obtain ⟨w', hrun, hholds⟩ := hconnect
    exact iff_of_true ⟨w', hrun, hholds, fun hc => absurd hc hconnected⟩
      fun hc => absurd hc hconnected

/-! ## A layer that is not operational -/

/-- What comes in is freed. -/
theorem Holds.stopped (h : Holds w) (hop : w.operational = false) (buffer : Bytes) :
    Holds ({ w with
      nextBuffer := w.nextBuffer + 1
      received := w.received ++ buffer
      freed := w.freed ++ [w.nextBuffer] }.closeOnThisLayer mem) := by
  have hstopped : ({ w with
      nextBuffer := w.nextBuffer + 1
      received := w.received ++ buffer
      freed := w.freed ++ [w.nextBuffer] }.closeOnThisLayer mem).operational = false :=
    closeOnThisLayer_operational hop
  rw [closeOnThisLayer_eq] at hstopped ⊢
  refine ⟨h.order.trans (List.prefix_append ..), fun hopen => ?_, h.bounded, h.unread, ?_, fun hopen => ?_⟩
  · rw [hstopped] at hopen
    cases hopen
  · show (w.freed ++ [w.nextBuffer] ++ w.held.map RawBuffer.id).Perm (List.range (w.nextBuffer + 1))
    rw [List.range_succ, List.append_assoc]
    refine (List.perm_append_comm.append_left _).trans ?_
    rw [← List.append_assoc]
    exact h.freed.append_right _
  · rw [hstopped] at hopen
    cases hopen

theorem Holds.close (h : Holds w) : Holds (w.closeOnThisLayer mem) := by
  have hopen : (w.closeOnThisLayer mem).operational = true → w.operational = true := by
    intro hopen
    by_contra hop
    rw [Bool.not_eq_true] at hop
    exact absurd hopen (by simp [closeOnThisLayer_operational hop])
  rw [closeOnThisLayer_eq] at hopen ⊢
  exact ⟨h.order, fun ho => h.drained (hopen ho), h.bounded, h.unread, h.freed,
    fun ho => h.passed (hopen ho)⟩

theorem step_receive_stopped (hop : w.operational = false) (buffer : Bytes) :
    step size w (.receive buffer bsp mem) =
      some ({ w with
        nextBuffer := w.nextBuffer + 1
        received := w.received ++ buffer
        freed := w.freed ++ [w.nextBuffer] }.closeOnThisLayer mem) := by
  have hnot : w.layerState.notOperational = true := by simpa [World.operational] using hop
  simp only [step, Receive.pull]
  split
  · rfl
  · rw [if_pos hnot]
    rfl

theorem step_pull_stopped (hop : w.operational = false) :
    step size w (.pull bsp mem) = some (w.closeOnThisLayer mem) := by
  have hnot : w.layerState.notOperational = true := by simpa [World.operational] using hop
  simp only [step, Receive.pull]
  split
  · rfl
  · rw [if_pos hnot]
    rfl

/-! ## An operational layer -/

theorem step_receive (hdata : w.userData = some d) (hop : w.operational = true) {buffer : Bytes}
    (hne : buffer ≠ []) :
    step size w (.receive buffer bsp mem) =
      logicRecvHandler size { w with nextBuffer := w.nextBuffer + 1, received := w.received ++ buffer }
        { d with rawBuffer := d.rawBuffer ++ [⟨w.nextBuffer, buffer, 0⟩] } bsp mem := by
  have hnot : ¬w.layerState.notOperational = true := by simpa [World.operational] using hop
  have hlen : ¬buffer.length - 0 = 0 := by simpa using hne
  simp only [step, Receive.pull, hdata, if_neg hnot, if_neg hlen]

theorem step_receive_nil (hdata : w.userData = some d) (hop : w.operational = true) :
    step size w (.receive [] bsp mem) = none := by
  have hnot : ¬w.layerState.notOperational = true := by simpa [World.operational] using hop
  simp only [step, Receive.pull, hdata, if_neg hnot]
  rfl

theorem step_pull (hdata : w.userData = some d) (hop : w.operational = true) :
    step size w (.pull bsp mem) = logicRecvHandler size w d bsp mem := by
  have hnot : ¬w.layerState.notOperational = true := by simpa [World.operational] using hop
  simp only [step, Receive.pull, hdata, if_neg hnot]

/-- The library reads while it writes. -/
theorem write_holds (h : Kept w) (reads : List Nat) :
    ∃ w', step size w (.write reads) = some w' ∧ Holds w' := by
  show ∃ w', Receive.write w reads = some w' ∧ Holds w'
  unfold Receive.write
  cases hdata : w.userData with
  | none => exact ⟨w, rfl, h.holds⟩
  | some d =>
    by_cases hop : w.operational = true
    · obtain ⟨-, -, hin, hp⟩ := h.inside (d := d) (by rw [World.operating, if_pos hop, hdata])
      obtain ⟨cs, fs, raw, hcalls, hin', -⟩ := recvCallbacks_inside hin reads
      have hnot : ¬w.layerState.notOperational = true := by simpa [World.operational] using hop
      simp only [if_neg hnot, hcalls, Option.map_some]
      exact ⟨_, rfl, hin'.holds ⟨rfl, rfl, rfl, rfl, rfl, rfl⟩ hp⟩
    · have hnot : w.layerState.notOperational = true := by simpa [World.operational] using hop
      exact ⟨w, if_pos hnot, h.holds⟩

/-- The buffers that are left are freed. -/
theorem closeExternally_holds (h : Holds w) : Holds (Receive.closeExternally w) := by
  have hfreed := h.freed
  unfold Receive.closeExternally
  cases hdata : w.userData with
  | none =>
    rw [World.held, hdata] at hfreed
    exact ⟨h.order, nofun, h.bounded, nofun, hfreed, nofun⟩
  | some d =>
    rw [World.held, hdata] at hfreed
    refine ⟨h.order, nofun, h.bounded, nofun, ?_, nofun⟩
    show (w.freed ++ d.rawBuffer.map RawBuffer.id ++ []).Perm (List.range w.nextBuffer)
    rw [List.append_nil]
    exact hfreed

/-! ## The run -/

theorem recvCall_receive (hd : w.operating = some d) (buffer : Bytes) {P : Call → Prop} :
    (∀ c ∈ recvCall w (.receive buffer bsp mem), P c) ↔ (d.connected = true →
      P ⟨{ d with rawBuffer := d.rawBuffer ++ [⟨w.nextBuffer, buffer, 0⟩] }, bsp, mem⟩) := by
  cases hconnected : d.connected <;> simp [recvCall, hd, hconnected]

theorem recvCall_pull (hd : w.operating = some d) {P : Call → Prop} :
    (∀ c ∈ recvCall w (.pull bsp mem), P c) ↔ (d.connected = true → P ⟨d, bsp, mem⟩) := by
  cases hconnected : d.connected <;> simp [recvCall, hd, hconnected]

/-- A step without a call of `recv_handler`. -/
theorem sound_iff_of_holds {e : Event} (h : ∃ w', step size w e = some w' ∧ Holds w')
    (hfilled : Filled w e) (hcall : recvCall w e = none) : Sound size w e ↔ Within size w e := by
  obtain ⟨w', hstep, hholds⟩ := h
  refine iff_of_true ⟨w', hstep, hholds, ?_⟩ ⟨hfilled, ?_⟩
  · intro c hc
    exact absurd (hcall.symm.trans hc) (by simp)
  · intro c hc
    exact absurd (hcall.symm.trans hc) (by simp)

/-- **What is claimed of a step, and its condition.** -/
theorem sound_iff (h : Kept w) (e : Event) : Sound size w e ↔ Within size w e := by
  cases e with
  | receive buffer bsp mem =>
    cases hd : w.operating with
    | none =>
      have hop := h.operating_eq_none.1 hd
      refine sound_iff_of_holds ⟨_, step_receive_stopped hop buffer, h.holds.stopped hop buffer⟩
        (.inl hd) ?_
      rw [recvCall, hd]
      rfl
    | some d =>
      obtain ⟨hdata, hop, hin, hp⟩ := h.inside hd
      unfold Sound Within
      simp only [recvCall_receive hd, Filled, hd, reduceCtorEq, false_or]
      by_cases hne : buffer = []
      · rw [hne, step_receive_nil hdata hop]
        simp
      · rw [step_receive hdata hop hne]
        simp only [ne_eq, hne, not_false_eq_true, true_and]
        exact logicRecvHandler_iff (hin.receive hne) hop hp
  | pull bsp mem =>
    cases hd : w.operating with
    | none =>
      have hop := h.operating_eq_none.1 hd
      refine sound_iff_of_holds ⟨_, step_pull_stopped hop, h.holds.close⟩ trivial ?_
      rw [recvCall, hd]
      rfl
    | some d =>
      obtain ⟨hdata, hop, hin, hp⟩ := h.inside hd
      unfold Sound Within
      simp only [recvCall_pull hd, Filled, true_and]
      rw [step_pull hdata hop]
      exact logicRecvHandler_iff hin hop hp
  | write reads => exact sound_iff_of_holds (write_holds h reads) trivial rfl
  | close mem => exact sound_iff_of_holds ⟨_, rfl, h.holds.close⟩ trivial rfl
  | closeExternally => exact sound_iff_of_holds ⟨_, rfl, closeExternally_holds h.holds⟩ trivial rfl

theorem initialised_holds : Holds initialised :=
  ⟨List.nil_prefix, fun _ => rfl, nofun, nofun, .refl _, fun _ => rfl⟩

theorem initialised_kept : Kept initialised := ⟨initialised_holds, nofun⟩

/-- **When the layer reads and passes on what comes in.** -/
theorem received_and_passed_iff (size : Nat) (es : List Event) :
    (Holds initialised ∧ AllSteps (step size) (Sound size) initialised es) ↔
      AllSteps (step size) (Within size) initialised es := by
  have hstep : ∀ w e w', Kept w → Within size w e → step size w e = some w' → Kept w' := by
    intro w e w' hkept hwithin hrun
    obtain ⟨w₁, hrun₁, hholds, -⟩ := (sound_iff hkept e).2 hwithin
    obtain rfl := Option.some.inj (hrun₁.symm.trans hrun)
    exact ⟨hholds, step_closed hkept.closed hrun⟩
  rw [allSteps_iff hstep (fun w e hkept => sound_iff hkept e) initialised_kept]
  exact and_iff_right initialised_holds

/-- Where the library waits before it has read all of a buffer, no further pull is queued. -/
theorem received_left_behind :
    ¬∀ (size : Nat) (es : List Event), 0 < size →
      Holds initialised ∧ AllSteps (step size) (Sound size) initialised es := by
  intro h
  obtain ⟨-, hconnect⟩ := h 32
    [.receive [1] ⟨[1], .ok, [], false⟩ ⟨true, true, true, true⟩,
      .receive [1, 2, 3] ⟨[2], .wantRead, [], false⟩ ⟨true, true, true, true⟩] (by decide)
  obtain ⟨w', hrun, -, hpull⟩ := (hconnect.2 _ rfl).1
  obtain rfl := Option.some.inj hrun
  exact absurd (hpull _ rfl rfl (.inl nofun)) (by decide)

end IotDeviceSdk.Tls.Receive
