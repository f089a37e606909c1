import Mathlib.Data.List.Forall2
import IotDeviceSdk.Infra.Run
import IotDeviceSdk.Tls.Layer

/-!
# What the TLS layer reports of a buffer

The layer above pushes one buffer after the other, each after the report of the one before. A
buffer is reported once: as `WRITTEN` when the library has accepted all of it, in order, or else as
`FAILED_WRITING`.

That is so as long as (`Safe`)

* a write of the library that returns `OK` has taken all that it was offered;
* the layer below does not report a failure, which the layer passes down again;
* a layer with a buffer is not closed;
* the send callback gets its descriptor, and the library does not send while it reads.

The library is assumed to return `WANT_WRITE` while a send that it has started is not done, to
repeat that send, and not to take more than it is offered (`Obeys`).
-/

namespace IotDeviceSdk.Tls

/-! ## Runs -/

/-- The layer with its neighbours: the buffers that the layer below has not answered, those that
were pushed to a layer that works, what the library has accepted of the last one, and the reports,
each with what had been accepted. -/
structure World where
  layer : Layer
  outstanding : Nat
  submitted : List Bytes
  accepted : Bytes
  reports : List (Bytes × IotcState)
  deriving DecidableEq, Repr

inductive Event where
  /-- the layer above pushes a buffer -/
  | push (buffer : Bytes) (bsp : BspWrite)
  /-- the layer below answers a buffer -/
  | answer (state : IotcState) (bsp : BspWrite)
  /-- the library reads, and sends meanwhile -/
  | pull (sends : List Bool)
  | close
  | closeExternally
  deriving DecidableEq, Repr

def connectedWorld : World := ⟨⟨.connected, some .connected⟩, 0, [], [], []⟩

/-- The data of a layer that works. -/
def Layer.working (l : Layer) : Option TlsLayerState :=
  if l.layerState.notOperational then none else l.userData

/-- What a call adds to the world. -/
def World.add (w : World) (r : PushResult) : World :=
  let accepted := w.accepted ++ r.accepted
  { w with
    layer := r.layer
    outstanding := w.outstanding + r.pushed
    accepted := accepted
    reports := w.reports ++ (r.report.map fun state => (accepted, state)).toList }

def step (w : World) : Event → Option World
  | .push buffer bsp =>
    let w := if w.layer.working.isSome then
        { w with submitted := w.submitted ++ [buffer], accepted := [] } else w
    (Tls.push w.layer buffer .ok bsp).map w.add
  | .answer state bsp =>
    (Tls.push w.layer none state bsp).map { w with outstanding := w.outstanding - 1 }.add
  | .pull sends => (Tls.pull w.layer sends).map w.add
  | .close => some { w with layer := Tls.close w.layer }
  | .closeExternally => some { w with layer := Tls.closeExternally w.layer }

/-! ## What the neighbours promise and what the layer needs -/

/-- The library takes no more than it is offered, repeats a send that is not done and returns
`WANT_WRITE` exactly then. -/
def Obeys (d : TlsLayerState) (sizeLeft : Nat) (bsp : BspWrite) : Prop :=
  bsp.bytesWritten ≤ sizeLeft ∧ (d.tlsLibHandlerSendingCs → bsp.sends ≠ []) ∧
    (bsp.state = .wantWrite → bsp.bytesWritten < sizeLeft) ∧
      ∀ r ∈ sendCallbacks d bsp.sends, bsp.state = .wantWrite ↔ r.result = some .wantWrite

/-- A write that is done took everything, and the callback got its descriptors. -/
def Whole (sizeLeft : Nat) (bsp : BspWrite) : Prop :=
  (bsp.state = .ok → bsp.bytesWritten = sizeLeft) ∧ ∀ mem ∈ bsp.sends, mem = true

/-- What the layer has left to write. -/
def TlsLayerState.sizeLeft (d : TlsLayerState) : Nat :=
  match d.toWriteBuffer with
  | none => 0
  | some buffer => buffer.dataPtr.length - buffer.currPos

/-- The neighbours and the library do their part. -/
def Permitted (w : World) : Event → Prop
  | .push buffer bsp => buffer ≠ [] ∧ w.reports.length = w.submitted.length ∧
    ∀ d ∈ w.layer.working, Obeys { d with toWriteBuffer := some ⟨buffer, 0⟩ } buffer.length bsp
  | .answer _ bsp => 0 < w.outstanding ∧
    ∀ d ∈ w.layer.working, Obeys { d with tlsLayerWriteState := .written } d.sizeLeft bsp
  | _ => True

/-- What the layer needs beyond that. -/
def Safe (w : World) : Event → Prop
  | .push buffer bsp => w.layer.working.isSome → Whole buffer.length bsp
  | .answer state bsp => ∀ d ∈ w.layer.working, state = .written ∧ Whole d.sizeLeft bsp
  | .pull sends => w.layer.working.isSome → sends = []
  | .close | .closeExternally => ∀ d ∈ w.layer.userData, d.toWriteBuffer = none

/-- The report of a buffer. -/
def Reported (buffer : Bytes) (report : Bytes × IotcState) : Prop :=
  report = (buffer, .written) ∨ report.2 = .failedWriting

/-- The buffer that has not been reported. -/
def Layer.pending (l : Layer) : List Bytes :=
  ((l.userData.bind TlsLayerState.toWriteBuffer).map DataDesc.dataPtr).toList

/-- **Each buffer has its report, apart from the one that the layer holds.** -/
def Delivered (w : World) : Prop :=
  ∃ done, w.submitted = done ++ w.layer.pending ∧ List.Forall₂ Reported done w.reports

/-! ## The callback -/

/-- A send that is not done stays so until the layer below answers. -/
theorem sendCallbacks_writing {b : Option DataDesc} {cs : Bool} : ∀ sends : List Bool,
    sendCallbacks ⟨b, true, cs, .writing⟩ sends =
      some ⟨⟨b, true, cs, .writing⟩, 0, if sends = [] then none else some .wantWrite⟩
  | [] => rfl
  | mem :: mems => by
    rw [sendCallbacks, sendCallback]
    simp only [if_true, Option.bind_some, sendCallbacks_writing mems, Option.map_some]
    split <;> rfl

/-- The library sends nothing, or starts a send that is not done. -/
theorem sendCallbacks_idle {b : Option DataDesc} {cs : Bool} {sends : List Bool}
    (hmem : ∀ mem ∈ sends, mem = true) :
    sends = [] ∧ sendCallbacks ⟨b, false, cs, .none⟩ sends = some ⟨⟨b, false, cs, .none⟩, 0, none⟩ ∨
      sendCallbacks ⟨b, false, cs, .none⟩ sends =
        some ⟨⟨b, true, cs, .writing⟩, 1, some .wantWrite⟩ := by
  cases sends with
  | nil => exact .inl ⟨rfl, rfl⟩
  | cons mem mems =>
    obtain rfl := hmem mem List.mem_cons_self
    refine .inr ?_
    rw [sendCallbacks, sendCallback]
    simp only [Bool.false_eq_true, if_false, ne_eq, not_true_eq_false, if_true, Option.bind_some,
      sendCallbacks_writing mems, Option.map_some]
    split <;> rfl

/-- The callback can go on: nothing is being sent, or the layer below has answered. -/
def Resumable (d : TlsLayerState) : Prop :=
  d.tlsLibHandlerSendingCs = false ∧ d.tlsLayerWriteState = .none ∨
    d.tlsLibHandlerSendingCs = true ∧ d.tlsLayerWriteState = .written

/-- After a write, a send is not done exactly when the library returned `WANT_WRITE`. -/
theorem sendCallbacks_obeys {d : TlsLayerState} {n : Nat} {bsp : BspWrite} (hd : Resumable d)
    (hobeys : Obeys d n bsp) (hmem : ∀ mem ∈ bsp.sends, mem = true) :
    bsp.state = .wantWrite ∧ (∃ res, sendCallbacks d bsp.sends =
        some ⟨⟨d.toWriteBuffer, true, d.tlsLayerSendCs, .writing⟩, 1, res⟩) ∨
      bsp.state ≠ .wantWrite ∧ ∃ res, sendCallbacks d bsp.sends =
        some ⟨⟨d.toWriteBuffer, false, d.tlsLayerSendCs, .none⟩, 0, res⟩ := by
  obtain ⟨b, lib, cs, ws⟩ := d
  obtain ⟨-, hresume, -, hstate⟩ := hobeys
  rcases hd with ⟨rfl, rfl⟩ | ⟨rfl, rfl⟩
  · rcases @sendCallbacks_idle b cs _ hmem with ⟨-, h⟩ | h
    · refine .inr ⟨fun hw => ?_, _, h⟩
      have := (hstate _ h).1 hw
      cases this
    · exact .inl ⟨(hstate _ h).2 rfl, _, h⟩
  · obtain ⟨mem, mems, hsends⟩ := List.exists_cons_of_ne_nil (hresume rfl)
    have hmems : ∀ mem ∈ mems, mem = true := fun m hm =>
      hmem m (hsends ▸ List.mem_cons_of_mem _ hm)
    have hfirst : sendCallbacks ⟨b, true, cs, .written⟩ bsp.sends =
        (sendCallbacks ⟨b, false, cs, .none⟩ mems).map fun s =>
          ⟨s.data, 0 + s.pushed, s.result.or (some .ok)⟩ := by
      rw [hsends]
      rfl
    rcases @sendCallbacks_idle b cs _ hmems with ⟨-, h⟩ | h
    · rw [h] at hfirst
      refine .inr ⟨fun hw => ?_, _, hfirst⟩
      have := (hstate _ hfirst).1 hw
      cases this
    · rw [h] at hfirst
      exact .inl ⟨(hstate _ hfirst).2 rfl, _, hfirst⟩

/-! ## One write -/

/-- **A write of the library**: it goes on, or the buffer is reported. -/
theorem sendHandler_cases {l : LayerState} {d : TlsLayerState} {bsp : BspWrite} {b : DataDesc}
    (hb : d.toWriteBuffer = some b) (hpos : b.currPos < b.dataPtr.length) (hd : Resumable d)
    (hobeys : Obeys d (b.dataPtr.length - b.currPos) bsp)
    (hwhole : Whole (b.dataPtr.length - b.currPos) bsp) :
    (∃ n, b.currPos + n < b.dataPtr.length ∧ sendHandler l d bsp =
        some ⟨⟨l, some ⟨some ⟨b.dataPtr, b.currPos + n⟩, true, true, .writing⟩⟩,
          (b.dataPtr.drop b.currPos).take n, 1, none⟩) ∨
      ∃ accepted state, sendHandler l d bsp =
          some ⟨⟨l, some .connected⟩, accepted, 0, some state⟩ ∧
        (state = .written ∧ accepted = b.dataPtr.drop b.currPos ∨ state = .failedWriting) := by
  unfold sendHandler
  rw [hb]
  simp only
  rw [if_neg (by omega)]
  rcases sendCallbacks_obeys hd hobeys hwhole.2 with ⟨hstate, res, h⟩ | ⟨hstate, res, h⟩
  · rw [h, Option.map_some, hstate]
    have := hobeys.2.2.1 hstate
    exact .inl ⟨bsp.bytesWritten, by omega, rfl⟩
  · rw [h, Option.map_some]
    refine .inr ?_
    cases hs : bsp.state with
    | wantWrite => exact absurd hs hstate
    | ok =>
      refine ⟨_, _, rfl, .inl ⟨rfl, ?_⟩⟩
      rw [hwhole.1 hs, ← List.length_drop, List.take_length]
    | _ => exact ⟨_, _, rfl, .inr rfl⟩

/-! ## The invariant -/

/-- Nothing is being written: every buffer has its report. -/
structure Idle (w : World) : Prop where
  data : ∀ d ∈ w.layer.userData, d = .connected
  outstanding : w.outstanding = 0
  reports : List.Forall₂ Reported w.submitted w.reports

/-- The buffer `b` is being written, after `done`. -/
structure Writing (w : World) (b : DataDesc) (done : List Bytes) : Prop where
  data : w.layer.userData = some ⟨some b, true, true, .writing⟩
  operational : w.layer.layerState.notOperational = false
  outstanding : w.outstanding = 1
  submitted : w.submitted = done ++ [b.dataPtr]
  reports : List.Forall₂ Reported done w.reports
  accepted : w.accepted = b.dataPtr.take b.currPos
  left : b.currPos < b.dataPtr.length

def Inv (w : World) : Prop := Idle w ∨ ∃ b done, Writing w b done

theorem inv_connectedWorld : Inv connectedWorld :=
  .inl ⟨by rintro d ⟨⟩; rfl, rfl, .nil⟩

theorem Inv.delivered {w : World} (h : Inv w) : Delivered w := by
  rcases h with h | ⟨b, done, h⟩
  · refine ⟨w.submitted, ?_, h.reports⟩
    cases hd : w.layer.userData with
    | none => simp [Layer.pending, hd]
    | some d =>
      obtain rfl := h.data d hd
      simp [Layer.pending, hd, TlsLayerState.connected]
  · refine ⟨done, ?_, h.reports⟩
    simp [Layer.pending, h.data, h.submitted]

theorem Writing.working {w : World} {b : DataDesc} {done : List Bytes} (h : Writing w b done) :
    w.layer.working = some ⟨some b, true, true, .writing⟩ := by
  rw [Layer.working, h.operational, if_neg Bool.false_ne_true, h.data]

/-- The world after a write of the buffer that comes after `done`. -/
theorem inv_add {w : World} {l : LayerState} {d : TlsLayerState} {bsp : BspWrite} {b : DataDesc}
    {done : List Bytes} (hl : l.notOperational = false) (hb : d.toWriteBuffer = some b)
    (hpos : b.currPos < b.dataPtr.length) (hd : Resumable d)
    (hobeys : Obeys d (b.dataPtr.length - b.currPos) bsp)
    (hwhole : Whole (b.dataPtr.length - b.currPos) bsp) (hout : w.outstanding = 0)
    (hsubmitted : w.submitted = done ++ [b.dataPtr])
    (hreports : List.Forall₂ Reported done w.reports)
    (haccepted : w.accepted = b.dataPtr.take b.currPos) :
    ∃ w', (sendHandler l d bsp).map w.add = some w' ∧ Inv w' := by
  rcases sendHandler_cases (l := l) hb hpos hd hobeys hwhole with
    ⟨n, hn, h⟩ | ⟨accepted, state, h, hstate⟩
  · rw [h, Option.map_some]
    refine ⟨_, rfl, .inr ⟨⟨b.dataPtr, b.currPos + n⟩, done, rfl, hl, ?_, hsubmitted, ?_, ?_, hn⟩⟩
    · show w.outstanding + 1 = 1
      rw [hout]
    · simpa [World.add] using hreports
    · show w.accepted ++ _ = _
      rw [haccepted, List.take_add]
  · rw [h, Option.map_some]
    refine ⟨_, rfl, .inl ⟨by rintro d ⟨⟩; rfl, hout, ?_⟩⟩
    show List.Forall₂ Reported w.submitted (w.reports ++ [(w.accepted ++ accepted, state)])
    rw [hsubmitted]
    refine List.rel_append hreports (.cons ?_ .nil)
    rcases hstate with ⟨rfl, rfl⟩ | rfl
    · rw [haccepted, List.take_append_drop]
      exact .inl rfl
    · exact .inr rfl

theorem Layer.working_eq_none {l : Layer} :
    l.working = none ↔ l.layerState.notOperational ∨ l.userData = none := by
  unfold Layer.working
  split <;> simp [*]

theorem Layer.working_eq_some {l : Layer} {d : TlsLayerState} :
    l.working = some d ↔ l.layerState.notOperational = false ∧ l.userData = some d := by
  unfold Layer.working
  split <;> simp [*]

/-- A layer that does not work frees what it gets. -/
theorem push_not_working {l : Layer} (h : l.working = none) (buffer : Option Bytes)
    (state : IotcState) (bsp : BspWrite) : Tls.push l buffer state bsp = some ⟨l, [], 0, none⟩ := by
  unfold Tls.push
  rcases Layer.working_eq_none.1 h with h | h
  · cases l.userData with
    | none => rfl
    | some d => simp [h]
  · rw [h]

theorem Idle.push {w : World} {buffer : Bytes} {bsp : BspWrite} (h : Idle w)
    (hpermitted : Permitted w (.push buffer bsp)) (hsafe : Safe w (.push buffer bsp)) :
    ∃ w', step w (.push buffer bsp) = some w' ∧ Inv w' := by
  obtain ⟨hne, -, hobeys⟩ := hpermitted
  cases hw : w.layer.working with
  | none =>
    simp only [step, hw, Option.isSome_none, Bool.false_eq_true, if_false, push_not_working hw,
      Option.map_some]
    refine ⟨_, rfl, .inl ⟨h.data, h.outstanding, ?_⟩⟩
    simpa [World.add] using h.reports
  | some d =>
    obtain ⟨hoperational, hdata⟩ := Layer.working_eq_some.1 hw
    obtain rfl := h.data d hdata
    have hpush : Tls.push w.layer (some buffer) .ok bsp =
        sendHandler w.layer.layerState ⟨some ⟨buffer, 0⟩, false, false, .none⟩ bsp := by
      unfold Tls.push
      rw [hdata]
      simp only [hoperational]
      rfl
    simp only [step, hw, Option.isSome_some, if_true, hpush]
    refine inv_add (b := ⟨buffer, 0⟩) hoperational rfl (List.length_pos_iff.2 hne)
      (.inl ⟨rfl, rfl⟩) ?_ (hsafe (by rw [hw]; rfl)) h.outstanding rfl h.reports rfl
    exact hobeys _ hw

/-- A buffer that is being written keeps the layer above from pushing another one. -/
theorem Writing.not_push {w : World} {b : DataDesc} {done : List Bytes} (h : Writing w b done)
    {buffer : Bytes} {bsp : BspWrite} : ¬Permitted w (.push buffer bsp) := by
  rintro ⟨-, hreports, -⟩
  have := h.reports.length_eq
  rw [h.submitted, List.length_append, List.length_singleton] at hreports
  omega

theorem Writing.answer {w : World} {b : DataDesc} {done : List Bytes} (h : Writing w b done)
    {state : IotcState} {bsp : BspWrite} (hpermitted : Permitted w (.answer state bsp))
    (hsafe : Safe w (.answer state bsp)) :
    ∃ w', step w (.answer state bsp) = some w' ∧ Inv w' := by
  obtain ⟨-, hobeys⟩ := hpermitted
  obtain ⟨rfl, hwhole⟩ := hsafe _ h.working
  have hpush : Tls.push w.layer none .written bsp =
      sendHandler w.layer.layerState ⟨some b, true, true, .written⟩ bsp := by
    unfold Tls.push
    rw [h.data]
    simp only [h.operational]
    rfl
  simp only [step, hpush]
  refine inv_add (b := b) h.operational rfl h.left (.inr ⟨rfl, rfl⟩) (hobeys _ h.working) hwhole ?_
    h.submitted h.reports h.accepted
  show w.outstanding - 1 = 0
  rw [h.outstanding]

theorem add_nothing (w : World) : w.add ⟨w.layer, [], 0, none⟩ = w := by
  simp [World.add]

/-- A library that sends nothing while it reads. -/
theorem step_pull {w : World} {sends : List Bool} (hsafe : Safe w (.pull sends)) :
    step w (.pull sends) = some w := by
  have hpull : Tls.pull w.layer sends = some ⟨w.layer, [], 0, none⟩ := by
    unfold Tls.pull
    cases hd : w.layer.userData with
    | none => rfl
    | some d =>
      cases hl : w.layer.layerState.notOperational with
      | true => rfl
      | false =>
        obtain rfl := hsafe (by rw [Layer.working_eq_some.2 ⟨hl, hd⟩]; rfl)
        simp only [sendCallbacks, Bool.false_eq_true, if_false, Option.map_some, ← hd]
  rw [step, hpull, Option.map_some, add_nothing]

/-- **One event that meets the condition.** -/
theorem step_inv {w : World} {e : Event} (h : Inv w) (hpermitted : Permitted w e)
    (hsafe : Safe w e) : ∃ w', step w e = some w' ∧ Inv w' := by
  cases e with
  | push buffer bsp =>
    rcases h with h | ⟨b, done, h⟩
    · exact h.push hpermitted hsafe
    · exact absurd hpermitted h.not_push
  | answer state bsp =>
    rcases h with h | ⟨b, done, h⟩
    · have := hpermitted.1
      rw [h.outstanding] at this
      exact absurd this (Nat.lt_irrefl 0)
    · exact h.answer hpermitted hsafe
  | pull sends =>
    exact ⟨w, step_pull hsafe, h⟩
  | close =>
    rcases h with h | ⟨b, done, h⟩
    · exact ⟨_, rfl, .inl ⟨h.data, h.outstanding, h.reports⟩⟩
    · cases hsafe _ h.data
  | closeExternally =>
    rcases h with h | ⟨b, done, h⟩
    · exact ⟨_, rfl, .inl ⟨by rintro d ⟨⟩, h.outstanding, h.reports⟩⟩
    · cases hsafe _ h.data

/-- A buffer that waits for the layer below once. -/
def waitingOnce : List Event :=
  [.push [1, 2, 3] (mbedtlsWrite [true] (-0x6880) (-0x6880)),
    .answer .written (mbedtlsWrite [true] (-0x6880) 3)]

/-- A write that takes the first `n` bytes of a buffer is reported as if it had taken all. -/
theorem run_short {buffer : Bytes} (n : Nat) (hne : buffer ≠ []) :
    ∃ w, Infra.run step connectedWorld [.push buffer ⟨[true], .wantWrite, 0⟩,
        .answer .written ⟨[true], .ok, n⟩] = some w ∧
      w.submitted = [buffer] ∧ w.reports = [(buffer.take n, .written)] := by
  have hlength : ¬buffer.length = 0 := fun h => hne (List.length_eq_zero_iff.1 h)
  simp [Infra.run, step, connectedWorld, Layer.working, LayerState.notOperational, Tls.push,
    TlsLayerState.connected, sendHandler, hlength, sendCallbacks, sendCallback, World.add]

end IotDeviceSdk.Tls
