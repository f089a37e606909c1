import IotDeviceSdk.Mqtt.Logic.Disconnected
import IotDeviceSdk.Mqtt.Codec.Written

/-!
# The logic layer over the codec layer

The calls that the logic layer makes on the layer below are queued on the dispatcher and reach the
codec layer in their order: `inFlight` are those that have not. The two layers know nothing else of
each other, and the neighbours of both of them may call at any time.

`silent_after_disconnect`: after a DISCONNECT nothing is handed over and nothing is written until the
next connection starts, as long as no call of the logic layer then goes on to a message. What the
codec layer does needs no condition.
-/

namespace IotDeviceSdk.Mqtt

open Infra Logic

/-- The layers. `codec` is `none` while the codec layer has no data. `taken` says how many of the
calls have reached the codec layer, and `written` what this has written since. -/
structure Wire where
  logic : World := {}
  codec : Option Codec.Layer := none
  taken : Nat := 0
  written : List (Entry Message) := []

namespace Wire

/-- What the logic layer has handed over. -/
def handed (w : Wire) : List (Entry Message) := w.logic.context.handed

/-- What has not reached the codec layer. -/
def inFlight (w : Wire) : List (Entry Message) := w.handed.drop w.taken

/-- The codec layer after a call of push. -/
def pushed (w : Wire) (r : Codec.PushResult) : Wire :=
  { w with codec := some r.layer, written := w.written ++ r.said }

/-- What happens to the layers. -/
inductive Event where
  /-- a call of the logic layer -/
  | logic (e : World.Event × World.Oracle)
  /-- the next call that the logic layer has made reaches the codec layer -/
  | take (mem : List Bool)
  /-- the layer below the codec answers a write -/
  | answer (written : Bool) (mem : List Bool)
  /-- a neighbour connects or closes the codec layer -/
  | setState (s : LayerState)
  /-- the layer below delivers a buffer -/
  | deliver (localState : IotcState) (buffer : Bytes) (s : IotcState)
  /-- `iotc_mqtt_codec_layer_close_externally` -/
  | closeExternally

/-- `iotc_mqtt_codec_layer_init` or `iotc_mqtt_codec_layer_push`. The first asserts that there are no
layer data; without them a message is freed. -/
def take (w : Wire) (mem : List Bool) : Option Wire :=
  let taken := { w with taken := w.taken + 1 }
  match w.inFlight, w.codec with
  | [], _ => none
  | .start :: _, some _ => none
  | .start :: _, none =>
    some { taken with
      codec := if mem.headD true then some ⟨.connecting, Codec.layerDataInit⟩ else none
      written := w.written ++ [.start] }
  | .said _ :: _, none => some taken
  | .said m :: _, some c => (Codec.push c (some m) .ok mem).map taken.pushed

/-- One event. `none` is a crash, or there is no call that has not reached the codec layer. -/
def step (w : Wire) : Event → Option Wire
  | .logic e => (w.logic.step e).map fun logic => { w with logic }
  | .take mem => w.take mem
  | .answer written mem =>
    match w.codec with
    | none => some w
    | some c => (Codec.push c none (Codec.answerState written) mem).map w.pushed
  | .setState s => some { w with codec := w.codec.map fun c => { c with layerState := s } }
  | .deliver ls buffer s =>
    some { w with codec := w.codec.map fun c => (Codec.pull c ls buffer s).layer }
  | .closeExternally => some { w with codec := none }

/-- The DISCONNECT of the connection has been handed over. -/
def disconnected (w : Wire) : Bool := ended isLast false w.handed

/-- After the DISCONNECT no call runs a task up to its message. -/
def Hushed (w : Wire) : Event → Prop
  | .logic e => w.disconnected = true → (w.logic.withOracle e.2).speaksUp e.1 = false
  | _ => True

instance (w : Wire) (e : Event) : Decidable (w.Hushed e) := by
  cases e with
  | logic e => exact inferInstanceAs (Decidable (_ → _))
  | _ => exact .isTrue trivial

/-! ## Invariants -/

/-- The logic layer is silent, and the trace of what has been written, and is still to be, is
calmer than what has been handed over. -/
structure Inv (w : Wire) : Prop where
  sound : w.logic.Sound
  silent : SilentFrom isLast false w.handed
  taken : w.taken ≤ w.handed.length
  rests : ∀ c, w.codec = some c → Codec.Rests c
  calmer : ∃ pend, (∀ c, w.codec = some c → Codec.Pends w.written c.data.taskQueue pend) ∧
    (w.codec = none → pend = []) ∧
    Calmer isLast w.handed (w.written ++ (pend ++ w.inFlight))

theorem isLast_of_publish {m : Message} (h : m.type = .publish) : isLast m = false := by
  rw [isLast, h]
  rfl

variable {w w' : Wire}

theorem initial_inv : ({} : Wire).Inv where
  sound := World.initial_sound
  silent := trivial
  taken := le_rfl
  rests := by rintro c ⟨⟩
  calmer := ⟨[], by rintro c ⟨⟩, fun _ => rfl, .refl _⟩

/-- A call of the logic layer. -/
theorem Inv.logic (h : w.Inv) {e : World.Event × World.Oracle} (he : w.Hushed (.logic e))
    {logic : World} (hstep : w.logic.step e = some logic) : Inv { w with logic } := by
  obtain ⟨es, hes, hsilent⟩ := World.step_adds h.sound he hstep
  have hhanded : ({ w with logic } : Wire).handed = w.handed ++ es := hes
  have hinFlight : ({ w with logic } : Wire).inFlight = w.inFlight ++ es := by
    rw [inFlight, hhanded, inFlight]
    exact List.drop_append_of_le_length h.taken
  refine ⟨World.step_sound h.sound hstep, ?_, ?_, h.rests, ?_⟩
  · rw [hhanded, silentFrom_append]
    exact ⟨h.silent, hsilent⟩
  · rw [hhanded, List.length_append]
    exact Nat.le_add_right_of_le h.taken
  · obtain ⟨pend, hp, hnone, hcalmer⟩ := h.calmer
    refine ⟨pend, hp, hnone, ?_⟩
    rw [hhanded, hinFlight, ← List.append_assoc pend, ← List.append_assoc w.written]
    exact hcalmer.append_right es

/-- The codec layer is closed, or its queue is cleared. -/
theorem Inv.lose (h : w.Inv) {codec : Option Codec.Layer}
    (hc : ∀ c, codec = some c → c.data.taskQueue = []) : Inv { w with codec } := by
  obtain ⟨pend, hp, hnone, hcalmer⟩ := h.calmer
  refine ⟨h.sound, h.silent, h.taken, fun c hc' _ => hc c hc', [], fun c hc' => .inl ?_, fun _ => rfl, ?_⟩
  · rw [hc c hc']
    rfl
  · refine hcalmer.trans (Calmer.append_left w.written ?_)
    cases hcodec : w.codec with
    | none =>
      rw [hnone hcodec]
      exact .refl _
    | some c => exact (hp c hcodec).lose _

/-- A delivery leaves the queue and the coroutine of push alone, or clears the queue. -/
theorem pullFuel_queue : ∀ (n : Nat) (c : Codec.Layer) (ls : IotcState) (buffer : Bytes) (s : IotcState),
    (Codec.pullFuel n c ls buffer s).layer.data.pushCs = c.data.pushCs ∧
      ((Codec.pullFuel n c ls buffer s).layer.data.taskQueue = c.data.taskQueue ∨
        (Codec.pullFuel n c ls buffer s).layer.data.taskQueue = [])
  | 0, _, _, _, _ => ⟨rfl, .inl rfl⟩
  | n + 1, c, ls, buffer, s => by
    unfold Codec.pullFuel
    split
    · exact ⟨rfl, .inl rfl⟩
    · split
      · exact ⟨rfl, .inr rfl⟩
      · dsimp only
        split
        · exact ⟨rfl, .inl rfl⟩
        · split
          · exact ⟨rfl, .inl rfl⟩
          · exact pullFuel_queue n _ _ _ s
        · exact ⟨rfl, .inr rfl⟩

/-- The codec layer has been called. -/
theorem Inv.pushed (h : w.Inv) {c : Codec.Layer} {r : Codec.PushResult} {taken : Nat}
    {l : List (Entry Message)} (htaken : taken ≤ w.handed.length)
    (hdrop : w.inFlight = l ++ w.handed.drop taken) (hcodec : w.codec = some c)
    (hcalms : ∀ pend, Codec.Pends w.written c.data.taskQueue pend →
      Codec.Calms isLast w.written (pend ++ l) r) : (({ w with taken } : Wire).pushed r).Inv := by
  obtain ⟨pend, hp, -, hcalmer⟩ := h.calmer
  have hcalms := hcalms pend (hp c hcodec)
  obtain ⟨pend', hp', hcalmer'⟩ := hcalms.calmer
  have hnone : (({ w with taken } : Wire).pushed r).codec ≠ none := Option.some_ne_none _
  refine ⟨h.sound, h.silent, htaken, ?_, pend', ?_, fun hn => absurd hn hnone, ?_⟩
  · rintro c' ⟨⟩
    exact hcalms.rests
  · rintro c' ⟨⟩
    exact hp'
  · refine hcalmer.trans ?_
    have hright := hcalmer'.append_right (w.handed.drop taken)
    rw [List.append_assoc, List.append_assoc pend, ← hdrop, List.append_assoc] at hright
    exact hright

/-- A delivery may clear the queue. -/
theorem Inv.deliver (h : w.Inv) (ls : IotcState) (buffer : Bytes) (s : IotcState) :
    Inv { w with codec := w.codec.map fun c => (Codec.pull c ls buffer s).layer } := by
  cases hcodec : w.codec with
  | none => exact h.lose (by rintro c ⟨⟩)
  | some c =>
    obtain ⟨hcs, hqueue⟩ := pullFuel_queue (buffer.length + 2) c ls buffer s
    rcases hqueue with hsame | hempty
    · obtain ⟨pend, hp, hnone, hcalmer⟩ := h.calmer
      refine ⟨h.sound, h.silent, h.taken, ?_, pend, ?_, ?_, hcalmer⟩
      · rintro c' ⟨⟩ hidle
        exact hsame.trans (h.rests c hcodec (hcs.symm.trans hidle))
      · rintro c' ⟨⟩
        have := hp c hcodec
        rw [← hsame] at this
        exact this
      · exact fun hn => absurd hn (Option.some_ne_none _)
    · refine h.lose ?_
      rintro c' ⟨⟩
      exact hempty

theorem drop_of_drop_eq {α : Type} {l : List α} {n : Nat} {a : α} {as : List α}
    (h : l.drop n = a :: as) : n < l.length ∧ l.drop (n + 1) = as := by
  have hlt : n < l.length := by
    by_contra hge
    rw [List.drop_of_length_le (by omega)] at h
    cases h
  refine ⟨hlt, ?_⟩
  rw [← List.drop_drop, h, List.drop_one, List.tail_cons]

theorem Inv.take (h : w.Inv) {mem : List Bool} (hstep : w.take mem = some w') : w'.Inv := by
  obtain ⟨pend, hp, hnone, hcalmer⟩ := h.calmer
  unfold Wire.take at hstep
  dsimp only at hstep
  split at hstep
  · cases hstep
  · cases hstep
  · next hfly hcodec =>
    obtain ⟨hlt, hdrop⟩ := drop_of_drop_eq hfly
    obtain rfl := Option.some.inj hstep
    refine ⟨h.sound, h.silent, hlt, ?_, [], ?_, fun _ => rfl, ?_⟩
    · intro c hc
      split at hc
      · obtain rfl := Option.some.inj hc
        exact fun _ => rfl
      · cases hc
    · intro c hc
      split at hc
      · obtain rfl := Option.some.inj hc
        exact .inl rfl
      · cases hc
    · rw [hnone hcodec, hfly] at hcalmer
      have hright : w.written ++ ([] ++ .start :: w.handed.drop (w.taken + 1)) =
          w.written ++ [.start] ++ ([] ++ w.handed.drop (w.taken + 1)) := by
        rw [List.append_assoc]
        rfl
      rw [← hdrop, hright] at hcalmer
      exact hcalmer
  · next m rest hfly hcodec =>
    obtain ⟨hlt, hdrop⟩ := drop_of_drop_eq hfly
    obtain rfl := Option.some.inj hstep
    refine ⟨h.sound, h.silent, hlt, h.rests, pend, hp, hnone, hcalmer.trans ?_⟩
    rw [hfly, ← hdrop]
    exact ((Calmer.lose m _).append_left pend).append_left w.written
  · next m rest c hfly hcodec =>
    obtain ⟨hlt, hdrop⟩ := drop_of_drop_eq hfly
    obtain ⟨r, hr, rfl⟩ := Option.map_eq_some_iff.mp hstep
    refine h.pushed (l := [.said m]) hlt (by rw [hfly, ← hdrop]; rfl) hcodec fun pend hp => ?_
    exact Codec.push_calms (h.rests c hcodec) hp hr

/-- **A call of the layers that is hushed** keeps both silent. -/
theorem step_inv {e : Event} (h : w.Inv) (he : w.Hushed e) (hstep : w.step e = some w') : w'.Inv := by
  cases e with
  | logic e =>
    obtain ⟨logic, hlogic, rfl⟩ := Option.map_eq_some_iff.mp hstep
    exact h.logic he hlogic
  | take mem => exact h.take hstep
  | answer written mem =>
    simp only [Wire.step] at hstep
    split at hstep
    · obtain rfl := Option.some.inj hstep
      exact h
    · next c hcodec =>
      obtain ⟨r, hr, rfl⟩ := Option.map_eq_some_iff.mp hstep
      refine h.pushed (w := w) (l := []) h.taken rfl hcodec fun pend hp => ?_
      rw [List.append_nil]
      exact Codec.push_answer_calms (fun m => isLast_of_publish) (h.rests c hcodec) hp hr
  | setState s =>
    obtain rfl := Option.some.inj hstep
    obtain ⟨pend, hp, hnone, hcalmer⟩ := h.calmer
    refine ⟨h.sound, h.silent, h.taken, ?_, pend, ?_, ?_, hcalmer⟩
    · rintro c' hc'
      obtain ⟨c, hc, rfl⟩ := Option.map_eq_some_iff.mp hc'
      exact h.rests c hc
    · rintro c' hc'
      obtain ⟨c, hc, rfl⟩ := Option.map_eq_some_iff.mp hc'
      exact hp c hc
    · exact fun hn => hnone (Option.map_eq_none_iff.mp hn)
  | deliver ls buffer s =>
    obtain rfl := Option.some.inj hstep
    exact h.deliver ls buffer s
  | closeExternally =>
    obtain rfl := Option.some.inj hstep
    exact h.lose (by rintro c ⟨⟩)

/-- **After a DISCONNECT nothing is handed over and nothing is written** until the next connection, if
no call of the logic layer goes on to a message then. -/
theorem silent_after_disconnect {es : List Event} (h : run step {} es = some w)
    (hin : AllSteps step Hushed {} es) : Silent isLast w.handed ∧ Silent isLast w.written := by
  have hinv : w.Inv :=
    run_invariant_of (fun _ _ _ hw he hs => step_inv hw he hs) initial_inv hin h
  have hsilent : Silent isLast w.handed := silent_iff.mpr hinv.silent
  obtain ⟨pend, -, -, hcalmer⟩ := hinv.calmer
  exact ⟨hsilent, hcalmer.silent_left hsilent⟩

/-- The events that open a connection. -/
def opening : List Event :=
  [.logic (.connectTo World.client, {}), .logic (.init .ok, {}), .take [], .setState .connected,
    .logic (.connect .ok, {}), .take [], .answer true [], .logic (.written 0 .connect true, {}),
    .logic (.pull (some World.connack) .ok, {})]

/-- A connection is shut down, and the next one is opened. -/
def reopening : List Event :=
  opening ++ [.logic (.submit .shutdown, {}), .take [], .answer true [],
    .logic (.written 0 .disconnect true, {}), .logic (.closing, {}), .logic (.closeExternally .ok, {}),
    .closeExternally, .logic (.closed, {})] ++ opening

/-- Two connections. -/
theorem silent_after_disconnect_reopening : ∃ w, run step {} reopening = some w ∧
    (w.handed.length = 5 ∧ w.written.length = 5) ∧
      Silent isLast w.handed ∧ Silent isLast w.written := by
  have hin : AllSteps step Hushed {} reopening := by decide +kernel
  have hrun : ∃ w ∈ run step {} reopening, w.handed.length = 5 ∧ w.written.length = 5 := by
    decide +kernel
  obtain ⟨w, hw, hlength⟩ := hrun
  exact ⟨w, hw, hlength, silent_after_disconnect hw hin⟩

/-- A PUBLISH is submitted while the DISCONNECT is being written. -/
def publishing : List Event :=
  opening ++ [.logic (.submit .shutdown, {}), .logic (World.publishing, {}), .take [], .take [],
    .answer true []]

/-- **A PUBLISH follows the DISCONNECT.** Only the queue of the QoS 0 tasks waits for the SHUTDOWN. -/
theorem silent_after_disconnect_fails : ∃ w, run step {} publishing = some w ∧
    ¬Silent isLast w.handed ∧ ¬Silent isLast w.written := by
  have : ∃ w ∈ run step {} publishing, ¬Silent isLast w.handed ∧ ¬Silent isLast w.written := by
    decide +kernel
  exact this

end Wire

end IotDeviceSdk.Mqtt
