import IotDeviceSdk.Mqtt.Codec.Push
import IotDeviceSdk.Mqtt.Logic.Outcome
import IotDeviceSdk.Mqtt.SerialiserPacket

/-!
# What the codec layer sends

As long as every write is answered with `WRITTEN`, the header of a message is followed by its payload,
and this by the header of the next message. `push_encodes_iff` says when what is sent is one packet
after another, each of them with its message.
-/

namespace IotDeviceSdk.Mqtt.Codec

open Infra

/-- What is passed down. -/
def PushWorld.sent (w : PushWorld) : Bytes := (w.calls.filterMap LayerCall.down?).flatten

/-- The logic layer hands a message over, or a write succeeds, and no allocation fails. -/
def Writes (_ : PushWorld) : PushEvent → Prop
  | .submit m mem => Built m ∧ ∀ b ∈ mem, b = true
  | .answer written mem => written = true ∧ ∀ b ∈ mem, b = true

/-- What a task hands over comes from one of the functions. Its id and the timeout are `uint16_t`. -/
theorem built_of_sends {t : Logic.Task} {m : Message} (h : t.Sends m) (hid : t.msgId < 65536)
    (hk : m.keepalive < 65536) : Built m := by
  unfold Logic.Task.Sends at h
  split at h
  · obtain ⟨c, hc⟩ := h
    obtain ⟨clientId, -, heq⟩ := fillWithConnectData_eq hc
    rw [heq] at hk
    exact .connect hk hc
  · exact .publish (by decide) (fun _ => ⟨rfl, rfl⟩) h
  · obtain ⟨dup, hm⟩ := h
    exact .publish hid Logic.Qos.noConfusion hm
  · exact h ▸ .puback hid
  · obtain ⟨dup, rfl⟩ := h
    exact .subscribe _ _ _ hid
  · exact h ▸ .pingreq
  · exact h ▸ .disconnect
  · exact h.elim

/-- The header of every message fills its buffer, and what is sent is one packet after another, each of
them with its message. -/
def PushWorld.Streams (w : PushWorld) : Prop :=
  (∀ m ∈ w.submitted, m.Encodes) ∧
    ∃ ps : List Packet, w.sent = ps.flatMap (fun p => p.bytes) ∧
      List.Forall₂ (fun p m => p.Carries m) ps w.submitted

/-! ## Header and payload -/

/-- The header of a message, if there is one. -/
def headerOf (m : Message) : Bytes := ((serialiserSize m).bind (serialise m)).getD []

theorem headerOf_eq {m : Message} {desc : Bytes}
    (h : (serialiserSize m).bind (serialise m) = some desc) : headerOf m = desc := by
  rw [headerOf, h]
  rfl

/-- What is sent of a message in the end. -/
def wire (m : Message) : Bytes := headerOf m ++ m.payload

/-- What has been sent of the message that is being written. -/
def part : PushCs → List Message → Bytes
  | .header, m :: _ => headerOf m
  | .payload, m :: _ => wire m
  | _, _ => []

theorem encodes_header {m : Message} (h : m.Encodes) :
    encodable m = true ∧ ∃ p : Packet, p.bytes = wire m ∧ p.Carries m := by
  obtain ⟨size, header, hsize, hheader, -, p, hp, hcarries⟩ := h
  have hbind : (serialiserSize m).bind (serialise m) = some header := by
    rw [hsize, Option.bind_some, hheader]
  refine ⟨?_, p, ?_, hcarries⟩
  · rw [encodable, hbind]
    rfl
  · rw [hp, wire, headerOf_eq hbind]

/-- Without a payload the header is all that is sent. -/
theorem wire_of_no_payload {m : Message} (h : ¬(m.type = .publish ∧ descLength m.content > 0)) :
    wire m = headerOf m := by
  suffices hpayload : m.payload = [] by rw [wire, hpayload, List.append_nil]
  unfold Message.payload
  split
  · next htype =>
    cases hc : m.content with
    | none => rfl
    | some content =>
      have hlen : ¬ content.length > 0 := fun hlen => h ⟨htype, by rw [hc]; exact hlen⟩
      rw [Option.getD_some]
      exact List.length_eq_zero_iff.mp (Nat.eq_zero_of_not_pos hlen)
  · rfl

theorem wire_of_payload {m : Message} (h : m.type = .publish) :
    wire m = headerOf m ++ m.content.getD [] := by
  rw [wire, Message.payload, if_pos h]

/-! ## Runs -/

/-- The messages in `done` have been written, those in `waiting` have not. -/
structure Flows (w : PushWorld) (done waiting : List Message) : Prop where
  operational : w.layer.layerState.notOperational = false
  submitted : w.submitted = done ++ waiting
  queue : w.layer.data.taskQueue = waiting.map makeTask
  encodable : ∀ m ∈ waiting, encodable m = true
  sent : w.sent = done.flatMap wire ++ part w.layer.data.pushCs waiting
  idle : w.layer.data.pushCs = .idle ↔ waiting = []
  outstanding : w.outstanding = if waiting = [] then 0 else 1

variable {w w' : PushWorld} {done waiting : List Message} {m : Message} {mem : List Bool}

theorem PushWorld.sent_add (w : PushWorld) (outstanding : Nat) (ms : List Message) (r : PushResult) :
    (w.add outstanding ms r).sent = w.sent ++ (r.calls.filterMap LayerCall.down?).flatten := by
  rw [sent, add, List.filterMap_append, List.flatten_append]
  rfl

/-- A message is handed over. -/
theorem Flows.submit (h : Flows w done waiting) (hm : Codec.encodable m = true)
    (hmem : ∀ b ∈ mem, b = true) (hstep : pushStep w (.submit m mem) = some w') :
    Flows w' done (waiting ++ [m]) := by
  have henc : ∀ m' ∈ waiting ++ [m], Codec.encodable m' = true := by
    intro m' hm'
    rcases List.mem_append.mp hm' with hm' | hm'
    · exact h.encodable m' hm'
    · rw [List.mem_singleton.mp hm']
      exact hm
  cases hw : waiting with
  | nil =>
    subst hw
    have hcs : w.layer.data.pushCs = .idle := h.idle.mpr rfl
    obtain ⟨desc, hdesc, hstart⟩ := pushStart_eq (w.layer.resting [makeTask m]) hm (mem_tail hmem)
    simp only [Layer.resting] at hstart
    have hpush : push w.layer (some m) .ok mem =
        some ⟨(w.layer.resting [makeTask m]).writing m, [.pushPrev desc .ok], []⟩ := by
      simp only [push, h.operational, Bool.false_eq_true, ↓reduceIte, mem_headD hmem, h.queue,
        List.map_nil, List.nil_append, hcs, hstart, Layer.resting]
    rw [pushStep, hpush, Option.map_some, Option.some.injEq] at hstep
    subst hstep
    exact {
      operational := h.operational
      submitted := by
        show w.submitted ++ [m] = _
        rw [h.submitted, List.append_nil, List.nil_append]
      queue := rfl
      encodable := henc
      sent := by
        rw [PushWorld.sent_add, h.sent, hcs]
        show _ ++ [] ++ _ = _ ++ headerOf m
        rw [headerOf_eq hdesc, List.append_nil]
        simp only [LayerCall.down?, List.filterMap_cons, List.filterMap_nil, List.flatten_singleton]
      idle := by simp [PushWorld.add, Layer.writing]
      outstanding := by
        show w.outstanding + 1 = _
        rw [h.outstanding]
        rfl }
  | cons m₀ ms =>
    subst hw
    have hcs : w.layer.data.pushCs ≠ .idle := fun hcs => by cases h.idle.mp hcs
    have hpush : push w.layer (some m) .ok mem = some ⟨{ w.layer with
        data := { w.layer.data with
          taskQueue := w.layer.data.taskQueue ++ [makeTask m] } }, [], []⟩ := by
      simp only [push, h.operational, Bool.false_eq_true, ↓reduceIte, mem_headD hmem]
    rw [pushStep, hpush, Option.map_some, Option.some.injEq] at hstep
    subst hstep
    exact {
      operational := h.operational
      submitted := by
        show w.submitted ++ [m] = _
        rw [h.submitted, List.append_assoc]
      queue := by
        show w.layer.data.taskQueue ++ [makeTask m] = _
        rw [h.queue, List.map_append]
        rfl
      encodable := henc
      sent := by
        rw [PushWorld.sent_add, h.sent]
        cases hpc : w.layer.data.pushCs <;> simp [PushWorld.add, part, hpc]
      idle := iff_of_false hcs (by simp)
      outstanding := by
        show w.outstanding + 0 = _
        rw [h.outstanding]
        rfl }

/-- The first message has been written. -/
theorem Flows.finalise {ms : List Message} {r : PushResult} (h : Flows w done (m :: ms))
    (hwritten : w.sent = done.flatMap wire ++ wire m) (hmem : ∀ b ∈ mem, b = true)
    (hfin : pushFinalise w.layer .written mem = some r) :
    Flows (w.add (w.outstanding - 1) [] r) (done ++ [m]) ms := by
  have henc : ∀ m' ∈ ms, Codec.encodable m' = true := fun m' hm' => h.encodable m' (by simp [hm'])
  have hout : w.outstanding = 1 := h.outstanding
  have hdone : (done ++ [m]).flatMap wire = w.sent := by
    rw [hwritten, List.flatMap_append, List.flatMap_singleton]
  have hsubmitted : w.submitted ++ [] = done ++ [m] ++ ms := by
    rw [h.submitted, List.append_nil, List.append_assoc]
    rfl
  rcases pushFinalise_eq true h.queue henc hmem with ⟨rfl, hfin'⟩ | ⟨m', ms', desc, rfl, hdesc, hfin'⟩
  · obtain rfl := Option.some.inj (hfin'.symm.trans hfin)
    exact {
      operational := h.operational
      submitted := hsubmitted
      queue := rfl
      encodable := henc
      sent := by
        rw [PushWorld.sent_add, hdone]
        rfl
      idle := iff_of_true rfl rfl
      outstanding := by
        show w.outstanding - 1 + 0 = _
        rw [hout]
        rfl }
  · obtain rfl := Option.some.inj (hfin'.symm.trans hfin)
    exact {
      operational := h.operational
      submitted := hsubmitted
      queue := rfl
      encodable := henc
      sent := by
        rw [PushWorld.sent_add, hdone]
        show _ ++ [desc].flatten = _ ++ headerOf m'
        rw [headerOf_eq hdesc, List.flatten_singleton]
      idle := by simp [PushWorld.add, Layer.writing]
      outstanding := by
        show w.outstanding - 1 + 1 = _
        rw [hout]
        rfl }

/-- A write has succeeded. -/
theorem Flows.answer (h : Flows w done waiting) (hmem : ∀ b ∈ mem, b = true)
    (hstep : pushStep w (.answer true mem) = some w') :
    ∃ done' waiting', Flows w' done' waiting' := by
  have hout : w.outstanding ≠ 0 := by
    intro hzero
    rw [pushStep, if_pos hzero] at hstep
    cases hstep
  cases waiting with
  | nil => exact absurd h.outstanding hout
  | cons m ms =>
    rw [pushStep, if_neg hout, push_answer h.operational, Option.map_eq_some_iff] at hstep
    obtain ⟨r, hpush, rfl⟩ := hstep
    have hsent := h.sent
    cases hcs : w.layer.data.pushCs with
    | idle => cases h.idle.mp hcs
    | payload =>
      rw [hcs] at hpush hsent
      exact ⟨_, _, h.finalise hsent hmem hpush⟩
    | header =>
      rw [hcs] at hpush hsent
      by_cases hnext : m.type = .publish ∧ descLength m.content > 0
      · rw [show answerState true = .written from rfl,
          pushHeaderWritten_payload h.queue hnext.1 hnext.2 hmem, Option.some.injEq] at hpush
        subst hpush
        refine ⟨done, m :: ms, ?_⟩
        exact {
          operational := h.operational
          submitted := (List.append_nil _).trans h.submitted
          queue := h.queue
          encodable := h.encodable
          sent := by
            rw [PushWorld.sent_add, hsent]
            show _ ++ headerOf m ++ [m.content.getD []].flatten = _ ++ wire m
            rw [wire_of_payload hnext.1, List.append_assoc, List.flatten_singleton]
          idle := by simp [PushWorld.add]
          outstanding := by
            show w.outstanding - 1 + 1 = _
            rw [h.outstanding]
            rfl }
      · have hfin : pushFinalise w.layer .written mem = some r :=
          (pushHeaderWritten_finalise h.queue fun hw => hnext hw.2).symm.trans hpush
        refine ⟨_, _, h.finalise ?_ hmem hfin⟩
        rw [wire_of_no_payload hnext]
        exact hsent

/-- What an event adds to what has been handed over. -/
theorem pushStep_submitted {e : PushEvent} (hstep : pushStep w e = some w') :
    w'.submitted = w.submitted ++ match e with
      | .submit m _ => [m]
      | .answer _ _ => [] := by
  cases e with
  | submit m mem =>
    obtain ⟨r, -, rfl⟩ := Option.map_eq_some_iff.mp hstep
    rfl
  | answer written mem =>
    rw [pushStep] at hstep
    split at hstep
    · cases hstep
    · obtain ⟨r, -, rfl⟩ := Option.map_eq_some_iff.mp hstep
      rfl

/-- Everything comes from the logic layer. -/
theorem submitted_built {c : Layer} {es : List PushEvent}
    (hes : AllSteps pushStep Writes (PushWorld.start c) es)
    (h : run pushStep (PushWorld.start c) es = some w) : ∀ m ∈ w.submitted, Built m := by
  refine run_invariant_of (P := fun w => ∀ m ∈ w.submitted, Built m) ?_ (fun m hm => ?_) hes h
  · intro w e w' hw he hstep m hm
    rw [pushStep_submitted hstep, List.mem_append] at hm
    rcases hm with hm | hm
    · exact hw m hm
    · cases e with
      | submit m' mem =>
        rw [List.mem_singleton.mp hm]
        exact he.1
      | answer written mem => cases hm
  · cases hm

/-- While everything that is handed over can be sent, what is sent flows. -/
theorem flows_run {c : Layer} (hc : c.layerState.notOperational = false)
    (hq : c.data.taskQueue = []) (hcs : c.data.pushCs = .idle) {es : List PushEvent}
    (hes : AllSteps pushStep Writes (PushWorld.start c) es)
    (h : run pushStep (PushWorld.start c) es = some w) (hsend : ∀ m ∈ w.submitted, m.Encodes) :
    ∃ done waiting, Flows w done waiting := by
  refine run_invariant_of (P := fun w => (∀ m ∈ w.submitted, m.Encodes) →
    ∃ done waiting, Flows w done waiting) ?_ (fun _ => ⟨[], [], ?_⟩) hes h hsend
  · intro w e w' hw he hstep hsend
    rw [pushStep_submitted hstep] at hsend
    obtain ⟨done, waiting, hflows⟩ := hw fun m hm => hsend m (List.mem_append_left _ hm)
    cases e with
    | submit m mem =>
      exact ⟨_, _, hflows.submit (encodes_header (hsend m (by simp))).1 he.2 hstep⟩
    | answer written mem =>
      obtain ⟨rfl, hmem⟩ := he
      exact hflows.answer hmem hstep
  · exact {
      operational := hc
      submitted := rfl
      queue := hq
      encodable := fun m hm => by cases hm
      sent := by
        rw [show (PushWorld.start c).layer = c from rfl, hcs]
        rfl
      idle := iff_of_true hcs rfl
      outstanding := rfl }

/-- The packets of messages that are sent one after another. -/
theorem packets_of_encodes : ∀ {ms : List Message}, (∀ m ∈ ms, m.Encodes) →
    ∃ ps : List Packet, ms.flatMap wire = ps.flatMap (fun p => p.bytes) ∧
      List.Forall₂ (fun p m => p.Carries m) ps ms
  | [], _ => ⟨[], rfl, .nil⟩
  | m :: ms, h => by
    obtain ⟨-, p, hp, hcarries⟩ := encodes_header (h m (by simp))
    obtain ⟨ps, hps, hall⟩ := packets_of_encodes fun m' hm' => h m' (List.mem_cons_of_mem m hm')
    refine ⟨p :: ps, ?_, .cons hcarries hall⟩
    rw [List.flatMap_cons, List.flatMap_cons, hp, hps]

/-- **What is sent is one packet for each message exactly when each message can be sent**: no string
has more bytes than its length can say, and no SUBSCRIBE is sent once more. This holds of every run in
which the messages come from the logic layer, no allocation fails, and every write has succeeded. -/
theorem push_encodes_iff {c : Layer} (hc : c.layerState.notOperational = false)
    (hq : c.data.taskQueue = []) (hcs : c.data.pushCs = .idle) {es : List PushEvent} {w : PushWorld}
    (hes : AllSteps pushStep Writes (PushWorld.start c) es)
    (h : run pushStep (PushWorld.start c) es = some w) (hdone : w.outstanding = 0) :
    w.Streams ↔ ∀ m ∈ w.submitted, m.Sendable := by
  have hbuilt := submitted_built hes h
  refine ⟨fun hstreams m hm => (hbuilt m hm).encodes_iff.mp (hstreams.1 m hm), fun hsend => ?_⟩
  have henc : ∀ m ∈ w.submitted, m.Encodes := fun m hm => (hbuilt m hm).encodes_iff.mpr (hsend m hm)
  refine ⟨henc, ?_⟩
  obtain ⟨done, waiting, hflows⟩ := flows_run hc hq hcs hes h henc
  cases waiting with
  | cons m ms => exact absurd (hflows.outstanding.symm.trans hdone) Nat.one_ne_zero
  | nil =>
    have hidle := hflows.idle.mpr rfl
    have hsent := hflows.sent
    have hsubmitted := hflows.submitted
    rw [hidle] at hsent
    rw [List.append_nil] at hsubmitted
    rw [hsent, ← hsubmitted]
    show ∃ ps : List Packet, w.submitted.flatMap wire ++ [] = _ ∧ _
    rw [List.append_nil]
    exact packets_of_encodes henc

/-- A client with a will, a user name and a password, and two messages of it. -/
def connectionData : Logic.ConnectionData where
  username := some [0x75]
  password := some [0x70]
  clientId := some [0x63]
  keepaliveTimeout := 60
  willTopic := some [0x77]
  willMessage := some []

def connectMessage : Message where
  commonValue := 0x10
  protocolName := some [0x4D, 0x51, 0x54, 0x54]
  protocolVersion := 4
  flagsValue := 0xC6
  keepalive := 60
  clientId := some [0x63]
  willTopic := some [0x77]
  willMessage := some []
  username := some [0x75]
  password := some [0x70]

def publishMessageQ1 : Message where
  commonValue := 0x32
  topicName := some [0x74]
  messageId := 7
  content := some [0x78]

/-- A short connection: what is handed over, and the answers. -/
def shortConnection : List PushEvent :=
  [.submit connectMessage [], .answer true [], .submit publishMessageQ1 [],
    .submit (Logic.fillWithSubscribeData [0x74] 8 .atLeastOnce false) [], .answer true [],
    .answer true [], .answer true [], .submit Logic.fillWithDisconnectData [], .answer true []]

theorem push_encodes_iff_connection :
    ∃ w, run pushStep (PushWorld.start connectedLayer) shortConnection = some w ∧ w.Streams := by
  have hrun : (run pushStep (PushWorld.start connectedLayer) shortConnection).map
      (fun w => (w.outstanding, decide (∀ m ∈ w.submitted, m.Sendable))) = some (0, true) := by
    decide +kernel
  obtain ⟨w, hw, heq⟩ := Option.map_eq_some_iff.mp hrun
  obtain ⟨hdone, hsend⟩ := Prod.mk.inj heq
  refine ⟨w, hw, (push_encodes_iff rfl rfl rfl (AllSteps.of_forall ?_) hw hdone).mpr
    (of_decide_eq_true hsend)⟩
  have hpublish : Logic.fillWithPublishData (some [0x74]) [0x78] .atLeastOnce false false 7 =
      .ok publishMessageQ1 := rfl
  intro w e he
  simp only [shortConnection, List.mem_cons, List.not_mem_nil, or_false] at he
  rcases he with rfl | rfl | rfl | rfl | rfl | rfl | rfl | rfl | rfl
  · exact ⟨.connect (c := connectionData) (by decide) rfl, by decide⟩
  · exact ⟨rfl, by decide⟩
  · exact ⟨.publish (by decide) (by decide) hpublish, by decide⟩
  · exact ⟨.subscribe _ _ _ (by decide), by decide⟩
  · exact ⟨rfl, by decide⟩
  · exact ⟨rfl, by decide⟩
  · exact ⟨rfl, by decide⟩
  · exact ⟨.disconnect, by decide⟩
  · exact ⟨rfl, by decide⟩

/-- A SUBSCRIBE that is sent once more has a flag that the standard reserves. -/
example : ¬(Logic.fillWithSubscribeData [0x74] 8 .atLeastOnce true).Sendable := by decide

/-- A PUBLISH whose topic has one byte more than its length can say. -/
def longTopic : Message where
  commonValue := 0x30
  topicName := some (List.replicate 65536 0x61)
  content := some []

theorem longTopic_built : Built longTopic := by
  have hpublish : Logic.fillWithPublishData (some (List.replicate 65536 0x61)) [] .atMostOnce false
      false 0 = .ok longTopic := rfl
  exact .publish (by decide) (by decide) hpublish

/-- A PUBLISH of QoS 0 without a payload has a header, as long as its topic is. -/
theorem encodable_publish {m : Message} {text : Bytes} (htype : m.type = .publish) (hqos : m.qos = 0)
    (htopic : m.topicName = some text) (hcontent : m.content = some [])
    (hlt : text.length + 2 < 268435456) : encodable m = true := by
  have hlength : (writeString (some text)).length = 2 + text.length := length_writeString _
  have hwrite : writeContents m = some (writeString (some text)) := by
    rw [writeContents, htype, htopic, hqos]
    exact congrArg some (List.append_nil _)
  have hsize : serialiserSize m = some (sizeOf ((writeString (some text)).length + 0) 0) := by
    rw [serialiserSize, htype, htopic, hqos, hcontent, hlength]
    rfl
  obtain ⟨header, hserialise, -⟩ := serialise_eq hwrite (show _ + 0 < _ by omega)
  rw [encodable, hsize, Option.bind_some, hserialise]
  rfl

/-- A message without a payload that is handed over and written alone. -/
theorem run_alone {m : Message} (hm : encodable m = true)
    (h : ¬(m.type = .publish ∧ descLength m.content > 0)) :
    ∃ w, run pushStep (PushWorld.start connectedLayer) [.submit m [], .answer true []] = some w ∧
      w.outstanding = 0 ∧ w.submitted = [m] := by
  have hmem : ∀ b ∈ ([] : List Bool), b = true := fun b hb => by cases hb
  obtain ⟨desc, -, hstart⟩ := pushStart_eq (connectedLayer.resting [makeTask m]) hm hmem
  have hpush : push connectedLayer (some m) .ok [] =
      some ⟨(connectedLayer.resting [makeTask m]).writing m, [.pushPrev desc .ok], []⟩ :=
    congrArg some hstart
  let c := (connectedLayer.resting [makeTask m]).writing m
  let r : PushResult :=
    ⟨c.resting [], [.pushNext (.written ⟨m.getMessageId, m.type⟩) .written], [m]⟩
  have hqueue : c.data.taskQueue = [m].map makeTask := rfl
  have hfin : pushFinalise c .written [] = some r := rfl
  have hanswer := (pushHeaderWritten_finalise hqueue fun hw => h hw.2).trans hfin
  let w₁ := (PushWorld.start connectedLayer).add 0 [m] ⟨c, [.pushPrev desc .ok], []⟩
  have hsubmit : pushStep (PushWorld.start connectedLayer) (.submit m []) = some w₁ := by
    rw [pushStep]
    exact congrArg (Option.map _) hpush
  have hwritten : pushStep w₁ (.answer true []) = some (w₁.add 0 [] r) := by
    rw [pushStep, if_neg (show w₁.outstanding ≠ 0 from Nat.one_ne_zero)]
    exact congrArg (Option.map _) hanswer
  refine ⟨w₁.add 0 [] r, ?_, rfl, rfl⟩
  rw [run_cons, hsubmit, Option.bind_some, run_cons, hwritten]
  rfl

/-- **A topic of 65536 bytes is announced as an empty one**: what is sent is no packet. -/
theorem push_encodes_iff_fails : Built longTopic ∧ ∃ w,
    run pushStep (PushWorld.start connectedLayer) [.submit longTopic [], .answer true []] = some w ∧
      w.outstanding = 0 ∧ ¬w.Streams := by
  have hpayload : ¬(longTopic.type = .publish ∧ descLength longTopic.content > 0) :=
    fun h => absurd h.2 (by decide)
  obtain ⟨w, hrun, hdone, hsubmitted⟩ := run_alone
    (encodable_publish rfl (by decide) rfl rfl (by rw [List.length_replicate]; decide)) hpayload
  refine ⟨longTopic_built, w, hrun, hdone, fun hstreams => ?_⟩
  have hsend := (hstreams.1 longTopic (by rw [hsubmitted]; exact List.mem_singleton_self _)).sendable
  have htopic := hsend.length_lt (o := longTopic.topicName) (by simp) rfl
  rw [List.length_replicate] at htopic
  exact absurd htopic (by decide)

end IotDeviceSdk.Mqtt.Codec
