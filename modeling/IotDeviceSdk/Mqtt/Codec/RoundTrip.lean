import IotDeviceSdk.Mqtt.Codec.Encoding
import IotDeviceSdk.Mqtt.Codec.Reassembly

/-!
# From codec to codec

The bytes that one codec layer sends reach another one, cut into buffers in some way. The other side
passes up the messages that were handed over on this side, in this order, each with its fields.

The parser reads a string or a payload that is empty only once there is another byte, so that the last
message is held back if it ends with one.
-/

namespace IotDeviceSdk.Mqtt

open Logic

/-! ## Fields that are empty -/

/-- The message ends with a field without any bytes: the last string of a CONNECT, or the payload of a
PUBLISH of QoS 0. -/
def Message.endsEmpty (m : Message) : Bool :=
  match m.type with
  | .connect => (m.password.or (m.username.or (m.willMessage.or m.clientId))).getD [] = []
  | .publish => m.qos = 0 && m.payload = []
  | _ => false

theorem Content.type_message (c : Content) (header : Message) :
    (c.message header).type = header.type := by
  have hcommon : (c.message header).commonValue = header.commonValue := by cases c <;> rfl
  rw [Message.type, hcommon]
  rfl

theorem Content.lastString_text (clientId : Str) (will : Option (Str × Str))
    (username password : Option Str) :
    (lastString clientId will username password).text =
      ((password.map Str.text).or ((username.map Str.text).or
        ((will.map fun w => w.2.text).or (some clientId.text)))).getD [] := by
  cases password <;> cases username <;> cases will <;> rfl

/-- The message of a packet ends as the packet does. -/
theorem Content.endsEmpty_message {c : Content} {header : Message} (hfits : c.Fits header) :
    (c.message header).endsEmpty = c.endsEmpty := by
  rw [Message.endsEmpty, type_message]
  cases c with
  | connect name version flags keepalive clientId will username password =>
    rw [hfits.1, endsEmpty, lastString_text]
    exact decide_eq_decide.mpr .rfl
  | publish topic id payload =>
    obtain ⟨hpublish, hid⟩ := hfits
    have hqos : (message header (.publish topic id payload)).qos = 0 ↔ id = none := by
      rw [show (message header (.publish topic id payload)).qos = header.qos from rfl]
      cases id with
      | none => simpa using hid.symm
      | some id => simpa [Nat.pos_iff_ne_zero] using hid.symm
    have hpayload : (message header (.publish topic id payload)).payload = [] ↔ payload = [] := by
      rw [Message.payload, type_message, hpublish]
      by_cases hp : payload = [] <;> simp [message, hp]
    rw [hpublish, endsEmpty]
    simp only [hqos, hpayload]
  | connack unused returnCode =>
    rw [show header.type = .connack from hfits]
    rfl
  | ack id => rcases hfits with h | h | h | h | h <;> rw [h] <;> rfl
  | subscribe id topic more =>
    rw [show header.type = .subscribe from hfits]
    rfl
  | suback id code more =>
    rw [hfits.1]
    rfl
  | unsubscribe id topic more =>
    rw [show header.type = .unsubscribe from hfits]
    rfl
  | empty => rcases hfits with h | h | h <;> rw [h] <;> rfl

theorem Message.endsEmpty_received (m : Message) (n : Nat) :
    (m.received n).endsEmpty = m.endsEmpty := by
  have htype : (m.received n).type = m.type := rfl
  have hpayload : (m.received n).payload = m.payload := by
    rw [Message.payload, Message.payload, htype]
    by_cases hc : m.content = some [] <;> simp [received, hc]
  have hqos : (m.received n).qos = m.qos := rfl
  rw [Message.endsEmpty, Message.endsEmpty, hpayload, htype, hqos]
  rfl

theorem Packet.Carries.endsEmpty {p : Packet} {m : Message} (h : p.Carries m) :
    p.content.endsEmpty = m.endsEmpty := by
  rw [← m.endsEmpty_received p.body.length, ← h.message]
  exact (Content.endsEmpty_message p.fits).symm

/-! ## What the parser reads -/

/-- What the logic layer builds has one topic if it is a SUBSCRIBE, and is of no type that the parser
has no branch for. -/
theorem Built.readable {m : Message} (h : Built m) :
    (m.type = .subscribe → m.topics.length = 1) ∧ m.type ≠ .suback ∧ m.type ≠ .unsubscribe ∧
      m.type ≠ .unsuback := by
  have htype {t : Nat} (hlt : t < 16) {dup retain : Bool} {qos : Qos}
      (hc : m.commonValue = commonBits t dup qos retain) (hs : MqttType.ofBits t ≠ .subscribe)
      (hs' : MqttType.ofBits t ≠ .suback) (hu : MqttType.ofBits t ≠ .unsubscribe)
      (hu' : MqttType.ofBits t ≠ .unsuback) :
      (m.type = .subscribe → m.topics.length = 1) ∧ m.type ≠ .suback ∧ m.type ≠ .unsubscribe ∧
        m.type ≠ .unsuback := by
    rw [type_commonBits t hlt hc]
    exact ⟨fun h => absurd h hs, hs', hu, hu'⟩
  cases h with
  | connect hk h =>
    obtain ⟨clientId, -, heq⟩ := fillWithConnectData_eq h
    exact htype (t := 1) (by decide) (by rw [heq]) (by decide) (by decide) (by decide) (by decide)
  | publish hid hqos h =>
    obtain ⟨text, -, heq⟩ := fillWithPublishData_eq h
    exact htype (t := 3) (by decide) (by rw [heq]) (by decide) (by decide) (by decide) (by decide)
  | subscribe topic qos dup hid =>
    rw [type_commonBits 8 (by decide) rfl]
    exact ⟨fun _ => rfl, by decide, by decide, by decide⟩
  | puback hid => exact htype (t := 4) (by decide) rfl (by decide) (by decide) (by decide) (by decide)
  | pingreq => exact htype (t := 12) (by decide) rfl (by decide) (by decide) (by decide) (by decide)
  | disconnect => exact htype (t := 14) (by decide) rfl (by decide) (by decide) (by decide) (by decide)

/-- The parser has a branch for the packet of what the logic layer builds. -/
theorem Built.parsed {m : Message} (h : Built m) {p : Packet} (hp : p.Carries m) : p.parsed = true := by
  obtain ⟨hsub, hsuback, hunsub, hunsuback⟩ := h.readable
  have htype : p.header.type = m.type := by
    have hmessage := congrArg Message.type hp.message
    rwa [Packet.message, Content.type_message] at hmessage
  have htopics : p.message.topics = m.topics := by
    rw [hp.message]
    rfl
  have hfits := p.fits
  have hsingle : p.content.single = true := by
    rw [Packet.message] at htopics
    cases hc : p.content with
    | subscribe id topic more =>
      rw [hc] at htopics hfits
      have hlen := hsub (htype.symm.trans hfits)
      rw [← htopics] at hlen
      simpa [Content.message, Content.single] using hlen
    | suback id code more =>
      rw [hc] at hfits
      exact absurd (htype.symm.trans hfits.1) hsuback
    | _ => rfl
  rw [Packet.parsed, hsingle, htype]
  simp [hunsub, hunsuback]

end IotDeviceSdk.Mqtt

namespace IotDeviceSdk.Mqtt.Codec

open Infra

/-! ## What comes through -/

/-- The packets of a beginning of a stream that are passed up, however it is cut. -/
theorem exists_passed_up {ps : List Packet} (hps : ∀ p ∈ ps, p.parsed = true) {pre : Bytes}
    (hpre : pre <+: stream ps) :
    ∃ qs, qs <+: ps ∧ (pre = stream ps → qs = released (·.content.endsEmpty) ps) ∧
      ∀ (f : Fed) (buffers : List Bytes), f.layer.BetweenPackets → (∀ b ∈ buffers, b ≠ []) →
        buffers.flatten = pre → (buffers.foldl feed f).calls = f.calls ++ qs.map passUp := by
  obtain ⟨ys, rest, hys, hstream, hrest⟩ := prefix_eq_complete hpre
  have hall (h : pre = stream ps) : complete (fun p : Packet => p.bytes) ps pre.length = ps := by
    rw [h]
    exact complete_all (fun p => p.bytes_ne_nil) ps
  generalize complete (fun p : Packet => p.bytes) ps pre.length = done at hys hstream hall
  have hdone : ∀ p ∈ done, p.parsed = true := fun p hp => hps p (by rw [hys]; simp [hp])
  -- the buffers do what they hold does in one
  have hfeed {f : Fed} {buffers : List Bytes} (hne : ∀ b ∈ buffers, b ≠ [])
      (hflat : buffers.flatten = pre) (hpre : pre ≠ []) : buffers.foldl feed f = feed f pre := by
    rw [← hflat]
    refine feedAll_eq f ?_ hne
    rintro rfl
    exact hpre hflat.symm
  by_cases hr : rest = []
  · subst hr
    rw [List.append_nil] at hstream
    rcases List.eq_nil_or_concat done with rfl | ⟨qs, p, rfl⟩
    · refine ⟨[], List.nil_prefix, fun h => ?_, fun f buffers _ hne hflat => ?_⟩
      · rw [← hall h]
        rfl
      · have hnil : buffers = [] := by
          rw [hstream, List.flatMap_nil, List.flatten_eq_nil_iff] at hflat
          exact List.eq_nil_iff_forall_not_mem.mpr fun b hb => hne b hb (hflat b hb)
        rw [hnil, List.foldl_nil, List.map_nil, List.append_nil]
    · rw [List.concat_eq_append] at hys hstream hdone hall
      have hqs : ∀ q ∈ qs, q.parsed = true := fun q hq => hdone q (by simp [hq])
      have hpre : pre ≠ [] := by rw [hstream]; simp [p.bytes_ne_nil]
      have hstream' : pre = stream qs ++ p.bytes := by rw [hstream]; simp [stream]
      cases he : p.content.endsEmpty with
      | true =>
        refine ⟨qs, ⟨p :: ys, by rw [hys]; simp⟩, fun h => ?_, fun f buffers hf hne hflat => ?_⟩
        · rw [← hall h, released_concat, he]
          rfl
        · rw [hfeed hne hflat hpre, hstream']
          exact (feed_waits hqs hf p.bytes_ne_nil fun ls => execute_held p ls he).1
      | false =>
        refine ⟨qs ++ [p], ⟨ys, hys.symm⟩, fun h => ?_, fun f buffers hf hne hflat => ?_⟩
        · rw [← hall h, released_concat, he]
          rfl
        · rw [hfeed hne hflat hpre, hstream]
          exact feed_stream hqs (hdone p (by simp)) he hf
  · obtain ⟨p, zs, more, rfl, hbytes, hmore⟩ := hrest.resolve_left hr
    have hp : p.parsed = true := hps p (by rw [hys]; simp)
    refine ⟨done, ⟨_, hys.symm⟩, fun h => ?_, fun f buffers hf hne hflat => ?_⟩
    · have hlast := congrArg List.length (hys.symm.trans (hall h).symm)
      simp at hlast
    · rw [hfeed hne hflat (by rw [hstream]; simp [hr]), hstream]
      exact (feed_waits hdone hf hr fun ls => execute_prefix hp ls hbytes hmore).1

/-- The other side has passed up these messages, each with the fields that it had. -/
def Fed.PassesUp (f f' : Fed) (ms : List Message) : Prop :=
  ∃ calls, f'.calls = f.calls ++ calls ∧
    List.Forall₂ (fun call m => ∃ n, call = .pullNext (m.received n) .ok) calls ms

/-- What has been sent is a beginning of what the messages are sent as. -/
theorem Flows.sent_prefix {w : PushWorld} {done waiting : List Message} (h : Flows w done waiting) :
    w.sent <+: w.submitted.flatMap wire ∧ (w.outstanding = 0 → w.sent = w.submitted.flatMap wire) := by
  rw [h.sent, h.submitted, List.flatMap_append, List.prefix_append_right_inj]
  cases waiting with
  | nil =>
    have hpart : part w.layer.data.pushCs [] = [] := by
      cases w.layer.data.pushCs <;> rfl
    rw [hpart]
    exact ⟨List.nil_prefix, fun _ => rfl⟩
  | cons m ms =>
    have hout : w.outstanding = 1 := h.outstanding
    refine ⟨?_, fun h0 => absurd (hout.symm.trans h0) Nat.one_ne_zero⟩
    rw [List.flatMap_cons]
    cases w.layer.data.pushCs with
    | idle => exact List.nil_prefix
    | header => exact (List.prefix_append _ _).trans (List.prefix_append _ _)
    | payload => exact List.prefix_append _ _

/-- **What one codec layer sends, the other one passes up**: at any time a beginning of the messages
that were handed over, however the bytes are cut, and in the end all of them, but for the last one if
it ends with an empty field. This holds of every run in which the messages come from the logic layer
and can be sent, no allocation fails, and every write succeeds. -/
theorem sent_received {c : Layer} (hc : c.layerState.notOperational = false)
    (hq : c.data.taskQueue = []) (hcs : c.data.pushCs = .idle) {es : List PushEvent} {w : PushWorld}
    (hes : AllSteps pushStep Writes (PushWorld.start c) es)
    (h : run pushStep (PushWorld.start c) es = some w) (hsend : ∀ m ∈ w.submitted, m.Sendable) :
    ∃ ms, ms <+: w.submitted ∧ (w.outstanding = 0 → ms = released Message.endsEmpty w.submitted) ∧
      ∀ (f : Fed) (buffers : List Bytes), f.layer.BetweenPackets → (∀ b ∈ buffers, b ≠ []) →
        buffers.flatten = w.sent → f.PassesUp (buffers.foldl feed f) ms := by
  have hbuilt := submitted_built hes h
  have henc : ∀ m ∈ w.submitted, m.Encodes := fun m hm => (hbuilt m hm).encodes_iff.mpr (hsend m hm)
  obtain ⟨done, waiting, hflows⟩ := flows_run hc hq hcs hes h henc
  obtain ⟨ps, hstream, hcarries⟩ := packets_of_encodes henc
  obtain ⟨hinitial, hall⟩ := hflows.sent_prefix
  have hps : ∀ p ∈ ps, p.parsed = true := by
    intro p hp
    obtain ⟨m, hm, hpm⟩ := exists_of_mem hcarries hp
    exact (hbuilt m hm).parsed hpm
  rw [hstream] at hinitial hall
  obtain ⟨qs, hqs, hwhole, hcalls⟩ := exists_passed_up hps hinitial
  -- the messages of these packets
  have htake : qs = ps.take qs.length := List.prefix_iff_eq_take.mp hqs
  have hforall := List.forall₂_take qs.length hcarries
  rw [← htake] at hforall
  refine ⟨_, List.take_prefix qs.length w.submitted, fun h0 => ?_, fun f buffers hf hne hflat =>
    ⟨_, hcalls f buffers hf hne hflat, ?_⟩⟩
  · have hreleased := released_forall₂ (fun p m hpm => hpm.endsEmpty) hcarries
    rw [hwhole (hall h0), hreleased.length_eq]
    exact (List.prefix_iff_eq_take.mp (released_initial _ _)).symm
  · rw [List.forall₂_map_left_iff]
    exact hforall.imp fun p m hpm => ⟨_, congrArg (LayerCall.pullNext · .ok) hpm.message⟩

/-- The four messages of a short connection are sent, and received in pieces of one byte. -/
theorem sent_received_connection :
    ∃ w, run pushStep (PushWorld.start connectedLayer) shortConnection = some w ∧
      Fed.connected.PassesUp ((w.sent.map fun b => [b]).foldl feed Fed.connected) w.submitted := by
  have hrun : (run pushStep (PushWorld.start connectedLayer) shortConnection).map
      (fun w => (w.outstanding, decide (∀ m ∈ w.submitted, m.Sendable),
        decide (released Message.endsEmpty w.submitted = w.submitted))) = some (0, true, true) := by
    decide +kernel
  obtain ⟨w, hw, heq⟩ := Option.map_eq_some_iff.mp hrun
  obtain ⟨hdone, heq⟩ := Prod.mk.inj heq
  obtain ⟨hsend, hreleased⟩ := Prod.mk.inj heq
  have hpublish : Logic.fillWithPublishData (some [0x74]) [0x78] .atLeastOnce false false 7 =
      .ok publishMessageQ1 := rfl
  have hwrites : AllSteps pushStep Writes (PushWorld.start connectedLayer) shortConnection := by
    refine .of_forall fun w e he => ?_
    simp only [shortConnection, List.mem_cons, List.not_mem_nil, or_false] at he
    rcases he with rfl | rfl | rfl | rfl | rfl | rfl | rfl | rfl | rfl
    · exact ⟨.connect (c := connectionData) (by decide) rfl, by decide⟩
    · exact ⟨rfl, by decide⟩
    · exact ⟨.publish (by decide) (by decide) hpublish, by decide⟩
    · exact ⟨.subscribe _ _ _ (by decide), by decide⟩
    · exact ⟨rfl, by decide⟩
    · exact ⟨rfl, by decide⟩
    · exact ⟨rfl, by decide⟩
    · exact ⟨.disconnect, by decide⟩
    · exact ⟨rfl, by decide⟩
  obtain ⟨ms, -, hms, hpasses⟩ := sent_received rfl rfl rfl hwrites hw (of_decide_eq_true hsend)
  rw [(hms hdone).trans (of_decide_eq_true hreleased)] at hpasses
  refine ⟨w, hw, hpasses _ _ ⟨rfl, rfl⟩ (fun b hb => ?_) ?_⟩
  · obtain ⟨x, -, rfl⟩ := List.mem_map.mp hb
    exact List.cons_ne_nil _ _
  · rw [← List.flatMap_def]
    exact List.flatMap_singleton' w.sent

end IotDeviceSdk.Mqtt.Codec
