import Mathlib.Algebra.Group.Nat.Defs
import IotDeviceSdk.Mqtt.Packet
import IotDeviceSdk.Mqtt.Serialiser
import IotDeviceSdk.Mqtt.Logic.DataHelpers

/-!
# The serialiser makes packets

A message that the logic layer builds, its header and its payload. The size and the bytes of a header
come from two walks over the message: `Message.encodes_of_content` puts them together once for all types.

`Built.encodes_iff` says of which messages a packet is made that is well formed and reads as the same
message: of those that are `Sendable`.
-/

namespace IotDeviceSdk.Mqtt

open Logic

/-! ## The remaining length -/

/-- What the loop writes is read back. -/
theorem decodeLength_writeRemainingLength : ∀ (k rounds n : Nat), 0 < k → k ≤ rounds →
    n < 128 ^ k → decodeLength k (writeRemainingLength rounds n) = some n
  | 0, _, _, hk, _, _ => absurd hk (Nat.lt_irrefl 0)
  | k + 1, 0, _, _, hr, _ => absurd hr (Nat.not_succ_le_zero k)
  | k + 1, rounds + 1, n, _, hr, hn => by
    have hmod := Nat.mod_lt n (show 0 < 128 by decide)
    rw [writeRemainingLength]
    split
    · next hmore =>
      have hbyte : (UInt8.ofNat (n % 128 + 128)).toNat = n % 128 + 128 := by
        rw [UInt8.toNat_ofNat']
        omega
      have hcont : UInt8.ofNat (n % 128 + 128) ≥ 0x80 := by
        rw [ge_iff_le, UInt8.le_iff_toNat_le, hbyte]
        exact Nat.le_add_left 128 _
      have hpos : 0 < k := by
        rcases Nat.eq_zero_or_pos k with rfl | hpos
        · exfalso
          rw [Nat.zero_add, Nat.pow_one] at hn
          omega
        · exact hpos
      have hlt : n / 128 < 128 ^ k := by
        rw [Nat.pow_succ] at hn
        exact Nat.div_lt_of_lt_mul (by omega)
      have ih := decodeLength_writeRemainingLength k rounds (n / 128) hpos
        (Nat.le_of_succ_le_succ hr) hlt
      rw [decodeLength, if_pos hcont, ih, Option.map_some, hbyte, Option.some.injEq]
      omega
    · next hlast =>
      have hbyte : (UInt8.ofNat (n % 128)).toNat = n := by
        rw [UInt8.toNat_ofNat']
        omega
      have hend : ¬ UInt8.ofNat (n % 128) ≥ 0x80 := by
        rw [ge_iff_le, UInt8.le_iff_toNat_le, hbyte]
        show ¬ 128 ≤ n
        omega
      rw [decodeLength, if_neg hend, if_pos rfl, hbyte]

theorem length_writeRemainingLength_last {rounds n : Nat} (h : n < 128) :
    (writeRemainingLength (rounds + 1) n).length = 1 := by
  rw [writeRemainingLength, if_neg (by omega)]
  rfl

theorem length_writeRemainingLength_more {rounds n : Nat} (h : 128 ≤ n) :
    (writeRemainingLength (rounds + 1) n).length =
      (writeRemainingLength rounds (n / 128)).length + 1 := by
  rw [writeRemainingLength, if_pos (by omega)]
  rfl

/-- It takes up the bytes that the size counts. -/
theorem length_writeRemainingLength {n : Nat} (h : n < 268435456) :
    (writeRemainingLength 10 n).length = getRemainingLengthBytes n := by
  unfold getRemainingLengthBytes
  split
  · exact length_writeRemainingLength_last (by omega)
  · rw [length_writeRemainingLength_more (by omega)]
    split
    · rw [length_writeRemainingLength_last (by omega)]
    · rw [length_writeRemainingLength_more (by omega)]
      split
      · rw [length_writeRemainingLength_last (by omega)]
      · rw [length_writeRemainingLength_more (by omega), length_writeRemainingLength_last (by omega),
          if_pos (by omega)]

/-! ## Strings -/

/-- The two bytes of a number. -/
def Word.ofNat (n : Nat) : Word := ⟨.ofNat (n / 256), .ofNat n⟩

theorem Word.toNat_ofNat {n : Nat} (h : n < 65536) : (Word.ofNat n).toNat = n := by
  rw [Word.toNat, Word.ofNat, UInt8.toNat_ofNat', UInt8.toNat_ofNat']
  omega

/-- A text that is not too long, as a string. -/
def Str.ofText (text : Bytes) (h : text.length < 65536) : Str where
  length := .ofNat text.length
  text
  valid := (Word.toNat_ofNat h).symm

theorem Word.bytes_ofNat (n : Nat) : (Word.ofNat n).bytes = write16 n := rfl

theorem Str.bytes_ofText (text : Bytes) (h : text.length < 65536) :
    (Str.ofText text h).bytes = writeString (some text) := rfl

theorem Str.length_text_lt (s : Str) : s.text.length < 65536 := by
  rw [s.valid, Word.toNat]
  have := s.length.hi.toNat_lt
  have := s.length.lo.toNat_lt
  omega

/-- Optional texts that are not too long, as strings. -/
def optStr (o : Option Bytes) (h : ∀ text ∈ o, text.length < 65536) : Option Str :=
  o.pmap Str.ofText h

section OptStr

variable (o : Option Bytes) (h : ∀ text ∈ o, text.length < 65536)

theorem isSome_optStr : (optStr o h).isSome = o.isSome := by
  cases o <;> rfl

theorem map_text_optStr : (optStr o h).map Str.text = o := by
  cases o <;> rfl

theorem optBytes_optStr : optBytes (optStr o h) = if o.isSome then writeString o else [] := by
  cases o <;> rfl

theorem descLength_lt (h : ∀ text ∈ o, text.length < 65536) : descLength o < 65536 := by
  cases o with
  | none => decide
  | some text => exact h text rfl

theorem length_writeString : (writeString o).length = 2 + descLength o := by
  cases o with
  | none => rfl
  | some text =>
    rw [writeString, List.length_append]
    rfl

/-- The strings of a will, if there are both. -/
def optWill (o' : Option Bytes) (h' : ∀ text ∈ o', text.length < 65536) : Option (Str × Str) :=
  (optStr o h).bind fun topic => (optStr o' h').map (topic, ·)

section OptWill

variable {o' : Option Bytes} (h' : ∀ text ∈ o', text.length < 65536)

theorem optWill_cases (hboth : o.isSome = o'.isSome) :
    (o = none ∧ o' = none) ∨
      ∃ text text' ht ht', o = some text ∧ o' = some text' ∧
        optWill o h o' h' = some (.ofText text ht, .ofText text' ht') := by
  cases o with
  | none =>
    cases o' with
    | none => exact .inl ⟨rfl, rfl⟩
    | some text' => cases hboth
  | some text =>
    cases o' with
    | none => cases hboth
    | some text' => exact .inr ⟨text, text', h text rfl, h' text' rfl, rfl, rfl, rfl⟩

theorem isSome_optWill (hboth : o.isSome = o'.isSome) : (optWill o h o' h').isSome = o.isSome := by
  rcases optWill_cases o h h' hboth with ⟨rfl, rfl⟩ | ⟨text, text', ht, ht', rfl, rfl, heq⟩
  · rfl
  · rw [heq]
    rfl

theorem willBytes_optWill (hboth : o.isSome = o'.isSome) : willBytes (optWill o h o' h') =
    if o.isSome then writeString o ++ writeString o' else [] := by
  rcases optWill_cases o h h' hboth with ⟨rfl, rfl⟩ | ⟨text, text', ht, ht', rfl, rfl, heq⟩
  · rfl
  · rw [heq]
    rfl

theorem map_fst_optWill (hboth : o.isSome = o'.isSome) :
    (optWill o h o' h').map (fun w => w.1.text) = o := by
  rcases optWill_cases o h h' hboth with ⟨rfl, rfl⟩ | ⟨text, text', ht, ht', rfl, rfl, heq⟩
  · rfl
  · rw [heq]
    rfl

theorem map_snd_optWill (hboth : o.isSome = o'.isSome) :
    (optWill o h o' h').map (fun w => w.2.text) = o' := by
  rcases optWill_cases o h h' hboth with ⟨rfl, rfl⟩ | ⟨text, text', ht, ht', rfl, rfl, heq⟩
  · rfl
  · rw [heq]
    rfl

end OptWill

end OptStr

/-! ## Messages and their packets -/

/-- The strings of a message. -/
def Message.strings (m : Message) : List Bytes :=
  [m.protocolName, m.clientId, m.willTopic, m.willMessage, m.username, m.password,
    m.topicName].filterMap id ++ m.topics.filterMap TopicPair.name

/-- The flags of a CONNECT that the standard allows. -/
def properConnectFlags (flags : UInt8) : Bool :=
  flags.toNat % 2 = 0 ∧ flags.toNat / 8 % 4 ≠ 3 ∧
    (flags.toNat / 4 % 2 = 0 → flags.toNat / 8 % 8 = 0) ∧
    (flags.toNat / 128 % 2 = 0 → flags.toNat / 64 % 2 = 0)

/-- What MQTT 3.1.1 prescribes for the flags of the fixed header, and for the protocol and the
flags of a CONNECT. What a string has to look like is another matter. -/
def Message.Proper (m : Message) : Prop :=
  match m.type with
  | .connect => m.commonValue.toNat % 16 = 0 ∧ m.protocolName = some [0x4D, 0x51, 0x54, 0x54] ∧
      m.protocolVersion = 4 ∧ properConnectFlags m.flagsValue = true
  | .publish => m.qos ≠ 3 ∧ (m.qos = 0 → m.dup = false)
  | .pubrel | .subscribe | .unsubscribe => m.commonValue.toNat % 16 = 2
  | _ => m.commonValue.toNat % 16 = 0

/-- The payload that the codec layer sends after the header. -/
def Message.payload (m : Message) : Bytes :=
  if m.type = .publish then m.content.getD [] else []

/-- The message as it is received: with its remaining length, and without a payload that is
empty. -/
def Message.received (m : Message) (remainingLength : Nat) : Message :=
  { m with remainingLength, content := if m.content = some [] then none else m.content }

/-- The packet is well formed, and it is the message. -/
structure Packet.Carries (p : Packet) (m : Message) : Prop where
  message : p.message = m.received p.body.length
  proper : m.Proper

/-- The header fills a buffer of the computed size, and with the payload it is one packet. -/
def Message.Encodes (m : Message) : Prop :=
  ∃ size header, serialiserSize m = some size ∧ serialise m size = some header ∧
    header.length = size.msgLen - size.publishPayloadLen ∧
    ∃ p : Packet, p.bytes = header ++ m.payload ∧ p.Carries m

theorem Message.mem_strings {m : Message} {text : Bytes} :
    text ∈ m.strings ↔ some text ∈ [m.protocolName, m.clientId, m.willTopic, m.willMessage, m.username,
      m.password, m.topicName] ∨ some text ∈ m.topics.map TopicPair.name := by
  rw [Message.strings, List.mem_append, List.mem_filterMap, List.mem_filterMap]
  simp only [id_eq, exists_eq_right, List.mem_map]

theorem length_of_map_text {o : Option Str} {text : Bytes} (h : some text = o.map Str.text) :
    text.length < 65536 := by
  obtain ⟨s, -, rfl⟩ := Option.map_eq_some_iff.mp h.symm
  exact s.length_text_lt

/-- A string of a packet is not too long. -/
theorem Packet.length_of_mem_strings (p : Packet) {text : Bytes} (h : text ∈ p.message.strings) :
    text.length < 65536 := by
  rw [Message.mem_strings, Packet.message] at h
  cases hc : p.content with
  | connect protocolName version flags keepalive clientId will username password =>
    rw [hc] at h
    simp only [Content.message, Frame.header, List.mem_cons, List.not_mem_nil, or_false] at h
    rcases h with (h | h | h | h | h | h | h) | h
    · exact length_of_map_text (o := some protocolName) h
    · exact length_of_map_text (o := some clientId) h
    · refine length_of_map_text (o := will.map Prod.fst) ?_
      rw [h, Option.map_map]
      rfl
    · refine length_of_map_text (o := will.map Prod.snd) ?_
      rw [h, Option.map_map]
      rfl
    · exact length_of_map_text h
    · exact length_of_map_text h
    · cases h
    · cases h
  | publish topic id payload =>
    rw [hc] at h
    obtain rfl : text = topic.text := by simpa [Content.message, Frame.header, eq_comm] using h
    exact topic.length_text_lt
  | subscribe id topic more =>
    rw [hc] at h
    obtain ⟨t, -, rfl⟩ : ∃ t ∈ topic :: more, t.1.text = text := by
      simpa [Content.message, Frame.header, eq_comm] using h
    exact t.1.length_text_lt
  | unsubscribe id topic more =>
    rw [hc] at h
    obtain ⟨t, -, rfl⟩ : ∃ t ∈ topic :: more, t.text = text := by
      simpa [Content.message, Frame.header, eq_comm] using h
    exact t.length_text_lt
  | _ =>
    rw [hc] at h
    simp [Content.message, Frame.header] at h

/-- The header fills its buffer as long as the remaining length has at most four bytes. -/
theorem serialise_eq {m : Message} {contents : Bytes} {payloadLen : Nat}
    (hwrite : writeContents m = some contents)
    (hlen : contents.length + payloadLen < 268435456) :
    ∃ header, serialise m (sizeOf (contents.length + payloadLen) payloadLen) = some header ∧
      header = m.commonValue :: (writeRemainingLength 10 (contents.length + payloadLen) ++ contents) ∧
      header.length = (sizeOf (contents.length + payloadLen) payloadLen).msgLen - payloadLen := by
  refine ⟨_, ?_, rfl, ?_⟩
  · rw [serialise, serialiserWrite, hwrite, Option.bind_some]
    refine if_pos ?_
    show _ ≤ 1 + (contents.length + payloadLen) +
      getRemainingLengthBytes (contents.length + payloadLen) - payloadLen
    simp only [sizeOf, List.length_cons, List.length_append, length_writeRemainingLength hlen]
    omega
  · simp only [sizeOf, List.length_cons, List.length_append, length_writeRemainingLength hlen]
    omega

/-- The packet that a content makes. -/
theorem Message.encodes_of_content {m : Message} (contents : Bytes) (ct : Content)
    (hsize : serialiserSize m = some (sizeOf (contents.length + m.payload.length) m.payload.length))
    (hwrite : writeContents m = some contents) (hbytes : ct.bytes = contents ++ m.payload)
    (hlen : contents.length + m.payload.length < 268435456)
    (hfits : ∀ header : Message, header.commonValue = m.commonValue → ct.Fits header)
    (hmessage : ∀ n, ct.message { commonValue := m.commonValue, remainingLength := n } = m.received n)
    (hproper : m.Proper) : m.Encodes := by
  have hbody : ct.bytes.length = contents.length + m.payload.length := by
    rw [hbytes, List.length_append]
  have hvalid : decodeLength 4 (writeRemainingLength 10 ct.bytes.length) = some ct.bytes.length :=
    decodeLength_writeRemainingLength 4 10 _ (by decide) (by decide) (by omega)
  let p : Packet := ⟨⟨m.commonValue, _, ct.bytes, hvalid⟩, ct, rfl, hfits _ rfl⟩
  obtain ⟨header, hserialise, heq, hlength⟩ := serialise_eq hwrite hlen
  refine ⟨_, header, hsize, hserialise, hlength, p, ?_, hmessage _, hproper⟩
  show m.commonValue :: (writeRemainingLength 10 ct.bytes.length ++ ct.bytes) = header ++ m.payload
  rw [hbody, hbytes, heq, List.cons_append, List.append_assoc]

/-! ## The messages of the logic layer -/

/-- A message that a `fill_with_…` function makes. The functions get their id and the timeout as an
`uint16_t`, and no id but 0 for a message that has none. -/
inductive Built : Message → Prop
  | connect {c : ConnectionData} {m : Message} (hk : c.keepaliveTimeout < 65536)
      (h : fillWithConnectData c = .ok m) : Built m
  | publish {topic : Option Bytes} {cnt : Bytes} {qos : Qos} {retain dup : Bool} {id : Nat} {m : Message}
      (hid : id < 65536) (hqos : qos = .atMostOnce → id = 0 ∧ dup = false)
      (h : fillWithPublishData topic cnt qos retain dup id = .ok m) : Built m
  | subscribe (topic : Bytes) {msgId : Nat} (qos : Qos) (dup : Bool) (hid : msgId < 65536) :
      Built (fillWithSubscribeData topic msgId qos dup)
  | puback {msgId : Nat} (hid : msgId < 65536) : Built (fillWithPubackData msgId)
  | pingreq : Built fillWithPingreqData
  | disconnect : Built fillWithDisconnectData

/-- A message of which one packet can be made: no string is longer than its length can say, and a
SUBSCRIBE is not sent once more. -/
def Message.Sendable (m : Message) : Prop :=
  (∀ text ∈ m.strings, text.length ≤ 65535) ∧ (m.type = .subscribe → m.dup = false)

instance (m : Message) : Decidable m.Sendable := inferInstanceAs (Decidable (_ ∧ _))

theorem Message.strings_received (m : Message) (n : Nat) : (m.received n).strings = m.strings := rfl

theorem Message.Encodes.sendable {m : Message} (h : m.Encodes) : m.Sendable := by
  obtain ⟨-, -, -, -, -, p, -, hp⟩ := h
  refine ⟨fun text ht => ?_, fun htype => ?_⟩
  · refine Nat.le_of_lt_succ (p.length_of_mem_strings ?_)
    rwa [hp.message, strings_received]
  · have hproper := hp.proper
    rw [Message.Proper, htype] at hproper
    have hflags : m.commonValue.toNat % 16 = 2 := hproper
    simp only [Message.dup, decide_eq_false_iff_not]
    omega

/-! ### The fixed header -/

theorem bit_le (b : Bool) (position : Nat) : bit b position ≤ 2 ^ position := by
  cases b
  · exact Nat.zero_le _
  · exact Nat.le_refl _

theorem Qos.bits_le (qos : Qos) : qos.bits ≤ 2 := by
  cases qos <;> decide

section CommonBits

variable {m : Message} (type : Nat) {dup retain : Bool} {qos : Qos}

theorem toNat_commonBits (ht : type < 16) (h : m.commonValue = commonBits type dup qos retain) :
    m.commonValue.toNat = type * 16 + bit dup 3 + qos.bits * 2 + bit retain 0 := by
  have := bit_le dup 3
  have := bit_le retain 0
  have := Qos.bits_le qos
  rw [h, commonBits, UInt8.toNat_ofNat']
  omega

theorem type_commonBits (ht : type < 16) (h : m.commonValue = commonBits type dup qos retain) :
    m.type = .ofBits type := by
  have := bit_le dup 3
  have := bit_le retain 0
  have := Qos.bits_le qos
  rw [Message.type, toNat_commonBits type ht h]
  congr 1
  omega

theorem flags_commonBits (ht : type < 16) (h : m.commonValue = commonBits type dup qos retain) :
    m.commonValue.toNat % 16 = bit dup 3 + qos.bits * 2 + bit retain 0 := by
  have := bit_le dup 3
  have := bit_le retain 0
  have := Qos.bits_le qos
  rw [toNat_commonBits type ht h]
  omega

theorem qos_commonBits (ht : type < 16) (h : m.commonValue = commonBits type dup qos retain) :
    m.qos = qos.bits := by
  rw [Message.qos, toNat_commonBits type ht h]
  cases dup <;> cases qos <;> cases retain <;> simp [bit, Qos.bits] <;> omega

theorem dup_commonBits (ht : type < 16) (h : m.commonValue = commonBits type dup qos retain) :
    m.dup = dup := by
  rw [Message.dup, toNat_commonBits type ht h]
  cases dup <;> cases qos <;> cases retain <;> simp [bit, Qos.bits] <;> omega

/-- The flags of the types that have none. -/
theorem plain_commonBits (ht : type < 16) (h : m.commonValue = commonBits type false .atMostOnce false) :
    m.commonValue.toNat % 16 = 0 := by
  rw [flags_commonBits type ht h]
  rfl

end CommonBits

/-! ### Messages of each type -/

theorem length_write16 (n : Nat) : (write16 n).length = 2 := rfl

theorem fillWithPingreqData_encodes : fillWithPingreqData.Encodes := by
  have htype : fillWithPingreqData.type = .pingreq := by decide
  refine Message.encodes_of_content [] .empty (by decide) (by decide) rfl (by decide)
    (fun header h => .inl ?_) (fun _ => rfl) ?_
  · exact type_commonBits 12 (by decide) h
  · rw [Message.Proper, htype]
    exact plain_commonBits 12 (by decide) rfl

theorem fillWithDisconnectData_encodes : fillWithDisconnectData.Encodes := by
  have htype : fillWithDisconnectData.type = .disconnect := by decide
  refine Message.encodes_of_content [] .empty (by decide) (by decide) rfl (by decide)
    (fun header h => .inr (.inr ?_)) (fun _ => rfl) ?_
  · exact type_commonBits 14 (by decide) h
  · rw [Message.Proper, htype]
    exact plain_commonBits 14 (by decide) rfl

theorem fillWithPubackData_encodes {msgId : Nat} (hid : msgId < 65536) :
    (fillWithPubackData msgId).Encodes := by
  have htype : (fillWithPubackData msgId).type = .puback := type_commonBits 4 (by decide) rfl
  have hpayload : (fillWithPubackData msgId).payload = [] := by
    rw [Message.payload, htype]
    rfl
  refine Message.encodes_of_content (write16 msgId) (.ack (.ofNat msgId)) ?_ ?_ ?_ ?_
    (fun header h => .inl ?_) (fun n => ?_) ?_
  · rw [serialiserSize, htype, hpayload]
    rfl
  · rw [writeContents, htype]
    rfl
  · rw [hpayload]
    rfl
  · rw [hpayload]
    show 2 + 0 < _
    decide
  · exact type_commonBits 4 (by decide) h
  · rw [Content.message, Word.toNat_ofNat hid]
    rfl
  · rw [Message.Proper, htype]
    exact plain_commonBits 4 (by decide) rfl

theorem fillWithSubscribeData_encodes {topic : Bytes} {msgId : Nat} {qos : Qos} {dup : Bool}
    (hid : msgId < 65536) (h : (fillWithSubscribeData topic msgId qos dup).Sendable) :
    (fillWithSubscribeData topic msgId qos dup).Encodes := by
  have htype : (fillWithSubscribeData topic msgId qos dup).type = .subscribe :=
    type_commonBits 8 (by decide) rfl
  have hpayload : (fillWithSubscribeData topic msgId qos dup).payload = [] := by
    rw [Message.payload, htype]
    rfl
  have htopic : topic.length < 65536 :=
    Nat.lt_succ_of_le (h.1 topic (by simp [Message.strings, fillWithSubscribeData]))
  have hdup : dup = false := (dup_commonBits 8 (by decide) rfl).symm.trans (h.2 htype)
  have hlength : (write16 msgId ++ writeString (some topic) ++ [UInt8.ofNat qos.bits]).length =
      2 + 2 + topic.length + 1 := by
    simp only [List.length_append, length_write16, length_writeString, descLength, Option.elim_some,
      List.length_singleton]
    omega
  refine Message.encodes_of_content (write16 msgId ++ writeString (some topic) ++ [.ofNat qos.bits])
    (.subscribe (.ofNat msgId) (.ofText topic htopic, .ofNat qos.bits) []) ?_ ?_ ?_ ?_
    (fun header h => type_commonBits 8 (by decide) h) (fun n => ?_) ?_
  · rw [serialiserSize, htype, hpayload, hlength]
    rfl
  · rw [writeContents, htype]
    rfl
  · rw [hpayload, Content.bytes]
    simp only [Word.bytes_ofNat, List.flatMap_cons, List.flatMap_nil, Str.bytes_ofText, List.append_nil,
      List.append_assoc]
  · rw [hlength, hpayload]
    show 2 + 2 + topic.length + 1 + 0 < _
    omega
  · rw [Content.message, Word.toNat_ofNat hid]
    rfl
  · rw [Message.Proper, htype]
    show _ % 16 = 2
    rw [flags_commonBits 8 (by decide) rfl, hdup]
    rfl

theorem fillWithPublishData_eq {topic : Option Bytes} {cnt : Bytes} {qos : Qos} {retain dup : Bool}
    {id : Nat} {m : Message} (h : fillWithPublishData topic cnt qos retain dup id = .ok m) :
    ∃ text, cnt.length ≤ maxPayloadSize ∧
      m = { commonValue := commonBits 3 dup qos retain, topicName := some text, content := some cnt,
            messageId := id } := by
  unfold fillWithPublishData at h
  split at h
  · cases h
  · next hcnt =>
    cases topic with
    | none => cases h
    | some text => exact ⟨text, Nat.le_of_not_lt hcnt, (Except.ok.inj h).symm⟩

theorem fillWithPublishData_encodes {topic : Option Bytes} {cnt : Bytes} {qos : Qos} {retain dup : Bool}
    {id : Nat} {m : Message} (hid : id < 65536) (hqos : qos = .atMostOnce → id = 0 ∧ dup = false)
    (h : fillWithPublishData topic cnt qos retain dup id = .ok m) (hm : m.Sendable) : m.Encodes := by
  obtain ⟨text, hcnt, heq⟩ := fillWithPublishData_eq h
  have hvalue : m.commonValue = commonBits 3 dup qos retain := by rw [heq]
  have htopic : m.topicName = some text := by rw [heq]
  have hcontent : m.content = some cnt := by rw [heq]
  have htype : m.type = .publish := type_commonBits 3 (by decide) hvalue
  have hq : m.qos = qos.bits := qos_commonBits 3 (by decide) hvalue
  have hpayload : m.payload = cnt := by
    rw [Message.payload, htype, hcontent]
    rfl
  have htext : text.length < 65536 :=
    Nat.lt_succ_of_le (hm.1 text (by simp [Message.strings, htopic]))
  have hcontents : writeContents m =
      some (writeString (some text) ++ if m.qos > 0 then write16 id else []) := by
    rw [writeContents, htype, htopic, heq]
  have hlength : (writeString (some text) ++ if m.qos > 0 then write16 id else []).length =
      2 + text.length + if m.qos > 0 then 2 else 0 := by
    rw [List.length_append, length_writeString]
    split <;> rfl
  have hword : (if m.qos > 0 then some (Word.ofNat id) else none).isSome = decide (m.qos > 0) := by
    split
    · next hpos => exact (decide_eq_true hpos).symm
    · next hzero => exact (decide_eq_false hzero).symm
  refine Message.encodes_of_content _
    (.publish (.ofText text htext) (if m.qos > 0 then some (.ofNat id) else none) cnt)
    ?_ hcontents ?_ ?_ (fun header h => ?_) (fun n => ?_) ?_
  · rw [serialiserSize, htype, hpayload, hlength, htopic, hcontent]
    rfl
  · rw [hpayload, Content.bytes, Str.bytes_ofText, List.append_assoc]
    split <;> rfl
  · rw [hlength, hpayload]
    have : maxPayloadSize = 131072 := rfl
    split <;> omega
  · refine ⟨type_commonBits 3 (by decide) (h.trans hvalue), ?_⟩
    rw [hword, qos_commonBits 3 (by decide) (h.trans hvalue), hq]
  · have hword : (if m.qos > 0 then some (Word.ofNat id) else none).elim 0 Word.toNat = id := by
      split
      · exact Word.toNat_ofNat hid
      · next hzero =>
        rw [hq] at hzero
        cases qos with
        | atMostOnce => exact (hqos rfl).1.symm
        | atLeastOnce | exactlyOnce => exact absurd (by decide) hzero
    rw [Content.message, hword, Message.received, heq]
    simp only [Str.ofText, Option.some.injEq]
  · rw [Message.Proper, htype]
    show m.qos ≠ 3 ∧ (m.qos = 0 → m.dup = false)
    rw [hq, dup_commonBits 3 (by decide) hvalue]
    cases qos with
    | atMostOnce => exact ⟨by decide, fun _ => (hqos rfl).2⟩
    | atLeastOnce | exactlyOnce => exact ⟨by decide, fun hzero => by cases hzero⟩

/-- The flags of a CONNECT. -/
def connectFlags (username password retain will clean : Bool) (qos : Qos) : UInt8 :=
  .ofNat (bit username 7 + bit (username && password) 6 + bit (will && retain) 5 +
    (if will then qos.bits * 8 else 0) + bit will 2 + bit clean 1)

theorem connectFlags_bits (username password retain will clean : Bool) (qos : Qos) :
    decide ((connectFlags username password retain will clean qos).toNat / 4 % 2 = 1) = will ∧
      decide ((connectFlags username password retain will clean qos).toNat / 128 % 2 = 1) = username ∧
      decide ((connectFlags username password retain will clean qos).toNat / 64 % 2 = 1) =
        (username && password) ∧
      properConnectFlags (connectFlags username password retain will clean qos) = true := by
  cases qos <;> revert username password retain will clean <;> decide

theorem fillWithConnectData_eq {c : ConnectionData} {m : Message} (h : fillWithConnectData c = .ok m) :
    ∃ clientId, c.willTopic.isSome = c.willMessage.isSome ∧
      m = { commonValue := commonBits 1 false .atMostOnce false
            protocolName := some [0x4D, 0x51, 0x54, 0x54]
            protocolVersion := 4
            clientId := some clientId
            username := c.username
            password := if c.username.isSome && c.password.isSome then c.password else none
            willTopic := c.willTopic
            willMessage := c.willMessage
            flagsValue := connectFlags c.username.isSome c.password.isSome c.willRetain
              c.willTopic.isSome (c.sessionType = .clean) c.willQos
            keepalive := c.keepaliveTimeout } := by
  unfold fillWithConnectData at h
  cases hid : c.clientId with
  | none =>
    rw [hid] at h
    cases h
  | some clientId =>
    cases htopic : c.willTopic with
    | none =>
      cases hmessage : c.willMessage with
      | none =>
        rw [hid, htopic, hmessage] at h
        exact ⟨clientId, rfl, (Except.ok.inj h).symm⟩
      | some message =>
        rw [hid, htopic, hmessage] at h
        cases h
    | some topic =>
      cases hmessage : c.willMessage with
      | none =>
        rw [hid, htopic, hmessage] at h
        cases h
      | some message =>
        rw [hid, htopic, hmessage] at h
        exact ⟨clientId, rfl, (Except.ok.inj h).symm⟩

/-- A string of a message that can be sent. -/
theorem Message.Sendable.length_lt {m : Message} (h : m.Sendable) {o : Option Bytes}
    (ho : o ∈ [m.protocolName, m.clientId, m.willTopic, m.willMessage, m.username, m.password,
      m.topicName]) {text : Bytes} (ht : text ∈ o) : text.length < 65536 := by
  refine Nat.lt_succ_of_le (h.1 text (Message.mem_strings.mpr (.inl ?_)))
  rw [Option.mem_def.mp ht] at ho
  exact ho

theorem fillWithConnectData_encodes {c : ConnectionData} {m : Message}
    (hk : c.keepaliveTimeout < 65536) (h : fillWithConnectData c = .ok m) (hm : m.Sendable) :
    m.Encodes := by
  obtain ⟨clientId, hboth, heq⟩ := fillWithConnectData_eq h
  have hvalue : m.commonValue = commonBits 1 false .atMostOnce false := by rw [heq]
  have htype : m.type = .connect := type_commonBits 1 (by decide) hvalue
  have hpayload : m.payload = [] := by
    rw [Message.payload, htype]
    rfl
  have hflags : m.flagsValue = connectFlags c.username.isSome c.password.isSome c.willRetain
      c.willTopic.isSome (c.sessionType = .clean) c.willQos := by rw [heq]
  obtain ⟨hw, hu, hpw, hproper⟩ := connectFlags_bits c.username.isSome c.password.isSome c.willRetain
    c.willTopic.isSome (c.sessionType = .clean) c.willQos
  rw [← hflags] at hw hu hpw hproper
  have hwill : m.will = m.willTopic.isSome := hw.trans (by rw [heq])
  have husername : m.usernameFollows = m.username.isSome := hu.trans (by rw [heq])
  have hpassword : m.passwordFollows = m.password.isSome := by
    refine hpw.trans ?_
    rw [heq]
    cases c.username <;> cases c.password <;> rfl
  have hboth' : m.willTopic.isSome = m.willMessage.isSome := by rw [heq]; exact hboth
  have hclientId : m.clientId = some clientId := by rw [heq]
  have hname : m.protocolName = some [0x4D, 0x51, 0x54, 0x54] := by rw [heq]
  have hlt : ∀ o ∈ [m.protocolName, m.clientId, m.willTopic, m.willMessage, m.username, m.password,
      m.topicName], ∀ text ∈ o, text.length < 65536 := fun o ho text ht => hm.length_lt ho ht
  simp only [List.forall_mem_cons] at hlt
  obtain ⟨-, hid, htopic, hmessage, hun, hpass, -⟩ := hlt
  have hif (b : Bool) (l : Bytes) : (if b then l else []).length = if b then l.length else 0 := by
    cases b <;> rfl
  have hwrite : writeContents m = some (writeString m.protocolName ++
      [m.protocolVersion, m.flagsValue] ++ write16 m.keepalive ++ writeString m.clientId ++
      (if m.will then writeString m.willTopic ++ writeString m.willMessage else []) ++
      (if m.usernameFollows then writeString m.username else []) ++
      (if m.passwordFollows then writeString m.password else [])) := by
    rw [writeContents, htype]
  have hlength : (writeString m.protocolName ++ [m.protocolVersion, m.flagsValue] ++
      write16 m.keepalive ++ writeString m.clientId ++
      (if m.will then writeString m.willTopic ++ writeString m.willMessage else []) ++
      (if m.usernameFollows then writeString m.username else []) ++
      (if m.passwordFollows then writeString m.password else [])).length =
      6 + 1 + 1 + 2 + 2 + descLength m.clientId +
        (if m.usernameFollows then 2 + descLength m.username else 0) +
        (if m.passwordFollows then 2 + descLength m.password else 0) +
        (if m.will then 4 + descLength m.willTopic + descLength m.willMessage else 0) := by
    have hmqtt : descLength m.protocolName = 4 := by rw [hname]; rfl
    simp only [List.length_append, hif, length_writeString, length_write16, List.length_cons,
      List.length_nil, hmqtt]
    split <;> omega
  refine Message.encodes_of_content _
    (.connect (.ofText [0x4D, 0x51, 0x54, 0x54] (by decide)) m.protocolVersion m.flagsValue
      (.ofNat m.keepalive) (.ofText clientId (hid clientId hclientId))
      (optWill m.willTopic htopic m.willMessage hmessage) (optStr m.username hun)
      (optStr m.password hpass)) ?_ hwrite ?_ ?_ (fun header h => ?_) (fun n => ?_) ?_
  · rw [serialiserSize, htype, hpayload, hlength]
    rfl
  · rw [hpayload, List.append_nil, hwill, husername, hpassword, hname, hclientId]
    simp only [Content.bytes, Str.bytes_ofText, willBytes_optWill _ _ _ hboth', optBytes_optStr,
      List.append_assoc, List.cons_append, List.nil_append]
    rfl
  · rw [hlength, hpayload]
    have := descLength_lt m.clientId hid
    have := descLength_lt m.willTopic htopic
    have := descLength_lt m.willMessage hmessage
    have := descLength_lt m.username hun
    have := descLength_lt m.password hpass
    show _ + 0 < _
    split <;> split <;> split <;> omega
  · refine ⟨type_commonBits 1 (by decide) (h.trans hvalue), ?_, ?_, ?_⟩
    · rw [isSome_optWill _ _ _ hboth', ← hwill]
      rfl
    · rw [isSome_optStr, ← husername]
      rfl
    · rw [isSome_optStr, ← hpassword]
      rfl
  · rw [Content.message, map_fst_optWill _ _ _ hboth', map_snd_optWill _ _ _ hboth', map_text_optStr,
      map_text_optStr, Word.toNat_ofNat (by rw [heq]; exact hk), Message.received, heq]
    rfl
  · rw [Message.Proper, htype]
    refine ⟨plain_commonBits 1 (by decide) hvalue, hname, ?_, hproper⟩
    rw [heq]

/-- **What the logic layer builds makes one packet exactly when it can be sent.** -/
theorem Built.encodes_iff {m : Message} (h : Built m) : m.Encodes ↔ m.Sendable := by
  refine ⟨Message.Encodes.sendable, fun hm => ?_⟩
  cases h with
  | connect hk h => exact fillWithConnectData_encodes hk h hm
  | publish hid hqos h => exact fillWithPublishData_encodes hid hqos h hm
  | subscribe topic qos dup hid => exact fillWithSubscribeData_encodes hid hm
  | puback hid => exact fillWithPubackData_encodes hid
  | pingreq => exact fillWithPingreqData_encodes
  | disconnect => exact fillWithDisconnectData_encodes

end IotDeviceSdk.Mqtt
