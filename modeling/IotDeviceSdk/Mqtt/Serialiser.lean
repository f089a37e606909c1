import IotDeviceSdk.Mqtt.Message

/-!
# The serialiser (`iotc_mqtt_serialiser.c`)

The size of a message, and its bytes in a buffer of that size. The payload of a PUBLISH is counted,
but not written: the codec layer sends it by itself.

The descriptors whose length is taken are those that the type and the flags of the message announce;
they are there.
-/

namespace IotDeviceSdk.Mqtt

/-- `iotc_mqtt_get_remaining_length_bytes`. A greater length fails an assertion. -/
def getRemainingLengthBytes (remainingLength : Nat) : Nat :=
  if remainingLength ≤ 127 then 1
  else if remainingLength ≤ 16383 then 2
  else if remainingLength ≤ 2097151 then 3
  else if remainingLength ≤ 268435455 then 4
  else 0

/-- The length of a descriptor. -/
def descLength (desc : Option Bytes) : Nat := desc.elim 0 List.length

/-- What `iotc_mqtt_serialiser_size` sets. -/
structure SerialiserSize where
  msgLen : Nat
  remainingLen : Nat
  publishPayloadLen : Nat
  deriving DecidableEq, Repr

/-- The sizes of a message with this remaining length. -/
def sizeOf (remainingLen publishPayloadLen : Nat) : SerialiserSize where
  msgLen := 1 + remainingLen + getRemainingLengthBytes remainingLen
  remainingLen
  publishPayloadLen

/-- `iotc_mqtt_serialiser_size`. `none` is `IOTC_MQTT_SERIALIZER_ERROR`. -/
def serialiserSize (m : Message) : Option SerialiserSize :=
  match m.type with
  | .connect =>
    some (sizeOf
      (6 + 1 + 1 + 2 + 2 + descLength m.clientId +
        (if m.usernameFollows then 2 + descLength m.username else 0) +
        (if m.passwordFollows then 2 + descLength m.password else 0) +
        (if m.will then 4 + descLength m.willTopic + descLength m.willMessage else 0)) 0)
  | .connack => some (sizeOf 2 0)
  | .publish =>
    some (sizeOf
      (2 + descLength m.topicName + (if m.qos > 0 then 2 else 0) + descLength m.content)
      (descLength m.content))
  | .puback => some (sizeOf 2 0)
  | .disconnect => some (sizeOf 0 0)
  | .subscribe => some (sizeOf (2 + 2 + descLength (m.topics.head?.bind TopicPair.name) + 1) 0)
  | .suback => some (sizeOf (2 + 1) 0)
  | .pingreq | .pingresp => some (sizeOf 0 0)
  | _ => none

/-- `WRITE_16` -/
def write16 (value : Nat) : Bytes := [UInt8.ofNat (value / 256), UInt8.ofNat value]

/-- `WRITE_STRING` -/
def writeString : Option Bytes → Bytes
  | some s => write16 s.length ++ s
  | none => write16 0

/-- The loop that writes the remaining length. Ten rounds use up a `size_t`. -/
def writeRemainingLength : Nat → Nat → Bytes
  | 0, _ => []
  | rounds + 1, n =>
    if n / 128 > 0 then UInt8.ofNat (n % 128 + 128) :: writeRemainingLength rounds (n / 128)
    else [UInt8.ofNat (n % 128)]

/-- The branches of `iotc_mqtt_serialiser_write`. -/
def writeContents (m : Message) : Option Bytes :=
  match m.type with
  | .connect =>
    some (writeString m.protocolName ++ [m.protocolVersion, m.flagsValue] ++ write16 m.keepalive ++
      writeString m.clientId ++
      (if m.will then writeString m.willTopic ++ writeString m.willMessage else []) ++
      (if m.usernameFollows then writeString m.username else []) ++
      (if m.passwordFollows then writeString m.password else []))
  | .connack => some [m.unused, m.returnCode]
  | .publish =>
    some (writeString m.topicName ++ (if m.qos > 0 then write16 m.messageId else []))
  | .puback => some (write16 m.messageId)
  | .subscribe =>
    some (write16 m.messageId ++ writeString (m.topics.head?.bind TopicPair.name) ++
      [m.topics.head?.elim 0 TopicPair.payload])
  | .suback => some (write16 m.messageId ++ [m.topics.head?.elim 0 TopicPair.payload])
  | .disconnect => some []
  | .pingreq | .pingresp => some []
  | _ => none

/-- `iotc_mqtt_serialiser_write` into a buffer of `capacity` bytes. `none` is
`IOTC_MQTT_SERIALISER_RC_ERROR`: the type has no branch, or a byte does not fit. -/
def serialiserWrite (m : Message) (capacity remainingLen : Nat) : Option Bytes :=
  (writeContents m).bind fun contents =>
    let out := m.commonValue :: (writeRemainingLength 10 remainingLen ++ contents)
    if out.length ≤ capacity then some out else none

/-- The header that the codec layer sends, in the buffer that it allocates. -/
def serialise (m : Message) (size : SerialiserSize) : Option Bytes :=
  serialiserWrite m (size.msgLen - size.publishPayloadLen) size.remainingLen

end IotDeviceSdk.Mqtt
