import IotDeviceSdk.Base

/-!
# MQTT messages (`iotc_mqtt_message.c`)

`iotc_mqtt_message_t` is a union of one structure for each packet type. Here it is one record with
the fields of all of them; a field of another type keeps the zero of the allocation.
-/

namespace IotDeviceSdk.Mqtt

/-- `iotc_mqtt_type_t`. The type field has four bits, so 15 can occur, too. -/
inductive MqttType where
  | none
  | connect
  | connack
  | publish
  | puback
  | pubrec
  | pubrel
  | pubcomp
  | subscribe
  | suback
  | unsubscribe
  | unsuback
  | pingreq
  | pingresp
  | disconnect
  | reserved
  deriving DecidableEq, Repr

/-- The value of the four bits as a type. -/
def MqttType.ofBits : Nat → MqttType
  | 0 => .none
  | 1 => .connect
  | 2 => .connack
  | 3 => .publish
  | 4 => .puback
  | 5 => .pubrec
  | 6 => .pubrel
  | 7 => .pubcomp
  | 8 => .subscribe
  | 9 => .suback
  | 10 => .unsubscribe
  | 11 => .unsuback
  | 12 => .pingreq
  | 13 => .pingresp
  | 14 => .disconnect
  | _ => .reserved

/-- `iotc_mqtt_message_class_t` -/
inductive MessageClass where
  | unknown
  | toServer
  | fromServer
  deriving DecidableEq, Repr

/-- `iotc_mqtt_topicpair_t`, without `next`. `payload` is the union of `status` and `qos`. -/
structure TopicPair where
  name : Option Bytes
  payload : UInt8
  deriving DecidableEq, Repr

/-- `iotc_mqtt_message_t` -/
structure Message where
  /-- type, dup, qos and retain, from the highest bit to the lowest -/
  commonValue : UInt8 := 0
  remainingLength : Nat := 0
  protocolName : Option Bytes := Option.none
  protocolVersion : UInt8 := 0
  flagsValue : UInt8 := 0
  keepalive : Nat := 0
  clientId : Option Bytes := Option.none
  willTopic : Option Bytes := Option.none
  willMessage : Option Bytes := Option.none
  username : Option Bytes := Option.none
  password : Option Bytes := Option.none
  unused : UInt8 := 0
  returnCode : UInt8 := 0
  topicName : Option Bytes := Option.none
  messageId : Nat := 0
  content : Option Bytes := Option.none
  topics : List TopicPair := []
  deriving DecidableEq, Repr

namespace Message

/-- `common_bits.type` -/
def type (m : Message) : MqttType := .ofBits (m.commonValue.toNat / 16)

/-- `common_bits.qos` -/
def qos (m : Message) : Nat := m.commonValue.toNat / 2 % 4

/-- `common_bits.dup` -/
def dup (m : Message) : Bool := m.commonValue.toNat / 8 % 2 = 1

/-- `flags_bits.will` -/
def will (m : Message) : Bool := m.flagsValue.toNat / 4 % 2 = 1

/-- `flags_bits.password_follows` -/
def passwordFollows (m : Message) : Bool := m.flagsValue.toNat / 64 % 2 = 1

/-- `flags_bits.username_follows` -/
def usernameFollows (m : Message) : Bool := m.flagsValue.toNat / 128 % 2 = 1

/-- `iotc_mqtt_get_message_id` -/
def getMessageId (m : Message) : Nat :=
  match m.type with
  | .publish | .puback | .pubrec | .pubrel | .pubcomp | .subscribe | .suback | .unsuback =>
    m.messageId
  | _ => 0

end Message

/-- `iotc_mqtt_class_msg_type_receiving` -/
def classMsgTypeReceiving : MqttType → MessageClass
  | .publish | .pubrel => .fromServer
  | .puback | .pubrec | .pubcomp | .suback | .unsuback | .pingresp => .toServer
  | _ => .unknown

/-- `iotc_mqtt_class_msg_type_sending` -/
def classMsgTypeSending : MqttType → MessageClass
  | .puback | .pubrec | .pubcomp => .fromServer
  | .publish | .pubrel | .subscribe | .unsubscribe | .pingreq | .disconnect => .toServer
  | _ => .unknown

end IotDeviceSdk.Mqtt
