import Mathlib.Algebra.Group.Nat.Defs
import IotDeviceSdk.Mqtt.Logic.Data

/-!
# Messages of the logic layer (`iotc_mqtt_logic_layer_data_helpers.h`)

The `fill_with_…` functions, and the comparison of a subscription with the topic of a PUBLISH.
Whether the memory that they allocate is there is up to their callers.
-/

namespace IotDeviceSdk.Mqtt.Logic

/-- A bit field of a byte. -/
def bit (b : Bool) (position : Nat) : Nat := if b then 2 ^ position else 0

/-- `common_bits` as `common_value` -/
def commonBits (type : Nat) (dup : Bool) (qos : Qos) (retain : Bool) : UInt8 :=
  .ofNat (type * 16 + bit dup 3 + qos.bits * 2 + bit retain 0)

/-- `fill_with_pingreq_data` -/
def fillWithPingreqData : Message :=
  { commonValue := commonBits 12 false .atMostOnce false }

/-- `fill_with_puback_data` -/
def fillWithPubackData (msgId : Nat) : Message :=
  { commonValue := commonBits 4 false .atMostOnce false, messageId := msgId }

/-- `fill_with_disconnect_data` -/
def fillWithDisconnectData : Message :=
  { commonValue := commonBits 14 false .atMostOnce false }

/-- `fill_with_connect_data` -/
def fillWithConnectData (c : ConnectionData) : Except IotcState Message :=
  match c.clientId, c.willTopic, c.willMessage with
  | none, _, _ => .error .nullClientIdError
  | some _, some _, none => .error .nullWillMessage
  | some _, none, some _ => .error .nullWillTopic
  | some clientId, willTopic, willMessage =>
    let will := willTopic.isSome
    let passwordFollows := c.username.isSome && c.password.isSome
    .ok
      { commonValue := commonBits 1 false .atMostOnce false
        protocolName := some [0x4D, 0x51, 0x54, 0x54]
        protocolVersion := 4
        clientId := some clientId
        username := c.username
        password := if passwordFollows then c.password else none
        willTopic, willMessage
        flagsValue := .ofNat (bit c.username.isSome 7 + bit passwordFollows 6 +
          bit (will && c.willRetain) 5 + (if will then c.willQos.bits * 8 else 0) + bit will 2 +
          bit (c.sessionType = .clean) 1)
        keepalive := c.keepaliveTimeout }

/-- `IOTC_MQTT_MAX_PAYLOAD_SIZE` -/
def maxPayloadSize : Nat := 1024 * 128

/-- `fill_with_publish_data` -/
def fillWithPublishData (topic : Option Bytes) (cnt : Bytes) (qos : Qos) (retain dup : Bool) (id : Nat) :
    Except IotcState Message :=
  if cnt.length > maxPayloadSize then .error .mqttPayloadSizeTooLarge
  else if topic.isNone then .error .outOfMemory
  else .ok
    { commonValue := commonBits 3 dup qos retain
      topicName := topic
      content := some cnt
      messageId := id }

/-- `fill_with_subscribe_data` -/
def fillWithSubscribeData (topic : Bytes) (msgId : Nat) (qos : Qos) (dup : Bool) : Message :=
  { commonValue := commonBits 8 dup .atLeastOnce false
    messageId := msgId
    topics := [⟨some topic, .ofNat qos.bits⟩] }

/-- `match_topics` on the topic of a subscription and that of a PUBLISH. Both lengths are held in
an `uint8_t`. -/
def matchTopics (subscription published : Bytes) : Bool :=
  let subscriptionLength := subscription.length % 256
  let publishedLength := published.length % 256
  if subscriptionLength = 0 ∨ publishedLength = 0 then false
  else if subscription[subscriptionLength - 1]? ≠ some 0x23 then
    publishedLength = subscriptionLength ∧
      subscription.take publishedLength = published.take publishedLength
  else if subscriptionLength = 1 then true
  else if subscriptionLength - 1 ≤ publishedLength then
    subscription.take (subscriptionLength - 1) = published.take (subscriptionLength - 1)
  else if subscriptionLength - 2 = publishedLength then
    subscription.take (subscriptionLength - 2) = published.take (subscriptionLength - 2)
  else false

/-- `get_error_from_connack` -/
def getErrorFromConnack (returnCode : UInt8) : IotcState :=
  match returnCode.toNat with
  | 1 => .mqttUnacceptableProtocolVersion
  | 2 => .mqttIdentifierRejected
  | 3 => .mqttServerUnavailable
  | 4 => .mqttBadUsernameOrPassword
  | 5 => .mqttNotAuthorized
  | _ => .mqttConnectUnknownReturnCode

end IotDeviceSdk.Mqtt.Logic
