import IotDeviceSdk.Mqtt.Message

/-!
# MQTT packets

What a packet is, and its bytes, apart from any parser. A `Frame` is a fixed header and as many
bytes as its remaining length says; a `Packet` is a frame whose bytes are the fields of its type.
`Packet.message` is the message with these fields.
-/

namespace IotDeviceSdk.Mqtt

/-! ## Fields -/

/-- Two bytes, the high one first. -/
structure Word where
  hi : UInt8
  lo : UInt8
  deriving DecidableEq, Repr

def Word.toNat (w : Word) : Nat := w.hi.toNat * 256 + w.lo.toNat

def Word.bytes (w : Word) : Bytes := [w.hi, w.lo]

/-- A string: its length in two bytes and its text. -/
structure Str where
  length : Word
  text : Bytes
  valid : text.length = length.toNat

def Str.bytes (s : Str) : Bytes := s.length.hi :: s.length.lo :: s.text

/-- The bytes of a field that may be left out. -/
def optBytes : Option Str → Bytes
  | none => []
  | some s => s.bytes

/-- The bytes of the topic and the message of a will. -/
def willBytes : Option (Str × Str) → Bytes
  | none => []
  | some will => will.1.bytes ++ will.2.bytes

/-- The remaining length that at most `n` bytes say: seven bits each, the low ones first, the
highest bit set in all of them but the last. -/
def decodeLength : Nat → Bytes → Option Nat
  | 0, _ => none
  | _ + 1, [] => none
  | n + 1, b :: bs =>
    if b ≥ 0x80 then (decodeLength n bs).map (b.toNat % 128 + 128 * ·)
    else if bs = [] then some b.toNat
    else none

/-! ## Contents -/

/-- The variable header and the payload. `ack` is that of PUBACK, PUBREC, PUBREL, PUBCOMP and
UNSUBACK, and `empty` that of PINGREQ, PINGRESP and DISCONNECT. -/
inductive Content where
  | connect (protocolName : Str) (version flags : UInt8) (keepalive : Word) (clientId : Str)
      (will : Option (Str × Str)) (username password : Option Str)
  | connack (unused returnCode : UInt8)
  | publish (topic : Str) (id : Option Word) (payload : Bytes)
  | ack (id : Word)
  | subscribe (id : Word) (topic : Str × UInt8) (more : List (Str × UInt8))
  | suback (id : Word) (code : UInt8) (more : List UInt8)
  | unsubscribe (id : Word) (topic : Str) (more : List Str)
  | empty

namespace Content

/-- The bytes that the remaining length counts. -/
def bytes : Content → Bytes
  | connect protocolName version flags keepalive clientId will username password =>
    protocolName.bytes ++ version :: flags :: keepalive.hi :: keepalive.lo ::
      (clientId.bytes ++ (willBytes will ++ (optBytes username ++ optBytes password)))
  | connack unused returnCode => [unused, returnCode]
  | publish topic id payload => topic.bytes ++ (id.elim [] Word.bytes ++ payload)
  | ack id => id.bytes
  | subscribe id topic more =>
    id.bytes ++ (topic :: more).flatMap fun t => t.1.bytes ++ [t.2]
  | suback id code more => id.bytes ++ code :: more
  | unsubscribe id topic more => id.bytes ++ (topic :: more).flatMap Str.bytes
  | empty => []

/-- The return codes of a SUBACK. -/
def subackCodes : List UInt8 := [0x00, 0x01, 0x02, 0x80]

/-- The content is one that a fixed header with this first byte announces. -/
def Fits (header : Message) : Content → Prop
  | connect _ _ flags _ _ will username password =>
    header.type = .connect ∧
      will.isSome = { header with flagsValue := flags }.will ∧
      username.isSome = { header with flagsValue := flags }.usernameFollows ∧
      password.isSome = { header with flagsValue := flags }.passwordFollows
  | connack _ _ => header.type = .connack
  | publish _ id _ => header.type = .publish ∧ id.isSome = decide (header.qos > 0)
  | ack _ =>
    header.type = .puback ∨ header.type = .pubrec ∨ header.type = .pubrel ∨
      header.type = .pubcomp ∨ header.type = .unsuback
  | subscribe _ _ _ => header.type = .subscribe
  | suback _ code more => header.type = .suback ∧ ∀ c ∈ code :: more, c ∈ subackCodes
  | unsubscribe _ _ _ => header.type = .unsubscribe
  | empty => header.type = .pingreq ∨ header.type = .pingresp ∨ header.type = .disconnect

/-- The message with the fields of the content. -/
def message (header : Message) : Content → Message
  | connect protocolName version flags keepalive clientId will username password =>
    { header with
      protocolName := some protocolName.text
      protocolVersion := version
      flagsValue := flags
      keepalive := keepalive.toNat
      clientId := some clientId.text
      willTopic := will.map fun w => w.1.text
      willMessage := will.map fun w => w.2.text
      username := username.map Str.text
      password := password.map Str.text }
  | connack unused returnCode => { header with unused, returnCode }
  | publish topic id payload =>
    { header with
      topicName := some topic.text
      messageId := id.elim 0 Word.toNat
      content := if payload = [] then none else some payload }
  | ack id => { header with messageId := id.toNat }
  | subscribe id topic more =>
    { header with
      messageId := id.toNat
      topics := (topic :: more).map fun t => ⟨some t.1.text, t.2⟩ }
  | suback id code more =>
    { header with messageId := id.toNat, topics := (code :: more).map (⟨none, ·⟩) }
  | unsubscribe id topic more =>
    { header with
      messageId := id.toNat
      topics := (topic :: more).map fun t => ⟨some t.text, 0⟩ }
  | empty => header

/-- The last string of a CONNECT. -/
def lastString (clientId : Str) (will : Option (Str × Str)) (username password : Option Str) : Str :=
  password.getD (username.getD (will.elim clientId Prod.snd))

/-- The content ends with a field without any bytes: the last string of a CONNECT, or the payload
of a PUBLISH that has no id. -/
def endsEmpty : Content → Bool
  | connect _ _ _ _ clientId will username password =>
    (lastString clientId will username password).text = []
  | publish _ id payload => id = none && payload = []
  | _ => false

/-- The content has at most one topic or return code. -/
def single : Content → Bool
  | subscribe _ _ more => more.isEmpty
  | suback _ _ more => more.isEmpty
  | _ => true

/-- The content with the first topic or return code only. -/
def firstOnly : Content → Content
  | subscribe id topic _ => subscribe id topic []
  | suback id code _ => suback id code []
  | c => c

/-- The bytes of the topics and return codes after the first. -/
def furtherBytes : Content → Bytes
  | subscribe _ _ more => more.flatMap fun t => t.1.bytes ++ [t.2]
  | suback _ _ more => more
  | _ => []

end Content

/-! ## Frames and packets -/

/-- A fixed header, and as many bytes as its remaining length says. -/
structure Frame where
  first : UInt8
  lengthBytes : Bytes
  body : Bytes
  valid : decodeLength 4 lengthBytes = some body.length

namespace Frame

def bytes (f : Frame) : Bytes := f.first :: (f.lengthBytes ++ f.body)

/-- The message with the fields of the fixed header. -/
def header (f : Frame) : Message := { commonValue := f.first, remainingLength := f.body.length }

end Frame

/-- A frame whose body consists of the fields of its type. -/
structure Packet extends Frame where
  content : Content
  body_eq : body = content.bytes
  fits : content.Fits toFrame.header

/-- The message that the packet is. -/
def Packet.message (p : Packet) : Message := p.content.message p.header

/-- The parser has a branch for the packet: for the types UNSUBSCRIBE and UNSUBACK it has none, and
those of SUBSCRIBE and SUBACK read one topic or return code. -/
def Packet.parsed (p : Packet) : Bool :=
  p.content.single && p.header.type ≠ .unsubscribe && p.header.type ≠ .unsuback

end IotDeviceSdk.Mqtt
