import Mathlib.Algebra.Order.Group.Int
import IotDeviceSdk.Mqtt.Message

/-!
# The parser (`iotc_mqtt_parser.c`)

`iotc_mqtt_parser_execute` is a coroutine: it returns `WANT_READ` where the buffer ends and is
resumed there with the next one. Its body is written here as a list of statements for each packet
type, and what `cs` remembers is the list of those that are still to be executed, the one that
yielded first.

* The buffer is the list of the bytes from `curr_pos` on.
* `local_state` of `iotc_mqtt_parser_execute` is a `static` variable: it belongs to no parser, and
  is an argument and a result here.
* Buffers are not empty, so that a resumed statement finds a byte. Allocations succeed.
-/

namespace IotDeviceSdk.Mqtt

/-- `iotc_mqtt_error_t`, as far as the parser sets it. -/
inductive MqttError where
  | none
  | parserInvalidRemainingLength
  | parserInvalidMessageId
  deriving DecidableEq, Repr

/-- The strings that are read into a message. -/
inductive StringField where
  | protocolName
  | clientId
  | willTopic
  | willMessage
  | username
  | password
  | topicName
  | subscribeName
  deriving DecidableEq, Repr

namespace Message

/-- What the descriptor of a string points to. -/
def field (m : Message) : StringField → Option Bytes
  | .protocolName => m.protocolName
  | .clientId => m.clientId
  | .willTopic => m.willTopic
  | .willMessage => m.willMessage
  | .username => m.username
  | .password => m.password
  | .topicName => m.topicName
  | .subscribeName => m.topics.head?.bind TopicPair.name

/-- The message with the bytes of a string's descriptor. The topics of a SUBSCRIBE are allocated
before their name is read. -/
def setField (m : Message) (bytes : Bytes) : StringField → Message
  | .protocolName => { m with protocolName := some bytes }
  | .clientId => { m with clientId := some bytes }
  | .willTopic => { m with willTopic := some bytes }
  | .willMessage => { m with willMessage := some bytes }
  | .username => { m with username := some bytes }
  | .password => { m with password := some bytes }
  | .topicName => { m with topicName := some bytes }
  | .subscribeName =>
    { m with topics := { m.topics.headD ⟨none, 0⟩ with name := some bytes } :: m.topics.tail }

end Message

/-! ## Statements -/

/-- A statement of the body. A `guard` is the condition of the `if` around it. -/
inductive Stmt where
  /-- `IOTC_CR_YIELD_ON` the end of the buffer -/
  | yieldOn
  /-- the same, then one byte is stored and `curr_pos` and `data_length` go up -/
  | byte (guard : Message → Bool) (store : UInt8 → Message → Message)
  /-- `READ_STRING` -/
  | string (guard : Message → Bool) (into : StringField)
  /-- an assignment that reads nothing -/
  | set (f : Message → Message)
  /-- `parser->str_length = (parser->remaining_length + 2) - parser->data_length` -/
  | strLength
  /-- `READ_DATA` of the content, when `str_length` is not zero -/
  | data
  /-- `iotc_mqtt_parse_suback_response` on one byte -/
  | status

/-- The high byte of `message_id`. -/
def messageIdHi : Stmt := .byte (fun _ => true) fun b m => { m with messageId := b.toNat * 256 }

/-- The low byte of `message_id`. -/
def messageIdLo : Stmt := .byte (fun _ => true) fun b m => { m with messageId := m.messageId + b.toNat }

/-- `IOTC_ALLOC_AT(iotc_mqtt_topicpair_t, topics, ..)` -/
def allocTopics : Stmt := .set fun m => { m with topics := [{ name := none, payload := 0 }] }

/-- The branch of `IOTC_MQTT_TYPE_CONNECT`. -/
def connectStmts : List Stmt :=
  [.string (fun _ => true) .protocolName,
    .byte (fun _ => true) fun b m => { m with protocolVersion := b },
    .byte (fun _ => true) fun b m => { m with flagsValue := b },
    .byte (fun _ => true) fun b m => { m with keepalive := b.toNat * 256 },
    .byte (fun _ => true) fun b m => { m with keepalive := m.keepalive + b.toNat },
    .string (fun _ => true) .clientId,
    .string Message.will .willTopic,
    .string Message.will .willMessage,
    .string Message.usernameFollows .username,
    .string Message.passwordFollows .password]

/-- The branch of `IOTC_MQTT_TYPE_CONNACK`. -/
def connackStmts : List Stmt :=
  [.byte (fun _ => true) fun b m => { m with unused := b },
    .byte (fun _ => true) fun b m => { m with returnCode := b }]

/-- The branch of `IOTC_MQTT_TYPE_PUBLISH`. -/
def publishStmts : List Stmt :=
  [.yieldOn,
    .string (fun _ => true) .topicName,
    .yieldOn,
    .byte (fun m => m.qos > 0) fun b m => { m with messageId := b.toNat * 256 },
    .byte (fun m => m.qos > 0) fun b m => { m with messageId := m.messageId + b.toNat },
    .strLength,
    .data]

/-- The branch of `IOTC_MQTT_TYPE_PUBACK`. -/
def pubackStmts : List Stmt := [messageIdHi, messageIdLo]

/-- The branch of `IOTC_MQTT_TYPE_PUBREC`. -/
def pubrecStmts : List Stmt := [messageIdHi, messageIdLo]

/-- The branch of `IOTC_MQTT_TYPE_PUBREL`. -/
def pubrelStmts : List Stmt := [messageIdHi, messageIdLo]

/-- The branch of `IOTC_MQTT_TYPE_PUBCOMP`. -/
def pubcompStmts : List Stmt := [messageIdHi, messageIdLo]

/-- The branch of `IOTC_MQTT_TYPE_SUBSCRIBE`. -/
def subscribeStmts : List Stmt :=
  [messageIdHi, messageIdLo,
    .yieldOn,
    allocTopics,
    .string (fun _ => true) .subscribeName,
    .byte (fun _ => true) fun b m => { m with topics := m.topics.modifyHead ({ · with payload := b }) }]

/-- The branch of `IOTC_MQTT_TYPE_SUBACK`. -/
def subackStmts : List Stmt :=
  [messageIdHi, messageIdLo, .yieldOn, allocTopics, .status]

/-- The branches of `iotc_mqtt_parser_execute` by the type. `none` is the last one. -/
def stmts : MqttType → Option (List Stmt)
  | .connect => some connectStmts
  | .connack => some connackStmts
  | .publish => some publishStmts
  | .puback => some pubackStmts
  | .pubrec => some pubrecStmts
  | .pubrel => some pubrelStmts
  | .pubcomp => some pubcompStmts
  | .subscribe => some subscribeStmts
  | .suback => some subackStmts
  | .pingreq | .pingresp => some []
  | .disconnect => some []
  | _ => none

/-! ## The state -/

/-- `cs`: where the coroutine goes on. -/
inductive Cs where
  | start
  /-- at the first byte, the buffer being empty -/
  | commonValue
  /-- in the loop over the remaining length -/
  | remainingLength
  /-- at the first of these statements -/
  | body (k : List Stmt)
  | exit

/-- `read_cs`: where `read_string` and `read_data` go on. Each takes a label of the other, like any
value that is not one of its own labels, for its start. -/
inductive ReadCs where
  | start
  | stringFirst
  | stringSecond
  | stringBody
  | stringLoop
  | dataBody
  | dataLoop
  | reset
  deriving DecidableEq, Repr

/-- `iotc_mqtt_parser_t` -/
structure Parser where
  error : MqttError
  cs : Cs
  readCs : ReadCs
  digitBytes : Nat
  multiplier : Nat
  remainingLength : Nat
  strLength : Nat
  dataLength : Nat

/-- `iotc_mqtt_parser_init` -/
def parserInit : Parser where
  error := .none
  cs := .start
  readCs := .start
  digitBytes := 0
  multiplier := 0
  remainingLength := 0
  strLength := 0
  dataLength := 0

/-- The difference of two `size_t`. -/
def sizeSub (a b : Nat) : Nat := (((a : Int) - b) % 2 ^ 64).toNat

/-! ## Strings and data -/

/-- What `read_string` and `read_data` return, with the parser, the descriptor and the buffer they
leave: `OK`, or `WANT_READ` when not `done`. -/
structure ReadResult where
  done : Bool
  parser : Parser
  dst : Bytes
  src : Bytes

/-- The loop that `read_string` and `read_data` share. Either the buffer or what is to be read ends
with the first round, so that there is only one before it yields or returns. `read_string` also
counts in `data_length`. -/
def readLoop (label : ReadCs) (counts : Bool) (p : Parser) (dst src : Bytes) : ReadResult :=
  let toRead := sizeSub p.strLength dst.length
  let lenToRead := min toRead src.length
  let dataLength := if counts then p.dataLength + lenToRead else p.dataLength
  if toRead - lenToRead > 0 then
    ⟨false, { p with readCs := label, dataLength }, dst ++ src.take lenToRead, src.drop lenToRead⟩
  else
    ⟨true, { p with readCs := .start, dataLength }, dst ++ src.take lenToRead, src.drop lenToRead⟩

/-- `read_string` after the length. -/
def readStringBody (p : Parser) (dst : Bytes) : Bytes → ReadResult
  | [] => ⟨false, { p with readCs := .stringBody }, dst, []⟩
  | b :: src => readLoop .stringLoop true p dst (b :: src)

/-- `read_string` from the second byte of the length on. -/
def readStringSecond (p : Parser) (dst : Bytes) : Bytes → ReadResult
  | [] => ⟨false, { p with readCs := .stringSecond }, dst, []⟩
  | b :: src =>
    readStringBody
      { p with strLength := p.strLength + b.toNat, dataLength := p.dataLength + 1 } dst src

/-- `read_string` from its start on. -/
def readStringFirst (p : Parser) (dst : Bytes) : Bytes → ReadResult
  | [] => ⟨false, { p with readCs := .stringFirst }, dst, []⟩
  | b :: src =>
    readStringSecond { p with strLength := b.toNat * 256, dataLength := p.dataLength + 1 } dst src

/-- `read_string`. A descriptor that is not there yet is made, empty. -/
def readString (p : Parser) (dst : Option Bytes) (src : Bytes) : ReadResult :=
  match p.readCs with
  | .stringSecond => readStringSecond p (dst.getD []) src
  | .stringBody => readLoop .stringLoop true p (dst.getD []) src
  | .stringLoop => readLoop .stringLoop true p (dst.getD []) src
  | _ => readStringFirst p (dst.getD []) src

/-- `read_data` from its start on. -/
def readDataBody (p : Parser) (dst : Bytes) : Bytes → ReadResult
  | [] => ⟨false, { p with readCs := .dataBody }, dst, []⟩
  | b :: src => readLoop .dataLoop false p dst (b :: src)

/-- `read_data` -/
def readData (p : Parser) (dst : Option Bytes) (src : Bytes) : ReadResult :=
  match p.readCs with
  | .dataBody => readLoop .dataLoop false p (dst.getD []) src
  | .dataLoop => readLoop .dataLoop false p (dst.getD []) src
  | _ => readDataBody p (dst.getD []) src

/-- `iotc_mqtt_parse_suback_response`: the states that a SUBACK may report. -/
def parseSubackResponse (resp : UInt8) : Bool :=
  resp = 0x00 || resp = 0x01 || resp = 0x02 || resp = 0x80

/-! ## The coroutine -/

/-- What `iotc_mqtt_parser_execute` returns, with what it leaves behind. -/
structure Outcome where
  state : IotcState
  parser : Parser
  message : Message
  src : Bytes
  localState : IotcState

/-- One call of `read_string` or `read_data` in `READ_STRING` or `READ_DATA`: it goes on behind the
macro or yields in it. -/
def afterRead (next : Parser → Message → Bytes → IotcState → Outcome) (here : List Stmt)
    (m : Message) (r : ReadResult) : Outcome :=
  if r.done then next r.parser m r.src .ok
  else ⟨.wantRead, { r.parser with cs := .body here }, m, r.src, .wantRead⟩

/-- The statements from the first one on. -/
def exec : List Stmt → Parser → Message → Bytes → IotcState → Outcome
  | [], p, m, src, ls => ⟨.ok, { p with cs := .exit }, m, src, ls⟩
  | .yieldOn :: k, p, m, src, ls =>
    if src = [] then ⟨.wantRead, { p with cs := .body (.yieldOn :: k) }, m, src, ls⟩
    else exec k p m src ls
  | .byte guard store :: k, p, m, src, ls =>
    if guard m then
      match src with
      | [] => ⟨.wantRead, { p with cs := .body (.byte guard store :: k) }, m, [], ls⟩
      | b :: src => exec k { p with dataLength := p.dataLength + 1 } (store b m) src ls
    else exec k p m src ls
  | .string guard into :: k, p, m, src, ls =>
    if guard m then
      let r := readString p (m.field into) src
      afterRead (exec k) (.string guard into :: k) (m.setField r.dst into) r
    else exec k p m src ls
  | .set f :: k, p, m, src, ls => exec k p (f m) src ls
  | .strLength :: k, p, m, src, ls =>
    exec k { p with strLength := sizeSub (p.remainingLength + 2) p.dataLength } m src ls
  | .data :: k, p, m, src, ls =>
    if p.strLength > 0 then
      let r := readData p m.content src
      afterRead (exec k) (.data :: k) { m with content := some r.dst } r
    else exec k p m src ls
  | .status :: k, p, m, src, ls =>
    match src with
    | [] => ⟨.wantRead, { p with cs := .body (.status :: k) }, m, [], ls⟩
    | b :: src =>
      if parseSubackResponse b then
        exec k { p with dataLength := p.dataLength + 1 }
          { m with topics := m.topics.modifyHead ({ · with payload := b }) } src .ok
      else ⟨.mqttParserError, { p with cs := .exit }, m, b :: src, .mqttParserError⟩

/-- The statements from the one that yielded on. In `READ_STRING` and `READ_DATA` the coroutine
comes back to the condition of the macro's loop, which looks at `local_state`. -/
def resume : List Stmt → Parser → Message → Bytes → IotcState → Outcome
  | .yieldOn :: k, p, m, src, ls => exec k p m src ls
  | .string guard into :: k, p, m, src, ls =>
    if ls = .ok then exec k p m src ls
    else
      let r := readString p (m.field into) src
      afterRead (exec k) (.string guard into :: k) (m.setField r.dst into) r
  | .data :: k, p, m, src, ls =>
    if ls = .ok then exec k p m src ls
    else
      let r := readData p m.content src
      afterRead (exec k) (.data :: k) { m with content := some r.dst } r
  | k, p, m, src, ls => exec k p m src ls

/-- From the end of the remaining length on. -/
def afterLength (p : Parser) (m : Message) (src : Bytes) (ls : IotcState) : Outcome :=
  let m := { m with remainingLength := p.remainingLength }
  let p := { p with dataLength := p.dataLength + 1 }
  match stmts m.type with
  | some k => exec k p m src ls
  | none =>
    ⟨.mqttParserError, { p with error := .parserInvalidMessageId, readCs := .reset, cs := .exit }, m,
      src, ls⟩

/-- The loop over the bytes of the remaining length, from its `IOTC_CR_YIELD_ON` on. -/
def lengthLoop (p : Parser) (m : Message) : Bytes → IotcState → Outcome
  | [], ls => ⟨.wantRead, { p with cs := .remainingLength }, m, [], ls⟩
  | b :: src, ls =>
    let p := { p with
      remainingLength := p.remainingLength + b.toNat % 128 * p.multiplier
      multiplier := p.multiplier * 128 }
    if b ≥ 0x80 ∧ p.digitBytes < 4 then
      lengthLoop { p with digitBytes := p.digitBytes + 1 } m src ls
    else if b ≥ 0x80 then
      ⟨.mqttParserError, { p with error := .parserInvalidRemainingLength, cs := .exit }, m, b :: src,
        ls⟩
    else afterLength p m src ls

/-- From the first byte on. -/
def firstByte (p : Parser) (m : Message) : Bytes → IotcState → Outcome
  | [], ls => ⟨.wantRead, { p with cs := .commonValue }, m, [], ls⟩
  | b :: src, ls =>
    lengthLoop
      { p with digitBytes := 1, multiplier := 1, remainingLength := 0, dataLength := 1 }
      { m with commonValue := b } src ls

/-- `iotc_mqtt_parser_execute` -/
def execute (p : Parser) (m : Message) (src : Bytes) (localState : IotcState) : Outcome :=
  match p.cs with
  | .commonValue => firstByte p m src localState
  | .remainingLength => lengthLoop p m src localState
  | .body k => resume k p m src localState
  | _ => firstByte p m src .ok

end IotDeviceSdk.Mqtt
