/-!
# States that the layers exchange (`iotc_error.h`, `iotc_layer.h`)
-/

namespace IotDeviceSdk

/-- `iotc_state_t`. A state that no modelled function singles out is `other` with its code. -/
inductive IotcState where
  | ok
  | timeout
  | wantRead
  | wantWrite
  | written
  | failedWriting
  | outOfMemory
  | mqttSerializerError
  | mqttParserError
  | elementNotFound
  | resend
  | other (code : Nat)
  deriving DecidableEq, Repr

/-- The numeric code. -/
def IotcState.code : IotcState → Nat
  | .ok => 0
  | .timeout => 1
  | .wantRead => 2
  | .wantWrite => 3
  | .written => 4
  | .failedWriting => 5
  | .outOfMemory => 7
  | .mqttSerializerError => 24
  | .mqttParserError => 25
  | .elementNotFound => 47
  | .resend => 60
  | .other code => code

/-- `IOTC_INVALID_PARAMETER` -/
def IotcState.invalidParameter : IotcState := .other 44

/-- `IOTC_NO_MORE_RESOURCE_AVAILABLE` -/
def IotcState.noMoreResourceAvailable : IotcState := .other 55

/-- `IOTC_MAX` on states. -/
def IotcState.max (a b : IotcState) : IotcState := if a.code > b.code then a else b

/-- `iotc_layer_state_t` -/
inductive LayerState where
  | none
  | connecting
  | connected
  | closing
  | closed
  deriving DecidableEq, Repr

/-- `IOTC_THIS_LAYER_NOT_OPERATIONAL` -/
def LayerState.notOperational (s : LayerState) : Bool := s = .closing || s = .closed

/-- `get_next_layer_state` for a call of `close`. -/
def LayerState.afterClose : LayerState → LayerState
  | .connected => .closing
  | s => s

/-- The bytes of an `iotc_data_desc_t`. -/
abbrev Bytes := List UInt8

end IotDeviceSdk
