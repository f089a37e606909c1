import IotDeviceSdk.EventDispatcher.Armed
import IotDeviceSdk.Mqtt.Logic.Data

/-!
# The backoff status (`iotc_backoff_status_api.c`)

The index into the tables goes up with each connection that fails, and down when the cooldown event
finds that the last one did not. The index and the number of elements are `int8_t`, the values of the
tables and of the penalty `int32_t`.

`none` is a failing assertion, an access outside of a table, an overflow of `int32_t` or a division by
zero.
-/

namespace IotDeviceSdk.Backoff

open EventDispatcher

/-! ## The penalty -/

/-- The result of an operation on `int32_t`. -/
def int32 (n : Int) : Option Int := if -2 ^ 31 ≤ n ∧ n < 2 ^ 31 then some n else none

/-- `lut->array[index].selector_t.ui32_value` -/
def entry (lut : List UInt32) (index : Int) : Option UInt32 :=
  if 0 ≤ index then lut[index.toNat]? else none

/-- `iotc_get_backoff_penalty`. `rng` is what `iotc_bsp_rng_get` returns. -/
def getBackoffPenalty (backoffLut : List UInt32) (backoffLutI : Int8) (rng : UInt32) :
    Option UInt32 := do
  let prevBackoffIndex := Int8.ofInt (max (backoffLutI.toInt - 1) 0)
  let prev ← entry backoffLut prevBackoffIndex.toInt
  let fullRange := if backoffLutI = 0 then 0 else prev.toInt32.toInt
  let base ← entry backoffLut backoffLutI.toInt
  let baseValue := base.toInt32.toInt
  let halfRange := max (fullRange.tdiv 2) 1
  let range ← int32 (fullRange + 1)
  -- the remainder is taken in `uint32_t`
  if UInt32.ofInt range = 0 then none
  else
    let randValue := (rng % UInt32.ofInt range).toInt32.toInt
    let sum ← int32 (baseValue + randValue)
    let backoffValue ← int32 (sum - halfRange)
    let first ← entry backoffLut 0
    some (UInt32.ofInt (max backoffValue first.toInt32.toInt))

/-! ## Classes -/

/-- `iotc_backoff_class_t` -/
inductive BackoffClass where
  | none
  | recoverable
  | terminal
  deriving DecidableEq, Repr

/-- `iotc_backoff_classify_state` -/
def classifyState (s : IotcState) : BackoffClass :=
  if s.isTerminal then .terminal else if s = .ok ∨ s = .written then .none else .recoverable

/-! ## The status -/

/-- A table as a vector. The length is a `size_t`, and is converted for `elem_no`. -/
structure Lut where
  array : List UInt32
  elemNo : Int8
  deriving DecidableEq, Repr

/-- `iotc_vector_create_from` -/
def Lut.createFrom (array : List UInt32) : Lut := ⟨array, Int8.ofInt array.length⟩

/-- `iotc_backoff_status_t` and the dispatcher, where the handle `next_update` is named 0. -/
structure Status where
  backoffLut : Lut
  decayLut : Lut
  backoffClass : BackoffClass
  backoffLutI : Int8
  evtd : Evtd (Option HandlePtr)

/-- The address of `next_update`. -/
def nextUpdate : HandlePtr := 0

namespace Status

/-- `next_update.ptr_to_position` is not `NULL`. -/
def pending (w : Status) : Bool := (w.evtd.timeEvents.ptrToPosition nextUpdate).isSome

/-- `iotc_restart_update_time`. `mem` and `grow` are answers of the allocator, `false` is the state of
an event that has not been scheduled. -/
def restartUpdateTime (w : Status) (mem grow : Bool) : Option (Status × Bool) := do
  let decay ← entry w.decayLut.array w.backoffLutI.toInt
  if w.pending then
    let (evtd, log) ← w.evtd.restart nextUpdate decay.toNat
    some ({ w with evtd }, !log.isEmpty)
  else
    let (evtd, log) ← w.evtd.executeIn (some nextUpdate) decay.toNat (some nextUpdate) mem grow
    some ({ w with evtd }, !log.isEmpty)

/-- The index that `iotc_inc_backoff_penalty` computes. -/
def incIndex (w : Status) : Int8 :=
  Int8.ofInt (min (w.backoffLutI.toInt + 1) (w.backoffLut.elemNo.toInt - 1))

/-- `iotc_inc_backoff_penalty` -/
def incBackoffPenalty (w : Status) (mem grow : Bool) : Option (Status × Bool) :=
  { w with backoffLutI := w.incIndex }.restartUpdateTime mem grow

/-- `iotc_dec_backoff_penalty` -/
def decBackoffPenalty (w : Status) : Status :=
  { w with backoffLutI := Int8.ofInt (max (w.backoffLutI.toInt - 1) 0) }

/-- `iotc_update_backoff_penalty` -/
def updateBackoffPenalty (w : Status) (state : IotcState) (mem grow : Bool) :
    Option (Status × Bool) :=
  let w := { w with backoffClass := classifyState state }
  match w.backoffClass with
  | .terminal | .recoverable => w.incBackoffPenalty mem grow
  | .none => some (w, true)

/-- `iotc_apply_cooldown` -/
def applyCooldown (w : Status) (mem grow : Bool) : Option (Status × Bool) :=
  if w.pending then none
  else
    let w := if w.backoffClass = .none then w.decBackoffPenalty else w
    if w.backoffLutI > 0 then w.restartUpdateTime mem grow else some (w, true)

/-- The dispatcher runs its first time event, if that is due. An event of another part of the library
has no handle here. -/
def runDue (w : Status) (mem grow : Bool) : Option (Status × Bool) :=
  match w.evtd.timeEvents.peekTop with
  | none => some (w, true)
  | some e =>
    if w.evtd.currentStep < w.evtd.timeEvents.time e then some (w, true)
    else do
      let (timeEvents, _) ← w.evtd.timeEvents.getTop
      let handler := (w.evtd.timeEvents.event e).eventHandle
      let w := { w with evtd := { w.evtd with timeEvents } }
      if handler = some nextUpdate then w.applyCooldown mem grow else some (w, true)

end Status

/-- A call of `iotc_update_backoff_penalty`, a step of the dispatcher's clock, the run of a time event,
or a time event of another part of the library. -/
inductive Event where
  | update (state : IotcState) (mem grow : Bool)
  | tick (newStep : Int)
  | runDue (mem grow : Bool)
  | other (timeDiff : Int) (mem grow : Bool)
  deriving DecidableEq, Repr

/-- A step, and whether the cooldown event has been scheduled if that was asked for. -/
def stepWith (w : Status) : Event → Option (Status × Bool)
  | .update state mem grow => w.updateBackoffPenalty state mem grow
  | .tick newStep => some ({ w with evtd := { w.evtd with currentStep := newStep } }, true)
  | .runDue mem grow => w.runDue mem grow
  | .other timeDiff mem grow =>
    (w.evtd.executeIn none timeDiff none mem grow).map fun (evtd, _) => ({ w with evtd }, true)

def step (w : Status) (e : Event) : Option Status := (stepWith w e).map Prod.fst

/-- After `iotc_backoff_configure_using_data`, on a dispatcher without events. -/
def configured (backoffLut decayLut : List UInt32) (memory : EventPtr → TimeEvent (Option HandlePtr)) :
    Status where
  backoffLut := .createFrom backoffLut
  decayLut := .createFrom decayLut
  backoffClass := .none
  backoffLutI := 0
  evtd := .create memory

end IotDeviceSdk.Backoff
