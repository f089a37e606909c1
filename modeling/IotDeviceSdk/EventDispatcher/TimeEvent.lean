import IotDeviceSdk.Base
import IotDeviceSdk.Datastructures.Vector

/-!
# Time events (`iotc_time_event.c`)

The container is a vector of pointers to time events, kept sorted by the time of execution. Each
time event stores its own index in `position`, and a handle is a pointer to that field: this is
how `restart` and `cancel` find an event without a search.

* A time event is named by an `EventPtr`, a handle by a `HandlePtr`; `event` and `ptrToPosition`
  are the memory behind them.
* `none` is a failed assertion or a dereference of `NULL`.
* Times are `int64_t` in C, where an overflow is undefined; here they are integers.
-/

namespace IotDeviceSdk.EventDispatcher

open Datastructures

/-- The address of an `iotc_time_event_t`. -/
abbrev EventPtr := Nat

/-- The address of an `iotc_time_event_handle_t`. -/
abbrev HandlePtr := Nat

/-- `iotc_time_event_t` -/
structure TimeEvent (H : Type) where
  eventHandle : H
  timeOfExecution : Int
  position : Int
  timeEventHandle : Option HandlePtr

/-- The container together with the memory its operations read and write. -/
structure TimeEvents (H : Type) where
  container : IotcVector EventPtr
  event : EventPtr → TimeEvent H
  ptrToPosition : HandlePtr → Option EventPtr

namespace TimeEvents

variable {H : Type}

/-- `vector->array` -/
def array (c : TimeEvents H) : List EventPtr := c.container.array

/-- `time_event->time_of_execution` -/
def time (c : TimeEvents H) (e : EventPtr) : Int := (c.event e).timeOfExecution

/-- `vector->array[index]`, under the asserted bounds on the index. -/
def at? (c : TimeEvents H) (index : Int) : Option EventPtr :=
  if 0 ≤ index then c.array[index.toNat]? else none

/-- `time_event->position = position` -/
def setPosition (c : TimeEvents H) (e : EventPtr) (position : Int) : TimeEvents H :=
  { c with event := Function.update c.event e { c.event e with position } }

/-- `time_event->time_of_execution = newTime` -/
def setTime (c : TimeEvents H) (e : EventPtr) (newTime : Int) : TimeEvents H :=
  { c with event := Function.update c.event e { c.event e with timeOfExecution := newTime } }

/-- The zeroed block that `iotc_evtd_execute_in` allocates and fills in before it adds it. -/
def newEvent (c : TimeEvents H) (e : EventPtr) (eventHandle : H) (timeOfExecution : Int) :
    TimeEvents H :=
  { c with event := Function.update c.event e ⟨eventHandle, timeOfExecution, 0, none⟩ }

/-! ## Moving events -/

/-- `iotc_swap_time_events` -/
def swapTimeEvents (c : TimeEvents H) (lhsIndex rhsIndex : Int) : Option (TimeEvents H) := do
  let lhs ← c.at? lhsIndex
  let rhs ← c.at? rhsIndex
  let swapped := { c with container := c.container.swapElems lhsIndex.toNat rhsIndex.toNat }
  return (swapped.setPosition lhs rhsIndex).setPosition rhs lhsIndex

/-- The direction of bubbling: `-1` is `down`, `+1` is `up`. -/
inductive Dir where
  | down
  | up
  deriving DecidableEq, Repr

/-- `elem_to_bubble + dir` -/
def Dir.next : Dir → Nat → Nat
  | .down, index => index - 1
  | .up, index => index + 1

/-- The comparison that says that the bubbled event and its neighbour are not in order. -/
def Dir.misplaced : Dir → Int → Int → Bool
  | .down, toBubble, toCmp => toBubble < toCmp
  | .up, toBubble, toCmp => toBubble > toCmp

/-- How many elements lie between the bubbled one and the guard of the loop. -/
def Dir.distance : Dir → Nat → Nat → Nat
  | .down, index, _ => index
  | .up, index, elemNo => elemNo - 1 - index

/-- The loop of `iotc_time_event_bubble_core`, the distance to the guard first. -/
def bubbleLoop (dir : Dir) : Nat → TimeEvents H → Nat → Option (TimeEvents H × Nat)
  | 0, c, index => some (c, index)
  | n + 1, c, index => do
    let toCmp ← c.array[dir.next index]?
    let toBubble ← c.array[index]?
    if dir.misplaced (c.time toBubble) (c.time toCmp) then
      let c' ← c.swapTimeEvents (c.event toCmp).position (c.event toBubble).position
      bubbleLoop dir n c' (dir.next index)
    else
      return (c, index)

/-- `iotc_time_event_bubble_core`, with the new index of the bubbled event. -/
def bubbleCore (c : TimeEvents H) (index : Nat) (dir : Dir) : Option (TimeEvents H × Int) := do
  let (c', i) ← bubbleLoop dir (dir.distance index c.container.elemNo) c index
  let toBubble ← c'.array[i]?
  return (c', (c'.event toBubble).position)

/-- `iotc_time_event_bubble_and_sort_down` -/
def bubbleAndSortDown (c : TimeEvents H) (index : Nat) : Option (TimeEvents H × Int) :=
  c.bubbleCore index .down

/-- `iotc_time_event_bubble_and_sort_up` -/
def bubbleAndSortUp (c : TimeEvents H) (index : Nat) : Option (TimeEvents H × Int) :=
  c.bubbleCore index .up

/-- The loop of `iotc_time_event_move_to_the_end`, the distance to the last index first. -/
def moveLoop : Nat → TimeEvents H → Nat → Option (TimeEvents H)
  | 0, c, _ => some c
  | n + 1, c, index => do
    let c' ← c.swapTimeEvents index (index + 1 : Nat)
    moveLoop n c' (index + 1)

/-- `iotc_time_event_move_to_the_end` -/
def moveToTheEnd (c : TimeEvents H) (index : Nat) : Option (TimeEvents H) :=
  moveLoop (c.container.elemNo - 1 - index) c index

/-- `iotc_time_event_dispose_time_event` -/
def disposeTimeEvent (c : TimeEvents H) (e : EventPtr) : TimeEvents H :=
  match (c.event e).timeEventHandle with
  | some h => { c with ptrToPosition := Function.update c.ptrToPosition h none }
  | none => c

/-- `iotc_vector_del` of the last element. -/
def delLast (c : TimeEvents H) : TimeEvents H :=
  { c with container := c.container.del (c.container.elemNo - 1) }

/-! ## The operations -/

/-- The address of the element that `iotc_insert_time_event` returns, as an index. -/
inductive Inserted (H : Type) where
  | null (c : TimeEvents H)
  | elem (c : TimeEvents H) (index : Int)

/-- `iotc_insert_time_event` -/
def insertTimeEvent (c : TimeEvents H) (e : EventPtr) (mem : Bool) : Option (Inserted H) :=
  match c.container.push e mem with
  | none => some (.null c)
  | some pushed => do
    let last := pushed.elemNo - 1
    let (c', index) ← (TimeEvents.setPosition { c with container := pushed } e last).bubbleAndSortDown last
    return .elem c' index

/-- What `iotc_time_event_add` does with `ret_time_event_handle`: the handle and the event point to
each other. -/
def setHandle (c : TimeEvents H) : Option HandlePtr → EventPtr → TimeEvents H
  | none, _ => c
  | some h, e =>
    { c with
      ptrToPosition := Function.update c.ptrToPosition h (some e)
      event := Function.update c.event e { c.event e with timeEventHandle := some h } }

/-- `iotc_time_event_add` -/
def add (c : TimeEvents H) (e : EventPtr) (handle : Option HandlePtr) (mem : Bool) :
    Option (TimeEvents H × IotcState) := do
  guard (handle.all fun h => (c.ptrToPosition h).isNone)
  match ← c.insertTimeEvent e mem with
  | .null c' => return (c', .outOfMemory)
  | .elem c' index =>
    let added ← c'.at? index
    guard (added = e)
    return (c'.setHandle handle added, .ok)

/-- `iotc_time_event_peek_top` -/
def peekTop (c : TimeEvents H) : Option EventPtr := c.array.head?

/-- `iotc_time_event_get_top`. The inner `none` is the `NULL` of an empty container. -/
def getTop (c : TimeEvents H) : Option (TimeEvents H × Option EventPtr) :=
  match c.array with
  | [] => some (c, none)
  | topOne :: _ => do
    let c' ← (if c.container.elemNo > 1 then c.moveToTheEnd 0 else some c)
    return (c'.delLast.disposeTimeEvent topOne, some topOne)

/-- `iotc_time_event_restart` -/
def restart (c : TimeEvents H) (handle : HandlePtr) (newTime : Int) :
    Option (TimeEvents H × IotcState) := do
  let pointed ← c.ptrToPosition handle
  let index := (c.event pointed).position
  if index ≥ c.container.elemNo ∨ index < 0 then
    return (c, .elementNotFound)
  else
    let e ← c.at? index
    guard ((c.event e).timeEventHandle = some handle)
    let oldTime := c.time e
    let c₁ := c.setTime e newTime
    let (c₂, _) ← (if newTime < oldTime then c₁.bubbleAndSortDown index.toNat
      else c₁.bubbleAndSortUp index.toNat)
    return (c₂, .ok)

/-- `iotc_time_event_cancel`, with the event it hands back. -/
def cancel (c : TimeEvents H) (handle : HandlePtr) :
    Option (TimeEvents H × Option EventPtr × IotcState) := do
  let pointed ← c.ptrToPosition handle
  let index := (c.event pointed).position
  if index ≥ c.container.elemNo ∨ index < 0 then
    return (c, none, .elementNotFound)
  else
    let c₁ ← (if index < (c.container.elemNo : Int) - 1 then c.moveToTheEnd index.toNat
      else some c)
    let cancelled ← c₁.array.getLast?
    return (c₁.delLast.disposeTimeEvent cancelled, some cancelled, .ok)

end TimeEvents

end IotDeviceSdk.EventDispatcher
