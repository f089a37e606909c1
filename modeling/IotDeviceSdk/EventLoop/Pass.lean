import Mathlib.Algebra.GroupWithZero.Nat
import IotDeviceSdk.EventDispatcher.Sockets

/-!
# One round of the event loop (`iotc_event_loop.c`)

The sockets of all dispatchers are put into one array, the array is polled, and the sockets of all
dispatchers are gone through once more to hand out what was reported. Handlers run in between: those
of the files while the array is filled, those of the sockets while the results are handed out.

What a handler does is a list of operations on the containers. The log says which handlers were run
and which sockets were unregistered. A failed assertion, or an index outside the array, is `none`.
-/

namespace IotDeviceSdk.EventLoop

open EventDispatcher

/-- A socket of a dispatcher: the place of the dispatcher and the descriptor. -/
abbrev SocketKey := Nat × Fd

/-- What a handler does to the sockets of a dispatcher. -/
inductive Operation (H : Type) where
  | register (evtd : Nat) (fd : Fd) (readHandle : H) (mem grow : Bool)
  | unregister (evtd : Nat) (fd : Fd)
  | continueWhen (evtd : Nat) (eventType : EventType) (handle : H) (fd : Fd)
  deriving DecidableEq, Repr

inductive Entry (H : Type) where
  | ran (socket : SocketKey) (handle : H)
  | unregistered (socket : SocketKey)
  deriving DecidableEq, Repr

/-- `iotc_bsp_socket_events_t`, with the dispatcher it was made for, which nobody reads. Nothing is
wanted of a socket whose entry was not filled. -/
structure SocketEvents where
  evtd : Nat
  iotcSocket : Fd
  want : Option EventType
  /-- some `out_` flag is set -/
  ready : Bool
  deriving DecidableEq, Repr

variable {H : Type}

/-! ## Handlers -/

/-- One operation, with what is logged of it. -/
def operate (evtds : List (Sockets H)) : Operation H → Option (List (Sockets H) × List (Entry H))
  | .register evtd fd readHandle mem grow =>
    (evtds[evtd]?).bind fun v => (v.register fd readHandle mem grow).map fun v =>
      (evtds.set evtd v, [])
  | .unregister evtd fd =>
    (evtds[evtd]?).map fun v => (evtds.set evtd (v.unregister fd),
      if (v.find fd).isSome then [.unregistered (evtd, fd)] else [])
  | .continueWhen evtd eventType handle fd =>
    (evtds[evtd]?).map fun v =>
      (evtds.set evtd ((v.continueWhenEvtOnSocket eventType handle fd).getD v), [])

/-- What a handler does. -/
def operations (evtds : List (Sockets H)) :
    List (Operation H) → Option (List (Sockets H) × List (Entry H))
  | [] => some (evtds, [])
  | op :: ops =>
    (operate evtds op).bind fun r => (operations r.1 ops).map fun s => (s.1, r.2 ++ s.2)

/-! ## Filling the array -/

/-- `iotc_bsp_event_loop_count_all_sockets` -/
def countAllSockets (evtds : List (Sockets H)) : Nat :=
  (evtds.map fun v => v.elemNo).sum

/-- What filling the array leaves. -/
structure Filled (H : Type) where
  evtds : List (Sockets H)
  array : List SocketEvents
  log : List (Entry H)

/-- The entries of the array for the dispatcher at `evtd`. -/
def socketsToUpdate (evtd : Nat) (v : Sockets H) : List SocketEvents :=
  v.array.map fun t => ⟨evtd, t.fd, some t.eventType, false⟩

/-- `iotc_bsp_event_loop_transform_to_bsp_select` for the dispatchers from `evtd` on, with `length`
entries in the array. `files` is what the file handles of each dispatcher do. -/
def transformToBspSelect (length : Nat) :
    Nat → Nat → List (List (Operation H)) → Filled H → Option (Filled H)
  | 0, _, _, f => some f
  | k + 1, evtd, files, f =>
    (f.evtds[evtd]?).bind fun v =>
      let array := f.array ++ socketsToUpdate evtd v
      if array.length > length then none
      else (operations f.evtds (files.headD [])).bind fun r =>
        transformToBspSelect length k (evtd + 1) files.tail ⟨r.1, array, f.log ++ r.2⟩

/-- `iotc_bsp_io_net_select`, which reports any of the sockets of which something is wanted. -/
def select (array : List SocketEvents) (ready : List Bool) : List SocketEvents :=
  List.zipWith (fun e r => { e with ready := r && e.want.isSome }) array
    (ready ++ List.replicate array.length false)

/-! ## Handing out the results -/

/-- Where the update is: the containers, the dispatcher and the index that come next, and the log. -/
structure Pass (H : Type) where
  evtds : List (Sockets H)
  evtdId : Nat
  i : Nat
  log : List (Entry H)

/-- The next tuple of the dispatchers `vs`, the first of which is at `evtd`, from the index `i`. -/
def nextTuple : List (Sockets H) → Nat → Nat → Option (Nat × Nat × FdTuple H)
  | [], _, _ => none
  | v :: vs, evtd, i =>
    match v.array[i]? with
    | some t => some (evtd, i, t)
    | none => nextTuple vs (evtd + 1) 0

namespace Pass

/-- The tuple that the two loops come to. -/
def next (p : Pass H) : Option (Nat × Nat × FdTuple H) :=
  nextTuple (p.evtds.drop p.evtdId) p.evtdId p.i

/-- The end of the loop body, at the tuple `i` of the dispatcher `evtdId`. -/
def advance (p : Pass H) (evtdId i : Nat) : Pass H := { p with evtdId := evtdId, i := i + 1 }

/-- `iotc_evtd_update_event_on_socket`, whose handle does `ops`. -/
def deliver (p : Pass H) (evtdId : Nat) (fd : Fd) (ops : List (Operation H)) : Option (Pass H) :=
  (p.evtds[evtdId]?).bind fun v => (v.updateEvent fd).bind fun u =>
    (operations (p.evtds.set evtdId u.2) ops).map fun r =>
      { p with evtds := r.1, log := p.log ++ .ran (evtdId, fd) u.1 :: r.2 }

end Pass

/-- `iotc_bsp_event_loop_update_event_dispatcher`, from the entries `array` of the array on. `script`
is what the handles do that are run. -/
def updateEventDispatcher :
    List SocketEvents → List (List (Operation H)) → Pass H → Option (Pass H)
  | array, script, p =>
    match p.next with
    | none => some p
    | some (evtdId, i, t) =>
      match array with
      | [] => none
      | e :: array =>
        if t.fd ≠ e.iotcSocket then none
        else if e.ready then
          (p.deliver evtdId e.iotcSocket (script.headD [])).bind fun p =>
            updateEventDispatcher array script.tail (p.advance evtdId i)
        else updateEventDispatcher array script (p.advance evtdId i)

/-- The array that was polled: the entries that were filled and the others. -/
def polled (f : Filled H) (length : Nat) (ready : List Bool) : List SocketEvents :=
  select (f.array ++ List.replicate (length - f.array.length) ⟨0, 0, none, false⟩) ready

/-- One round: `files` and `script` are what the handles do, `ready` is what is reported. -/
def round (evtds : List (Sockets H)) (files : List (List (Operation H))) (ready : List Bool)
    (script : List (List (Operation H))) : Option (Pass H) :=
  let length := countAllSockets evtds
  (transformToBspSelect length evtds.length 0 files ⟨evtds, [], []⟩).bind fun f =>
    updateEventDispatcher (polled f length ready) script ⟨f.evtds, 0, 0, f.log⟩

end IotDeviceSdk.EventLoop
