import IotDeviceSdk.Datastructures.Handle
import IotDeviceSdk.Infra.Heap

/-!
# Contexts and the globals they share (`iotc.c`, `iotc_globals.c`)

The globals are made for the first context and released with the last one; `globals_ref_count`, a
`uint8_t`, is to count the contexts. A block of the heap stands for one allocation, and the records
below name the blocks they consist of. The thread module is disabled, so that there is no thread
pool and a critical section allocates nothing. Nothing here schedules the cool-down event of the
back-off, so that `iotc_cancel_backoff_event` finds none. A failed assertion and a `NULL` that is
dereferenced are `none`.
-/

namespace IotDeviceSdk.Context

open Datastructures Infra

/-- The length of the layer chain, and `IOTC_MAX_NUM_CONTEXTS`. -/
structure Config where
  layerChainSize : Nat
  maxNumContexts : Nat
  layerChainSize_ge : 2 ≤ layerChainSize

/-! ## Vectors -/

/-- The blocks of an `iotc_vector_t`. The array of an unmanaged vector is not on the heap. -/
structure VectorBlocks where
  vector : Ptr
  array : Option Ptr
  deriving DecidableEq, Repr

def VectorBlocks.blocks (v : VectorBlocks) : List Ptr := v.array.toList ++ [v.vector]

/-- `iotc_vector_create` -/
def vectorCreate (m : Heap) : Option VectorBlocks × Heap :=
  match m.alloc with
  | (none, m) => (none, m)
  | (some ret, m) =>
    match m.alloc with
    | (none, m) => (none, m.free ret)
    | (some array, m) => (some ⟨ret, some array⟩, m)

/-- `iotc_vector_create_from` for an unmanaged array. -/
def vectorCreateFrom (m : Heap) : Option VectorBlocks × Heap :=
  match m.alloc with
  | (none, m) => (none, m)
  | (some ret, m) => (some ⟨ret, none⟩, m)

/-- `iotc_vector_destroy` -/
def vectorDestroy (v : VectorBlocks) (m : Heap) : Heap := m.freeAll v.blocks

/-! ## The parts of the globals -/

/-- `iotc_evtd_evtdt` -/
structure EvtdInstance where
  evtd : Ptr
  timeEventsContainer : VectorBlocks
  handlesAndSocketFd : VectorBlocks
  handlesAndFileFd : VectorBlocks
  deriving DecidableEq, Repr

/-- `iotc_evtd_create_instance`. The error exit frees the structure only. -/
def evtdCreateInstance (m : Heap) : Option EvtdInstance × Heap :=
  match m.alloc with
  | (none, m) => (none, m)
  | (some evtd, m) =>
    match vectorCreate m with
    | (none, m) => (none, m.free evtd)
    | (some timeEvents, m) =>
      match vectorCreate m with
      | (none, m) => (none, m.free evtd)
      | (some sockets, m) =>
        match vectorCreate m with
        | (none, m) => (none, m.free evtd)
        | (some files, m) => (some ⟨evtd, timeEvents, sockets, files⟩, m)

/-- The blocks of a dispatcher, in the order in which `iotc_evtd_destroy_instance` frees them. -/
def EvtdInstance.blocks (e : EvtdInstance) : List Ptr :=
  e.handlesAndFileFd.blocks ++ e.handlesAndSocketFd.blocks ++ e.timeEventsContainer.blocks ++
    [e.evtd]

/-- `iotc_evtd_destroy_instance` -/
def evtdDestroyInstance (e : Option EvtdInstance) (m : Heap) : Heap :=
  match e with
  | none => m
  | some e => m.freeAll e.blocks

/-- `iotc_backoff_status_t`, with the vectors that are allocated. -/
structure BackoffStatus where
  backoffLut : Option VectorBlocks
  decayLut : Option VectorBlocks
  deriving DecidableEq, Repr

def BackoffStatus.blocks (b : BackoffStatus) : List Ptr :=
  (b.backoffLut.map VectorBlocks.blocks).getD [] ++ (b.decayLut.map VectorBlocks.blocks).getD []

/-- `iotc_backoff_release_luts` -/
def backoffReleaseLuts (b : BackoffStatus) (m : Heap) : BackoffStatus × Heap :=
  (⟨none, none⟩, m.freeAll b.blocks)

/-- `iotc_backoff_configure_using_data`, for the static tables. -/
def backoffConfigureUsingData (b : BackoffStatus) (m : Heap) : IotcState × BackoffStatus × Heap :=
  let (b, m) := backoffReleaseLuts b m
  match vectorCreateFrom m with
  | (none, m) => (.outOfMemory, b, m)
  | (some lut, m) =>
    match vectorCreateFrom m with
    | (none, m) => (.outOfMemory, ⟨some lut, none⟩, m)
    | (some decay, m) => (.ok, ⟨some lut, some decay⟩, m)

/-- `iotc_timed_task_container_t` -/
structure TimedTaskContainer where
  container : Ptr
  timedTasksVector : Option VectorBlocks
  deriving DecidableEq, Repr

/-- `iotc_make_timed_task_container`. The vector is not looked at. -/
def makeTimedTaskContainer (m : Heap) : Option TimedTaskContainer × Heap :=
  match m.alloc with
  | (none, m) => (none, m)
  | (some container, m) =>
    let (vector, m) := vectorCreate m
    (some ⟨container, vector⟩, m)

/-- `iotc_destroy_timed_task_container` -/
def destroyTimedTaskContainer (t : Option TimedTaskContainer) (m : Heap) : Option Heap :=
  match t with
  | none => none
  | some t => t.timedTasksVector.map fun v => (vectorDestroy v m).free t.container

/-- The context handles: their blocks and the vector. -/
structure HandleTable where
  blocks : VectorBlocks
  slots : Handles Ptr
  deriving DecidableEq, Repr

/-- A registration asks for a new array. -/
def HandleTable.mustGrow (t : HandleTable) (maxObjectCnt : Nat) : Prop :=
  none ∉ t.slots.array ∧ t.slots.elemNo < maxObjectCnt ∧ t.slots.grows

instance (t : HandleTable) (maxObjectCnt : Nat) : Decidable (t.mustGrow maxObjectCnt) :=
  inferInstanceAs (Decidable (_ ∧ _))

/-- `iotc_register_handle_for_object`. The old array is freed when the vector has grown. -/
def HandleTable.register (t : HandleTable) (maxObjectCnt : Nat) (object : Ptr) (m : Heap) :
    Option HandleTable × Heap :=
  if t.mustGrow maxObjectCnt then
    match m.alloc with
    | (none, m) =>
      ((t.slots.registerHandleForObject maxObjectCnt object false).map fun v =>
        { t with slots := v }, m)
    | (some array, m) =>
      ((t.slots.registerHandleForObject maxObjectCnt object true).map fun v =>
        ⟨⟨t.blocks.vector, some array⟩, v⟩, m.freeAll t.blocks.array.toList)
  else
    ((t.slots.registerHandleForObject maxObjectCnt object false).map fun v =>
      { t with slots := v }, m)

/-- `iotc_globals_t`, with the fields that contexts share. -/
structure Globals where
  globalsRefCount : Nat
  evtdInstance : Option EvtdInstance
  backoffStatus : BackoffStatus
  contextHandlesVector : Option HandleTable
  timedTasksContainer : Option TimedTaskContainer
  deriving DecidableEq, Repr

/-- `iotc_globals` before the first call. -/
def Globals.initial : Globals := ⟨0, none, ⟨none, none⟩, none, none⟩

/-- The blocks of the globals. -/
def Globals.blocks (g : Globals) : List Ptr :=
  (g.evtdInstance.map EvtdInstance.blocks).getD [] ++ g.backoffStatus.blocks ++
    (g.contextHandlesVector.map fun t => t.blocks.blocks).getD [] ++
    (g.timedTasksContainer.map fun t =>
      (t.timedTasksVector.map VectorBlocks.blocks).getD [] ++ [t.container]).getD []

/-- The contexts that have a handle. -/
def Globals.registered (g : Globals) : List Ptr :=
  (g.contextHandlesVector.map fun t => t.slots.objects).getD []

/-! ## Contexts -/

/-- `iotc_context_t`. `evtdInstance` is the structure of the dispatcher it uses. -/
structure IotcContext where
  context : Ptr
  ioTimeouts : VectorBlocks
  evtdInstance : Option Ptr
  layerChain : List Ptr
  deriving DecidableEq, Repr

def IotcContext.blocks (x : IotcContext) : List Ptr :=
  x.layerChain ++ (x.ioTimeouts.blocks ++ [x.context])

/-- The globals, the contexts that exist, and the heap. -/
structure World where
  globals : Globals
  contexts : List IotcContext
  heap : Heap
  deriving DecidableEq, Repr

def World.initial : World := ⟨.initial, [], ⟨[], 0, []⟩⟩

/-- `iotc_layer_create` for each layer of the chain: all of them are requested. -/
def layersCreate : Nat → Heap → List (Option Ptr) × Heap
  | 0, m => ([], m)
  | n + 1, m =>
    let (layer, m) := m.alloc
    let (layers, m) := layersCreate n m
    (layer :: layers, m)

/-- `iotc_layer_chain_create`. Linking the layers dereferences each one. -/
def layerChainCreate (length : Nat) (m : Heap) : Option (List Ptr × Heap) :=
  let (layers, m) := layersCreate length m
  if layers.all Option.isSome then some (layers.filterMap id, m) else none

/-- The block of `iotc_create_context_with_custom_layers_and_evtd` for the first reference: whether
it runs to its end, or the state with which it leaves for the error exit. The result of
`iotc_backoff_configure_using_data` is not kept in `state`. -/
def createGlobals (g : Globals) (m : Heap) : Option IotcState × Globals × Heap :=
  let (evtd, m) := evtdCreateInstance m
  let g := { g with evtdInstance := evtd }
  match backoffConfigureUsingData g.backoffStatus m with
  | (.ok, b, m) =>
    let g := { g with backoffStatus := b }
    if evtd.isNone then (some .outOfMemory, g, m)
    else
      let (handles, m) := vectorCreate m
      let (container, m) := makeTimedTaskContainer m
      (none, { g with contextHandlesVector := handles.map fun v => ⟨v, .create⟩
                      timedTasksContainer := container }, m)
  | (_, b, m) => (some .ok, { g with backoffStatus := b }, m)

/-- The rest of `iotc_create_context_with_custom_layers_and_evtd`, once the globals are there: the
state, and what `*context` is. The error exit frees the context and nothing else. -/
def newContext (c : Config) (eventDispatcher : Option Ptr) (w : World) :
    Option ((IotcState × Option Ptr) × World) :=
  match w.heap.alloc with
  | (none, m) => some ((.outOfMemory, none), { w with heap := m })
  | (some context, m) =>
    match vectorCreate m with
    | (none, m) => some ((.outOfMemory, none), { w with heap := m.free context })
    | (some ioTimeouts, m) =>
      (layerChainCreate c.layerChainSize m).bind fun (layerChain, m) =>
      w.globals.contextHandlesVector.bind fun t =>
      match t.register c.maxNumContexts context m with
      | (none, m) => some ((.noMoreResourceAvailable, none), { w with heap := m.free context })
      | (some t, m) =>
        let evtd := eventDispatcher.or (w.globals.evtdInstance.map EvtdInstance.evtd)
        some ((.ok, some context),
          ⟨{ w.globals with contextHandlesVector := some t },
            ⟨context, ioTimeouts, evtd, layerChain⟩ :: w.contexts, m⟩)

/-- `iotc_create_context_with_custom_layers_and_evtd`, for a caller that has a place for the
context. -/
def createContextWithCustomLayersAndEvtd (c : Config) (eventDispatcher : Option Ptr) (w : World) :
    Option ((IotcState × Option Ptr) × World) :=
  let g := { w.globals with globalsRefCount := (w.globals.globalsRefCount + 1) % 256 }
  if g.globalsRefCount = 1 then
    match createGlobals g w.heap with
    | (some state, g, m) => some ((state, none), { w with globals := g, heap := m })
    | (none, g, m) => newContext c eventDispatcher { w with globals := g, heap := m }
  else newContext c eventDispatcher { w with globals := g }

/-- `iotc_create_context`: the handle, or the state with its sign changed. -/
def createContext (c : Config) (w : World) : Option (Int × World) :=
  (createContextWithCustomLayersAndEvtd c none w).bind fun ((state, context), w) =>
  if state ≠ .ok then some (-(state.code : Int), w)
  else w.globals.contextHandlesVector.map fun t =>
    match t.slots.find context with
    | some handle => ((handle : Int), w)
    | none => (-(IotcState.elementNotFound.code : Int), w)

/-- What `iotc_delete_context_with_custom_layers` releases with the last reference. -/
def releaseGlobals (g : Globals) (m : Heap) : Option (Globals × Heap) :=
  let (b, m) := backoffReleaseLuts g.backoffStatus m
  let m := evtdDestroyInstance g.evtdInstance m
  g.contextHandlesVector.bind fun t =>
  (destroyTimedTaskContainer g.timedTasksContainer (vectorDestroy t.blocks m)).map fun m =>
    ({ g with evtdInstance := none, backoffStatus := b, contextHandlesVector := none,
              timedTasksContainer := none }, m)

/-- `iotc_delete_context_with_custom_layers`, for the whole chain of the context. -/
def deleteContextWithCustomLayers (w : World) (context : Option Ptr) : Option (IotcState × World) :=
  match context with
  | none => some (.invalidParameter, w)
  | some context =>
    w.globals.contextHandlesVector.bind fun t =>
    match t.slots.deleteHandleForObject context with
    | none => some (.elementNotFound, w)
    | some slots =>
      (w.contexts.find? fun x => x.context = context).bind fun x =>
      let contexts := w.contexts.erase x
      let m := ((w.heap.freeAll x.layerChain).freeAll x.ioTimeouts.blocks).free context
      let g : Globals := { w.globals with
        contextHandlesVector := some { t with slots := slots }
        globalsRefCount := (w.globals.globalsRefCount + 255) % 256 }
      if g.globalsRefCount = 0 then
        (releaseGlobals g m).map fun (g, m) => (.ok, ⟨g, contexts, m⟩)
      else some (.ok, ⟨g, contexts, m⟩)

/-- `iotc_delete_context` -/
def deleteContext (w : World) (contextHandle : Int) : Option (IotcState × World) :=
  w.globals.contextHandlesVector.bind fun t =>
  match t.slots.objectForHandle contextHandle with
  | none => none
  | some context => deleteContextWithCustomLayers w (some context)

/-! ## Sequences of calls -/

/-- A call, with the answers of the allocator. -/
inductive Call where
  | createContext (answers : List Bool)
  | createContextWithCustomLayersAndEvtd (eventDispatcher : Option Ptr) (answers : List Bool)
  | deleteContext (contextHandle : Int)
  | deleteContextWithCustomLayers (context : Option Ptr)
  deriving DecidableEq, Repr

/-- The heap as the allocator will answer the next requests. -/
def World.answering (w : World) (answers : List Bool) : World :=
  { w with heap := { w.heap with answers := answers } }

/-- The world after a call. -/
def step (c : Config) (w : World) : Call → Option World
  | .createContext answers => (createContext c (w.answering answers)).map Prod.snd
  | .createContextWithCustomLayersAndEvtd eventDispatcher answers =>
    (createContextWithCustomLayersAndEvtd c eventDispatcher (w.answering answers)).map Prod.snd
  | .deleteContext contextHandle => (deleteContext w contextHandle).map Prod.snd
  | .deleteContextWithCustomLayers context => (deleteContextWithCustomLayers w context).map Prod.snd

end IotDeviceSdk.Context
