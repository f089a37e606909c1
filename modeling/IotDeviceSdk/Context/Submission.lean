import IotDeviceSdk.Context.Globals
import IotDeviceSdk.Mqtt.Logic.Submitted

/-!
# Publishing and subscribing (`iotc.c`)

`iotc_publish`, `iotc_publish_data` and `iotc_subscribe` make a task and queue an event for it. When
the event runs, the control topic layer queues another one, and with that the task arrives at the
logic layer.

* A descriptor of two blocks holds the payload, and a task owns all blocks that it is made of.
* A call that fails should free what it has allocated. That is so before the payload is in a task,
  and not after that; and the copy of the topic is not checked.
* `submission_truthful_iff` says when the result of a call is what has become of its task.

A failed assertion is `none`, and so is the release of a block that is not allocated.
-/

namespace IotDeviceSdk.Submission

open Datastructures Infra Mqtt.Logic

/-! ## Descriptors -/

/-- `iotc_data_desc_t` of a buffer that it owns. -/
structure DataDesc where
  desc : Ptr
  dataPtr : Ptr
  content : Bytes
  deriving DecidableEq, Repr

/-- A descriptor with a copy of these bytes. -/
def makeDescCopy (content : Bytes) (m : Heap) : Option (Option DataDesc × Heap) :=
  match m.alloc with
  | (none, m) => some (none, m)
  | (some desc, m) =>
    match m.alloc with
    | (none, m) => (m.release desc).map fun m => (none, m)
    | (some dataPtr, m) => some (some ⟨desc, dataPtr, content⟩, m)

/-- `iotc_make_desc_from_string_copy` -/
def makeDescFromStringCopy (str : Bytes) (m : Heap) : Option (Option DataDesc × Heap) :=
  makeDescCopy str m

/-- `iotc_make_desc_from_buffer_copy` -/
def makeDescFromBufferCopy (buffer : Bytes) (m : Heap) : Option (Option DataDesc × Heap) :=
  makeDescCopy buffer m

/-- `iotc_free_desc` -/
def freeDesc (d : DataDesc) (m : Heap) : Option Heap :=
  (m.release d.dataPtr).bind fun m => m.release d.desc

/-! ## Tasks -/

/-- A task that a call has made, with the blocks that it owns. -/
structure UserTask where
  request : World.Request
  blocks : List Ptr
  deriving DecidableEq, Repr

/-- `iotc_mqtt_logic_make_publish_task`. Nobody looks at what `iotc_str_dup` returns for the topic. -/
def makePublishTask (topic : Bytes) (data : DataDesc) (qos : Qos) (retain : Bool)
    (callback : UserHandle) (m : Heap) : Option (Option UserTask × Heap) :=
  match m.alloc with
  | (none, m) => some (none, m)
  | (some task, m) =>
    match m.alloc with
    | (none, m) => (m.release task).map fun m => (none, m)
    | (some dataU, m) =>
      let (copy, m) := m.alloc
      some (some
        { request := .publish (copy.map fun _ => topic) data.content qos retain (some callback)
          blocks := copy.toList ++ [dataU, task, data.dataPtr, data.desc] }, m)

/-- `iotc_mqtt_logic_make_subscribe_task`. The topic is that of the caller. -/
def makeSubscribeTask (topic : Ptr) (name : Bytes) (qos : Qos) (handler : UserHandle) (m : Heap) :
    Option (Option UserTask × Heap) :=
  match m.alloc with
  | (none, m) => some (none, m)
  | (some task, m) =>
    match m.alloc with
    | (none, m) => (m.release task).map fun m => (none, m)
    | (some dataU, m) =>
      some (some { request := .subscribe name qos handler, blocks := [dataU, task, topic] }, m)

/-! ## The calls -/

/-- `iotc_backoff_class_t` -/
inductive BackoffClass where
  | none
  | recoverable
  | terminal
  deriving DecidableEq, Repr

/-- What the calls read of the globals. -/
structure Shared where
  contextHandles : Handles Ptr
  backoffClass : BackoffClass

/-- `IOTC_INVALID_CONTEXT_HANDLE` -/
def invalidContextHandle : Int := -1

/-- The handle of `iotc_default_client_callback`. -/
def defaultClientCallback : UserHandle := 0

/-- The result of a call, the event that it has queued with its task, and the heap. -/
structure Submitted where
  result : IotcState
  event : Option (Ptr × UserTask)
  heap : Heap
  deriving DecidableEq, Repr

/-- `IOTC_PROCESS_PUSH_ON_THIS_LAYER` on the top layer. -/
def pushOnThisLayer (task : UserTask) (m : Heap) : Submitted :=
  match m.alloc with
  | (none, m) => ⟨.outOfMemory, none, m⟩
  | (some event, m) => ⟨.ok, some (event, task), m⟩

/-- `iotc_publish_data_impl`. Its `err_handling` finds no task, and leaves the data where they are. -/
def publishDataImpl (s : Shared) (iotcH : Int) (topic : Bytes) (data : DataDesc) (qos : Qos)
    (callback : Option UserHandle) (m : Heap) : Option Submitted :=
  if invalidContextHandle < iotcH ∧ (s.contextHandles.objectForHandle iotcH).isSome then
    if s.backoffClass ≠ .none then (freeDesc data m).map fun m => ⟨.backoffTerminal, none, m⟩
    else
      (makePublishTask topic data qos false (callback.getD defaultClientCallback) m).map
        fun (task, m) =>
          match task with
          | none => ⟨.outOfMemory, none, m⟩
          | some task => pushOnThisLayer task m
  else none

/-- `iotc_publish` -/
def publish (s : Shared) (iotcH : Int) (topic msg : Bytes) (qos : Qos)
    (callback : Option UserHandle) (m : Heap) : Option Submitted :=
  (makeDescFromStringCopy msg m).bind fun (data, m) =>
    match data with
    | none => some ⟨.outOfMemory, none, m⟩
    | some data => publishDataImpl s iotcH topic data qos callback m

/-- `iotc_publish_data` -/
def publishData (s : Shared) (iotcH : Int) (topic data : Bytes) (qos : Qos)
    (callback : Option UserHandle) (m : Heap) : Option Submitted :=
  if data.length = 0 then none
  else
    (makeDescFromBufferCopy data m).bind fun (data, m) =>
      match data with
      | none => some ⟨.outOfMemory, none, m⟩
      | some data => publishDataImpl s iotcH topic data qos callback m

/-- `iotc_subscribe`, for a topic and a callback that are not `NULL`. -/
def subscribeTo (s : Shared) (iotcH : Int) (topic : Bytes) (qos : Qos) (callback : UserHandle)
    (m : Heap) : Option Submitted :=
  if (s.contextHandles.objectForHandle iotcH).isNone then some ⟨.outOfMemory, none, m⟩
  else if s.backoffClass ≠ .none then some ⟨.backoffTerminal, none, m⟩
  else
    match m.alloc with
    | (none, m) => some ⟨.outOfMemory, none, m⟩
    | (some internalTopic, m) =>
      (makeSubscribeTask internalTopic topic qos callback m).bind fun (task, m) =>
        match task with
        | none => (m.release internalTopic).map fun m => ⟨.outOfMemory, none, m⟩
        | some task => some (pushOnThisLayer task m)

/-- `iotc_subscribe` -/
def subscribe (s : Shared) (iotcH : Int) (topic : Option Bytes) (qos : Qos)
    (callback : Option UserHandle) (m : Heap) : Option Submitted :=
  match topic, callback with
  | some topic, some callback =>
    if iotcH = invalidContextHandle then some ⟨.invalidParameter, none, m⟩
    else subscribeTo s iotcH topic qos callback m
  | _, _ => some ⟨.invalidParameter, none, m⟩

/-- A call of a user. -/
inductive Call where
  | publish (iotcH : Int) (topic msg : Bytes) (qos : Qos) (callback : Option UserHandle)
  | publishData (iotcH : Int) (topic data : Bytes) (qos : Qos) (callback : Option UserHandle)
  | subscribe (iotcH : Int) (topic : Option Bytes) (qos : Qos) (callback : Option UserHandle)
  deriving DecidableEq, Repr

namespace Call

def run (s : Shared) (m : Heap) : Call → Option Submitted
  | publish iotcH topic msg qos callback => Submission.publish s iotcH topic msg qos callback m
  | publishData iotcH topic data qos callback =>
    Submission.publishData s iotcH topic data qos callback m
  | subscribe iotcH topic qos callback => Submission.subscribe s iotcH topic qos callback m

/-! ## What is asked of a call -/

/-- The preconditions that the calls assert. -/
def Precondition (s : Shared) : Call → Prop
  | publish iotcH .. =>
    invalidContextHandle < iotcH ∧ (s.contextHandles.objectForHandle iotcH).isSome = true
  | publishData iotcH _ data _ _ =>
    (invalidContextHandle < iotcH ∧ (s.contextHandles.objectForHandle iotcH).isSome = true) ∧
      data.length ≠ 0
  | subscribe .. => True

instance (s : Shared) : DecidablePred (Precondition s) := fun c => by
  cases c <;> unfold Precondition <;> infer_instance

/-- The task that the user asks for, with its topic and its payload. -/
def request : Call → Option World.Request
  | publish _ topic msg qos callback =>
    some (.publish (some topic) msg qos false (some (callback.getD defaultClientCallback)))
  | publishData _ topic data qos callback =>
    some (.publish (some topic) data qos false (some (callback.getD defaultClientCallback)))
  | subscribe _ (some topic) qos (some callback) => some (.subscribe topic qos callback)
  | subscribe .. => none

end Call

/-- How the event of a call is delivered: whether `iotc_control_topic_layer_push` gets the memory to
pass the task on, and the logic layer in which it arrives then. -/
structure Arrival where
  passed : Bool
  layer : Mqtt.Logic.World
  oracle : World.Oracle

/-- The task arrives as the user has asked for it, and the logic layer owns it, or has run it and told
the user. -/
def Arrival.Accepts (a : Arrival) (c : Call) (e : Option (Ptr × UserTask)) : Prop :=
  ∃ event task, e = some (event, task) ∧ c.request = some task.request ∧ a.passed = true ∧
    ∃ w, a.layer.step (.submit task.request, a.oracle) = some w ∧
      w.Owns (task.request.task a.layer.nextTask)

/-- The result is what has become of the task: after `OK` the logic layer gets it, and after anything
else there is no task, and what has been allocated is free again. -/
def Submitted.Truthful (r : Submitted) (m : Heap) (c : Call) (a : Arrival) : Prop :=
  (r.result = .ok → a.Accepts c r.event) ∧
    (r.result ≠ .ok → r.event = none ∧ r.heap.blocks.Perm m.blocks)

/-- **The call returns, with the truth about its task.** -/
def Call.Truthful (s : Shared) (m : Heap) (c : Call) (a : Arrival) : Prop :=
  ∃ r, c.run s m = some r ∧ r.Truthful m c a

/-! ## When the calls are truthful -/

namespace Call

/-- The call fails while all it has allocated is what its error exits free. -/
def FailsEarly (s : Shared) (m : Heap) : Call → Prop
  | publish .. | publishData .. => ¬m.Granted 2 ∨ s.backoffClass ≠ .none
  | subscribe iotcH topic _ callback =>
    topic = none ∨ callback = none ∨ iotcH = invalidContextHandle ∨
      s.contextHandles.objectForHandle iotcH = none ∨ s.backoffClass ≠ .none ∨ ¬m.Granted 3

/-- How many blocks the call asks for: those of the task with its data, and its event. -/
def requests : Call → Nat
  | publish .. | publishData .. => 6
  | subscribe .. => 4

/-- The call gets all its memory, and the logic layer keeps the task. -/
def Succeeds (m : Heap) (c : Call) (a : Arrival) : Prop :=
  m.Granted c.requests ∧ a.passed = true ∧ ∃ q, c.request = some q ∧ a.layer.Keeps a.oracle q

end Call

/-! ## What the calls allocate -/

variable {s : Shared} {m : Heap} {qs : List Ptr}

theorem makeDescCopy_spec (content : Bytes) (m : Heap) :
    (∃ m', makeDescCopy content m = some (none, m') ∧ m'.blocks = m.blocks ∧ ¬m.Granted 2) ∨
      ∃ d m', makeDescCopy content m = some (some d, m') ∧ d.content = content ∧
        m'.blocks = d.dataPtr :: d.desc :: m.blocks ∧ ∀ k, m.Granted (k + 2) ↔ m'.Granted k := by
  unfold makeDescCopy
  rcases m.alloc_cases with ⟨m₁, h₁, hb₁, hg₁⟩ | ⟨m₁, h₁, hb₁, hg₁⟩
  · rw [h₁]
    dsimp only
    rcases m₁.alloc_cases with ⟨m₂, h₂, hb₂, hg₂⟩ | ⟨m₂, h₂, hb₂, hg₂⟩
    · rw [h₂]
      refine .inr ⟨_, m₂, rfl, rfl, by rw [hb₂, hb₁], fun k => (hg₁ (k + 1)).trans (hg₂ k)⟩
    · rw [h₂]
      obtain ⟨m₃, h₃, hb₃⟩ := Heap.release_head (hb₂.trans hb₁)
      dsimp only
      rw [h₃]
      exact .inl ⟨m₃, rfl, hb₃, fun h => hg₂ 0 ((hg₁ 1).mp h)⟩
  · rw [h₁]
    exact .inl ⟨m₁, rfl, hb₁, hg₁ 1⟩

theorem freeDesc_spec {d : DataDesc} (h : m.blocks = d.dataPtr :: d.desc :: qs) :
    ∃ m', freeDesc d m = some m' ∧ m'.blocks = qs := by
  obtain ⟨m₁, h₁, hb₁⟩ := Heap.release_head h
  obtain ⟨m₂, h₂, hb₂⟩ := Heap.release_head hb₁
  exact ⟨m₂, by rw [freeDesc, h₁, Option.bind_some, h₂], hb₂⟩

/-- There is no task, or there is one, with its topic only if there was memory for that. -/
theorem makePublishTask_spec (topic : Bytes) (data : DataDesc) (qos : Qos) (retain : Bool)
    (callback : UserHandle) (m : Heap) :
    (∃ m', makePublishTask topic data qos retain callback m = some (none, m') ∧
        m'.blocks = m.blocks ∧ ¬m.Granted 2) ∨
      ∃ copy task m', makePublishTask topic data qos retain callback m = some (some task, m') ∧
        task.request = .publish copy data.content qos retain (some callback) ∧
        m.blocks.length < m'.blocks.length ∧
        (copy = some topic ∧ (∀ k, m.Granted (k + 3) ↔ m'.Granted k) ∨
          copy = none ∧ ∀ k, ¬m.Granted (k + 3)) := by
  unfold makePublishTask
  rcases m.alloc_cases with ⟨m₁, h₁, hb₁, hg₁⟩ | ⟨m₁, h₁, hb₁, hg₁⟩
  · rw [h₁]
    dsimp only
    rcases m₁.alloc_cases with ⟨m₂, h₂, hb₂, hg₂⟩ | ⟨m₂, h₂, hb₂, hg₂⟩
    · rw [h₂]
      dsimp only
      rcases m₂.alloc_cases with ⟨m₃, h₃, hb₃, hg₃⟩ | ⟨m₃, h₃, hb₃, hg₃⟩
      · rw [h₃]
        have hlength : m.blocks.length < m₃.blocks.length := by
          simp only [hb₃, hb₂, hb₁, List.length_cons]
          omega
        refine .inr ⟨some topic, _, m₃, rfl, rfl, hlength,
          .inl ⟨rfl, fun k => ?_⟩⟩
        exact (hg₁ (k + 2)).trans ((hg₂ (k + 1)).trans (hg₃ k))
      · rw [h₃]
        have hlength : m.blocks.length < m₃.blocks.length := by
          simp only [hb₃, hb₂, hb₁, List.length_cons]
          omega
        refine .inr ⟨none, _, m₃, rfl, rfl, hlength,
          .inr ⟨rfl, fun k h => hg₃ k ?_⟩⟩
        exact (hg₂ (k + 1)).mp ((hg₁ (k + 2)).mp h)
    · rw [h₂]
      obtain ⟨m₃, h₃, hb₃⟩ := Heap.release_head (hb₂.trans hb₁)
      dsimp only
      rw [h₃]
      exact .inl ⟨m₃, rfl, hb₃, fun h => hg₂ 0 ((hg₁ 1).mp h)⟩
  · rw [h₁]
    exact .inl ⟨m₁, rfl, hb₁, hg₁ 1⟩

theorem makeSubscribeTask_spec (topic : Ptr) (name : Bytes) (qos : Qos) (handler : UserHandle)
    (m : Heap) :
    (∃ m', makeSubscribeTask topic name qos handler m = some (none, m') ∧
        m'.blocks = m.blocks ∧ ¬m.Granted 2) ∨
      ∃ task m', makeSubscribeTask topic name qos handler m = some (some task, m') ∧
        task.request = .subscribe name qos handler ∧ m.blocks.length < m'.blocks.length ∧
        ∀ k, m.Granted (k + 2) ↔ m'.Granted k := by
  unfold makeSubscribeTask
  rcases m.alloc_cases with ⟨m₁, h₁, hb₁, hg₁⟩ | ⟨m₁, h₁, hb₁, hg₁⟩
  · rw [h₁]
    dsimp only
    rcases m₁.alloc_cases with ⟨m₂, h₂, hb₂, hg₂⟩ | ⟨m₂, h₂, hb₂, hg₂⟩
    · rw [h₂]
      have hlength : m.blocks.length < m₂.blocks.length := by
        simp only [hb₂, hb₁, List.length_cons]
        omega
      exact .inr ⟨_, m₂, rfl, rfl, hlength, fun k => (hg₁ (k + 1)).trans (hg₂ k)⟩
    · rw [h₂]
      obtain ⟨m₃, h₃, hb₃⟩ := Heap.release_head (hb₂.trans hb₁)
      dsimp only
      rw [h₃]
      exact .inl ⟨m₃, rfl, hb₃, fun h => hg₂ 0 ((hg₁ 1).mp h)⟩
  · rw [h₁]
    exact .inl ⟨m₁, rfl, hb₁, hg₁ 1⟩

/-- The event takes the task, or is refused the memory. -/
theorem pushOnThisLayer_cases (task : UserTask) (m : Heap) :
    (∃ event m', pushOnThisLayer task m = ⟨.ok, some (event, task), m'⟩ ∧ m.Granted 1) ∨
      ∃ m', pushOnThisLayer task m = ⟨.outOfMemory, none, m'⟩ ∧ m'.blocks = m.blocks ∧
        ¬m.Granted 1 := by
  unfold pushOnThisLayer
  rcases m.alloc_cases with ⟨m', h, -, hg⟩ | ⟨m', h, hb, hg⟩
  · rw [h]
    exact .inl ⟨m.next, m', rfl, (hg 0).mpr fun b hb => by simp at hb⟩
  · rw [h]
    exact .inr ⟨m', rfl, hb, hg 0⟩

/-! ## The end of a call -/

variable {c : Call} {a : Arrival} {r : Submitted}

/-- The call fails and gives everything back. -/
theorem Submitted.truthful_of_freed (hr : r.result ≠ .ok) (he : r.event = none)
    (hb : r.heap.blocks = m.blocks) : r.Truthful m c a :=
  ⟨fun h => absurd h hr, fun _ => ⟨he, hb ▸ .refl _⟩⟩

/-- The call fails and something is left. -/
theorem Submitted.not_truthful_of_leaked (hr : r.result ≠ .ok)
    (hb : m.blocks.length < r.heap.blocks.length) : ¬r.Truthful m c a := fun h =>
  absurd (h.2 hr).2.length_eq (Nat.ne_of_gt hb)

/-- The call is successful with the task that it has been asked for. -/
theorem Submitted.truthful_ok {event : Ptr} {task : UserTask} (hlayer : a.layer.Reachable)
    (hr : r.result = .ok) (he : r.event = some (event, task)) (hc : c.request = some task.request)
    (hq : task.request ≠ .shutdown) :
    r.Truthful m c a ↔ a.passed = true ∧ ∃ q, c.request = some q ∧ a.layer.Keeps a.oracle q := by
  obtain ⟨w, hw, howns⟩ := World.submit_owns_iff (q := task.request) (o := a.oracle) hlayer.sound hq
    hlayer.told_next
  constructor
  · rintro ⟨h, -⟩
    obtain ⟨event', task', he', -, hpassed, w', hw', howns'⟩ := h hr
    obtain ⟨-, rfl⟩ := Prod.mk.inj (Option.some.inj (he.symm.trans he'))
    obtain rfl := Option.some.inj (hw.symm.trans hw')
    exact ⟨hpassed, task.request, hc, howns.mp howns'⟩
  · rintro ⟨hpassed, q, hq', hkeeps⟩
    obtain rfl := Option.some.inj (hc.symm.trans hq')
    exact ⟨fun _ => ⟨event, task, he, hc, hpassed, w, hw, howns.mpr hkeeps⟩, fun h => absurd hr h⟩

/-- The call is successful without its topic. -/
theorem Submitted.not_truthful_incomplete {event : Ptr} {task : UserTask} (hr : r.result = .ok)
    (he : r.event = some (event, task)) (hc : c.request ≠ some task.request) :
    ¬r.Truthful m c a := by
  rintro ⟨h, -⟩
  obtain ⟨event', task', he', hc', -⟩ := h hr
  obtain ⟨-, rfl⟩ := Prod.mk.inj (Option.some.inj (he.symm.trans he'))
  exact hc hc'

/-! ## Each call -/

/-- **The payload is in a descriptor.** From here on everything has to go well. -/
theorem publishDataImpl_truthful (m₀ : Heap) {iotcH : Int} {topic : Bytes} {d : DataDesc} {qos : Qos}
    {callback : Option UserHandle} (hlayer : a.layer.Reachable)
    (hb : m.blocks = d.dataPtr :: d.desc :: m₀.blocks)
    (hpre : invalidContextHandle < iotcH ∧ (s.contextHandles.objectForHandle iotcH).isSome = true)
    (hc : c.request =
      some (.publish (some topic) d.content qos false (some (callback.getD defaultClientCallback)))) :
    ∃ r, publishDataImpl s iotcH topic d qos callback m = some r ∧
      (r.Truthful m₀ c a ↔ s.backoffClass ≠ .none ∨
        m.Granted 4 ∧ a.passed = true ∧ ∃ q, c.request = some q ∧ a.layer.Keeps a.oracle q) := by
  have hlength : m₀.blocks.length < m.blocks.length := by
    simp only [hb, List.length_cons]
    omega
  unfold publishDataImpl
  rw [if_pos hpre]
  split
  · next hbackoff =>
    obtain ⟨m', h, hb'⟩ := freeDesc_spec hb
    rw [h]
    exact ⟨_, rfl, iff_of_true (Submitted.truthful_of_freed nofun rfl hb') (.inl hbackoff)⟩
  · next hbackoff =>
    rcases makePublishTask_spec topic d qos false (callback.getD defaultClientCallback) m with
      ⟨m', h, hb', hg⟩ | ⟨copy, task, m', h, hrequest, hlength', htopic⟩
    · -- the task is not there, and the descriptor stays
      rw [h]
      refine ⟨_, rfl, iff_of_false (Submitted.not_truthful_of_leaked nofun (by rwa [hb'])) ?_⟩
      rintro (hno | ⟨hgranted, -⟩)
      · exact hbackoff hno
      · exact hg (hgranted.mono (by omega))
    · rw [h, Option.map_some]
      refine ⟨_, rfl, ?_⟩
      dsimp only
      rcases pushOnThisLayer_cases task m' with ⟨event, m₁, h₁, hg₁⟩ | ⟨m₁, h₁, hb₁, hg₁⟩
      · rw [h₁]
        rcases htopic with ⟨rfl, hg⟩ | ⟨rfl, hg⟩
        · rw [Submitted.truthful_ok hlayer rfl rfl (hrequest ▸ hc) (by rw [hrequest]; exact nofun)]
          exact ⟨fun ht => .inr ⟨(hg 1).mpr hg₁, ht⟩, fun ht => (ht.resolve_left hbackoff).2⟩
        · refine iff_of_false (Submitted.not_truthful_incomplete rfl rfl ?_) ?_
          · rw [hc, hrequest]
            simp
          · rintro (hno | ⟨hgranted, -⟩)
            · exact hbackoff hno
            · exact hg 1 hgranted
      · -- the task is nowhere, with all its blocks
        rw [h₁]
        refine iff_of_false (Submitted.not_truthful_of_leaked nofun
          (by rw [hb₁]; exact Nat.lt_trans hlength hlength')) ?_
        rintro (hno | ⟨hgranted, -⟩)
        · exact hbackoff hno
        · rcases htopic with ⟨-, hg⟩ | ⟨-, hg⟩
          · exact hg₁ ((hg 1).mp hgranted)
          · exact hg 1 hgranted

/-- `iotc_publish` and `iotc_publish_data` differ in the copy they make. -/
theorem publish_truthful {iotcH : Int} {topic content : Bytes} {qos : Qos}
    {callback : Option UserHandle} (hlayer : a.layer.Reachable)
    (hpre : invalidContextHandle < iotcH ∧ (s.contextHandles.objectForHandle iotcH).isSome = true)
    (hc : c.request =
      some (.publish (some topic) content qos false (some (callback.getD defaultClientCallback)))) :
    ∃ r, publish s iotcH topic content qos callback m = some r ∧
      (r.Truthful m c a ↔ (¬m.Granted 2 ∨ s.backoffClass ≠ .none) ∨
        m.Granted 6 ∧ a.passed = true ∧ ∃ q, c.request = some q ∧ a.layer.Keeps a.oracle q) := by
  unfold publish makeDescFromStringCopy
  rcases makeDescCopy_spec content m with ⟨m', h, hb, hg⟩ | ⟨d, m', h, rfl, hb, hg⟩
  · rw [h]
    exact ⟨_, rfl, iff_of_true (Submitted.truthful_of_freed nofun rfl hb) (.inl (.inl hg))⟩
  · rw [h, Option.bind_some]
    obtain ⟨r, hr, hiff⟩ := publishDataImpl_truthful m hlayer hb hpre hc
    refine ⟨r, hr, hiff.trans ?_⟩
    have hgranted : m.Granted 2 := (hg 0).mpr fun b hb => by simp at hb
    rw [hg 4]
    simp [hgranted]

theorem subscribeTo_truthful (iotcH : Int) {topic : Bytes} {qos : Qos} {callback : UserHandle}
    (hlayer : a.layer.Reachable) (hc : c.request = some (.subscribe topic qos callback)) :
    ∃ r, subscribeTo s iotcH topic qos callback m = some r ∧
      (r.Truthful m c a ↔
        (s.contextHandles.objectForHandle iotcH = none ∨ s.backoffClass ≠ .none ∨ ¬m.Granted 3) ∨
          m.Granted 4 ∧ a.passed = true ∧ ∃ q, c.request = some q ∧ a.layer.Keeps a.oracle q) := by
  unfold subscribeTo
  split
  · next hunknown =>
    have hunknown := Option.isNone_iff_eq_none.mp hunknown
    exact ⟨_, rfl, iff_of_true (Submitted.truthful_of_freed nofun rfl rfl) (.inl (.inl hunknown))⟩
  · next hknown =>
    split
    · next hbackoff =>
      exact ⟨_, rfl,
        iff_of_true (Submitted.truthful_of_freed nofun rfl rfl) (.inl (.inr (.inl hbackoff)))⟩
    · next hbackoff =>
      rcases m.alloc_cases with ⟨m₁, h₁, hb₁, hg₁⟩ | ⟨m₁, h₁, hb₁, hg₁⟩
      · rw [h₁]
        dsimp only
        rcases makeSubscribeTask_spec m.next topic qos callback m₁ with
          ⟨m₂, h₂, hb₂, hg₂⟩ | ⟨task, m₂, h₂, hrequest, hlength, hg₂⟩
        · -- the copy of the topic is freed
          obtain ⟨m₃, h₃, hb₃⟩ := Heap.release_head (hb₂.trans hb₁)
          rw [h₂, Option.bind_some]
          dsimp only
          rw [h₃]
          exact ⟨_, rfl, iff_of_true (Submitted.truthful_of_freed nofun rfl hb₃)
            (.inl (.inr (.inr fun h => hg₂ ((hg₁ 2).mp h))))⟩
        · rw [h₂, Option.bind_some]
          refine ⟨_, rfl, ?_⟩
          have hgranted : m.Granted 3 := (hg₁ 2).mpr ((hg₂ 0).mpr fun b hb => by simp at hb)
          have hlate : ¬(s.contextHandles.objectForHandle iotcH = none ∨ s.backoffClass ≠ .none ∨
              ¬m.Granted 3) := by
            rintro (h | h | h)
            · exact hknown (Option.isNone_iff_eq_none.mpr h)
            · exact hbackoff h
            · exact h hgranted
          dsimp only
          rcases pushOnThisLayer_cases task m₂ with ⟨event, m₃, h₃, hg₃⟩ | ⟨m₃, h₃, hb₃, hg₃⟩
          · rw [h₃, Submitted.truthful_ok hlayer rfl rfl (hrequest ▸ hc)
              (by rw [hrequest]; exact nofun)]
            exact ⟨fun ht => .inr ⟨(hg₁ 3).mpr ((hg₂ 1).mpr hg₃), ht⟩,
              fun ht => (ht.resolve_left hlate).2⟩
          · -- the task is nowhere, with all its blocks
            have hleaked : m.blocks.length < m₃.blocks.length := by
              rw [hb₃]
              refine Nat.lt_trans ?_ hlength
              simp [hb₁]
            rw [h₃]
            refine iff_of_false (Submitted.not_truthful_of_leaked nofun hleaked) ?_
            rintro (h | ⟨h, -⟩)
            · exact hlate h
            · exact hg₃ ((hg₂ 1).mp ((hg₁ 3).mp h))
      · rw [h₁]
        exact ⟨_, rfl, iff_of_true (Submitted.truthful_of_freed nofun rfl hb₁)
          (.inl (.inr (.inr (hg₁ 2))))⟩

theorem subscribe_truthful {iotcH : Int} {topic : Option Bytes} {qos : Qos}
    {callback : Option UserHandle} (hlayer : a.layer.Reachable)
    (hc : c = .subscribe iotcH topic qos callback) :
    ∃ r, subscribe s iotcH topic qos callback m = some r ∧
      (r.Truthful m c a ↔ c.FailsEarly s m ∨ c.Succeeds m a) := by
  subst hc
  have hrejected : topic = none ∨ callback = none ∨ iotcH = invalidContextHandle →
      ∃ r : Submitted, some ⟨.invalidParameter, none, m⟩ = some r ∧
        (r.Truthful m (.subscribe iotcH topic qos callback) a ↔
          (Call.subscribe iotcH topic qos callback).FailsEarly s m ∨
            (Call.subscribe iotcH topic qos callback).Succeeds m a) := by
    intro h
    refine ⟨_, rfl, iff_of_true (Submitted.truthful_of_freed nofun rfl rfl) (.inl ?_)⟩
    rcases h with h | h | h
    · exact .inl h
    · exact .inr (.inl h)
    · exact .inr (.inr (.inl h))
  unfold subscribe
  cases topic with
  | none => exact hrejected (.inl rfl)
  | some topic =>
    cases callback with
    | none => exact hrejected (.inr (.inl rfl))
    | some callback =>
      dsimp only
      split
      · next hinvalid => exact hrejected (.inr (.inr hinvalid))
      · next hvalid =>
        obtain ⟨r, hr, hiff⟩ := subscribeTo_truthful (s := s) (m := m) iotcH hlayer
          (c := .subscribe iotcH (some topic) qos (some callback)) rfl
        refine ⟨r, hr, hiff.trans ?_⟩
        have hfails : (Call.subscribe iotcH (some topic) qos (some callback)).FailsEarly s m ↔
            s.contextHandles.objectForHandle iotcH = none ∨ s.backoffClass ≠ .none ∨
              ¬m.Granted 3 := by
          simp [Call.FailsEarly, hvalid]
        rw [hfails]
        rfl

/-- **The result of a call is what has become of its task** if the call fails while all that it has
allocated is what its error exits free, or if it gets all its memory and the logic layer keeps the
task; and only then. -/
theorem submission_truthful_iff (hpre : c.Precondition s) (hlayer : a.layer.Reachable) :
    c.Truthful s m a ↔ c.FailsEarly s m ∨ c.Succeeds m a := by
  have hrun {P : Prop} (h : ∃ r, c.run s m = some r ∧ (r.Truthful m c a ↔ P)) :
      c.Truthful s m a ↔ P := by
    obtain ⟨r, hr, hiff⟩ := h
    constructor
    · rintro ⟨r', hr', ht⟩
      obtain rfl := Option.some.inj (hr.symm.trans hr')
      exact hiff.mp ht
    · exact fun hP => ⟨r, hr, hiff.mpr hP⟩
  cases c with
  | publish iotcH topic msg qos callback => exact hrun (publish_truthful hlayer hpre rfl)
  | publishData iotcH topic data qos callback =>
    refine hrun ?_
    have hdata : Submission.publishData s iotcH topic data qos callback m =
        Submission.publish s iotcH topic data qos callback m := if_neg hpre.2
    rw [Call.run, hdata]
    exact publish_truthful hlayer hpre.1 rfl
  | subscribe iotcH topic qos callback => exact hrun (subscribe_truthful hlayer rfl)

/-- One context, with the handle 0. -/
def oneContext : Shared where
  contextHandles := ⟨[some 0], 2, .managed⟩
  backoffClass := .none

/-- A PUBLISH of QoS 1 on an open connection. -/
theorem submission_truthful_publish : ∃ layer : Mqtt.Logic.World,
    layer.context.connection.connectionState = .opened ∧
      (Call.publish 0 [0x61] [0x62] .atLeastOnce none).Truthful oneContext ⟨[], 0, []⟩
        ⟨true, layer, {}⟩ := by
  obtain ⟨out, hrun⟩ := World.run_opening
  refine ⟨_, rfl, (submission_truthful_iff (by decide) ⟨_, hrun⟩).mpr (.inr ⟨?_, rfl, _, rfl, ?_⟩)⟩
  · decide
  · exact ⟨rfl, .inr (.inl rfl)⟩

/-- **There is no memory for the data of the task.** The call says so, and the descriptor of the payload
and its buffer stay allocated. -/
theorem submission_truthful_fails :
    (Call.publish 0 [0x61] [0x62] .atLeastOnce none).run oneContext
        ⟨[], 0, [true, true, true, false]⟩ = some ⟨.outOfMemory, none, ⟨[1, 0], 3, []⟩⟩ ∧
      ¬(Call.publish 0 [0x61] [0x62] .atLeastOnce none).Truthful oneContext
        ⟨[], 0, [true, true, true, false]⟩ ⟨true, {}, {}⟩ := by
  have hrun : (Call.publish 0 [0x61] [0x62] .atLeastOnce none).run oneContext
      ⟨[], 0, [true, true, true, false]⟩ = some ⟨.outOfMemory, none, ⟨[1, 0], 3, []⟩⟩ := by
    decide
  refine ⟨hrun, ?_⟩
  rintro ⟨r, hr, ht⟩
  obtain rfl := Option.some.inj (hrun.symm.trans hr)
  exact Submitted.not_truthful_of_leaked (by decide) (by decide) ht

end IotDeviceSdk.Submission
