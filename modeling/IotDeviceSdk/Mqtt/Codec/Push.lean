import IotDeviceSdk.Infra.Outbox
import IotDeviceSdk.Infra.Run
import IotDeviceSdk.Mqtt.Serialiser
import IotDeviceSdk.Mqtt.Codec.Layer

/-!
# The push side of the codec layer (`iotc_mqtt_codec_layer.c`)

The layer above hands messages over, the layer below answers each write with `WRITTEN` or
`FAILED_WRITING`. One message is written at a time, the others wait in the queue.

* `mem` are the answers of the allocator to one call, all of them positive where the list ends.
* A failed assertion is `none`.

`push_contract`: as long as no allocation fails and every message can be serialised, the layer is an
outbox: each message is notified once, in the order of submission, and freed once.
-/

namespace IotDeviceSdk.Mqtt.Codec

open Infra

/-- What a call of push leaves: the layer, the calls it made and the messages it freed. -/
structure PushResult where
  layer : Layer
  calls : List LayerCall
  freed : List Message

/-- `iotc_mqtt_codec_layer_make_task` -/
def makeTask (msg : Message) : CodecTask := ⟨some msg, msg.getMessageId, msg.type⟩

/-- The error handler of `iotc_mqtt_codec_layer_push`, called with `data`. -/
def pushErrHandling (c : Layer) (data : UpData) (mem : List Bool) : PushResult where
  layer := { c with data := { c.data with taskQueue := [], pushCs := .idle } }
  calls := clearTaskQueue c.data.taskQueue mem ++ [.pushNext data .failedWriting]
  freed := c.data.taskQueue.filterMap CodecTask.msg

/-- The coroutine from its start on. -/
def pushStart (c : Layer) (msg : Option Message) (mem : List Bool) : PushResult :=
  match msg with
  | none => pushErrHandling c .null mem
  | some m =>
    let c := { c with data := { c.data with msgId := m.getMessageId, msgType := m.type } }
    match serialiserSize m with
    | none => pushErrHandling c (.message m) mem
    | some size =>
      if mem.headD true then
        match serialise m size with
        | none => pushErrHandling c (.message m) mem.tail
        | some desc =>
          ⟨{ c with data := { c.data with pushCs := .header } }, [.pushPrev desc .ok], []⟩
      else pushErrHandling c (.message m) mem.tail

/-- From `finalise` on. The task is the first of the queue. -/
def pushFinalise (c : Layer) (inOutState : IotcState) (mem : List Bool) : Option PushResult :=
  match c.data.taskQueue with
  | ⟨some msg, msgId, msgType⟩ :: tasks =>
    if inOutState = .written ∨ inOutState = .failedWriting then
      if mem.headD true then
        let calls := [.pushNext (.written ⟨c.data.msgId, c.data.msgType⟩) inOutState]
        let c := { c with data := { c.data with taskQueue := tasks, pushCs := .idle } }
        match tasks with
        | [] => some ⟨c, calls, [msg]⟩
        | ⟨some next, _, _⟩ :: _ =>
          -- the call of itself with `WANT_WRITE`, which takes the message out and puts it back
          let r := pushStart c (some next) mem.tail
          some ⟨r.layer, calls ++ r.calls, msg :: r.freed⟩
        | ⟨none, _, _⟩ :: _ => none
      else
        let c := { c with data := { c.data with taskQueue := ⟨none, msgId, msgType⟩ :: tasks } }
        let r := pushErrHandling c .null mem.tail
        some ⟨r.layer, r.calls, msg :: r.freed⟩
    else none
  | _ => none

/-- The coroutine from the answer to the header on. -/
def pushHeaderWritten (c : Layer) (inOutState : IotcState) (mem : List Bool) : Option PushResult :=
  match c.data.taskQueue with
  | ⟨some msg, _, _⟩ :: _ =>
    if inOutState = .written ∧ msg.type = .publish ∧ descLength msg.content > 0 then
      if mem.headD true then
        some ⟨{ c with data := { c.data with pushCs := .payload } },
          [.pushPrev (msg.content.getD []) .ok], []⟩
      else some (pushErrHandling c .null mem.tail)
    else pushFinalise c inOutState mem
  | _ => none

/-- `iotc_mqtt_codec_layer_push` -/
def push (c : Layer) (data : Option Message) (inOutState : IotcState) (mem : List Bool) :
    Option PushResult :=
  if c.layerState.notOperational then some ⟨c, [], data.toList⟩
  else
    match inOutState, data with
    | .ok, some msg =>
      if mem.headD true then
        let c := { c with data := { c.data with taskQueue := c.data.taskQueue ++ [makeTask msg] } }
        match c.data.pushCs with
        | .idle => some (pushStart c data mem.tail)
        | _ => some ⟨c, [], []⟩
      else some (pushErrHandling c (.message msg) mem.tail)
    | _, _ =>
      match c.data.pushCs with
      | .idle => some (pushStart c data mem)
      | .header => pushHeaderWritten c inOutState mem
      | .payload => pushFinalise c inOutState mem

/-! ## Runs -/

/-- The layer with the writes that have not been answered, the messages that have been handed over,
the calls that it has made and the messages that it has freed. -/
structure PushWorld where
  layer : Layer
  outstanding : Nat
  submitted : List Message
  calls : List LayerCall
  freed : List Message

/-- What the neighbouring layers do. -/
inductive PushEvent where
  /-- the layer above hands a message over -/
  | submit (m : Message) (mem : List Bool)
  /-- the layer below answers a write -/
  | answer (written : Bool) (mem : List Bool)

/-- What a call passes up. -/
def LayerCall.up? : LayerCall → Option (UpData × IotcState)
  | .pushNext data state => some (data, state)
  | _ => none

/-- What a call passes down. -/
def LayerCall.down? : LayerCall → Option Bytes
  | .pushPrev desc _ => some desc
  | _ => none

/-- The state of the answer. -/
def answerState (written : Bool) : IotcState := if written then .written else .failedWriting

/-- The world after a call of push. -/
def PushWorld.add (w : PushWorld) (outstanding : Nat) (submitted : List Message) (r : PushResult) :
    PushWorld where
  layer := r.layer
  outstanding := outstanding + (r.calls.filterMap LayerCall.down?).length
  submitted := w.submitted ++ submitted
  calls := w.calls ++ r.calls
  freed := w.freed ++ r.freed

/-- One event. There is an answer only when there is a write. -/
def pushStep (w : PushWorld) : PushEvent → Option PushWorld
  | .submit m mem => (push w.layer (some m) .ok mem).map (w.add w.outstanding [m])
  | .answer written mem =>
    if w.outstanding = 0 then none
    else (push w.layer none (answerState written) mem).map (w.add (w.outstanding - 1) [])

/-- The serialiser can make the header of the message. -/
def encodable (m : Message) : Bool := ((serialiserSize m).bind (serialise m)).isSome

/-- No allocation fails, and the serialiser can make the header of what is submitted. -/
def Undefective (_ : PushWorld) : PushEvent → Prop
  | .submit m mem => encodable m = true ∧ ∀ b ∈ mem, b = true
  | .answer _ mem => ∀ b ∈ mem, b = true

/-! ## What a call does -/

theorem mem_headD {mem : List Bool} (h : ∀ b ∈ mem, b = true) : mem.headD true = true := by
  cases mem with
  | nil => rfl
  | cons b mem => exact h b (by simp)

theorem mem_tail {mem : List Bool} (h : ∀ b ∈ mem, b = true) : ∀ b ∈ mem.tail, b = true :=
  fun b hb => h b (List.mem_of_mem_tail hb)

/-- The layer with the header of a message being written. -/
def Layer.writing (c : Layer) (m : Message) : Layer :=
  { c with data := { c.data with msgId := m.getMessageId, msgType := m.type, pushCs := .header } }

theorem pushStart_eq (c : Layer) {m : Message} {mem : List Bool} (hm : encodable m = true)
    (hmem : ∀ b ∈ mem, b = true) :
    ∃ desc, (serialiserSize m).bind (serialise m) = some desc ∧
      pushStart c (some m) mem = ⟨c.writing m, [.pushPrev desc .ok], []⟩ := by
  unfold encodable at hm
  cases hsize : serialiserSize m with
  | none => simp [hsize] at hm
  | some size =>
    rw [hsize, Option.bind_some, Option.isSome_iff_exists] at hm
    obtain ⟨desc, hdesc⟩ := hm
    refine ⟨desc, hdesc, ?_⟩
    simp only [pushStart, hsize, mem_headD hmem, ↓reduceIte, hdesc, Layer.writing]

/-- The layer whose queue is another one, with no message being written. -/
def Layer.resting (c : Layer) (tasks : List CodecTask) : Layer :=
  { c with data := { c.data with taskQueue := tasks, pushCs := .idle } }

theorem pushFinalise_eq {c : Layer} {m : Message} {ms : List Message} {mem : List Bool}
    (written : Bool) (hq : c.data.taskQueue = (m :: ms).map makeTask)
    (hms : ∀ m ∈ ms, encodable m = true) (hmem : ∀ b ∈ mem, b = true) :
    ms = [] ∧ pushFinalise c (answerState written) mem =
        some ⟨c.resting [],
          [.pushNext (.written ⟨c.data.msgId, c.data.msgType⟩) (answerState written)], [m]⟩ ∨
      ∃ m' ms' desc, ms = m' :: ms' ∧ (serialiserSize m').bind (serialise m') = some desc ∧
        pushFinalise c (answerState written) mem =
        some ⟨(c.resting (ms.map makeTask)).writing m',
          [.pushNext (.written ⟨c.data.msgId, c.data.msgType⟩) (answerState written),
            .pushPrev desc .ok], [m]⟩ := by
  have hstate : answerState written = .written ∨ answerState written = .failedWriting := by
    cases written
    · exact Or.inr rfl
    · exact Or.inl rfl
  cases ms with
  | nil =>
    refine Or.inl ⟨rfl, ?_⟩
    simp only [pushFinalise, hq, List.map_cons, makeTask, hstate, mem_headD hmem, ↓reduceIte,
      List.map_nil, Layer.resting]
  | cons m' ms' =>
    obtain ⟨desc, hdesc, hstart⟩ := pushStart_eq (c.resting ((m' :: ms').map makeTask))
      (hms m' (by simp)) (mem_tail hmem)
    refine Or.inr ⟨m', ms', desc, rfl, hdesc, ?_⟩
    simp only [Layer.resting, List.map_cons, makeTask] at hstart
    simp only [pushFinalise, hq, List.map_cons, makeTask, hstate, mem_headD hmem, ↓reduceIte,
      Layer.resting, hstart, List.singleton_append]

/-! ## The layer is an outbox -/

/-- The notification of a message. -/
def notification (p : Message × IotcState) : UpData × IotcState :=
  (.written ⟨p.1.getMessageId, p.1.type⟩, p.2)

/-- What is notified up to now. -/
def PushWorld.notifications (w : PushWorld) : List (UpData × IotcState) :=
  w.calls.filterMap LayerCall.up?

/-- What is being written: nothing when nothing waits, and else the first message. -/
def Busy (d : LayerData) (outstanding : Nat) : List Message → Prop
  | [] => d.pushCs = .idle ∧ outstanding = 0
  | m :: _ => d.pushCs ≠ .idle ∧ outstanding = 1 ∧ d.msgId = m.getMessageId ∧ d.msgType = m.type

/-- The world is this outbox. -/
structure PushInv (w : PushWorld) (o : Outbox Message IotcState) : Prop where
  operational : w.layer.layerState.notOperational = false
  handedOver : o.handedOver = w.submitted
  notified : w.notifications = o.settled.map notification
  outcomes : ∀ p ∈ o.settled, p.2 = .written ∨ p.2 = .failedWriting
  freed : w.freed = o.settled.map Prod.fst
  queue : w.layer.data.taskQueue = o.waiting.map makeTask
  busy : Busy w.layer.data w.outstanding o.waiting
  encodable : ∀ m ∈ o.waiting, encodable m = true

/-- How many answers it takes at most until nothing waits. -/
def answersLeft (c : Layer) : Nat :=
  2 * c.data.taskQueue.length - if c.data.pushCs = .payload then 1 else 0

theorem PushInv.submit {w : PushWorld} {o : Outbox Message IotcState} (h : PushInv w o)
    {m : Message} {mem : List Bool} (hm : Codec.encodable m = true) (hmem : ∀ b ∈ mem, b = true) :
    ∃ w', pushStep w (.submit m mem) = some w' ∧ PushInv w' (o.submit m) := by
  have hbusy := h.busy
  have henc : ∀ m' ∈ (o.submit m).waiting, Codec.encodable m' = true := by
    intro m' hm'
    rw [Outbox.submit_waiting, List.mem_append, List.mem_singleton] at hm'
    rcases hm' with hm' | rfl
    · exact h.encodable m' hm'
    · exact hm
  have hover : (o.submit m).handedOver = w.submitted ++ [m] := by
    rw [Outbox.handedOver_submit, h.handedOver]
  cases hw : o.waiting with
  | nil =>
    -- the message is written at once
    rw [hw] at hbusy
    obtain ⟨hcs, hout⟩ := hbusy
    have hqueue : w.layer.data.taskQueue = [] := by rw [h.queue, hw, List.map_nil]
    obtain ⟨desc, -, hstart⟩ := pushStart_eq (w.layer.resting [makeTask m]) hm (mem_tail hmem)
    have hpush : push w.layer (some m) .ok mem =
        some ⟨(w.layer.resting [makeTask m]).writing m, [.pushPrev desc .ok], []⟩ := by
      simp only [Layer.resting] at hstart
      simp only [push, h.operational, Bool.false_eq_true, ↓reduceIte, mem_headD hmem, hqueue,
        List.nil_append, hcs, hstart, Layer.resting]
    have hstep : pushStep w (.submit m mem) = some (w.add w.outstanding [m]
        ⟨(w.layer.resting [makeTask m]).writing m, [.pushPrev desc .ok], []⟩) := by
      rw [pushStep, hpush, Option.map_some]
    refine ⟨_, hstep, ?_⟩
    exact {
      operational := h.operational
      handedOver := hover
      notified := by
        simp only [PushWorld.notifications, PushWorld.add, List.filterMap_append, LayerCall.up?,
          List.filterMap_cons, List.filterMap_nil, List.append_nil, Outbox.submit_settled]
        exact h.notified
      outcomes := h.outcomes
      freed := by simp only [PushWorld.add, List.append_nil, h.freed, Outbox.submit_settled]
      queue := by simp only [PushWorld.add, Layer.writing, Layer.resting, Outbox.submit_waiting,
        hw, List.nil_append, List.map_cons, List.map_nil]
      busy := by
        rw [Outbox.submit_waiting, hw]
        exact ⟨PushCs.noConfusion, by simp only [PushWorld.add, hout]; rfl, rfl, rfl⟩
      encodable := henc }
  | cons m₀ ms =>
    -- the message waits
    rw [hw] at hbusy
    obtain ⟨hcs, hout, hid, htype⟩ := hbusy
    have hpush : push w.layer (some m) .ok mem = some ⟨{ w.layer with
        data := { w.layer.data with
          taskQueue := w.layer.data.taskQueue ++ [makeTask m] } }, [], []⟩ := by
      simp only [push, h.operational, Bool.false_eq_true, ↓reduceIte, mem_headD hmem]
    have hstep : pushStep w (.submit m mem) = some (w.add w.outstanding [m] ⟨{ w.layer with
        data := { w.layer.data with
          taskQueue := w.layer.data.taskQueue ++ [makeTask m] } }, [], []⟩) := by
      rw [pushStep, hpush, Option.map_some]
    refine ⟨_, hstep, ?_⟩
    exact {
      operational := h.operational
      handedOver := hover
      notified := by
        simp only [PushWorld.notifications, PushWorld.add, List.append_nil, Outbox.submit_settled]
        exact h.notified
      outcomes := h.outcomes
      freed := by simp only [PushWorld.add, List.append_nil, h.freed, Outbox.submit_settled]
      queue := by simp only [PushWorld.add, Outbox.submit_waiting, h.queue, List.map_append,
        List.map_cons, List.map_nil]
      busy := by
        rw [Outbox.submit_waiting, hw]
        exact ⟨hcs, by simp only [PushWorld.add, hout]; rfl, hid, htype⟩
      encodable := henc }

/-- The first message is settled, and the next one is written. -/
theorem PushInv.finalise {w : PushWorld} {o : Outbox Message IotcState} (h : PushInv w o)
    (written : Bool) {mem : List Bool} (hout : w.outstanding ≠ 0) (hmem : ∀ b ∈ mem, b = true) :
    ∃ r, pushFinalise w.layer (answerState written) mem = some r ∧
      PushInv (w.add (w.outstanding - 1) [] r) (o.settle (answerState written)) ∧
      answersLeft r.layer + 1 ≤ answersLeft w.layer := by
  have hbusy := h.busy
  cases hw : o.waiting with
  | nil =>
    rw [hw] at hbusy
    exact absurd hbusy.2 hout
  | cons m ms =>
    rw [hw] at hbusy
    obtain ⟨hcs, hone, hid, htype⟩ := hbusy
    have hqueue : w.layer.data.taskQueue = (m :: ms).map makeTask := by rw [h.queue, hw]
    have henc : ∀ m' ∈ ms, Codec.encodable m' = true :=
      fun m' hm' => h.encodable m' (by rw [hw]; simp [hm'])
    have hsettle := Outbox.settle_cons hw (answerState written)
    have hover : (o.settle (answerState written)).handedOver = w.submitted ++ [] := by
      rw [Outbox.handedOver_settle, h.handedOver, List.append_nil]
    have houtcomes : ∀ p ∈ (o.settle (answerState written)).settled,
        p.2 = .written ∨ p.2 = .failedWriting := by
      intro p hp
      rw [hsettle, List.mem_append, List.mem_singleton] at hp
      rcases hp with hp | rfl
      · exact h.outcomes p hp
      · cases written
        · exact Or.inr rfl
        · exact Or.inl rfl
    have hfreed : w.freed ++ [m] = (o.settle (answerState written)).settled.map Prod.fst := by
      simp only [hsettle, List.map_append, List.map_cons, List.map_nil, h.freed]
    have hnotified : w.notifications ++
        [(UpData.written ⟨w.layer.data.msgId, w.layer.data.msgType⟩, answerState written)] =
        (o.settle (answerState written)).settled.map notification := by
      simp only [hsettle, List.map_append, List.map_cons, List.map_nil, h.notified, notification,
        hid, htype]
    have hlen : 2 * (m :: ms).length - 1 ≤ answersLeft w.layer := by
      simp only [answersLeft, hqueue, List.length_map]
      split <;> omega
    rcases pushFinalise_eq written hqueue henc hmem with ⟨rfl, hfin⟩ | ⟨m', ms', desc, rfl, -, hfin⟩
    · refine ⟨_, hfin, ?_, ?_⟩
      · exact {
          operational := h.operational
          handedOver := hover
          notified := by
            rw [← hnotified]
            simp only [PushWorld.notifications, PushWorld.add, List.filterMap_append,
              LayerCall.up?, List.filterMap_cons, List.filterMap_nil]
          outcomes := houtcomes
          freed := hfreed
          queue := by rw [hsettle]; rfl
          busy := by
            rw [hsettle]
            exact ⟨rfl, by simp only [PushWorld.add, hone]; rfl⟩
          encodable := by rw [hsettle]; exact henc }
      · have hnone : answersLeft (w.layer.resting []) = 0 := rfl
        simp only [List.length_cons, List.length_nil] at hlen
        rw [hnone]
        omega
    · refine ⟨_, hfin, ?_, ?_⟩
      · exact {
          operational := h.operational
          handedOver := hover
          notified := by
            rw [← hnotified]
            simp only [PushWorld.notifications, PushWorld.add, List.filterMap_append,
              LayerCall.up?, List.filterMap_cons, List.filterMap_nil]
          outcomes := houtcomes
          freed := hfreed
          queue := by rw [hsettle]; rfl
          busy := by
            rw [hsettle]
            exact ⟨PushCs.noConfusion, by simp only [PushWorld.add, hone]; rfl, rfl, rfl⟩
          encodable := by rw [hsettle]; exact henc }
      · have hnext : answersLeft ((w.layer.resting ((m' :: ms').map makeTask)).writing m') =
            2 * (ms'.length + 1) := by
          simp only [answersLeft, Layer.resting, Layer.writing, List.length_map, List.length_cons,
            reduceCtorEq, ↓reduceIte, Nat.sub_zero]
        simp only [List.length_cons] at hlen
        rw [hnext]
        omega

/-- An answer resumes the coroutine. -/
theorem push_answer {c : Layer} (hc : c.layerState.notOperational = false) (written : Bool)
    (mem : List Bool) :
    push c none (answerState written) mem =
      match c.data.pushCs with
      | .idle => some (pushStart c none mem)
      | .header => pushHeaderWritten c (answerState written) mem
      | .payload => pushFinalise c (answerState written) mem := by
  cases written with
  | true => simp only [push, hc, answerState, Bool.false_eq_true, ↓reduceIte]
  | false => simp only [push, hc, answerState, Bool.false_eq_true, ↓reduceIte]

/-- A header has been written, and the payload comes next. -/
theorem pushHeaderWritten_payload {c : Layer} {m : Message} {ms : List Message} {mem : List Bool}
    (hq : c.data.taskQueue = (m :: ms).map makeTask) (ht : m.type = .publish)
    (hl : descLength m.content > 0) (hmem : ∀ b ∈ mem, b = true) :
    pushHeaderWritten c .written mem =
      some ⟨{ c with data := { c.data with pushCs := .payload } },
        [.pushPrev (m.content.getD []) .ok], []⟩ := by
  simp only [pushHeaderWritten, hq, List.map_cons, makeTask, ht, hl, and_self, mem_headD hmem,
    ↓reduceIte]

/-- There is no payload to be written, or nothing has been written. -/
theorem pushHeaderWritten_finalise {c : Layer} {m : Message} {ms : List Message} {mem : List Bool}
    {s : IotcState} (hq : c.data.taskQueue = (m :: ms).map makeTask)
    (h : ¬ (s = .written ∧ m.type = .publish ∧ descLength m.content > 0)) :
    pushHeaderWritten c s mem = pushFinalise c s mem := by
  simp only [pushHeaderWritten, hq, List.map_cons, makeTask, h, ↓reduceIte]

/-- An answer settles the first message or leads to its payload. -/
theorem PushInv.answer {w : PushWorld} {o : Outbox Message IotcState} (h : PushInv w o)
    (written : Bool) {mem : List Bool} (hout : w.outstanding ≠ 0) (hmem : ∀ b ∈ mem, b = true) :
    ∃ w' o', pushStep w (.answer written mem) = some w' ∧ PushInv w' o' ∧
      answersLeft w'.layer < answersLeft w.layer := by
  obtain ⟨r, hfin, hinv, hleft⟩ := h.finalise written hout hmem
  have hbusy := h.busy
  cases hw : o.waiting with
  | nil =>
    rw [hw] at hbusy
    exact absurd hbusy.2 hout
  | cons m ms =>
    rw [hw] at hbusy
    obtain ⟨hcs, hone, hid, htype⟩ := hbusy
    have hqueue : w.layer.data.taskQueue = (m :: ms).map makeTask := by rw [h.queue, hw]
    have hdone : push w.layer none (answerState written) mem = some r →
        ∃ w' o', pushStep w (.answer written mem) = some w' ∧ PushInv w' o' ∧
          answersLeft w'.layer < answersLeft w.layer := by
      intro hpush
      refine ⟨_, _, ?_, hinv, Nat.lt_of_succ_le hleft⟩
      rw [pushStep, if_neg hout, hpush, Option.map_some]
    cases hpc : w.layer.data.pushCs with
    | idle => exact absurd hpc hcs
    | payload =>
      refine hdone ?_
      rw [push_answer h.operational, hpc]
      exact hfin
    | header =>
      by_cases hnext : answerState written = .written ∧ m.type = .publish ∧
          descLength m.content > 0
      · -- the payload is written, and nothing is settled
        have hpush : push w.layer none (answerState written) mem =
            some ⟨{ w.layer with data := { w.layer.data with pushCs := .payload } },
              [.pushPrev (m.content.getD []) .ok], []⟩ := by
          rw [hnext.1]
          simp only [push, h.operational, Bool.false_eq_true, ↓reduceIte, hpc,
            pushHeaderWritten_payload hqueue hnext.2.1 hnext.2.2 hmem]
        have hstep : pushStep w (.answer written mem) = some (w.add (w.outstanding - 1) []
            ⟨{ w.layer with data := { w.layer.data with pushCs := .payload } },
              [.pushPrev (m.content.getD []) .ok], []⟩) := by
          rw [pushStep, if_neg hout, hpush, Option.map_some]
        refine ⟨_, o, hstep, ?_, ?_⟩
        · exact {
            operational := h.operational
            handedOver := by simp only [PushWorld.add, List.append_nil, h.handedOver]
            notified := by
              simp only [PushWorld.notifications, PushWorld.add, List.filterMap_append,
                LayerCall.up?, List.filterMap_cons, List.filterMap_nil, List.append_nil]
              exact h.notified
            outcomes := h.outcomes
            freed := by simp only [PushWorld.add, List.append_nil, h.freed]
            queue := h.queue
            busy := by
              rw [hw]
              exact ⟨PushCs.noConfusion, by simp only [PushWorld.add, hone]; rfl, hid, htype⟩
            encodable := h.encodable }
        · simp only [answersLeft, PushWorld.add, hpc, hqueue, List.length_map, List.length_cons,
            reduceCtorEq, ↓reduceIte]
          omega
      · refine hdone ?_
        rw [push_answer h.operational, hpc]
        exact (pushHeaderWritten_finalise hqueue hnext).trans hfin

/-- The world when nothing has been handed over. -/
def PushWorld.start (c : Layer) : PushWorld := ⟨c, 0, [], [], []⟩

/-- What is expected of the push side. -/
structure PushContract (w : PushWorld) : Prop where
  /-- the first messages are settled, each with one notification and freed once, and the others
  wait -/
  outbox : ∃ o : Outbox Message IotcState, o.handedOver = w.submitted ∧
    w.notifications = o.settled.map notification ∧
    (∀ p ∈ o.settled, p.2 = .written ∨ p.2 = .failedWriting) ∧
    w.freed = o.settled.map Prod.fst ∧ (w.outstanding = 0 → o.waiting = [])
  /-- one message at most is being written -/
  single : w.outstanding ≤ 1
  /-- every answer leads on to the state in which nothing waits -/
  answered : ∀ written mem, w.outstanding ≠ 0 → (∀ b ∈ mem, b = true) →
    ∃ w', pushStep w (.answer written mem) = some w' ∧ answersLeft w'.layer < answersLeft w.layer
  /-- no assertion fails when a message is handed over -/
  accepted : ∀ m mem, encodable m = true → (∀ b ∈ mem, b = true) →
    ∃ w', pushStep w (.submit m mem) = some w'

theorem PushInv.contract {w : PushWorld} {o : Outbox Message IotcState} (h : PushInv w o) :
    PushContract w := by
  have hbusy := h.busy
  refine ⟨⟨o, h.handedOver, h.notified, h.outcomes, h.freed, fun hout => ?_⟩, ?_,
    fun written mem hout hmem => ?_, fun m mem hm hmem => ?_⟩
  · cases hw : o.waiting with
    | nil => rfl
    | cons m ms =>
      rw [hw] at hbusy
      rw [hbusy.2.1] at hout
      cases hout
  · cases hw : o.waiting with
    | nil =>
      rw [hw] at hbusy
      exact hbusy.2 ▸ Nat.zero_le 1
    | cons m ms =>
      rw [hw] at hbusy
      exact hbusy.2.1.le
  · obtain ⟨w', -, hstep, -, hleft⟩ := h.answer written hout hmem
    exact ⟨w', hstep, hleft⟩
  · obtain ⟨w', hstep, -⟩ := h.submit hm hmem
    exact ⟨w', hstep⟩

/-- **The push side is an outbox**, in every state of every run in which no allocation fails and
every message that is handed over can be serialised. -/
theorem push_contract {c : Layer} (hc : c.layerState.notOperational = false)
    (hq : c.data.taskQueue = []) (hcs : c.data.pushCs = .idle) {es : List PushEvent}
    {w : PushWorld} (hes : AllSteps pushStep Undefective (PushWorld.start c) es)
    (h : run pushStep (PushWorld.start c) es = some w) : PushContract w := by
  have hstart : ∃ o, PushInv (PushWorld.start c) o := by
    refine ⟨⟨[], []⟩, hc, rfl, rfl, by simp, rfl, hq, ⟨hcs, rfl⟩, by simp⟩
  have hinv : ∃ o, PushInv w o := by
    refine run_invariant_of (P := fun w => ∃ o, PushInv w o) ?_ hstart hes h
    rintro w e w' ⟨o, hinv⟩ he hstep
    cases e with
    | submit m mem =>
      obtain ⟨w'', hstep', hinv'⟩ := hinv.submit he.1 he.2
      rw [hstep', Option.some.injEq] at hstep
      exact ⟨_, hstep ▸ hinv'⟩
    | answer written mem =>
      have hout : w.outstanding ≠ 0 := by
        intro hzero
        rw [pushStep, if_pos hzero] at hstep
        cases hstep
      obtain ⟨w'', o', hstep', hinv', -⟩ := hinv.answer written hout he
      rw [hstep', Option.some.injEq] at hstep
      exact ⟨o', hstep ▸ hinv'⟩
  obtain ⟨o, hinv⟩ := hinv
  exact hinv.contract

/-- A PUBLISH with a payload and a PINGREQ. -/
def publishMessage : Message :=
  { commonValue := 0x30, topicName := some [0x61], content := some [0x78] }

def pingreqMessage : Message := { commonValue := 0xC0 }

/-- Header, payload and PINGREQ, whose write fails. -/
theorem push_contract_publish :
    ∃ w, run pushStep (PushWorld.start connectedLayer)
        [.submit publishMessage [], .submit pingreqMessage [true], .answer true [],
          .answer true [true, true], .answer false []] = some w ∧ PushContract w := by
  have hsome : (run pushStep (PushWorld.start connectedLayer)
      [.submit publishMessage [], .submit pingreqMessage [true], .answer true [],
        .answer true [true, true], .answer false []]).isSome = true := by decide +kernel
  obtain ⟨w, hw⟩ := Option.isSome_iff_exists.mp hsome
  refine ⟨w, hw, push_contract rfl rfl rfl (AllSteps.of_forall ?_) hw⟩
  intro w e he
  simp only [List.mem_cons, List.not_mem_nil, or_false] at he
  rcases he with rfl | rfl | rfl | rfl | rfl
  · exact ⟨by decide +kernel, by decide⟩
  · exact ⟨by decide +kernel, by decide⟩
  · exact fun b hb => by cases hb
  · exact fun b hb => by simpa using hb
  · exact fun b hb => by cases hb

/-- While a PINGREQ is being written there is no memory for the task of a PUBLISH. The PINGREQ is
notified as not written, the PUBLISH is passed up itself and not freed, and the answer to the write
is passed up as a third notification. -/
theorem push_fails :
    ((run pushStep (PushWorld.start connectedLayer)
        [.submit pingreqMessage [], .submit publishMessage [false], .answer true []]).map
      fun w => (w.notifications, w.freed)) =
    some ([(.written ⟨0, .pingreq⟩, .failedWriting), (.message publishMessage, .failedWriting),
      (.null, .failedWriting)], [pingreqMessage]) := by
  decide +kernel

end IotDeviceSdk.Mqtt.Codec
