import Mathlib.Data.List.Count
import IotDeviceSdk.Mqtt.Logic.Commands

/-!
# What a coroutine can do

A coroutine sees the whole context, but what it changes there belongs to its own task: the time
event of its handle, its entry among the `io_timeouts`, and what it appends to the trace.

* `Context.Moves` says this of two contexts. There is one lemma for each operation of a context.
* `TaskTimeout.Fits` says which time event may be pending at which place of a coroutine.
* `Outcome` puts both together with what happens to the task. There is one lemma for each part of a
  coroutine, and `execute_outcome` for all of them.
-/

namespace IotDeviceSdk.Mqtt.Logic

/-! ## Changes of the context -/

/-- The messages that a task hands over. -/
def Task.Sends (t : Task) (m : Message) : Prop :=
  match t.scenario, t.qos with
  | .connect, _ => ∃ c, fillWithConnectData c = .ok m
  | .publish (some d), .atMostOnce =>
    fillWithPublishData d.topic d.data .atMostOnce d.retain false 0 = .ok m
  | .publish (some d), _ =>
    ∃ dup, fillWithPublishData d.topic d.data .atLeastOnce d.retain dup t.msgId = .ok m
  | .puback, _ => m = fillWithPubackData t.msgId
  | .subscribe (some d), _ => ∃ dup, m = fillWithSubscribeData d.topic t.msgId d.qos dup
  | .keepalive, _ => m = fillWithPingreqData
  | .shutdown, _ => m = fillWithDisconnectData
  | _, _ => False

/-- What the coroutine of the task `t` may append to the trace. -/
def Output.Of (t : Task) : Output → Prop
  | push task m => task = t.id ∧ t.Sends m
  | callback task _ _ | subscribed task _ _ _ => task = t.id
  | run _ | freeTask _ | writeFreed _ => False
  | _ => True

/-- The handle of the task is among the `io_timeouts` while it has the timeout of a CONNECT. -/
def Context.Registered (c : Context) (id : Nat) : Prop :=
  c.ioTimeouts.count id = if c.timeouts id = some .connect then 1 else 0

/-- The coroutine of the task `t` may change the context `c` into `c'`. -/
structure Context.Moves (t : Task) (c c' : Context) : Prop where
  mem : c'.mem <:+ c.mem
  callbacks : c'.callbacks <:+ c.callbacks
  layerData : c'.layerData = c.layerData
  connection : c'.connection = c.connection ∨
    t.scenario = .connect ∧ c'.connection = { c.connection with connectionState := .opened }
  timeouts : ∀ i, i ≠ t.id → c'.timeouts i = c.timeouts i
  ioTimeouts : ∀ i, i ≠ t.id → c'.ioTimeouts.count i = c.ioTimeouts.count i
  registered : c.Registered t.id → c'.Registered t.id
  keepaliveEvent : c'.keepaliveEvent = c.keepaliveEvent ∨
    (t.scenario = .connect ∨ t.scenario = .keepalive) ∧ c'.keepaliveEvent = true
  out : ∃ os, c'.out = c.out ++ os ∧ ∀ o ∈ os, o.Of t

namespace Context.Moves

variable {t : Task} {c c' c'' : Context}

theorem refl (t : Task) (c : Context) : Moves t c c where
  mem := List.suffix_refl _
  callbacks := List.suffix_refl _
  layerData := rfl
  connection := .inl rfl
  timeouts _ _ := rfl
  ioTimeouts _ _ := rfl
  registered h := h
  keepaliveEvent := .inl rfl
  out := ⟨[], by simp, by simp⟩

theorem trans (h : Moves t c c') (h' : Moves t c' c'') : Moves t c c'' where
  mem := h'.mem.trans h.mem
  callbacks := h'.callbacks.trans h.callbacks
  layerData := h'.layerData.trans h.layerData
  connection := by
    rcases h.connection with h | ⟨hs, h⟩ <;> rcases h'.connection with h' | ⟨hs', h'⟩
    · exact .inl (h'.trans h)
    · exact .inr ⟨hs', by rw [h', h]⟩
    · exact .inr ⟨hs, by rw [h', h]⟩
    · exact .inr ⟨hs, by rw [h', h]⟩
  timeouts i hi := (h'.timeouts i hi).trans (h.timeouts i hi)
  ioTimeouts i hi := (h'.ioTimeouts i hi).trans (h.ioTimeouts i hi)
  registered hr := h'.registered (h.registered hr)
  keepaliveEvent := by
    rcases h'.keepaliveEvent with h' | h'
    · rw [h']
      exact h.keepaliveEvent
    · exact .inr h'
  out := by
    obtain ⟨os, ho, hos⟩ := h.out
    obtain ⟨os', ho', hos'⟩ := h'.out
    refine ⟨os ++ os', by rw [ho', ho, List.append_assoc], fun o hm => ?_⟩
    rcases List.mem_append.mp hm with hm | hm
    · exact hos o hm
    · exact hos' o hm

/-- Only the oracles, the state of the layer and the handlers change. -/
theorem of_quiet (hm : c'.mem <:+ c.mem) (hcb : c'.callbacks <:+ c.callbacks)
    (hl : c'.layerData = c.layerData) (hc : c'.connection = c.connection)
    (ht : c'.timeouts = c.timeouts) (hi : c'.ioTimeouts = c.ioTimeouts)
    (hk : c'.keepaliveEvent = c.keepaliveEvent) (ho : c'.out = c.out) : Moves t c c' where
  mem := hm
  callbacks := hcb
  layerData := hl
  connection := .inl hc
  timeouts i _ := by rw [ht]
  ioTimeouts i _ := by rw [hi]
  registered h := by rwa [Context.Registered, ht, hi]
  keepaliveEvent := .inl hk
  out := ⟨[], by simp [ho], by simp⟩

theorem alloc (t : Task) (c : Context) : Moves t c c.alloc.2 :=
  of_quiet (List.tail_suffix _) (List.suffix_refl _) rfl rfl rfl rfl rfl rfl

theorem record {o : Output} (h : o.Of t) (c : Context) : Moves t c (c.record o) :=
  { refl t c with out := ⟨[o], rfl, by simpa using h⟩ }

theorem build (t : Task) (c : Context) (fill : Except IotcState Message) :
    Moves t c (c.build fill).2 :=
  of_quiet (List.tail_suffix _) (List.suffix_refl _) rfl rfl rfl rfl rfl rfl

theorem continueWith {o : Output} (h : o.Of t) (c : Context) (next : LayerState) :
    Moves t c (c.continueWith o next).2 := by
  have hnext (c : Context) : Moves t c { c with layerState := next } :=
    of_quiet (List.suffix_refl _) (List.suffix_refl _) rfl rfl rfl rfl rfl rfl
  simp only [Context.continueWith]
  split
  · exact ((alloc t c).trans (record h _)).trans (hnext _)
  · exact alloc t c

theorem pushOnPrev (c : Context) {m : Message} (h : t.Sends m) :
    Moves t c (c.pushOnPrev t.id m).2 :=
  continueWith (show Output.Of t (.push t.id m) from ⟨rfl, h⟩) c _

theorem connectOnNext (t : Task) (c : Context) (s : IotcState) : Moves t c (c.connectOnNext s).2 :=
  continueWith (by simp [Output.Of]) c _

theorem closeOnPrev (t : Task) (c : Context) (s : IotcState) : Moves t c (c.closeOnPrev s).2 :=
  continueWith (by simp [Output.Of]) c _

theorem closeExternallyOnThis (t : Task) (c : Context) (s : IotcState) :
    Moves t c (c.closeExternallyOnThis s).2 :=
  continueWith (by simp [Output.Of]) c _

theorem queue {o : Output} (h : o.Of t) (c : Context) : Moves t c (c.queue o).2 := by
  have hcallbacks : Moves t c { c with callbacks := c.callbacks.tail } :=
    of_quiet (List.suffix_refl _) (List.tail_suffix _) rfl rfl rfl rfl rfl rfl
  simp only [Context.queue]
  split
  · exact hcallbacks.trans (record h _)
  · exact hcallbacks

theorem deferUsersCallback (t : Task) (c : Context) (s : IotcState) :
    Moves t c (c.deferUsersCallback t s) := by
  unfold Context.deferUsersCallback
  split
  · exact queue (by simp [Output.Of]) c
  · exact refl t c

theorem freeMessage (t : Task) (c : Context) (m : Option Received) :
    Moves t c (c.freeMessage m) := by
  unfold Context.freeMessage
  split
  · exact record (by simp [Output.Of]) c
  · exact refl t c

/-- A time event that has run is removed. -/
theorem ioTimeoutsRemove (t : Task) {c : Context} (h : c.timeouts t.id = none) :
    Moves t c (c.ioTimeoutsRemove t.id) :=
  { refl t c with
    ioTimeouts := fun _ hi => List.count_erase_of_ne hi
    registered := fun hr => by
      simp only [Context.Registered, Context.ioTimeoutsRemove, h, List.count_erase_self] at hr ⊢
      simp [hr] }

/-- What is cancelled is not registered, whether it was before or not. -/
theorem cancelled (hm : c'.mem <:+ c.mem) (hcb : c'.callbacks <:+ c.callbacks)
    (hl : c'.layerData = c.layerData) (hc : c'.connection = c.connection)
    (ht : ∀ i, i ≠ t.id → c'.timeouts i = c.timeouts i)
    (hi : ∀ i, i ≠ t.id → c'.ioTimeouts.count i = c.ioTimeouts.count i)
    (hk : c'.keepaliveEvent = c.keepaliveEvent) (ho : c'.out = c.out)
    (hr : c.Registered t.id → c'.ioTimeouts.count t.id ≤ if c'.armed t.id then 1 else 0) :
    Moves t c (c'.cancelTaskTimeout t.id) := by
  unfold Context.cancelTaskTimeout
  split
  · next harmed =>
    refine ⟨hm, hcb, hl, .inl hc, fun i hne => ?_, fun i hne => ?_, fun h => ?_, .inl hk, [],
      ?_, by simp⟩
    · exact (Function.update_of_ne hne _ _).trans (ht i hne)
    · exact (List.count_erase_of_ne hne).trans (hi i hne)
    · have hle := hr h
      rw [if_pos harmed] at hle
      simp only [Context.Registered, Context.disarm, Context.ioTimeoutsRemove,
        List.count_erase_self, Function.update_self]
      simp only [reduceCtorEq, if_false]
      omega
    · simpa [Context.disarm, Context.ioTimeoutsRemove] using ho
  · next harmed =>
    refine ⟨hm, hcb, hl, .inl hc, ht, hi, fun h => ?_, .inl hk, [], by simp [ho], by simp⟩
    have hle := hr h
    have hnone : c'.timeouts t.id = none := by simpa [Context.armed] using harmed
    rw [if_neg harmed] at hle
    simp only [Context.Registered, hnone, reduceCtorEq, if_false]
    omega

theorem cancelTaskTimeout (t : Task) (c : Context) : Moves t c (c.cancelTaskTimeout t.id) := by
  refine cancelled (List.suffix_refl _) (List.suffix_refl _) rfl rfl (fun _ _ => rfl) (fun _ _ => rfl) rfl
    rfl fun hr => ?_
  rw [hr, Context.armed]
  cases c.timeouts t.id with
  | none => simp
  | some timeout =>
    simp only [Option.some.injEq, Option.isSome_some, if_true]
    split <;> omega

end Context.Moves

/-! ## Arming a time event -/

namespace Context

variable {c c' : Context} {t : Task} {s : IotcState}

/-- The handle was free and the event is pending, or memory has run out. -/
theorem executeIn_eq_some {taken : Context → Bool} {arm : Context → Context}
    (h : c.executeIn taken arm = some (s, c')) :
    s = .ok ∧ taken c.alloc.2 = false ∧ c' = arm c.alloc.2.alloc.2 ∨
      s = .outOfMemory ∧ (c' = c.alloc.2 ∨ c' = c.alloc.2.alloc.2) := by
  simp only [executeIn] at h
  split at h
  · split at h
    · cases h
    · next htaken =>
      split at h <;> obtain ⟨rfl, rfl⟩ := Prod.mk.inj (Option.some.inj h)
      · exact .inl ⟨rfl, by simpa using htaken, rfl⟩
      · exact .inr ⟨rfl, .inr rfl⟩
  · obtain ⟨rfl, rfl⟩ := Prod.mk.inj (Option.some.inj h)
    exact .inr ⟨rfl, .inl rfl⟩

/-- A timeout that is not that of a CONNECT. -/
theorem Moves.executeTaskIn {timeout : TaskTimeout} (hne : timeout ≠ .connect)
    (h : c.executeTaskIn t.id timeout = some (s, c')) : Moves t c c' := by
  rcases executeIn_eq_some h with ⟨-, harmed, rfl⟩ | ⟨-, rfl | rfl⟩
  · have hnone : c.timeouts t.id = none := by simpa [armed, Context.alloc] using harmed
    exact
      { (alloc t c).trans (alloc t _) with
        timeouts := fun _ hi => Function.update_of_ne hi _ _
        registered := fun hr => by
          simpa [Context.Registered, Context.alloc, hnone, hne] using hr }
  · exact alloc t c
  · exact (alloc t c).trans (alloc t _)

theorem Moves.executeKeepaliveIn (hs : t.scenario = .connect ∨ t.scenario = .keepalive)
    (h : c.executeKeepaliveIn = some (s, c')) : Moves t c c' := by
  rcases executeIn_eq_some h with ⟨-, -, rfl⟩ | ⟨-, rfl | rfl⟩
  · exact { (alloc t c).trans (alloc t _) with keepaliveEvent := .inr ⟨hs, rfl⟩ }
  · exact alloc t c
  · exact (alloc t c).trans (alloc t _)

/-- A timeout that has been registered, or it has failed. -/
theorem ioTimeoutsCreate_eq_some {id : Nat} (h : c.ioTimeoutsCreate id = some (s, c')) :
    c.timeouts id = none ∧
      (s = .ok ∧ c' = { c.alloc.2.alloc.2.alloc.2 with
          timeouts := Function.update c.timeouts id (some .connect)
          ioTimeouts := c.ioTimeouts ++ [id] } ∨
        s = .outOfMemory ∧ (c' = c.alloc.2 ∨ c' = c.alloc.2.alloc.2 ∨
          c' = { c.alloc.2.alloc.2.alloc.2 with
            timeouts := Function.update c.timeouts id (some .connect) })) := by
  unfold Context.ioTimeoutsCreate at h
  split at h
  · cases h
  · next harmed =>
    refine ⟨by simpa [Context.armed] using harmed, ?_⟩
    split at h
    · next c₁ h₁ =>
      obtain ⟨-, -, rfl⟩ := (executeIn_eq_some h₁).resolve_right fun h => by cases h.1
      dsimp only at h
      split at h <;> obtain ⟨rfl, rfl⟩ := Prod.mk.inj (Option.some.inj h)
      · exact .inl ⟨rfl, rfl⟩
      · exact .inr ⟨rfl, .inr (.inr rfl)⟩
    · next hne =>
      rcases executeIn_eq_some h with ⟨rfl, -, -⟩ | ⟨rfl, rfl | rfl⟩
      · exact absurd h (hne _)
      · exact .inr ⟨rfl, .inl rfl⟩
      · exact .inr ⟨rfl, .inr (.inl rfl)⟩

theorem Moves.ioTimeoutsCreate (h : c.ioTimeoutsCreate t.id = some (.ok, c')) : Moves t c c' := by
  obtain ⟨hnone, ⟨-, rfl⟩ | ⟨hs, -⟩⟩ := ioTimeoutsCreate_eq_some h
  · exact
      { ((alloc t c).trans (alloc t _)).trans (alloc t _) with
        timeouts := fun _ hi => Function.update_of_ne hi _ _
        ioTimeouts := fun i hi => by simp [Ne.symm hi]
        registered := fun hr => by
          simpa [Context.Registered, hnone] using hr }
  · cases hs

/-- If it has failed, it may be pending without being registered. -/
theorem Moves.ioTimeoutsCreate_cancel (hs : s ≠ .ok) (h : c.ioTimeoutsCreate t.id = some (s, c')) :
    Moves t c (c'.cancelTaskTimeout t.id) := by
  obtain ⟨hnone, ⟨rfl, -⟩ | ⟨-, hc⟩⟩ := ioTimeoutsCreate_eq_some h
  · exact absurd rfl hs
  · have hzero (hr : c.Registered t.id) : c.ioTimeouts.count t.id = 0 := by
      simpa [Context.Registered, hnone] using hr
    rcases hc with rfl | rfl | rfl
    · exact (alloc t c).trans (cancelTaskTimeout t _)
    · exact ((alloc t c).trans (alloc t _)).trans (cancelTaskTimeout t _)
    · have hm := ((alloc t c).trans (alloc t _)).trans (alloc t _)
      refine cancelled hm.mem hm.callbacks rfl rfl (fun i hi => Function.update_of_ne hi _ _)
        (fun _ _ => rfl) rfl rfl fun hr => ?_
      exact Nat.le_trans (Nat.le_of_eq (hzero hr)) (Nat.zero_le _)

theorem Moves.callTopicHandler {m : Option Received} (h : c.callTopicHandler m = some c') :
    Moves t c c' := by
  unfold Context.callTopicHandler at h
  split at h
  · cases h
  · split at h
    · cases h
    · split at h <;> obtain rfl := Option.some.inj h
      · exact queue (by simp [Output.Of]) c
      · exact freeMessage t c _

/-! ## The time event of a task -/

@[simp] theorem alloc_timeouts (c : Context) : c.alloc.2.timeouts = c.timeouts := rfl

@[simp] theorem build_timeouts (c : Context) (fill : Except IotcState Message) :
    (c.build fill).2.timeouts = c.timeouts := rfl

@[simp] theorem record_timeouts (c : Context) (o : Output) : (c.record o).timeouts = c.timeouts := rfl

@[simp] theorem continueWith_timeouts (c : Context) (o : Output) (next : LayerState) :
    (c.continueWith o next).2.timeouts = c.timeouts := by
  simp only [continueWith]
  split <;> rfl

@[simp] theorem pushOnPrev_timeouts (c : Context) (id : Nat) (m : Message) :
    (c.pushOnPrev id m).2.timeouts = c.timeouts := continueWith_timeouts c _ _

@[simp] theorem connectOnNext_timeouts (c : Context) (s : IotcState) :
    (c.connectOnNext s).2.timeouts = c.timeouts := continueWith_timeouts c _ _

@[simp] theorem closeOnPrev_timeouts (c : Context) (s : IotcState) :
    (c.closeOnPrev s).2.timeouts = c.timeouts := continueWith_timeouts c _ _

@[simp] theorem freeMessage_timeouts (c : Context) (m : Option Received) :
    (c.freeMessage m).timeouts = c.timeouts := by
  unfold freeMessage
  split <;> rfl

@[simp] theorem queue_timeouts (c : Context) (o : Output) :
    (c.queue o).2.timeouts = c.timeouts := by
  simp only [queue]
  split <;> rfl

@[simp] theorem deferUsersCallback_timeouts (c : Context) (t : Task) (s : IotcState) :
    (c.deferUsersCallback t s).timeouts = c.timeouts := by
  unfold deferUsersCallback
  split
  · exact queue_timeouts c _
  · rfl

@[simp] theorem ioTimeoutsRemove_timeouts (c : Context) (id : Nat) :
    (c.ioTimeoutsRemove id).timeouts = c.timeouts := rfl

@[simp] theorem disarm_timeouts (c : Context) (id : Nat) :
    (c.disarm id).timeouts = Function.update c.timeouts id none := rfl

@[simp] theorem cancelTaskTimeout_timeouts (c : Context) (id : Nat) :
    (c.cancelTaskTimeout id).timeouts = Function.update c.timeouts id none := by
  unfold cancelTaskTimeout
  split
  · rfl
  · next h =>
    rw [armed, Bool.not_eq_true, Option.isSome_eq_false_iff, Option.isNone_iff_eq_none] at h
    rw [← h, Function.update_eq_self]

theorem callTopicHandler_timeouts {m : Option Received} (h : c.callTopicHandler m = some c') :
    c'.timeouts = c.timeouts := by
  unfold callTopicHandler at h
  split at h
  · cases h
  · split at h
    · cases h
    · split at h <;> obtain rfl := Option.some.inj h
      · exact queue_timeouts c _
      · exact freeMessage_timeouts c _

theorem armed_eq_false {c : Context} {id : Nat} : c.armed id = false ↔ c.timeouts id = none := by
  simp [armed]

end Context

/-- The pending time event belongs to the place at which the coroutine of the task waits. -/
def TaskTimeout.Fits (t : Task) : TaskTimeout → Prop
  | .resume s =>
    (∃ d, t.scenario = .publish d) ∧ t.qos ≠ .atMostOnce ∧ s = .timeout ∧ t.cs = .answer ∨
      (∃ d, t.scenario = .subscribe d) ∧
        (s = .timeout ∧ t.cs = .answer ∨ s = .resend ∧ t.cs = .resending)
  | .keepalive _ => t.scenario = .keepalive ∧ t.cs = .answer
  | .connect => t.scenario = .connect ∧ (t.cs = .sent ∨ t.cs = .answer)

/-- A pending time event of the task fits it. -/
def Task.Timed (c : Context) (t : Task) : Prop :=
  ∀ timeout, c.timeouts t.id = some timeout → timeout.Fits t

theorem Task.Timed.of_none {c : Context} {t : Task} (h : c.timeouts t.id = none) : t.Timed c := by
  intro timeout ht
  rw [h] at ht
  cases ht

/-- A task that does not wait for an answer has no pending time event, if it is not a CONNECT. -/
theorem Task.Timed.eq_none {c : Context} {t : Task} (h : t.Timed c) (hs : t.scenario ≠ .connect)
    (ha : t.cs ≠ .answer) (hr : t.cs ≠ .resending) : c.timeouts t.id = none := by
  cases ht : c.timeouts t.id with
  | none => rfl
  | some timeout =>
    have hfits := h timeout ht
    cases timeout <;> simp [TaskTimeout.Fits, hs, ha, hr] at hfits

/-! ## What becomes of the task -/

/-- The task is the same; its coroutine has gone on. -/
structure Task.Continues (t t' : Task) : Prop where
  id : t'.id = t.id
  logic : t'.logic = t.logic
  callback : t'.callback = t.callback
  qos : t'.qos = t.qos
  priority : t'.priority = t.priority
  msgId : t'.msgId = t.msgId

theorem Task.Continues.refl (t : Task) : t.Continues t := ⟨rfl, rfl, rfl, rfl, rfl, rfl⟩

theorem Task.Continues.trans {t t' t'' : Task} (h : t.Continues t') (h' : t'.Continues t'') :
    t.Continues t'' :=
  ⟨h'.id.trans h.id, h'.logic.trans h.logic, h'.callback.trans h.callback, h'.qos.trans h.qos,
    h'.priority.trans h.priority, h'.msgId.trans h.msgId⟩

/-- The coroutine has finalised its task. -/
def Exit.final : Exit → Bool
  | .keep _ => false
  | _ => true

/-- **What a run of the coroutine of `t` in `c` can have done.** The task is kept with its data and
a time event that fits it, or it is finalised with none pending. -/
structure Outcome (c : Context) (t : Task) (r : CoResult) : Prop where
  context : c.Moves t r.context
  task : t.Continues r.task
  scenario : r.exit.final = false → r.task.scenario = t.scenario
  timed : t.Timed c → r.exit.final = false → r.task.Timed r.context
  unarmed : t.Timed c → r.exit.final = true → r.context.timeouts t.id = none
  subscribes : ∀ s, r.exit = .finalizeThenReset s → ∃ d, t.scenario = .subscribe d

namespace Outcome

variable {c c' : Context} {t t' : Task} {r : CoResult}

theorem keep {s : IotcState} (hc : c.Moves t c') (ht : t.Continues t')
    (hs : t'.scenario = t.scenario) (hd : t.Timed c → t'.Timed c') :
    Outcome c t ⟨c', t', .keep s⟩ where
  context := hc
  task := ht
  scenario _ := hs
  timed h _ := hd h
  unarmed _ h := by cases h
  subscribes _ h := by cases h

theorem finalize {s : Option IotcState} (hc : c.Moves t c') (ht : t.Continues t')
    (hd : t.Timed c → c'.timeouts t.id = none) : Outcome c t ⟨c', t', .finalize s⟩ where
  context := hc
  task := ht
  scenario h := by cases h
  timed _ h := by cases h
  unarmed h _ := hd h
  subscribes _ h := by cases h

/-- A run that goes on after the context has changed. -/
theorem after_context (h : Outcome c' t r) (hc : c.Moves t c') (hd : t.Timed c → t.Timed c') :
    Outcome c t r where
  context := hc.trans h.context
  task := h.task
  scenario := h.scenario
  timed ht := h.timed (hd ht)
  unarmed ht := h.unarmed (hd ht)
  subscribes := h.subscribes

theorem after_unarmed (h : Outcome c' t r) (hc : c.Moves t c') (hd : c'.timeouts t.id = none) :
    Outcome c t r :=
  h.after_context hc fun _ => .of_none hd

/-- The state of the session plays no part in this. -/
theorem of_session {s : SessionState} (h : Outcome c { t with sessionState := s } r) :
    Outcome c t r where
  context := ⟨h.context.mem, h.context.callbacks, h.context.layerData, h.context.connection,
    h.context.timeouts, h.context.ioTimeouts, h.context.registered, h.context.keepaliveEvent,
    h.context.out⟩
  task := ⟨h.task.id, h.task.logic, h.task.callback, h.task.qos, h.task.priority, h.task.msgId⟩
  scenario := h.scenario
  timed ht := h.timed ht
  unarmed ht := h.unarmed ht
  subscribes := h.subscribes

end Outcome

/-! ## Parts of the coroutines -/

section Commands

variable {c : Context} {t : Task} {a : Args} {r : CoResult}

theorem sendAndYield_eq (c : Context) (t : Task) (m : Message) :
    sendAndYield c t m =
      ⟨(c.pushOnPrev t.id m).2, { t with cs := .sent }, .keep (c.pushOnPrev t.id m).1⟩ := rfl

/-- A message is handed over while no time event is pending, or by a CONNECT. -/
theorem sendAndYield_outcome {m : Message} (hm : t.Sends m)
    (h : t.Timed c → c.timeouts t.id = none ∨
      t.scenario = .connect ∧ c.timeouts t.id = some .connect) :
    Outcome c t (sendAndYield c t m) := by
  rw [sendAndYield_eq]
  refine .keep (.pushOnPrev c hm) ⟨rfl, rfl, rfl, rfl, rfl, rfl⟩ rfl fun ht => ?_
  rcases h ht with hn | ⟨hs, hn⟩
  · exact .of_none (by simpa using hn)
  · intro timeout htimeout
    simp only [Context.pushOnPrev_timeouts, hn, Option.some.injEq] at htimeout
    exact htimeout ▸ ⟨hs, .inl rfl⟩

section Build

variable {c' : Context} {fill e : Except IotcState Message}

/-- A run that goes on after a message has been built. -/
theorem Outcome.after_build (hb : c.build fill = (e, c')) (h : Outcome c' t r) : Outcome c t r := by
  obtain rfl : (c.build fill).2 = c' := by rw [hb]
  exact h.after_context (.build t c fill) id

theorem unarmed_build (hb : c.build fill = (e, c')) (h : t.Timed c → c.timeouts t.id = none) :
    t.Timed c' → c'.timeouts t.id = none := by
  obtain rfl : (c.build fill).2 = c' := by rw [hb]
  exact h

theorem build_ok {m : Message} (hb : c.build fill = (.ok m, c')) : fill = .ok m := by
  simp only [Context.build] at hb
  obtain ⟨hfill, -⟩ := Prod.mk.inj hb
  split at hfill
  · exact hfill
  · cases hfill

end Build

theorem publishData_eq_some {d : PublishData} :
    t.publishData = some d ↔ t.scenario = .publish (some d) := by
  unfold Task.publishData
  cases t.scenario <;> simp

theorem subscribeData_eq_some {d : SubscribeData} :
    t.subscribeData = some d ↔ t.scenario = .subscribe (some d) := by
  unfold Task.subscribeData
  cases t.scenario <;> simp

/-! ### PUBLISH -/

/-- A PUBLISH of QoS 0 has no time event. -/
theorem Task.Timed.publishQ0 {d : Option PublishData} (h : t.Timed c) (hs : t.scenario = .publish d)
    (hq : t.qos = .atMostOnce) : c.timeouts t.id = none := by
  cases ht : c.timeouts t.id with
  | none => rfl
  | some timeout =>
    have hfits := h timeout ht
    cases timeout <;> simp [TaskTimeout.Fits, hs, hq] at hfits

theorem publishQ0Exit_outcome {s : IotcState} (hd : t.Timed c → c.timeouts t.id = none)
    (h : publishQ0Exit c t s = some r) : Outcome c t r := by
  unfold publishQ0Exit at h
  split at h
  · cases h
  · obtain rfl := Option.some.inj h
    exact .finalize (.deferUsersCallback t c s) ⟨rfl, rfl, rfl, rfl, rfl, rfl⟩ fun ht => by
      simpa using hd ht

theorem doMqttPublishQ0_outcome {d : Option PublishData} (hs : t.scenario = .publish d)
    (hq : t.qos = .atMostOnce) (h : doMqttPublishQ0 c t a = some r) : Outcome c t r := by
  unfold doMqttPublishQ0 at h
  have hd (ht : t.Timed c) : c.timeouts t.id = none := ht.publishQ0 hs hq
  split at h
  · cases h
  · split at h
    · obtain rfl := Option.some.inj h
      exact .keep (.refl t c) (.refl t) rfl id
    · split at h
      · exact publishQ0Exit_outcome hd h
      · split at h
        · cases h
        · next hdata =>
          split at h
          · next m _ hb =>
            obtain rfl := Option.some.inj h
            have hm : t.Sends m := by
              simpa [Task.Sends, publishData_eq_some.mp hdata, hq] using build_ok hb
            exact .after_build hb (sendAndYield_outcome hm fun ht => .inl (unarmed_build hb hd ht))
          · next hb => exact .after_build hb (publishQ0Exit_outcome (unarmed_build hb hd) h)

theorem publishQ1Err_outcome (s : IotcState) (msg : Option Received)
    (hd : t.Timed c → c.timeouts t.id = none) : Outcome c t (publishQ1Err c t s msg) :=
  .finalize ((Context.Moves.deferUsersCallback t c s).trans (.freeMessage t _ msg))
    ⟨rfl, rfl, rfl, rfl, rfl, rfl⟩ fun ht => by simpa using hd ht

theorem publishQ1Send_outcome {s : IotcState} (hq : t.qos ≠ .atMostOnce)
    (hd : t.Timed c → c.timeouts t.id = none) (h : publishQ1Send c t s = some r) :
    Outcome c t r := by
  unfold publishQ1Send at h
  split at h
  · cases h
  · next hdata =>
    split at h
    · next m _ hb =>
      obtain rfl := Option.some.inj h
      have hm : t.Sends m := by
        simp only [Task.Sends, publishData_eq_some.mp hdata]
        exact ⟨_, build_ok hb⟩
      exact .after_build hb (sendAndYield_outcome hm fun ht => .inl (unarmed_build hb hd ht))
    · next hb =>
      obtain rfl := Option.some.inj h
      exact .after_build hb (publishQ1Err_outcome _ none (unarmed_build hb hd))

/-- The wait for the answer, with its time event pending if the connection is kept alive. -/
theorem armAnswer_outcome {c' : Context} {state : SessionState} {d : Option PublishData}
    (hs : t.scenario = .publish d) (hq : t.qos ≠ .atMostOnce) (hm : c.Moves t c')
    (ht : c'.timeouts t.id = none ∨ c'.timeouts t.id = some (.resume .timeout)) :
    Outcome c t ⟨c', { t with sessionState := state, cs := .answer }, .keep .ok⟩ := by
  refine .keep hm ⟨rfl, rfl, rfl, rfl, rfl, rfl⟩ rfl fun _ => ?_
  rcases ht with ht | ht
  · exact .of_none ht
  · intro timeout htimeout
    rw [show Task.id _ = t.id from rfl, ht, Option.some.injEq] at htimeout
    exact htimeout ▸ .inl ⟨⟨d, hs⟩, hq, rfl, rfl⟩

theorem executeTaskIn_armed {c' : Context} {id : Nat} {timeout : TaskTimeout}
    (h : c.executeTaskIn id timeout = some (.ok, c')) : c'.timeouts id = some timeout := by
  rcases Context.executeIn_eq_some h with ⟨-, -, rfl⟩ | ⟨h, -⟩
  · simp
  · cases h

theorem executeTaskIn_timeouts {s : IotcState} {c' : Context} {id : Nat} {timeout : TaskTimeout}
    (h : c.executeTaskIn id timeout = some (s, c')) (hs : s ≠ .ok) : c'.timeouts = c.timeouts := by
  rcases Context.executeIn_eq_some h with ⟨rfl, -⟩ | ⟨-, rfl | rfl⟩
  · exact absurd rfl hs
  · rfl
  · rfl

theorem publishQ1Sent_outcome {s : IotcState} {msg : Option Received} {d : Option PublishData}
    (hs : t.scenario = .publish d) (hq : t.qos ≠ .atMostOnce) (hcs : t.cs = .sent)
    (h : publishQ1Sent c t s msg = some r) : Outcome c t r := by
  unfold publishQ1Sent at h
  split at h
  · dsimp only at h
    split at h
    · cases h
    · next harmed =>
      have hnone : c.timeouts t.id = none :=
        Context.armed_eq_false.mp (Bool.not_eq_true _ ▸ harmed)
      split at h
      · split at h
        · cases h
        · next hin =>
          obtain rfl := Option.some.inj h
          exact armAnswer_outcome hs hq (.executeTaskIn (by simp) hin) (.inr (executeTaskIn_armed hin))
        · next hne hin =>
          obtain rfl := Option.some.inj h
          have hu := executeTaskIn_timeouts hin hne
          refine .after_unarmed (.of_session (publishQ1Err_outcome _ msg fun _ => ?_))
            (.executeTaskIn (by simp) hin) (by rw [hu, hnone])
          exact hu ▸ hnone
      · obtain rfl := Option.some.inj h
        exact armAnswer_outcome hs hq (.refl t c) (.inl hnone)
  · refine publishQ1Send_outcome hq (fun ht => ht.eq_none ?_ ?_ ?_) h <;> simp [hs, hcs]

theorem publishQ1Answer_outcome {s : IotcState} {msg : Option Received} (hq : t.qos ≠ .atMostOnce)
    (h : publishQ1Answer c t s msg = some r) : Outcome c t r := by
  have hcancel : (c.cancelTaskTimeout t.id).timeouts t.id = none := by simp
  unfold publishQ1Answer at h
  split at h
  · split at h
    · cases h
    · next harmed =>
      refine publishQ1Send_outcome hq (fun _ => ?_) h
      exact Context.armed_eq_false.mp (Bool.not_eq_true _ ▸ harmed)
  · dsimp only at h
    refine .after_unarmed ?_ (.cancelTaskTimeout t c) hcancel
    split at h
    · exact publishQ1Send_outcome hq (fun _ => hcancel) h
    · split at h
      · obtain rfl := Option.some.inj h
        exact publishQ1Err_outcome _ msg fun _ => hcancel
      · split at h
        · cases h
        · split at h
          · obtain rfl := Option.some.inj h
            exact publishQ1Err_outcome _ _ fun _ => hcancel
          · split at h
            · cases h
            · obtain rfl := Option.some.inj h
              exact .finalize ((Context.Moves.deferUsersCallback t _ s).trans (.freeMessage t _ _))
                ⟨rfl, rfl, rfl, rfl, rfl, rfl⟩ fun _ => by simp

theorem doMqttPublishQ1_outcome {d : Option PublishData} (hs : t.scenario = .publish d)
    (hq : t.qos ≠ .atMostOnce) (h : doMqttPublishQ1 c t a = some r) : Outcome c t r := by
  unfold doMqttPublishQ1 at h
  split at h
  · obtain rfl := Option.some.inj h
    exact .keep ((Context.Moves.cancelTaskTimeout t c).trans (.freeMessage t _ _))
      ⟨rfl, rfl, rfl, rfl, rfl, rfl⟩ rfl fun _ => .of_none (by simp)
  · split at h
    · next hcs => exact publishQ1Sent_outcome hs hq hcs h
    · exact publishQ1Answer_outcome hq h
    · split at h
      · cases h
      · next harmed =>
        refine publishQ1Send_outcome hq (fun _ => ?_) h
        exact Context.armed_eq_false.mp (Bool.not_eq_true _ ▸ harmed)

/-! ### SUBSCRIBE -/

theorem subscribeErr_outcome {d : Option SubscribeData} (hs : t.scenario = .subscribe d)
    (s : IotcState) (msg : Option Received) (hd : t.Timed c → c.timeouts t.id = none) :
    Outcome c t (subscribeErr c t s msg) where
  context := .freeMessage t c msg
  task := .refl t
  scenario h := by cases h
  timed _ h := by cases h
  unarmed ht _ := by simpa [subscribeErr] using hd ht
  subscribes _ _ := ⟨d, hs⟩

theorem subscribeSend_outcome {d : Option SubscribeData} (hs : t.scenario = .subscribe d)
    {s : IotcState} (hd : t.Timed c → c.timeouts t.id = none) (h : subscribeSend c t s = some r) :
    Outcome c t r := by
  unfold subscribeSend at h
  split at h
  · cases h
  · next hdata =>
    split at h
    · next m _ hb =>
      obtain rfl := Option.some.inj h
      have hm : t.Sends m := by
        simp only [Task.Sends, subscribeData_eq_some.mp hdata]
        exact ⟨_, (Except.ok.inj (build_ok hb)).symm⟩
      exact .after_build hb (sendAndYield_outcome hm fun ht => .inl (unarmed_build hb hd ht))
    · next hb =>
      obtain rfl := Option.some.inj h
      exact .after_build hb (subscribeErr_outcome hs _ none (unarmed_build hb hd))

/-- A SUBSCRIBE waits with a time event pending that fits its place, or with none. -/
theorem armSubscribe_outcome {c' : Context} {state : SessionState} {cs : Cs}
    {d : Option SubscribeData} (hs : t.scenario = .subscribe d) (hm : c.Moves t c')
    (ht : c'.timeouts t.id = none ∨
      c'.timeouts t.id = some (.resume .timeout) ∧ cs = .answer ∨
      c'.timeouts t.id = some (.resume .resend) ∧ cs = .resending) :
    Outcome c t ⟨c', { t with sessionState := state, cs }, .keep .ok⟩ := by
  refine .keep hm ⟨rfl, rfl, rfl, rfl, rfl, rfl⟩ rfl fun _ => ?_
  rcases ht with ht | ⟨ht, rfl⟩ | ⟨ht, rfl⟩
  · exact .of_none ht
  · intro timeout htimeout
    rw [show Task.id _ = t.id from rfl, ht, Option.some.injEq] at htimeout
    exact htimeout ▸ .inr ⟨⟨d, hs⟩, .inl ⟨rfl, rfl⟩⟩
  · intro timeout htimeout
    rw [show Task.id _ = t.id from rfl, ht, Option.some.injEq] at htimeout
    exact htimeout ▸ .inr ⟨⟨d, hs⟩, .inr ⟨rfl, rfl⟩⟩

theorem subscribeSent_outcome {d : Option SubscribeData} (hs : t.scenario = .subscribe d)
    {s : IotcState} {msg : Option Received} (h : subscribeSent c t s msg = some r) :
    Outcome c t r := by
  unfold subscribeSent at h
  split at h
  · cases h
  · next harmed =>
    have hnone : c.timeouts t.id = none := Context.armed_eq_false.mp (Bool.not_eq_true _ ▸ harmed)
    split at h
    · dsimp only at h
      split at h
      · split at h
        · cases h
        · next hin =>
          obtain rfl := Option.some.inj h
          exact armSubscribe_outcome hs (.executeTaskIn (by simp) hin)
            (.inr (.inl ⟨executeTaskIn_armed hin, rfl⟩))
        · next hne hin =>
          obtain rfl := Option.some.inj h
          have hu := executeTaskIn_timeouts hin hne
          let written : Task := { t with sessionState := t.sessionState.afterWrite }
          refine .after_unarmed (.of_session (subscribeErr_outcome (t := written) hs _ msg
            fun _ => ?_)) (.executeTaskIn (by simp) hin) (by rw [hu, hnone])
          exact hu ▸ hnone
      · obtain rfl := Option.some.inj h
        exact armSubscribe_outcome hs (.refl t c) (.inl hnone)
    · split at h
      · cases h
      · next hin =>
        obtain rfl := Option.some.inj h
        exact armSubscribe_outcome hs (.executeTaskIn (by simp) hin)
          (.inr (.inr ⟨executeTaskIn_armed hin, rfl⟩))
      · next hne hin =>
        obtain rfl := Option.some.inj h
        have hu := executeTaskIn_timeouts hin hne
        refine .after_unarmed (subscribeErr_outcome hs _ msg fun _ => ?_)
          (.executeTaskIn (by simp) hin) (by rw [hu, hnone])
        exact hu ▸ hnone

theorem subscribeSuback_outcome {d : Option SubscribeData} (hs : t.scenario = .subscribe d)
    (e : SubscribeData) (status : UInt8) (hd : t.Timed c → c.timeouts t.id = none) :
    Outcome c t (subscribeSuback c t e status) := by
  let granted : Context :=
    { c.alloc.2 with handlersForTopics := c.alloc.2.handlersForTopics ++ [⟨t.id, e⟩] }
  -- the callback, once the memory for the handler is there
  have hok (c c' : Context) (s : IotcState) (hd : t.Timed c → c.timeouts t.id = none)
      (hq : c.queue (.subscribed t.id e.handler status s) = (true, c')) :
      Outcome c t ⟨c', { t.freeData with cs := .exit }, .finalize none⟩ := by
    obtain rfl : (c.queue _).2 = c' := by rw [hq]
    exact .finalize (.queue (by simp [Output.Of]) c) ⟨rfl, rfl, rfl, rfl, rfl, rfl⟩ fun ht => by
      simpa using hd ht
  have herr (c c' : Context) (s : IotcState) (hd : t.Timed c → c.timeouts t.id = none)
      (hq : c.queue (.subscribed t.id e.handler status s) = (false, c')) :
      Outcome c t (subscribeErr c' t .outOfMemory none) := by
    obtain rfl : (c.queue _).2 = c' := by rw [hq]
    refine (subscribeErr_outcome hs _ none fun ht => ?_).after_context
      (.queue (by simp [Output.Of]) c) fun ht => ?_
    · simpa using hd fun timeout h => ht timeout (by simpa using h)
    · exact .of_none (by simpa using hd ht)
  unfold subscribeSuback
  by_cases hg : status ≠ 0x80
  · simp only [hg, if_true, ne_eq, not_false_eq_true]
    split
    · refine (?_ : Outcome granted t _).after_context
        (.of_quiet (List.tail_suffix _) (List.suffix_refl _) rfl rfl rfl rfl rfl rfl) id
      split
      · next hq => exact hok granted _ _ hd hq
      · next hq => exact herr granted _ _ hd hq
    · exact (subscribeErr_outcome (c := c.alloc.2) hs _ none hd).after_context (.alloc t c) id
  · simp only [hg, if_false, if_true]
    split
    · next hq => exact hok c _ _ hd hq
    · next hq => exact herr c _ _ hd hq

theorem subscribeAnswer_outcome {d : Option SubscribeData} (hs : t.scenario = .subscribe d)
    {s : IotcState} {msg : Option Received} (h : subscribeAnswer c t s msg = some r) :
    Outcome c t r := by
  have hcancel : (c.cancelTaskTimeout t.id).timeouts t.id = none := by simp
  unfold subscribeAnswer at h
  split at h
  · split at h
    · cases h
    · next harmed =>
      refine subscribeSend_outcome hs (fun _ => ?_) h
      exact Context.armed_eq_false.mp (Bool.not_eq_true _ ▸ harmed)
  · dsimp only at h
    refine .after_unarmed ?_ (.cancelTaskTimeout t c) hcancel
    split at h
    · exact subscribeSend_outcome hs (fun _ => hcancel) h
    · split at h
      · obtain rfl := Option.some.inj h
        exact subscribeErr_outcome hs _ msg fun _ => hcancel
      · split at h
        · cases h
        · split at h
          · obtain rfl := Option.some.inj h
            exact subscribeErr_outcome hs _ _ fun _ => hcancel
          · split at h
            · obtain rfl := Option.some.inj h
              refine (subscribeSuback_outcome hs _ _ fun _ => ?_).after_unarmed
                (.freeMessage t _ _) ?_ <;> simp
            · cases h

theorem doMqttSubscribe_outcome {d : Option SubscribeData} (hs : t.scenario = .subscribe d)
    (h : doMqttSubscribe c t a = some r) : Outcome c t r := by
  unfold doMqttSubscribe at h
  split at h
  · obtain rfl := Option.some.inj h
    exact .keep ((Context.Moves.cancelTaskTimeout t c).trans (.freeMessage t _ _)) (.refl t) rfl
      fun _ => .of_none (by simp)
  · split at h
    · exact subscribeSent_outcome hs h
    · exact subscribeAnswer_outcome hs h
    · split at h
      · cases h
      · next hstart =>
        refine subscribeSend_outcome hs (fun _ => Context.armed_eq_false.mp ?_) h
        simpa using (not_or.mp hstart).1
    · next h₁ h₂ h₃ =>
      exact subscribeSend_outcome hs (fun ht => ht.eq_none (by simp [hs]) h₂ h₃) h

/-! ### CONNECT -/

/-- The exit cancels the timeout, so that it does not matter what has happened before. -/
theorem connectExit_outcome {c' : Context} (hm : c.Moves t c') (msg : Option Received) :
    Outcome c t (connectExit c' t msg) :=
  .finalize (hm.trans ((Context.Moves.freeMessage t c' msg).trans (.cancelTaskTimeout t _)))
    ⟨rfl, rfl, rfl, rfl, rfl, rfl⟩ fun _ => by simp

theorem ioTimeoutsCreate_armed {c' : Context} {id : Nat}
    (h : c.ioTimeoutsCreate id = some (.ok, c')) : c'.timeouts id = some .connect := by
  unfold Context.ioTimeoutsCreate at h
  split at h
  · cases h
  · split at h
    · next hin =>
      have harmed := executeTaskIn_armed hin
      dsimp only at h
      split at h <;> obtain ⟨he, rfl⟩ := Prod.mk.inj (Option.some.inj h)
      · exact harmed
      · cases he
    · exact executeTaskIn_armed h

theorem connectStart_outcome (hs : t.scenario = .connect) (h : connectStart c t = some r) :
    Outcome c t r := by
  unfold connectStart at h
  split at h
  · next hb =>
    obtain rfl := Option.some.inj h
    exact .after_build hb (connectExit_outcome (.refl t _) none)
  · next m _ hb =>
    have hm : t.Sends m := by
      simp only [Task.Sends, hs]
      exact ⟨_, build_ok hb⟩
    refine .after_build hb ?_
    split at h
    · split at h
      · cases h
      · next hin =>
        obtain rfl := Option.some.inj h
        rw [sendAndYield_eq]
        refine .keep ((Context.Moves.ioTimeoutsCreate hin).trans (.pushOnPrev _ hm))
          ⟨rfl, rfl, rfl, rfl, rfl, rfl⟩ rfl fun _ timeout htimeout => ?_
        simp only [Context.pushOnPrev_timeouts, ioTimeoutsCreate_armed hin,
          Option.some.injEq] at htimeout
        exact htimeout ▸ ⟨hs, .inl rfl⟩
      · next hin =>
        obtain rfl := Option.some.inj h
        exact .finalize (.ioTimeoutsCreate_cancel (fun h => by simp_all) hin)
          ⟨rfl, rfl, rfl, rfl, rfl, rfl⟩ fun _ => by simp
    · split at h
      · cases h
      · next harmed =>
        obtain rfl := Option.some.inj h
        have hnone := Context.armed_eq_false.mp (Bool.not_eq_true _ ▸ harmed)
        exact sendAndYield_outcome hm fun _ => .inl hnone

theorem connectSent_outcome {s : IotcState} (hs : t.scenario = .connect) (msg : Option Received) :
    Outcome c t (connectSent c t s msg) := by
  unfold connectSent
  split
  · refine .keep (.refl t c) ⟨rfl, rfl, rfl, rfl, rfl, rfl⟩ rfl fun ht timeout htimeout => ?_
    have hfits := ht timeout htimeout
    cases timeout <;> simp_all [TaskTimeout.Fits]
  · exact connectExit_outcome (.connectOnNext t c s) msg

theorem executeKeepaliveIn_timeouts {c' : Context} {s : IotcState}
    (h : c.executeKeepaliveIn = some (s, c')) : c'.timeouts = c.timeouts := by
  rcases Context.executeIn_eq_some h with ⟨-, -, rfl⟩ | ⟨-, rfl | rfl⟩ <;> rfl

theorem connectAccepted_outcome {s : IotcState} (hs : t.scenario = .connect)
    (hd : c.timeouts t.id = none) (h : connectAccepted c t s = some r) : Outcome c t r := by
  -- the connection is opened, and the task ends
  have hopened (c : Context) (s : IotcState) (hd : c.timeouts t.id = none) :
      Outcome c t
        ⟨(Context.connectOnNext
            { c with connection := { c.connection with connectionState := .opened } } s).2,
          { t with cs := .exit }, .finalize none⟩ := by
    have hm : c.Moves t { c with connection := { c.connection with connectionState := .opened } } :=
      { Context.Moves.refl t c with connection := .inr ⟨hs, rfl⟩ }
    exact .finalize (hm.trans (.connectOnNext t _ s)) ⟨rfl, rfl, rfl, rfl, rfl, rfl⟩ fun _ => by
      simpa using hd
  unfold connectAccepted at h
  split at h
  · split at h
    · cases h
    · next hin =>
      obtain rfl := Option.some.inj h
      have hd' := (congrFun (executeKeepaliveIn_timeouts hin) t.id).trans hd
      exact (hopened _ .ok hd').after_unarmed (.executeKeepaliveIn (.inl hs) hin) hd'
    · next hin =>
      obtain rfl := Option.some.inj h
      exact connectExit_outcome (.executeKeepaliveIn (.inl hs) hin) none
  · obtain rfl := Option.some.inj h
    exact hopened c s hd

theorem connectAnswer_outcome {s : IotcState} {msg : Option Received} (hs : t.scenario = .connect)
    (h : connectAnswer c t s msg = some r) : Outcome c t r := by
  unfold connectAnswer at h
  split at h
  · cases h
  · next m =>
    split at h
    · dsimp only at h
      refine .after_unarmed ?_ (.cancelTaskTimeout t c) (by simp)
      split at h
      · refine .after_unarmed ?_ (.freeMessage t _ (some m)) (by simp)
        exact connectAccepted_outcome hs (by simp) h
      · obtain rfl := Option.some.inj h
        exact connectExit_outcome (.connectOnNext t _ _) _
    · obtain rfl := Option.some.inj h
      exact connectExit_outcome (.refl t c) _

theorem doMqttConnect_outcome (hs : t.scenario = .connect) (h : doMqttConnect c t a = some r) :
    Outcome c t r := by
  unfold doMqttConnect at h
  split at h
  · obtain rfl := Option.some.inj h
    exact .keep ((Context.Moves.freeMessage t c _).trans (.cancelTaskTimeout t _))
      ⟨rfl, rfl, rfl, rfl, rfl, rfl⟩ rfl fun _ => .of_none (by simp)
  · split at h
    · obtain rfl := Option.some.inj h
      exact connectSent_outcome hs _
    · exact connectAnswer_outcome hs h
    · exact connectStart_outcome hs h

theorem doMqttConnectTimeout_outcome (h : doMqttConnectTimeout c t = some r) : Outcome c t r := by
  unfold doMqttConnectTimeout at h
  dsimp only at h
  split at h
  · cases h
  · next harmed =>
    obtain rfl := Option.some.inj h
    have hnone := Context.armed_eq_false.mp (Bool.not_eq_true _ ▸ harmed)
    exact .finalize ((Context.Moves.ioTimeoutsRemove t (c := c) hnone).trans (.connectOnNext t _ _))
      ⟨rfl, rfl, rfl, rfl, rfl, rfl⟩ fun _ => by simpa using hnone

/-! ### KEEPALIVE -/

theorem keepaliveErr_outcome (s : IotcState) (msg : Option Received)
    (hd : t.Timed c → c.timeouts t.id = none) : Outcome c t (keepaliveErr c t s msg) :=
  .finalize (.freeMessage t c msg) ⟨rfl, rfl, rfl, rfl, rfl, rfl⟩ fun ht => by simpa using hd ht

theorem keepaliveSent_outcome {msg : Option Received} (hs : t.scenario = .keepalive)
    (h : keepaliveSent c t msg = some r) : Outcome c t r := by
  unfold keepaliveSent at h
  split at h
  · cases h
  · next harmed =>
    have hnone : c.timeouts t.id = none := Context.armed_eq_false.mp (Bool.not_eq_true _ ▸ harmed)
    split at h
    · cases h
    · next hin =>
      obtain rfl := Option.some.inj h
      refine .keep (.executeTaskIn (by simp) hin) ⟨rfl, rfl, rfl, rfl, rfl, rfl⟩ rfl
        fun _ timeout htimeout => ?_
      obtain rfl := Option.some.inj ((executeTaskIn_armed hin).symm.trans htimeout)
      exact ⟨hs, rfl⟩
    · next hne hin =>
      obtain rfl := Option.some.inj h
      have hu := executeTaskIn_timeouts hin hne
      refine .after_unarmed (keepaliveErr_outcome _ msg fun _ => ?_) (.executeTaskIn (by simp) hin)
        (by rw [hu, hnone])
      rw [hu, hnone]

theorem keepaliveAnswer_outcome {s : IotcState} {msg : Option Received} (hs : t.scenario = .keepalive)
    (h : keepaliveAnswer c t s msg = some r) : Outcome c t r := by
  have hcancel : (c.cancelTaskTimeout t.id).timeouts t.id = none := by simp
  unfold keepaliveAnswer at h
  split at h
  · split at h
    · cases h
    · next harmed =>
      have hnone : c.timeouts t.id = none := Context.armed_eq_false.mp (Bool.not_eq_true _ ▸ harmed)
      change some ⟨(c.closeOnPrev .timeout).2, { t with cs := .exit },
        .keep (c.closeOnPrev .timeout).1⟩ = some r at h
      obtain rfl := Option.some.inj h
      exact .keep (.closeOnPrev t c _) ⟨rfl, rfl, rfl, rfl, rfl, rfl⟩ rfl fun _ =>
        .of_none (by simpa using hnone)
  · dsimp only at h
    refine .after_unarmed ?_ (.cancelTaskTimeout t c) hcancel
    split at h
    · obtain rfl := Option.some.inj h
      exact .finalize (.refl t _) ⟨rfl, rfl, rfl, rfl, rfl, rfl⟩ fun _ => hcancel
    · split at h
      · cases h
      · split at h
        · obtain rfl := Option.some.inj h
          exact keepaliveErr_outcome _ _ fun _ => hcancel
        · split at h
          · split at h
            · cases h
            · next hin =>
              obtain rfl := Option.some.inj h
              have hset := Context.Moves.executeKeepaliveIn (.inr hs) hin
              refine .finalize (hset.trans (.freeMessage t _ _))
                ⟨rfl, rfl, rfl, rfl, rfl, rfl⟩ fun _ => ?_
              rw [Context.freeMessage_timeouts, executeKeepaliveIn_timeouts hin, hcancel]
            · next hin =>
              obtain rfl := Option.some.inj h
              have hd := (congrFun (executeKeepaliveIn_timeouts hin) t.id).trans hcancel
              exact (keepaliveErr_outcome _ _ fun _ => hd).after_unarmed
                (.executeKeepaliveIn (.inr hs) hin) hd
          · obtain rfl := Option.some.inj h
            exact .finalize (.freeMessage t _ _) ⟨rfl, rfl, rfl, rfl, rfl, rfl⟩ fun _ => by simp

theorem doMqttKeepaliveTask_outcome (hs : t.scenario = .keepalive)
    (h : doMqttKeepaliveTask c t a = some r) : Outcome c t r := by
  unfold doMqttKeepaliveTask at h
  split at h
  · obtain rfl := Option.some.inj h
    exact .keep (.freeMessage t c _) (.refl t) rfl fun ht timeout htimeout =>
      ht timeout (by simpa using htimeout)
  · split at h
    · exact keepaliveSent_outcome hs h
    · exact keepaliveAnswer_outcome hs h
    · next hsent hanswer =>
      have hd (ht : t.Timed c) : c.timeouts t.id = none := by
        cases htimeout : c.timeouts t.id with
        | none => rfl
        | some timeout =>
          have hfits := ht timeout htimeout
          cases timeout <;> simp_all [TaskTimeout.Fits]
      split at h
      · next m _ hb =>
        obtain rfl := Option.some.inj h
        have hm : t.Sends m := by
          simpa [Task.Sends, hs] using (Except.ok.inj (build_ok hb)).symm
        exact .after_build hb (sendAndYield_outcome hm fun ht => .inl (unarmed_build hb hd ht))
      · next hb =>
        obtain rfl := Option.some.inj h
        exact .after_build hb (keepaliveErr_outcome _ none (unarmed_build hb hd))

/-! ### SHUTDOWN and the PUBLISH of the server -/

/-- A task of these kinds has no time event. -/
theorem Task.Timed.plain (h : t.Timed c) (hs : t.scenario = .shutdown ∨ t.scenario = .puback) :
    c.timeouts t.id = none := by
  cases ht : c.timeouts t.id with
  | none => rfl
  | some timeout =>
    have hfits := h timeout ht
    rcases hs with hs | hs <;> cases timeout <;> simp [TaskTimeout.Fits, hs] at hfits

@[simp] theorem close_timeouts (c : Context) (s : IotcState) :
    (close c s).2.timeouts = c.timeouts := by
  unfold close
  split <;> exact Context.continueWith_timeouts c _ _

theorem close_moves (t : Task) (c : Context) (s : IotcState) : c.Moves t (close c s).2 := by
  unfold close
  split
  · exact .closeOnPrev t c s
  · exact .closeExternallyOnThis t c s

theorem doShutdown_outcome (hs : t.scenario = .shutdown) (h : doShutdown c t a = some r) :
    Outcome c t r := by
  unfold doShutdown at h
  split at h
  · obtain rfl := Option.some.inj h
    exact .keep (.freeMessage t c _) (.refl t) rfl fun ht => .of_none (by simpa using ht.plain (.inl hs))
  · split at h
    · obtain rfl := Option.some.inj h
      exact .finalize (close_moves t c _) ⟨rfl, rfl, rfl, rfl, rfl, rfl⟩ fun ht => by
        simpa using ht.plain (.inl hs)
    · split at h
      · next m _ hb =>
        obtain rfl := Option.some.inj h
        have hm : t.Sends m := by
          simpa [Task.Sends, hs] using (Except.ok.inj (build_ok hb)).symm
        exact .after_build hb (sendAndYield_outcome hm fun ht => .inl (ht.plain (.inl hs)))
      · next hb =>
        obtain rfl := Option.some.inj h
        exact .after_build hb (.keep (.refl t _) (.refl t) rfl id)

theorem publishQ1RecievedSend_outcome (hs : t.scenario = .puback) :
    Outcome c t (publishQ1RecievedSend c t) := by
  unfold publishQ1RecievedSend
  split
  · next m _ hb =>
    have hm : t.Sends m := by
      simpa [Task.Sends, hs] using (Except.ok.inj (build_ok hb)).symm
    exact .after_build hb (sendAndYield_outcome hm fun ht => .inl (ht.plain (.inr hs)))
  · next hb =>
    exact .after_build hb (.keep (.refl t _) ⟨rfl, rfl, rfl, rfl, rfl, rfl⟩ rfl fun ht =>
      .of_none (ht.plain (.inr hs)))

theorem onPublishQ1Recieved_outcome (hs : t.scenario = .puback)
    (h : onPublishQ1Recieved c t a = some r) : Outcome c t r := by
  have hd (ht : t.Timed c) : c.timeouts t.id = none := ht.plain (.inr hs)
  unfold onPublishQ1Recieved at h
  split at h
  · obtain rfl := Option.some.inj h
    exact .keep (.freeMessage t c _) ⟨rfl, rfl, rfl, rfl, rfl, rfl⟩ rfl fun ht =>
      .of_none (by simpa using hd ht)
  · split at h
    · split at h
      · split at h
        · next c' hcall =>
          obtain rfl := Option.some.inj h
          refine .finalize (.callTopicHandler hcall) (.refl t) fun ht => ?_
          rw [Context.callTopicHandler_timeouts hcall]
          exact hd ht
        · cases h
      · obtain rfl := Option.some.inj h
        exact publishQ1RecievedSend_outcome hs
    · split at h
      · cases h
      · obtain rfl := Option.some.inj h
        exact publishQ1RecievedSend_outcome hs

/-! ## All coroutines -/

theorem coroutine_outcome (h : coroutine t c t a = some r) : Outcome c t r := by
  cases hs : t.scenario with
  | connect => exact doMqttConnect_outcome hs (by simpa only [coroutine, hs] using h)
  | publish d =>
    by_cases hq : t.qos = .atMostOnce
    · exact doMqttPublishQ0_outcome hs hq (by simpa only [coroutine, hs, hq] using h)
    · exact doMqttPublishQ1_outcome hs hq (by simpa only [coroutine, hs] using h)
  | puback => exact onPublishQ1Recieved_outcome hs (by simpa only [coroutine, hs] using h)
  | subscribe d => exact doMqttSubscribe_outcome hs (by simpa only [coroutine, hs] using h)
  | keepalive => exact doMqttKeepaliveTask_outcome hs (by simpa only [coroutine, hs] using h)
  | shutdown => exact doShutdown_outcome hs (by simpa only [coroutine, hs] using h)

/-- **Every run of a coroutine has such an outcome.** -/
theorem execute_outcome (h : execute c t a = some r) : Outcome c t r := by
  unfold execute at h
  split at h
  · exact coroutine_outcome h
  · cases h

theorem TaskTimeout.run_outcome {timeout : TaskTimeout} (h : timeout.run c t = some r) :
    Outcome c t r := by
  cases timeout with
  | resume s => exact execute_outcome h
  | keepalive msg =>
    simp only [TaskTimeout.run, Option.map_eq_some_iff] at h
    obtain ⟨r', hr, rfl⟩ := h
    have ho := execute_outcome hr
    obtain ⟨c', t', e⟩ := r'
    cases e with
    | keep s => exact ⟨ho.context, ho.task, ho.scenario, ho.timed, ho.unarmed, by simp [Exit.ok]⟩
    | finalize s => exact ⟨ho.context, ho.task, ho.scenario, ho.timed, ho.unarmed, by simp [Exit.ok]⟩
    | finalizeThenReset s =>
      exact ⟨ho.context, ho.task, ho.scenario, ho.timed, ho.unarmed, fun _ _ => ho.subscribes s rfl⟩
  | connect => exact doMqttConnectTimeout_outcome h

end Commands

end IotDeviceSdk.Mqtt.Logic
